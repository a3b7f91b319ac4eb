import Mathlib
import SuiteBalance.Proofs.Command.Project
import SuiteBalance.Proofs.Settings.Expansion
import SuiteBalance.Proofs.Settings.Taking

/-!
# Proofs — Settings — what a configuration file sets

Whatever value a configuration file holds, its settings are loaded or refused as the fields tell
that come out of it when the variables are put in.  It is refused where it is nested too deeply or
stands inside itself, where the number of forks is infinite, and where a value is to be written that
has too many levels or a number of too many digits.

* `FieldsTold`: the fields that come out of a value.
* `ask_lookups`, `ofValue_congr`: only variables that a value has are looked up.
* `ask_load_of_valueAt`: settings are those in a value.
* **`LoadTold`**, **`load_told`**: how settings are loaded.
* `load_told_odd`, `not_loaded_infinite`: a file of odd settings, and one that is refused.
-/

namespace SuiteBalance.Settings

open Placeholder Value Workspace

variable {w : Workspace} {v : Value} {lookup lookup' : String → Option String}

/-! ### The fields of a file -/

section

variable [Stack]

/-- The fields that come out of a value, and the names of its variables that are not set.  A value
that is no mapping has none. -/
inductive FieldsTold (lookup : String → Option String) :
    Value → List (Value × Value) → List String → Prop
  | none {v : Value} (h : ∀ inner, v ≠ .mapping inner) : FieldsTold lookup v [] []
  | mapping {inner fields : List (Value × Value)} {names : List String}
      (within : Within lookup Stack.frames (.mapping inner))
      (resolves : Resolves lookup (.mapping inner) (.mapping fields) names) :
      FieldsTold lookup (.mapping inner) fields names

/-- How settings are loaded from a value: whether they are, the number of forks and the sources with
the notices about them, and that an infinite number of forks is refused. -/
structure LoadTold (lookup : String → Option String) (fallbacks : Fallbacks) (v : Value)
    (outcome : Except SettingsError Settings) (notices : List Notice) : Prop where
  loaded : (∃ s, outcome = .ok s) ↔
    ∃ fields names, FieldsTold lookup v fields names ∧ Loadable fallbacks fields
  settings : ∀ s, outcome = .ok s → ∃ fields names said, FieldsTold lookup v fields names ∧
    SettingsTold fallbacks fields s said ∧ notices = names.map .unsetVariable ++ said
  infinite : ∀ fields names, FieldsTold lookup v fields names →
    IsInfinite (forksValue fallbacks fields) → outcome = .error (.number (.unbounded .infinite))

theorem fieldsTold_unique {fields fields' : List (Value × Value)} {names names' : List String}
    (h : FieldsTold lookup v fields names) (h' : FieldsTold lookup v fields' names') :
    fields' = fields ∧ names' = names := by
  cases h with
  | none hv =>
    cases h' with
    | none => exact ⟨rfl, rfl⟩
    | mapping => exact absurd rfl (hv _)
  | mapping _ resolves =>
    cases h' with
    | none hv => exact absurd rfl (hv _)
    | mapping _ resolves' =>
      obtain ⟨heq, hnames⟩ := resolves_unique resolves resolves'
      exact ⟨Value.mapping.inj heq, hnames⟩

/-- A value that is refused whole has no fields. -/
theorem not_fieldsTold {inner fields : List (Value × Value)} {names : List String}
    (h : ¬Within lookup Stack.frames (.mapping inner)) :
    ¬FieldsTold lookup (.mapping inner) fields names := by
  intro htold
  cases htold with
  | none hv => exact hv inner rfl
  | mapping within => exact h within

/-- The settings in the fields of a file. -/
theorem loadTold_ofExpanded (root : Path) (fallbacks : Fallbacks)
    {fields : List (Value × Value)} {names : List String} (h : FieldsTold lookup v fields names) :
    LoadTold lookup fallbacks v
      (ofExpanded root fallbacks (names.map .unsetVariable) fields).1
      (ofExpanded root fallbacks (names.map .unsetVariable) fields).2 := by
  have hrun {outcome : Except SettingsError Settings} {said : List Notice}
      (hgives : Gives (take root fallbacks fields) outcome said) :
      ofExpanded root fallbacks (names.map .unsetVariable) fields =
        (outcome, names.map .unsetVariable ++ said) := by
    rw [ofExpanded, ofFields, hgives []]
    rfl
  by_cases hload : Loadable fallbacks fields
  · obtain ⟨s, said, hgives, htold⟩ := (takes_take root fallbacks fields).ok hload
    rw [hrun hgives]
    refine ⟨iff_of_true ⟨s, rfl⟩ ⟨fields, names, h, hload⟩, fun s' hs' => ?_,
      fun fields' names' h' hinfinite => ?_⟩
    · obtain rfl : s = s' := Except.ok.inj hs'
      exact ⟨fields, names, said, h, htold, rfl⟩
    · obtain ⟨rfl, -⟩ := fieldsTold_unique h h'
      exact absurd hinfinite hload.forks.1
  · obtain ⟨e, said, hgives⟩ := (takes_take root fallbacks fields).error hload
    rw [hrun hgives]
    refine ⟨iff_of_false (fun ⟨_, hs⟩ => nomatch hs) ?_, fun _ hs => (nomatch hs),
      fun fields' names' h' hinfinite => ?_⟩
    · rintro ⟨fields', names', h', hload'⟩
      obtain ⟨rfl, -⟩ := fieldsTold_unique h h'
      exact hload hload'
    · obtain ⟨rfl, -⟩ := fieldsTold_unique h h'
      have hends := (hgives []).symm.trans (gives_take_infinite root hinfinite [])
      exact (Prod.mk.inj hends).1

/-- **The settings in a value**, given the values of environment variables. -/
theorem loadTold_ofValue (root : Path) (fallbacks : Fallbacks) (lookup : String → Option String)
    (v : Value) : LoadTold lookup fallbacks v (ofValue root fallbacks lookup v).1
      (ofValue root fallbacks lookup v).2 := by
  by_cases hv : ∃ inner, v = .mapping inner
  · obtain ⟨inner, rfl⟩ := hv
    by_cases hwithin : Within lookup Stack.frames (.mapping inner)
    · obtain ⟨r, names, hresolves, hexpand, hnotices⟩ := expand?_of_within hwithin
      obtain ⟨fields, rfl, -⟩ := exists_of_resolves_mapping hresolves
      rw [ofValue, hexpand, hnotices]
      exact loadTold_ofExpanded root fallbacks (.mapping hwithin hresolves)
    · rw [ofValue, expand?_of_not_within hwithin]
      exact ⟨iff_of_false (fun ⟨_, hs⟩ => nomatch hs) fun ⟨_, _, h, _⟩ => not_fieldsTold hwithin h,
        fun _ hs => (nomatch hs), fun _ _ h => absurd h (not_fieldsTold hwithin)⟩
  · have hnone : ofValue root fallbacks lookup v = ofExpanded root fallbacks [] [] := by
      cases v with
      | mapping inner => exact absurd ⟨inner, rfl⟩ hv
      | _ => rfl
    rw [hnone]
    exact loadTold_ofExpanded root fallbacks (.none fun inner h => hv ⟨inner, h⟩)

/-! ### Variables that are looked up -/

/-- Only the variables of a value matter for it. -/
theorem ofValue_congr (root : Path) (fallbacks : Fallbacks)
    (h : ∀ name ∈ v.variableNames, lookup name = lookup' name) :
    ofValue root fallbacks lookup v = ofValue root fallbacks lookup' v := by
  unfold ofValue
  rw [expand?_congr h, unsetNotices_congr h]

end

theorem ask_mapM_lookup (names : List String) (w : Workspace) :
    ask (names.mapM fun name => return (name, ← Host.lookup? name) : StateM Workspace _) w =
      (names.map fun name => (name, w.environment.get? name), w) := by
  induction names with
  | nil => rfl
  | cons name rest ih =>
    have hone : ask (do return (name, ← Host.lookup? name) : StateM Workspace _) w =
        ((name, w.environment.get? name), w) := rfl
    rw [List.mapM_cons, ask_bind, hone, ask_bind, ih]
    rfl

theorem lookup_map_of_mem {value : String → Option String} {names : List String} {name : String}
    (h : name ∈ names) : (names.map fun n => (n, value n)).lookup name = some (value name) := by
  induction names with
  | nil => cases h
  | cons n rest ih =>
    rw [List.map_cons, List.lookup_cons]
    split
    · next heq => rw [beq_iff_eq.mp heq]
    · next hne =>
      exact ih ((List.mem_cons.mp h).resolve_left fun heq => by simp [heq] at hne)

/-- The values of variables are looked up in the environment. -/
theorem ask_lookups (names : List String) (w : Workspace) :
    ∃ found, ask (lookups names : StateM Workspace _) w = (found, w) ∧
      ∀ name ∈ names, found name = w.environment.get? name := by
  refine ⟨fun name => ((names.map fun n => (n, w.environment.get? n)).lookup name).join, ?_, ?_⟩
  · rw [lookups, ask_bind, ask_mapM_lookup]
    rfl
  · intro name hname
    beta_reduce
    rw [lookup_map_of_mem hname]
    rfl

/-! ### Loading -/

/-- The variables of an environment that stand in for settings. -/
def fallbacksIn (environment : Entries String String) : Fallbacks :=
  ⟨environment.get? "FORKPLAN_FORKS", environment.get? "FORKPLAN_TIMINGS"⟩

section

variable [Stack] [Yaml.Loader]

/-- Settings are those in the value that the configuration file holds. -/
theorem ask_load_of_valueAt {root : String} (hroot : (Path.ofText root).refusal? = none)
    (hvalue : (ask (valueAt (filePath w.directory root) : StateM Workspace _) w).1 = .ok v) :
    ask (load root) w = (ofValue ((Path.ofText root).resolve w.directory)
      (fallbacksIn w.environment) w.environment.get? v, w) := by
  have hask : ask (valueAt (filePath w.directory root) : StateM Workspace _) w = (.ok v, w) := by
    obtain ⟨a, h, -⟩ := alike_valueAt (w := w) (v := w) (p := filePath w.directory root) rfl
    obtain rfl : a = .ok v := by rw [h] at hvalue; exact hvalue
    exact h
  obtain ⟨found, hfound, hagree⟩ := ask_lookups v.variableNames w
  have hresolve : ask (Host.resolve (Path.ofText root) : StateM Workspace _) w =
      (.ok ((Path.ofText root).resolve w.directory), w) := by
    unfold Host.resolve
    rw [hroot]
    rfl
  have hfallbacks : ask (Settings.fallbacks : StateM Workspace _) w =
      (fallbacksIn w.environment, w) := rfl
  rw [load, ask_bind, hresolve]
  change ask (valueAt (filePath w.directory root) >>= _) w = _
  rw [ask_bind, hask]
  change ask (Settings.fallbacks >>= _) w = _
  rw [ask_bind, hfallbacks]
  change ask (lookups v.variableNames >>= _) w = _
  rw [ask_bind, hfound, ← ofValue_congr _ _ hagree]
  rfl

/-- **How settings are loaded**, whatever value the configuration file holds: a file that is not
there holds nothing. -/
theorem load_told {root : String} (hroot : (Path.ofText root).refusal? = none)
    (hvalue : (ask (valueAt (filePath w.directory root) : StateM Workspace _) w).1 = .ok v) :
    ∃ outcome notices, ask (load root) w = ((outcome, notices), w) ∧
      LoadTold w.environment.get? (fallbacksIn w.environment) v outcome notices := by
  rw [ask_load_of_valueAt hroot hvalue]
  exact ⟨_, _, rfl, loadTold_ofValue _ _ _ v⟩

end

/-- A workspace with a configuration file. -/
def settingsWorkspace (text : String) : Workspace :=
  { nodes := [([".forkplan.yml"], .file text.toUTF8.toList)] }

/-- A configuration file whose number of forks is a word, and of whose sources one is a number. -/
def oddFile : String := "forks: three\nsources:\n- task: unit\n  path: unit.txt\n- 3\n"

/-- The number of forks and the sources that are loaded from a configuration file of the given
text. -/
def loadedFrom (text : String) : Except SettingsError (ℤ × List SourceSettings) :=
  (ask (load ".") (settingsWorkspace text)).1.1.map fun s => (s.forks, s.sources)

/-- What is logged on the way. -/
def loggedFrom (text : String) : List Text :=
  (ask (load ".") (settingsWorkspace text)).1.2.map Notice.line

example : loadedFrom oddFile = .ok (1, [⟨"unit", "unit.txt"⟩]) := by decide +kernel

example : loggedFrom oddFile =
    ["WARNING Invalid forks value 'three', using 1",
      "WARNING Ignoring invalid source entry in config: 3"] := by decide +kernel

/-- How settings are loaded from this file. -/
theorem load_told_odd : (Path.ofText ".").refusal? = none ∧ ∃ v,
    (ask (valueAt (filePath [] ".")) (settingsWorkspace oddFile)).1 = .ok v ∧
    ∃ outcome notices, ask (load ".") (settingsWorkspace oddFile) =
        ((outcome, notices), settingsWorkspace oddFile) ∧
      LoadTold (Entries.get? []) (fallbacksIn []) v outcome notices := by
  have hroot : (Path.ofText ".").refusal? = none := by decide +kernel
  have hvalue : (ask (valueAt (filePath [] ".")) (settingsWorkspace oddFile)).1.toBool = true := by
    decide +kernel
  cases h : (ask (valueAt (filePath [] ".")) (settingsWorkspace oddFile)).1 with
  | error e =>
    rw [h] at hvalue
    cases hvalue
  | ok v => exact ⟨hroot, v, rfl, load_told (w := settingsWorkspace oddFile) hroot h⟩

/-- **An infinite number of forks is no setting**: the file is refused, where a number that is none
is replaced with a warning. -/
theorem not_loaded_infinite :
    loadedFrom "forks: .inf\n" = .error (.number (.unbounded .infinite)) ∧
    loggedFrom "forks: .inf\n" = [] ∧
    loadedFrom "forks: .nan\n" = .ok (1, []) ∧
    loggedFrom "forks: .nan\n" = ["WARNING Invalid forks value nan, using 1"] := by
  decide +kernel

end SuiteBalance.Settings
