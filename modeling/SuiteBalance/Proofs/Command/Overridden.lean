import Mathlib
import SuiteBalance.Proofs.Command.Together
import SuiteBalance.Proofs.Path
import SuiteBalance.Proofs.Settings.Aside

/-!
# Proofs — Commands — settings that are overridden

A request sets the number of forks, the file of durations and the sources in the place of what is
configured.  Whatever is configured, the request decides what is done, and so two calls for it can
be followed side by side.  The paths of a request are seen from the working directory, and those
that are configured from the root of the project.

* **`Request.overridden`**: the settings that a request leaves.
* `agree_override`, **`agree_loadSettings`**: loading settings in two workspaces.
* `overridden_of_perform`: the settings of a project.
* **`Based`**, **`based_overridden`**: where the paths of a project are seen from.
-/

namespace SuiteBalance

open Workspace

variable {w v w' : Workspace} {s s' : Settings}

/-! ### Settings that are the same but for what they come from -/

namespace Settings

theorem eq_of_sameButRaw (h : SameButRaw s s') : s' = { s with raw := s'.raw } := by
  have hsame : { s' with raw := s.raw } = s := h
  rw [← hsame]

theorem found_raw (s : Settings) (raw : List (Value × Value)) (sources : List SourceSettings) :
    (found { s with raw } sources : StateM Workspace _) = s.found sources := by
  induction sources with
  | nil => rfl
  | cons source sources ih =>
      rw [found, found, ih]
      rfl

theorem missingSources_raw (s : Settings) (raw : List (Value × Value)) (isFile : Path → Bool)
    (position : ℕ) (sources : List SourceSettings) :
    missingSources { s with raw } isFile position sources =
      s.missingSources isFile position sources := by
  induction sources generalizing position with
  | nil => rfl
  | cons source sources ih =>
      rw [missingSources, missingSources, ih]
      rfl

/-- What is wrong with settings does not depend on what they come from. -/
theorem check_of_sameButRaw (h : SameButRaw s s') :
    (s'.check : StateM Workspace _) = s.check := by
  rw [eq_of_sameButRaw h]
  have hproblems (isFile : Path → Bool) :
      problems { s with raw := s'.raw } isFile = s.problems isFile := by
    rw [problems, problems, missingSources_raw]
  unfold check
  simp only [found_raw, hproblems]

end Settings

namespace Command

open Call Settings

variable {r : Request} {t t' : Transcript} {directory : List Text}

/-! ### What a request sets -/

/-- How a path of a request is written as one from the root. -/
def absolute (directory : List Text) (path : Text) : Text :=
  ((Path.ofText path).resolve directory).text

/-- A source of a request, with its path from the root. -/
def absoluteSource (directory : List Text) (source : SourceSettings) : SourceSettings :=
  { source with path := absolute directory source.path }

/-- Settings with what a request sets instead, in a working directory. -/
def Request.overridden (r : Request) (directory : List Text) (s : Settings) : Settings :=
  { s with
    forks := r.forks?.getD s.forks
    timings.path := (r.timings?.map fun (path : String) => absolute directory path).getD
      s.timings.path
    sources := if r.sources = [] then s.sources
      else r.sources.map (absoluteSource directory) }

theorem agree_absolutePath (hdirectory : v.directory = w.directory) (path : Text) :
    Agree (fun a a' => a = absolute w.directory path ∧ a' = absolute w.directory path) w v
      (absolutePath path) (absolutePath path) := by
  obtain ⟨outcome, hw, hv⟩ := alike_resolve hdirectory (Path.ofText path)
  have hlift : Agree (fun a a' => a = outcome ∧ a' = outcome) w v
      (Call.lift (Host.resolve (Path.ofText path))) (Call.lift (Host.resolve (Path.ofText path))) :=
    .lift_of_ask hw hv ⟨rfl, rfl⟩
  refine hlift.bind ?_
  rintro _ outcome ⟨rfl, rfl⟩
  cases outcome with
  | error e => exact .throw _
  | ok resolved =>
      obtain rfl := eq_of_resolve hw
      exact .pure ⟨rfl, rfl⟩

/-- The file of durations for a request. -/
def Request.overrideTimings (r : Request) (s : Settings) :
    Call (StateM Workspace) TimingSettings :=
  match r.timings? with
  | some path => absolutePath path >>= fun path => pure { s.timings with path }
  | none => pure s.timings

/-- The sources for a request. -/
def Request.overrideSources (r : Request) (s : Settings) :
    Call (StateM Workspace) (List SourceSettings) :=
  if r.sources.isEmpty then pure s.sources
  else r.sources.mapM fun source =>
    absolutePath source.path >>= fun path => pure { source with path }

theorem override_eq (r : Request) (s : Settings) :
    r.override s = r.overrideTimings s >>= fun timings => r.overrideSources s >>= fun sources =>
      pure { s with forks := r.forks?.getD s.forks, timings, sources } := by
  unfold Request.override Request.overrideTimings Request.overrideSources
  cases r.timings? with
  | none => split_ifs <;> simp
  | some path => split_ifs <;> simp

theorem agree_overrideTimings (hdirectory : v.directory = w.directory) (r : Request)
    (s s' : Settings) :
    Agree (fun a a' => a = (r.overridden w.directory s).timings ∧
        a' = (r.overridden w.directory s').timings) w v
      (r.overrideTimings s) (r.overrideTimings s') := by
  unfold Request.overrideTimings Request.overridden
  cases r.timings? with
  | none => exact .pure ⟨rfl, rfl⟩
  | some path =>
      refine (agree_absolutePath hdirectory path).bind ?_
      rintro _ _ ⟨rfl, rfl⟩
      exact .pure ⟨rfl, rfl⟩

theorem agree_overrideSources (hdirectory : v.directory = w.directory) (r : Request)
    (s s' : Settings) :
    Agree (fun a a' => a = (r.overridden w.directory s).sources ∧
        a' = (r.overridden w.directory s').sources) w v
      (r.overrideSources s) (r.overrideSources s') := by
  unfold Request.overrideSources Request.overridden
  dsimp only
  by_cases hempty : r.sources = []
  · simp only [hempty, List.isEmpty_nil, if_true]
    exact .pure ⟨rfl, rfl⟩
  · simp only [List.isEmpty_iff, hempty, if_false]
    refine Agree.mapM (g := absoluteSource w.directory) (fun source => ?_) r.sources
    refine (agree_absolutePath hdirectory source.path).bind ?_
    rintro _ _ ⟨rfl, rfl⟩
    exact .pure ⟨rfl, rfl⟩

/-- **What a request sets**, whatever settings it is set in. -/
theorem agree_override (hdirectory : v.directory = w.directory) (r : Request) (s s' : Settings) :
    Agree (fun a a' => a = r.overridden w.directory s ∧ a' = r.overridden w.directory s') w v
      (r.override s) (r.override s') := by
  rw [override_eq, override_eq]
  refine (agree_overrideTimings hdirectory r s s').bind ?_
  rintro _ _ ⟨rfl, rfl⟩
  refine (agree_overrideSources hdirectory r s s').bind ?_
  rintro _ _ ⟨rfl, rfl⟩
  exact .pure ⟨rfl, rfl⟩

/-! ### Settings that are loaded -/

/-- Loading settings changes nothing. -/
theorem exists_ask_load [Value.Stack] [Yaml.Loader] {root : String}
    {outcome : Except SettingsError Settings}
    (h : (ask (load root) w).1.1 = outcome) :
    ∃ notices, ask (load root) w = ((outcome, notices), w) := by
  obtain ⟨⟨found, notices⟩, hw, -⟩ := alike_load (w := w) rfl rfl root rfl
  obtain rfl : found = outcome := by rw [hw] at h; exact h
  exact ⟨notices, hw⟩

/-- **Settings are loaded side by side**, where what a request sets makes them the same but for what
they come from, and the same stands at their sources. -/
theorem agree_loadSettings [Platform] (hdirectory : v.directory = w.directory)
    (hload : (ask (load r.root) w).1.1 = .ok s) (hload' : (ask (load r.root) v).1.1 = .ok s')
    (hsame : SameButRaw (r.overridden w.directory s) (r.overridden w.directory s'))
    (hsources : ∀ source ∈ (r.overridden w.directory s).sources,
      v.standing ((r.overridden w.directory s).resolve source.path) =
        w.standing ((r.overridden w.directory s).resolve source.path)) :
    Agree (fun a a' => a = r.overridden w.directory s ∧ a' = r.overridden w.directory s') w v
      (loadSettings r) (loadSettings r) := by
  obtain ⟨notices, hw⟩ := exists_ask_load hload
  obtain ⟨notices', hv⟩ := exists_ask_load hload'
  have hlift : Agree (fun a a' => a = (.ok s, notices) ∧ a' = (.ok s', notices')) w v
      (Call.lift (load r.root)) (Call.lift (load r.root)) := .lift_of_ask hw hv ⟨rfl, rfl⟩
  refine hlift.bind ?_
  rintro _ _ ⟨rfl, rfl⟩
  refine (Agree.note notices notices').bind_same fun _ => (agree_override hdirectory r s s').bind ?_
  rintro _ _ ⟨rfl, rfl⟩
  rw [check_of_sameButRaw hsame]
  refine (Agree.lift (alike_check hsources)).bind_same fun checked =>
    (Agree.ofExcept _ checked).bind_same fun problems => ?_
  cases problems with
  | nil => exact .pure ⟨rfl, rfl⟩
  | cons problem problems => exact .throw _

/-- **The settings of a project** are those that are loaded, with what a request sets instead. -/
theorem overridden_of_perform [Platform] (h : perform (loadSettings r) t w = ((.ok s, t'), w')) :
    ∃ loaded, (ask (load r.root) w).1.1 = .ok loaded ∧ s = r.overridden w.directory loaded := by
  cases hload : (ask (load r.root) w).1.1 with
  | error e =>
      obtain ⟨notices, hw⟩ := exists_ask_load hload
      rw [loadSettings, perform_bind_of_ok (perform_lift_of_ask hw)] at h
      exact absurd (congrArg (·.1.1) h) (not_ok_abort _ s)
  | ok loaded =>
      obtain ⟨-, hs, -⟩ := (agree_loadSettings rfl hload hload rfl fun _ _ => rfl).of_ok h
      exact ⟨loaded, rfl, hs⟩

/-! ### Where paths are seen from -/

theorem descend_of_walk {start parts place : List Text} (h : w.walk start parts = .ok place) :
    place = Path.descend start parts := by
  induction parts generalizing start with
  | nil => exact (Except.ok.inj h).symm
  | cons part rest ih =>
      rw [walk] at h
      split at h
      · cases h
      · cases h
      · cases h
      · split_ifs at h with hlong habove
        · rw [Path.descend, List.foldl_cons, if_pos habove]
          exact ih h
        · rw [Path.descend, List.foldl_cons, if_neg habove]
          exact ih h

/-- What a path leads to is what is meant by it in the working directory. -/
theorem resolve_of_place {path : Path} {place : List Text} (h : w.place path = .ok place) :
    path.resolve w.directory = ⟨.root, place⟩ := by
  unfold Workspace.place at h
  split at h
  · cases h
  · split_ifs at h with hlong habsolute
    · rw [descend_of_walk h, Path.resolve, if_pos habsolute]
    · rw [descend_of_walk h, Path.resolve, if_neg habsolute]

/-- Where the paths of a project are seen from: those of a request from the working directory, and
those that are configured from the root of the project.  The file of the output is looked for as it
is named, and the system takes that from the working directory. -/
structure Based (directory : List Text) (r : Request) (loaded s : Settings) : Prop where
  timings : (timingFile s).path = match r.timings? with
    | some path => (Path.ofText path).resolve directory
    | none => ((Path.ofText r.root).resolve directory).under (Path.ofText loaded.timings.path)
  sources : s.sources.map (fun source => (source.task, s.resolve source.path)) =
    if r.sources = [] then
      loaded.sources.map fun source => (source.task,
        ((Path.ofText r.root).resolve directory).under (Path.ofText source.path))
    else r.sources.map fun source => (source.task, (Path.ofText source.path).resolve directory)
  output : outputPath? r s = match r.output?.filter (· ≠ "") with
    | some path => some (Path.ofText path)
    | none =>
      if loaded.output.planFile = "" then none
      else some <|
        ((Path.ofText r.root).resolve directory).under (Path.ofText loaded.output.planFile)
  outputPlace : ∀ {v : Workspace} {path : String} {place}, v.directory = directory →
    r.output? = some path → v.place (Path.ofText path) = .ok place →
      (Path.ofText path).resolve directory = ⟨.root, place⟩

/-- A path that a request names is not seen from the root of the project. -/
theorem under_absolute (hdirectory : ∀ part ∈ directory, Path.IsPart part) (base : Path)
    (path : Text) : base.under (Path.ofText (absolute directory path)) =
      (Path.ofText path).resolve directory := by
  rw [absolute, Path.ofText_text_resolve hdirectory]
  rfl

theorem based_overridden (hdirectory : ∀ part ∈ directory, Path.IsPart part)
    (hroot : s.root = (Path.ofText r.root).resolve directory) :
    Based directory r s (r.overridden directory s) := by
  refine ⟨?_, ?_, ?_, ?_⟩
  · unfold timingFile resolve Request.overridden
    cases r.timings? with
    | none => rw [← hroot]; rfl
    | some path => exact under_absolute hdirectory _ _
  · unfold resolve Request.overridden
    dsimp only
    rw [← hroot]
    split_ifs
    · rfl
    · rw [List.map_map]
      refine List.map_congr_left fun source _ => ?_
      exact congrArg _ (under_absolute hdirectory s.root source.path)
  · unfold outputPath? outputPath?.configured
    rw [← hroot]
    cases r.output? with
    | none => rfl
    | some path =>
        by_cases hpath : path = ""
        · subst hpath
          rfl
        · simp [Option.filter, hpath]
  · rintro v path place rfl - hplace
    exact resolve_of_place hplace

/-- **Where the paths of a project are seen from.** -/
theorem based_of_perform [Platform] (hdirectory : ∀ part ∈ w.directory, Path.IsPart part)
    (h : perform (loadSettings r) t w = ((.ok s, t'), w')) :
    ∃ loaded, (ask (load r.root) w).1.1 = .ok loaded ∧ Based w.directory r loaded s := by
  obtain ⟨loaded, hload, rfl⟩ := overridden_of_perform h
  obtain ⟨x, -, htaken⟩ := of_load hload
  exact ⟨loaded, hload, based_overridden hdirectory (root_of_take htaken)⟩

end Command

end SuiteBalance
