import Mathlib
import SuiteBalance.Proofs.Settings.File
import SuiteBalance.Proofs.Value

/-!
# Proofs — Settings — keys that are left blank

A key that is left blank in a configuration file is there and has no value.  It is meant to count as
missing.  A blank section and a blank list of sources do, since they are looked at for their shape.
A text does not: it is taken as it is written, and no value is written as a word.

* **`Blanked`**, `Blanked.field?`: fields with blank ones put in, and what is found in them.
* `walk_blanked`, `fileBlanked_expandFields`: variables are put in as before.
* **`take_blanked`**: the settings that are taken are the same but for the texts that are blank.
* **`TextSetting.of_take`**: where the texts come from.
* **`BlanksTold`**, **`load_blanked`**: how settings are loaded with blank keys, and when they are
  the same.
* `load_blanked_output`, `not_missing_blank`: a blank section, and blank texts.
-/

namespace SuiteBalance.Settings

open Value Workspace

variable {fields fields' : List (Value × Value)} {lookup : String → Option String}
  {fallbacks : Fallbacks} {w w' : Workspace}

/-! ### Fields -/

theorem sameKey_text_iff {key : Value} {name : Text} :
    key.sameKey (.text name) = true ↔ key = .text name := by
  cases key <;> simp [sameKey, keyNumber?]

theorem field?_cons_of_eq (name : Text) (v : Value) (fields : List (Value × Value)) :
    Value.field? ((.text name, v) :: fields) name = some v := by
  have h : sameKey (.text name) (.text name) = true := sameKey_text_iff.mpr rfl
  simp [Value.field?, h]

theorem field?_cons_of_ne {key : Value} {name : Text} (h : key ≠ .text name) (v : Value)
    (fields : List (Value × Value)) :
    Value.field? ((key, v) :: fields) name = Value.field? fields name := by
  have h : ¬key.sameKey (.text name) = true := mt sameKey_text_iff.mp h
  simp [Value.field?, h]

/-- Fields with blank ones put in, of keys that were absent; what becomes of the other values is
told key by key. -/
inductive Blanked (Absent : Text → Prop) (Becomes : Value → Value → Value → Prop) :
    List (Value × Value) → List (Value × Value) → Prop
  | nil : Blanked Absent Becomes [] []
  | kept {key v v' : Value} {fields fields' : List (Value × Value)} (h : Becomes key v v')
      (rest : Blanked Absent Becomes fields fields') :
      Blanked Absent Becomes ((key, v) :: fields) ((key, v') :: fields')
  | blank {name : Text} {fields fields' : List (Value × Value)} (h : Absent name)
      (rest : Blanked Absent Becomes fields fields') :
      Blanked Absent Becomes fields ((.text name, .null) :: fields')

/-- What becomes of a field. -/
inductive FieldBlanked (absent : Prop) (Becomes : Value → Value → Prop) :
    Option Value → Option Value → Prop
  | missing : FieldBlanked absent Becomes none none
  | blank (h : absent) : FieldBlanked absent Becomes none (some .null)
  | kept {v v' : Value} (h : Becomes v v') : FieldBlanked absent Becomes (some v) (some v')

variable {Absent Absent' : Text → Prop} {Becomes Becomes' : Value → Value → Value → Prop}

theorem Blanked.mono (h : Blanked Absent Becomes fields fields')
    (habsent : ∀ name, Absent name → Absent' name)
    (hbecomes : ∀ key v v', Becomes key v v' → Becomes' key v v') :
    Blanked Absent' Becomes' fields fields' := by
  induction h with
  | nil => exact .nil
  | kept h _ ih => exact .kept (hbecomes _ _ _ h) ih
  | blank h _ ih => exact .blank (habsent _ h) ih

theorem Blanked.refl (h : ∀ key v, Becomes key v v) (fields : List (Value × Value)) :
    Blanked Absent Becomes fields fields := by
  induction fields with
  | nil => exact .nil
  | cons field rest ih => exact .kept (h _ _) ih

/-- **What is found among fields with blank ones.** -/
theorem Blanked.field? (h : Blanked Absent Becomes fields fields') {name : Text}
    (habsent : Absent name → Value.field? fields name = none) :
    FieldBlanked (Absent name) (Becomes (.text name)) (Value.field? fields name)
      (Value.field? fields' name) := by
  induction h with
  | nil => exact .missing
  | @kept key v v' fields fields' hv _ ih =>
    by_cases hkey : key = .text name
    · subst hkey
      rw [field?_cons_of_eq, field?_cons_of_eq]
      exact .kept hv
    · rw [field?_cons_of_ne hkey] at habsent ⊢
      rw [field?_cons_of_ne hkey]
      exact ih habsent
  | @blank blank fields fields' hblank _ ih =>
    by_cases hkey : Value.text blank = .text name
    · obtain rfl := Value.text.inj hkey
      rw [field?_cons_of_eq, habsent hblank]
      exact .blank hblank
    · rw [field?_cons_of_ne hkey]
      exact ih habsent

/-! ### The optional keys -/

/-- A text that is set in a section. -/
inductive TextSetting where
  | timingsPath
  | nameColumn
  | durationColumn
  | planFile
  | format
  deriving DecidableEq

namespace TextSetting

/-- The section of a text, and its key there. -/
def place : TextSetting → Text × Text
  | .timingsPath => ("timings", "path")
  | .nameColumn => ("timings", "name_column")
  | .durationColumn => ("timings", "duration_column")
  | .planFile => ("output", "plan_file")
  | .format => ("output", "format")

/-- A text in settings. -/
def of (s : Settings) : TextSetting → Text
  | .timingsPath => s.timings.path
  | .nameColumn => s.timings.nameColumn
  | .durationColumn => s.timings.durationColumn
  | .planFile => s.output.planFile
  | .format => s.output.format

/-- The text that stands in for one that is missing. -/
def standIn (fallbacks : Fallbacks) : TextSetting → Text
  | .timingsPath => (fallbacks.timings?.map Text.ofString).getD "test-timings.csv"
  | .nameColumn => "Test Name"
  | .durationColumn => "Duration"
  | .planFile => ""
  | .format => "terminal"

/-- What is set for a text. -/
def field? (o : TextSetting) (fields : List (Value × Value)) : Option Value :=
  Value.field? (sectionFields fields o.place.1) o.place.2

end TextSetting

/-- The optional keys of a file. -/
def optionalKeys : List Text := ["timings", "sources", "output"]

/-- A key of a section that is absent from it. -/
def AbsentIn (name : Text) (inner : List (Value × Value)) (key : Text) : Prop :=
  (∃ o : TextSetting, o.place = (name, key)) ∧ Value.field? inner key = none

/-- A value as it was, or a section with blank keys put in. -/
inductive SectionBlanked : Value → Value → Value → Prop
  | same (key v : Value) : SectionBlanked key v v
  | within {o : TextSetting} {inner inner' : List (Value × Value)}
      (h : Blanked (AbsentIn o.place.1 inner) (fun _ v v' => v' = v) inner inner') :
      SectionBlanked (.text o.place.1) (.mapping inner) (.mapping inner')

/-- The fields of a file with blank ones put in: optional keys that were absent, from the file or
from a section of it. -/
def FileBlanked (fields fields' : List (Value × Value)) : Prop :=
  Blanked (fun name => name ∈ optionalKeys ∧ Value.field? fields name = none) SectionBlanked
    fields fields'

/-! ### Variables -/

section

variable [Stack] {depth : ℕ}

/-- A blank key is passed by, where there are frames enough to look at it. -/
theorem walkFields_blanked (h : Blanked Absent Becomes fields fields')
    (hroom : Stack.leaf .null ≤ depth)
    (hwalk : ∀ key v v', Becomes key v v' → Value.walk lookup depth v' = Value.walk lookup depth v) :
    walkFields lookup depth fields' = walkFields lookup depth fields := by
  induction h with
  | nil => rfl
  | kept h _ ih => rw [walkFields, walkFields, hwalk _ _ _ h, ih]
  | blank _ _ ih =>
    have hnull : Value.walk lookup depth .null = {} := if_neg (not_lt.mpr hroom)
    rw [walkFields, ih, hnull]
    rfl

theorem walk_sectionBlanked {key v v' : Value} (h : SectionBlanked key v v')
    (hroom : Stack.mapping + Stack.leaf .null ≤ depth) :
    Value.walk lookup depth v' = Value.walk lookup depth v := by
  cases h with
  | same => rfl
  | within h =>
    rw [Value.walk, Value.walk, walkFields_blanked h (by omega) fun _ v v' hv => by rw [hv]]

theorem walk_blanked (h : FileBlanked fields fields')
    (hroom : Stack.mapping + Stack.mapping + Stack.leaf .null ≤ depth) :
    Value.walk lookup depth (.mapping fields') = Value.walk lookup depth (.mapping fields) := by
  rw [Value.walk, Value.walk, walkFields_blanked h (by omega) fun _ _ _ hv =>
    walk_sectionBlanked hv (by omega)]

end

theorem field?_expandFields (lookup : String → Option String) (fields : List (Value × Value))
    (name : Text) : Value.field? (expandFields lookup fields) name =
      (Value.field? fields name).map (expand lookup) := by
  induction fields with
  | nil => rfl
  | cons field rest ih =>
    obtain ⟨key, v⟩ := field
    rw [expandFields]
    by_cases hkey : key = .text name
    · subst hkey
      rw [field?_cons_of_eq, field?_cons_of_eq, Option.map_some]
    · rw [field?_cons_of_ne hkey, field?_cons_of_ne hkey, ih]

theorem sectionFields_expandFields (lookup : String → Option String)
    (fields : List (Value × Value)) (name : Text) :
    sectionFields (expandFields lookup fields) name =
      expandFields lookup (sectionFields fields name) := by
  unfold sectionFields
  rw [field?_expandFields]
  cases Value.field? fields name with
  | none => rfl
  | some v => cases v <;> rfl

theorem TextSetting.field?_expandFields (lookup : String → Option String)
    (fields : List (Value × Value)) (o : TextSetting) :
    o.field? (expandFields lookup fields) = (o.field? fields).map (expand lookup) := by
  rw [field?, sectionFields_expandFields, Settings.field?_expandFields, field?]

theorem Blanked.expandFields (h : Blanked Absent Becomes fields fields')
    (hbecomes : ∀ key v v', Becomes key v v' → Becomes' key (expand lookup v) (expand lookup v')) :
    Blanked Absent Becomes' (expandFields lookup fields) (expandFields lookup fields') := by
  induction h with
  | nil => exact .nil
  | kept h _ ih => exact .kept (hbecomes _ _ _ h) ih
  | blank h _ ih => exact .blank h ih

theorem sectionBlanked_expand {key v v' : Value} (h : SectionBlanked key v v') :
    SectionBlanked key (expand lookup v) (expand lookup v') := by
  cases h with
  | same => exact .same _ _
  | within h =>
    refine .within ((h.expandFields fun _ v v' hv => by rw [hv]).mono ?_ fun _ _ _ hv => hv)
    rintro name ⟨ho, hnone⟩
    exact ⟨ho, by rw [field?_expandFields, hnone]; rfl⟩

/-- Blank keys stay blank when variables are put in. -/
theorem fileBlanked_expandFields (h : FileBlanked fields fields') :
    FileBlanked (expandFields lookup fields) (expandFields lookup fields') := by
  refine (h.expandFields fun _ _ _ => sectionBlanked_expand).mono ?_ fun _ _ _ hv => hv
  rintro name ⟨hname, hnone⟩
  exact ⟨hname, by rw [field?_expandFields, hnone]; rfl⟩

/-! ### Fields with blank ones -/

/-- What becomes of a field of a file with blank keys put in. -/
theorem FileBlanked.field? (h : FileBlanked fields fields') (name : Text) :
    FieldBlanked (name ∈ optionalKeys ∧ Value.field? fields name = none)
      (SectionBlanked (.text name)) (Value.field? fields name) (Value.field? fields' name) :=
  Blanked.field? h And.right

theorem eq_of_sectionBlanked {name : Text} (hname : ∀ o : TextSetting, o.place.1 ≠ name)
    {v v' : Value} (h : SectionBlanked (.text name) v v') : v' = v := by
  cases h with
  | same => rfl
  | within => exact absurd rfl (hname _)

/-- The number of forks is set as before. -/
theorem field?_forks (h : FileBlanked fields fields') :
    Value.field? fields' "forks" = Value.field? fields "forks" := by
  have hfield := h.field? "forks"
  generalize Value.field? fields "forks" = found, Value.field? fields' "forks" = found'
    at hfield ⊢
  cases hfield with
  | missing => rfl
  | blank habsent => exact absurd habsent.1 (by decide)
  | kept hv => rw [eq_of_sectionBlanked (fun o => by cases o <;> decide) hv]

/-- A list of sources that is blank has no entries. -/
theorem sourceEntries_blanked (h : FileBlanked fields fields') :
    sourceEntries fields' = sourceEntries fields := by
  have hfield := h.field? "sources"
  unfold sourceEntries
  generalize Value.field? fields "sources" = found, Value.field? fields' "sources" = found'
    at hfield ⊢
  cases hfield with
  | missing => rfl
  | blank => rfl
  | kept hv => rw [eq_of_sectionBlanked (fun o => by cases o <;> decide) hv]

/-- A section that is blank has no fields; any other has blank keys put in. -/
theorem sectionFields_blanked (h : FileBlanked fields fields') (o : TextSetting) :
    Blanked (AbsentIn o.place.1 (sectionFields fields o.place.1)) (fun _ v v' => v' = v)
      (sectionFields fields o.place.1) (sectionFields fields' o.place.1) := by
  have hfield := h.field? o.place.1
  unfold sectionFields
  generalize o.place.1 = name at hfield ⊢
  generalize Value.field? fields name = found, Value.field? fields' name = found' at hfield ⊢
  cases hfield with
  | missing => exact .nil
  | blank => exact .nil
  | kept hv =>
    cases hv with
    | same => exact Blanked.refl (fun _ _ => by rfl) _
    | within h => exact h

/-- What becomes of what is set for a text. -/
theorem TextSetting.field?_blanked (h : FileBlanked fields fields') (o : TextSetting) :
    FieldBlanked (AbsentIn o.place.1 (sectionFields fields o.place.1) o.place.2)
      (fun v v' => v' = v) (o.field? fields) (o.field? fields') :=
  (sectionFields_blanked h o).field? And.right

/-- Whether a path alone is set for the timings stays as it is. -/
theorem field?_timings_eq_text_iff (h : FileBlanked fields fields') (path : Text) :
    Value.field? fields' "timings" = some (.text path) ↔
      Value.field? fields "timings" = some (.text path) := by
  have hfield := h.field? "timings"
  generalize Value.field? fields "timings" = found, Value.field? fields' "timings" = found'
    at hfield ⊢
  cases hfield with
  | missing => exact Iff.rfl
  | blank => simp
  | kept hv =>
    generalize Value.text "timings" = key at hv
    cases hv with
    | same => exact Iff.rfl
    | within => simp

/-! ### Settings with blank texts -/

/-- Whether a field is blank: it is there and has no value. -/
def isBlank : Option Value → Bool
  | some .null => true
  | _ => false

/-- A text, or the word for no value where its key is blank. -/
def worded (blank : Bool) (t : Text) : Text := if blank then "None" else t

/-- Only blank keys count for what becomes of blank texts. -/
theorem isBlank_expand (lookup : String → Option String) (found : Option Value) :
    isBlank (found.map (expand lookup)) = isBlank found := by
  cases found with
  | none => rfl
  | some v => cases v <;> rfl

/-- The file of durations with the word for no value in the place of texts that are blank. -/
def wordedTimings (fields : List (Value × Value)) (t : TimingSettings) : TimingSettings where
  path := worded (isBlank (TextSetting.timingsPath.field? fields)) t.path
  nameColumn := worded (isBlank (TextSetting.nameColumn.field? fields)) t.nameColumn
  durationColumn := worded (isBlank (TextSetting.durationColumn.field? fields)) t.durationColumn

/-- The output with the word for no value in the place of texts that are blank. -/
def wordedOutput (fields : List (Value × Value)) (o : OutputSettings) : OutputSettings where
  planFile := worded (isBlank (TextSetting.planFile.field? fields)) o.planFile
  format := worded (isBlank (TextSetting.format.field? fields)) o.format

/-- Settings as they come of other fields, in which texts are blank. -/
def withBlanks (fields : List (Value × Value)) (s : Settings) : Settings where
  root := s.root
  forks := s.forks
  timings := wordedTimings fields s.timings
  sources := s.sources
  output := wordedOutput fields s.output
  raw := fields

/-- A blank key was put in for a text. -/
def TextSetting.Added (fields fields' : List (Value × Value)) (o : TextSetting) : Prop :=
  isBlank (o.field? fields') = true ∧ isBlank (o.field? fields) = false

/-- Settings are the same but for the fields that they come from. -/
def SameButRaw (s s' : Settings) : Prop := { s' with raw := s.raw } = s

/-- How settings are loaded where blank keys were put in, against how they are loaded without.  They
are refused for the same reason; the texts that are blank are the word for no value, where the
stand-ins were; and all else but the fields themselves is as it was. -/
structure BlanksTold (fallbacks : Fallbacks) (fields fields' : List (Value × Value))
    (outcome outcome' : Except SettingsError Settings) : Prop where
  refused : ∀ e, outcome' = .error e ↔ outcome = .error e
  settings : ∀ s, outcome = .ok s → ∃ s', outcome' = .ok s' ∧ s'.root = s.root ∧
    s'.forks = s.forks ∧ s'.sources = s.sources ∧
    ∀ o : TextSetting, o.of s' = worded (isBlank (o.field? fields')) (o.of s)
  missing : ∀ s, outcome = .ok s → ∀ o : TextSetting, o.Added fields fields' →
    o.of s = o.standIn fallbacks
  same : ∀ s s', outcome = .ok s → outcome' = .ok s' → (SameButRaw s s' ↔
    ∀ o : TextSetting, o.Added fields fields' →
      o = .timingsPath ∧ fallbacks.timings? = some "None")

theorem of_withBlanks (fields : List (Value × Value)) (s : Settings) (o : TextSetting) :
    o.of (s.withBlanks fields) = worded (isBlank (o.field? fields)) (o.of s) := by
  cases o <;> rfl

/-- Settings are told by their texts and by what is not text. -/
theorem sameButRaw_iff {s s' : Settings} (hroot : s'.root = s.root) (hforks : s'.forks = s.forks)
    (hsources : s'.sources = s.sources) :
    SameButRaw s s' ↔ ∀ o : TextSetting, o.of s' = o.of s := by
  refine ⟨fun h o => ?_, fun h => ?_⟩
  · have hsame : { s' with raw := s.raw } = s := h
    rw [← hsame]
    cases o <;> rfl
  · obtain ⟨root, forks, ⟨path, name, duration⟩, sources, ⟨planFile, format⟩, raw⟩ := s
    obtain ⟨root', forks', ⟨path', name', duration'⟩, sources', ⟨planFile', format'⟩, raw'⟩ := s'
    obtain rfl : path' = path := h .timingsPath
    obtain rfl : name' = name := h .nameColumn
    obtain rfl : duration' = duration := h .durationColumn
    obtain rfl : planFile' = planFile := h .planFile
    obtain rfl : format' = format := h .format
    obtain rfl : root' = root := hroot
    obtain rfl : forks' = forks := hforks
    obtain rfl : sources' = sources := hsources
    rfl

/-- Only one of the stand-ins can be the word for no value. -/
theorem standIn_eq_none_iff (o : TextSetting) :
    o.standIn fallbacks = "None" ↔ o = .timingsPath ∧ fallbacks.timings? = some "None" := by
  cases o with
  | timingsPath =>
    rw [TextSetting.standIn]
    cases fallbacks.timings? with
    | none => simp
    | some text => simp
  | _ => simp [TextSetting.standIn]

theorem not_text_of_isBlank (h : isBlank (TextSetting.timingsPath.field? fields) = true)
    (path : Text) : Value.field? fields "timings" ≠ some (.text path) := by
  intro hpath
  have hnone : sectionFields fields "timings" = [] := by rw [sectionFields, hpath]
  rw [TextSetting.field?, TextSetting.place, hnone] at h
  cases h

/-! ### What is taken -/

section

variable [Stack]

/-- Takes a text out of its section. -/
def TextSetting.taken (fallbacks : Fallbacks) (fields : List (Value × Value)) (o : TextSetting) :
    Taking Text :=
  textOr (sectionFields fields o.place.1) o.place.2 (o.standIn fallbacks)

theorem outputOf_eq (fallbacks : Fallbacks) (fields : List (Value × Value)) :
    outputOf fields = do
      return ⟨← TextSetting.planFile.taken fallbacks fields,
        ← TextSetting.format.taken fallbacks fields⟩ := rfl

/-- A path alone is all that is set for the timings. -/
theorem timingsOf_of_text {path : Text}
    (h : Value.field? fields "timings" = some (.text path)) :
    timingsOf fallbacks fields = pure { path } := by
  unfold timingsOf
  rw [h]
  rfl

theorem timingsOf_of_not_text (h : ∀ path, Value.field? fields "timings" ≠ some (.text path)) :
    timingsOf fallbacks fields = do
      return ⟨← TextSetting.timingsPath.taken fallbacks fields,
        ← TextSetting.nameColumn.taken fallbacks fields,
        ← TextSetting.durationColumn.taken fallbacks fields⟩ := by
  unfold timingsOf
  dsimp only
  split
  · next path hpath => exact absurd hpath (h path)
  · rfl

/-- **A text is the same where blank keys were put in**, unless its key is blank. -/
theorem textOr_blanked {inner inner' : List (Value × Value)} {key : Text} {absent : Prop}
    (h : FieldBlanked absent (fun v v' => v' = v) (Value.field? inner key)
      (Value.field? inner' key)) (standIn : Text) :
    textOr inner' key standIn =
      worded (isBlank (Value.field? inner' key)) <$> textOr inner key standIn := by
  unfold textOr
  generalize Value.field? inner key = found, Value.field? inner' key = found' at h ⊢
  cases h with
  | missing => rfl
  | blank => rfl
  | @kept v v' hv =>
    subst hv
    cases v' with
    | null => rfl
    | _ => exact (id_map _).symm

theorem TextSetting.taken_blanked (h : FileBlanked fields fields') (o : TextSetting) :
    o.taken fallbacks fields' =
      worded (isBlank (o.field? fields')) <$> o.taken fallbacks fields :=
  textOr_blanked (o.field?_blanked h) _

theorem outputOf_blanked (h : FileBlanked fields fields') :
    outputOf fields' = wordedOutput fields' <$> outputOf fields := by
  rw [outputOf_eq {}, outputOf_eq {}, TextSetting.taken_blanked h, TextSetting.taken_blanked h]
  simp only [map_eq_pure_bind, bind_assoc, pure_bind]
  rfl

theorem timingsOf_blanked (h : FileBlanked fields fields') :
    timingsOf fallbacks fields' = wordedTimings fields' <$> timingsOf fallbacks fields := by
  by_cases hpath : ∃ path, Value.field? fields "timings" = some (.text path)
  · obtain ⟨path, hpath⟩ := hpath
    have hpath' := (field?_timings_eq_text_iff h path).mpr hpath
    have hnone : sectionFields fields' "timings" = [] := by rw [sectionFields, hpath']
    rw [timingsOf_of_text hpath, timingsOf_of_text hpath', map_pure]
    simp only [wordedTimings, TextSetting.field?, TextSetting.place, hnone]
    rfl
  · have hpath (path : Text) : Value.field? fields "timings" ≠ some (.text path) :=
      fun heq => hpath ⟨path, heq⟩
    rw [timingsOf_of_not_text hpath, timingsOf_of_not_text fun path =>
      mt (field?_timings_eq_text_iff h path).mp (hpath path), TextSetting.taken_blanked h,
      TextSetting.taken_blanked h, TextSetting.taken_blanked h]
    simp only [map_eq_pure_bind, bind_assoc, pure_bind]
    rfl

theorem forksOf_blanked (h : FileBlanked fields fields') :
    forksOf fallbacks fields' = forksOf fallbacks fields := by
  rw [forksOf_eq, forksOf_eq, forksValue, forksValue, field?_forks h]

/-- **The settings that are taken are the same where blank keys were put in**, but for the texts
that are blank. -/
theorem take_blanked (root : Path) (h : FileBlanked fields fields') :
    take root fallbacks fields' = withBlanks fields' <$> take root fallbacks fields := by
  rw [take, take, forksOf_blanked h, timingsOf_blanked h, sourcesOf, sourcesOf,
    sourceEntries_blanked h, outputOf_blanked h]
  simp only [map_eq_pure_bind, bind_assoc, pure_bind]
  rfl

theorem ofExpanded_blanked (root : Path) (earlier : List Notice) (h : FileBlanked fields fields') :
    ofExpanded root fallbacks earlier fields' =
      ((ofExpanded root fallbacks earlier fields).1.map (withBlanks fields'),
        (ofExpanded root fallbacks earlier fields).2) := by
  unfold ofExpanded ofFields
  rw [take_blanked root h, run_map]
  generalize (take root fallbacks fields).run [] = left
  obtain ⟨outcome, said⟩ := left
  cases outcome <;> rfl

/-! ### Where the texts come from -/

theorem Yields.eq_of_written {α : Type} {form : Value → α} {v : Value} {a : α}
    (h : Yields (written form v) a) : a = form v := by
  unfold written at h
  split_ifs at h
  · obtain ⟨_, h⟩ := h
    cases h
  · exact h.eq_of_pure
  · obtain ⟨_, h⟩ := h
    cases h

theorem TextSetting.eq_of_taken {o : TextSetting} {t : Text}
    (h : Yields (o.taken fallbacks fields) t) :
    t = ((o.field? fields).map Value.plain).getD (o.standIn fallbacks) := by
  unfold taken textOr at h
  rw [field?]
  cases hfield : Value.field? (sectionFields fields o.place.1) o.place.2 with
  | none =>
    rw [hfield] at h
    exact h.eq_of_pure
  | some v =>
    rw [hfield] at h
    exact h.eq_of_written

/-- **The texts of settings** are what is set for them, or what stands in.  The path of the timings
may be set alone instead. -/
theorem TextSetting.of_take {root : Path} {s : Settings}
    (h : Yields (take root fallbacks fields) s) {o : TextSetting}
    (halone : o = .timingsPath → ∀ path, Value.field? fields "timings" ≠ some (.text path)) :
    o.of s = ((o.field? fields).map Value.plain).getD (o.standIn fallbacks) := by
  obtain ⟨forks, -, h⟩ := h.of_bind
  obtain ⟨timings, htimings, h⟩ := h.of_bind
  obtain ⟨sources, -, h⟩ := h.of_bind
  obtain ⟨output, houtput, h⟩ := h.of_bind
  obtain rfl := h.eq_of_pure
  rw [outputOf_eq fallbacks] at houtput
  obtain ⟨planFile, hplanFile, h⟩ := houtput.of_bind
  obtain ⟨format, hformat, h⟩ := h.of_bind
  obtain rfl := h.eq_of_pure
  by_cases hpath : ∃ path, Value.field? fields "timings" = some (.text path)
  · obtain ⟨path, hpath⟩ := hpath
    have hnone : sectionFields fields "timings" = [] := by rw [sectionFields, hpath]
    rw [timingsOf_of_text hpath] at htimings
    obtain rfl := htimings.eq_of_pure
    cases o with
    | timingsPath => exact absurd hpath (halone rfl path)
    | nameColumn | durationColumn => rw [field?, place, hnone]; rfl
    | planFile => exact eq_of_taken hplanFile
    | format => exact eq_of_taken hformat
  · rw [timingsOf_of_not_text fun path heq => hpath ⟨path, heq⟩] at htimings
    obtain ⟨path, hpath, h⟩ := htimings.of_bind
    obtain ⟨name, hname, h⟩ := h.of_bind
    obtain ⟨duration, hduration, h⟩ := h.of_bind
    obtain rfl := h.eq_of_pure
    cases o with
    | timingsPath => exact eq_of_taken hpath
    | nameColumn => exact eq_of_taken hname
    | durationColumn => exact eq_of_taken hduration
    | planFile => exact eq_of_taken hplanFile
    | format => exact eq_of_taken hformat

/-! ### Loading -/

/-- A text whose key is blank is the word for no value. -/
theorem TextSetting.of_take_of_isBlank {root : Path} {s : Settings} {o : TextSetting}
    (h : Yields (take root fallbacks fields) s) (hblank : isBlank (o.field? fields) = true) :
    o.of s = "None" := by
  rw [of_take h (by rintro rfl; exact not_text_of_isBlank hblank)]
  unfold isBlank at hblank
  split at hblank
  · next hfield =>
    rw [hfield]
    rfl
  · cases hblank

/-- A text for which a blank key was put in was missing before. -/
theorem TextSetting.of_take_of_added {root : Path} {s : Settings} {o : TextSetting}
    (h : FileBlanked fields fields') (hs : Yields (take root fallbacks fields) s)
    (hadded : o.Added fields fields') : o.of s = o.standIn fallbacks := by
  obtain ⟨hblank, hnot⟩ := hadded
  have halone : o = .timingsPath → ∀ path, Value.field? fields "timings" ≠ some (.text path) := by
    rintro rfl path hpath
    exact not_text_of_isBlank hblank path ((field?_timings_eq_text_iff h path).mpr hpath)
  have hfield := o.field?_blanked h
  rw [of_take hs halone]
  generalize o.field? fields = found, o.field? fields' = found' at hfield hblank hnot ⊢
  cases hfield with
  | missing => rfl
  | blank => rfl
  | kept hv =>
    rw [hv, hnot] at hblank
    cases hblank

/-- Settings that are loaded have been taken. -/
theorem yields_of_ofExpanded {root : Path} {earlier : List Notice} {s : Settings}
    (h : (ofExpanded root fallbacks earlier fields).1 = .ok s) :
    Yields (take root fallbacks fields) s := by
  refine ⟨[], ?_⟩
  unfold ofExpanded ofFields at h
  generalize (take root fallbacks fields).run [] = left at h ⊢
  obtain ⟨outcome, said⟩ := left
  cases outcome with
  | error e => cases h
  | ok s' =>
    cases h
    rfl

/-- A text stays what it was, unless a blank key was put in for it: then it is the word for no
value, and it was what stands in. -/
theorem of_withBlanks_eq_iff {root : Path} {s : Settings} (h : FileBlanked fields fields')
    (hs : Yields (take root fallbacks fields) s) (o : TextSetting) :
    o.of (s.withBlanks fields') = o.of s ↔
      (o.Added fields fields' → o = .timingsPath ∧ fallbacks.timings? = some "None") := by
  rw [of_withBlanks]
  cases hblank : isBlank (o.field? fields') with
  | false => exact iff_of_true rfl fun hadded => absurd hadded.1 (by simp [hblank])
  | true =>
    cases hnot : isBlank (o.field? fields) with
    | true =>
      rw [o.of_take_of_isBlank hs hnot]
      exact iff_of_true rfl fun hadded => absurd hadded.2 (by simp [hnot])
    | false =>
      have hadded : o.Added fields fields' := ⟨hblank, hnot⟩
      rw [o.of_take_of_added h hs hadded, ← standIn_eq_none_iff, forall_prop_of_true hadded]
      exact eq_comm

theorem blanksTold_ofExpanded (root : Path) (earlier : List Notice)
    (h : FileBlanked fields fields') :
    BlanksTold fallbacks fields fields' (ofExpanded root fallbacks earlier fields).1
      (ofExpanded root fallbacks earlier fields').1 := by
  rw [ofExpanded_blanked root earlier h]
  dsimp only
  have hyields (s : Settings) (hs : (ofExpanded root fallbacks earlier fields).1 = .ok s) :
      Yields (take root fallbacks fields) s := yields_of_ofExpanded hs
  generalize (ofExpanded root fallbacks earlier fields).1 = outcome at hyields
  cases outcome with
  | error e => exact ⟨fun _ => Iff.rfl, fun _ hs => (nomatch hs), fun _ hs => (nomatch hs),
      fun _ _ hs => (nomatch hs)⟩
  | ok s =>
    have hs := hyields s rfl
    refine ⟨fun _ => iff_of_false nofun nofun, ?_, ?_, ?_⟩
    · intro s' hs'
      obtain rfl := Except.ok.inj hs'
      exact ⟨s.withBlanks fields', rfl, rfl, rfl, rfl, of_withBlanks fields' s⟩
    · intro s' hs' o
      obtain rfl := Except.ok.inj hs'
      exact o.of_take_of_added h hs
    · intro s₁ s₂ hs₁ hs₂
      obtain rfl := Except.ok.inj hs₁
      obtain rfl := Except.ok.inj hs₂
      have htexts : SameButRaw s (s.withBlanks fields') ↔
          ∀ o : TextSetting, o.of (s.withBlanks fields') = o.of s := sameButRaw_iff rfl rfl rfl
      exact htexts.trans (forall_congr' (of_withBlanks_eq_iff h hs))

omit [Stack] in
/-- What is told of fields into which variables were put is told of the fields. -/
theorem BlanksTold.of_expandFields {outcome outcome' : Except SettingsError Settings}
    (h : BlanksTold fallbacks (expandFields lookup fields) (expandFields lookup fields') outcome
      outcome') : BlanksTold fallbacks fields fields' outcome outcome' := by
  have hblank (fields : List (Value × Value)) (o : TextSetting) :
      isBlank (o.field? (expandFields lookup fields)) = isBlank (o.field? fields) := by
    rw [TextSetting.field?_expandFields, isBlank_expand]
  obtain ⟨hrefused, hsettings, hmissing, hsame⟩ := h
  simp only [TextSetting.Added, hblank] at hsettings hmissing hsame
  exact ⟨hrefused, hsettings, hmissing, hsame⟩

/-- Settings are those in the fields into which variables were put, if that can be done. -/
theorem ofValue_mapping (root : Path) (fallbacks : Fallbacks) (lookup : String → Option String)
    (fields : List (Value × Value)) :
    ofValue root fallbacks lookup (.mapping fields) =
      if (wholeWalk (.mapping fields) lookup).through then
        ofExpanded root fallbacks (unsetNotices (.mapping fields) lookup)
          (expandFields lookup fields)
      else (.error .endless, unsetNotices (.mapping fields) lookup) := by
  unfold ofValue expand?
  dsimp only
  split_ifs <;> rfl

/-- **The settings in a value with blank keys put in.** -/
theorem blanksTold_ofValue (root : Path) (fallbacks : Fallbacks) (lookup : String → Option String)
    (h : FileBlanked fields fields')
    (hroom : Stack.mapping + Stack.mapping + Stack.leaf .null ≤ Stack.frames) :
    (ofValue root fallbacks lookup (.mapping fields')).2 =
        (ofValue root fallbacks lookup (.mapping fields)).2 ∧
      BlanksTold fallbacks fields fields' (ofValue root fallbacks lookup (.mapping fields)).1
        (ofValue root fallbacks lookup (.mapping fields')).1 := by
  have hwalk : wholeWalk (.mapping fields') lookup = wholeWalk (.mapping fields) lookup :=
    walk_blanked h hroom
  have hnotices :
      unsetNotices (.mapping fields') lookup = unsetNotices (.mapping fields) lookup := by
    rw [unsetNotices, unsetNotices, hwalk]
  rw [ofValue_mapping, ofValue_mapping, hwalk, hnotices]
  split_ifs
  · have hexpanded : FileBlanked (expandFields lookup fields) (expandFields lookup fields') :=
      fileBlanked_expandFields h
    refine ⟨?_, (blanksTold_ofExpanded root _ hexpanded).of_expandFields⟩
    rw [ofExpanded_blanked root _ hexpanded]
  · exact ⟨rfl, fun _ => Iff.rfl, fun _ hs => (by cases hs), fun _ hs => (by cases hs),
      fun _ _ hs => (by cases hs)⟩

/-- **How settings are loaded where blank keys were put in.**  Of two configuration files, the one
holds the other's fields with optional keys added that have no value, and there are frames enough to
look at such a key in a section.  Then the same is logged, and the settings are the same as long as
none of the texts in the sections is among them, unless it is the path of the timings and the
environment gives the word for no value. -/
theorem load_blanked [Yaml.Loader] {root : String}
    (hroom : Stack.mapping + Stack.mapping + Stack.leaf .null ≤ Stack.frames)
    (hroot : (Path.ofText root).refusal? = none)
    (hdirectory : w'.directory = w.directory) (henvironment : w'.environment = w.environment)
    (hvalue : (ask (valueAt (filePath w.directory root) : StateM Workspace _) w).1 =
      .ok (.mapping fields))
    (hvalue' : (ask (valueAt (filePath w'.directory root) : StateM Workspace _) w').1 =
      .ok (.mapping fields'))
    (hblanked : FileBlanked fields fields') :
    ∃ outcome outcome' notices, ask (load root) w = ((outcome, notices), w) ∧
      ask (load root) w' = ((outcome', notices), w') ∧
      BlanksTold (fallbacksIn w.environment) fields fields' outcome outcome' := by
  obtain ⟨hnotices, htold⟩ := blanksTold_ofValue ((Path.ofText root).resolve w.directory)
    (fallbacksIn w.environment) w.environment.get? hblanked hroom
  have hload := ask_load_of_valueAt hroot hvalue
  have hload' := ask_load_of_valueAt hroot hvalue'
  rw [hdirectory, henvironment] at hload'
  generalize ofValue ((Path.ofText root).resolve w.directory) (fallbacksIn w.environment)
    w.environment.get? (.mapping fields) = loaded at hnotices htold hload
  generalize ofValue ((Path.ofText root).resolve w.directory) (fallbacksIn w.environment)
    w.environment.get? (.mapping fields') = loaded' at hnotices htold hload'
  exact ⟨loaded.1, loaded'.1, loaded.2, hload, by rw [hload', ← hnotices], htold⟩

end

/-- A configuration file whose section of the output is empty. -/
def emptyOutput : String := "output: \x7b\x7d\n"

/-- Its fields. -/
def emptyFields : List (Value × Value) := [(.text "output", .mapping [])]

/-- The same file with blank keys: the timings, and the plan's file. -/
def blankOutput : String := "timings:\noutput:\n  plan_file:\n"

/-- The fields with the blank ones. -/
def blankFields : List (Value × Value) :=
  [(.text "timings", .null), (.text "output", .mapping [(.text "plan_file", .null)])]

theorem fileBlanked_output : FileBlanked emptyFields blankFields := by
  have hplanFile : AbsentIn "output" [] "plan_file" := ⟨⟨.planFile, rfl⟩, rfl⟩
  have hsection : SectionBlanked (.text "output") (.mapping [])
      (.mapping [(.text "plan_file", .null)]) :=
    .within (o := .planFile) (.blank hplanFile .nil)
  exact .blank ⟨by decide, rfl⟩ (.kept hsection .nil)

theorem valueAt_emptyOutput :
    (ask (valueAt (filePath [] ".")) (settingsWorkspace emptyOutput)).1 =
      .ok (.mapping emptyFields) :=
  eq_ok_of_isSame (by decide +kernel)

theorem valueAt_blankOutput :
    (ask (valueAt (filePath [] ".")) (settingsWorkspace blankOutput)).1 =
      .ok (.mapping blankFields) :=
  eq_ok_of_isSame (by decide +kernel)

/-- How settings are loaded from the two files. -/
theorem load_blanked_output : FileBlanked emptyFields blankFields ∧ ∃ outcome outcome' notices,
    ask (load ".") (settingsWorkspace emptyOutput) =
      ((outcome, notices), settingsWorkspace emptyOutput) ∧
    ask (load ".") (settingsWorkspace blankOutput) =
      ((outcome', notices), settingsWorkspace blankOutput) ∧
    BlanksTold (fallbacksIn []) emptyFields blankFields outcome outcome' :=
  ⟨fileBlanked_output, load_blanked (w := settingsWorkspace emptyOutput) (by decide)
    (by decide +kernel) rfl rfl valueAt_emptyOutput valueAt_blankOutput fileBlanked_output⟩

/-- The texts that are loaded from a configuration file. -/
def textsFrom (text : String) : Except SettingsError (TimingSettings × OutputSettings) :=
  (ask (load ".") (settingsWorkspace text)).1.1.map fun s => (s.timings, s.output)

/-- **A blank text is not missing**: the plan is to be written to a file of the word for no value,
where without the blank keys it is not to be written. -/
theorem not_missing_blank :
    FileBlanked emptyFields blankFields ∧
    (ask (valueAt (filePath [] ".")) (settingsWorkspace emptyOutput)).1 =
      .ok (.mapping emptyFields) ∧
    (ask (valueAt (filePath [] ".")) (settingsWorkspace blankOutput)).1 =
      .ok (.mapping blankFields) ∧
    textsFrom emptyOutput = .ok ({}, {}) ∧
    textsFrom blankOutput = .ok ({}, { planFile := "None" }) :=
  ⟨fileBlanked_output, valueAt_emptyOutput, valueAt_blankOutput, by decide +kernel,
    by decide +kernel⟩

end SuiteBalance.Settings
