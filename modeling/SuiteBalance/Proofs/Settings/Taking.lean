import Mathlib
import SuiteBalance.Proofs.Number.Overflow
import SuiteBalance.Settings.Basic

/-!
# Proofs — Settings — settings taken out of values

Settings are taken out of values one after the other, with notices given on the way.  Each part says
when it succeeds, and what it gives and says then; a whole succeeds where its parts do.

* `Gives`, **`Takes`**: how a computation ends, and when it succeeds.
* `Takes.bind`: one computation after the other.
* `Yields`, `Yields.of_bind`: what a computation gives, whatever it says.
* `takes_forksOf`, `takes_timingsOf`, `takes_sourcesOf`, `takes_outputOf`: the parts.
* `gives_take_infinite`: an infinite number of forks is refused.
* **`Loadable`**, **`SettingsTold`**, **`takes_take`**: the settings of a mapping.
-/

namespace SuiteBalance.Settings

open Number

/-! ### Computations that take settings -/

variable {α β : Type} {t : Taking α} {next : α → Taking β} {fields : List (Value × Value)}
  {fallbacks : Fallbacks}

/-- How a computation ends, and what it adds to the notices before. -/
def Gives (t : Taking α) (outcome : Except SettingsError α) (said : List Notice) : Prop :=
  ∀ earlier, t.run earlier = (outcome, earlier ++ said)

theorem gives_pure (a : α) : Gives (pure a : Taking α) (.ok a) [] :=
  fun earlier => by rw [List.append_nil]; rfl

theorem gives_note (n : Notice) : Gives (note n) (.ok ()) [n] := fun _ => rfl

theorem gives_throw (e : SettingsError) : Gives (throw e : Taking α) (.error e) [] :=
  fun earlier => by rw [List.append_nil]; rfl

theorem run_bind (t : Taking α) (next : α → Taking β) (earlier : List Notice) :
    (t >>= next).run earlier =
      (ExceptT.bindCont next (t.run earlier).1 : StateM _ _) (t.run earlier).2 := rfl

theorem run_map (f : α → β) (t : Taking α) (earlier : List Notice) :
    (f <$> t).run earlier = ((t.run earlier).1.map f, (t.run earlier).2) := by
  rw [map_eq_pure_bind, run_bind]
  generalize t.run earlier = left
  obtain ⟨outcome, said⟩ := left
  cases outcome <;> rfl

theorem Gives.bind {a : α} {outcome : Except SettingsError β} {said later : List Notice}
    (h : Gives t (.ok a) said) (hnext : Gives (next a) outcome later) :
    Gives (t >>= next) outcome (said ++ later) := by
  intro earlier
  rw [run_bind, h earlier, ← List.append_assoc]
  exact hnext _

theorem Gives.bind_error {e : SettingsError} {said : List Notice} (h : Gives t (.error e) said) :
    Gives (t >>= next) (.error e) said := by
  intro earlier
  rw [run_bind, h earlier]
  rfl

/-- A computation succeeds under a condition, and what it gives and says is told. -/
structure Takes (t : Taking α) (condition : Prop) (told : α → List Notice → Prop) : Prop where
  ok : condition → ∃ a said, Gives t (.ok a) said ∧ told a said
  error : ¬condition → ∃ e said, Gives t (.error e) said

variable {condition condition' : Prop} {told : α → List Notice → Prop}
  {told' : α → β → List Notice → Prop}

theorem takes_pure (a : α) : Takes (pure a : Taking α) True fun b said => b = a ∧ said = [] :=
  ⟨fun _ => ⟨a, [], gives_pure a, rfl, rfl⟩, fun h => absurd trivial h⟩

/-- **One computation after the other** succeeds where both do. -/
theorem Takes.bind (h : Takes t condition told)
    (hnext : ∀ a, Takes (next a) condition' (told' a)) :
    Takes (t >>= next) (condition ∧ condition') fun b said =>
      ∃ a first later, told a first ∧ told' a b later ∧ said = first ++ later := by
  refine ⟨fun ⟨hfirst, hlater⟩ => ?_, fun hnot => ?_⟩
  · obtain ⟨a, first, hgives, htold⟩ := h.ok hfirst
    obtain ⟨b, later, hgives', htold'⟩ := (hnext a).ok hlater
    exact ⟨b, first ++ later, hgives.bind hgives', a, first, later, htold, htold', rfl⟩
  · by_cases hfirst : condition
    · obtain ⟨a, first, hgives, -⟩ := h.ok hfirst
      obtain ⟨e, later, hgives'⟩ := (hnext a).error fun hlater => hnot ⟨hfirst, hlater⟩
      exact ⟨e, _, hgives.bind hgives'⟩
    · obtain ⟨e, said, hgives⟩ := h.error hfirst
      exact ⟨e, said, hgives.bind_error⟩

theorem takes_note (n : Notice) : Takes (note n) True fun _ said => said = [n] :=
  ⟨fun _ => ⟨(), [n], gives_note n, rfl⟩, fun h => absurd trivial h⟩

/-- The same computation, told otherwise. -/
theorem Takes.mono {told' : α → List Notice → Prop} (h : Takes t condition told)
    (hcondition : condition' ↔ condition) (htold : ∀ a said, told a said → told' a said) :
    Takes t condition' told' :=
  ⟨fun hc =>
    have ⟨a, said, hgives, ha⟩ := h.ok (hcondition.mp hc)
    ⟨a, said, hgives, htold a said ha⟩,
    fun hc => h.error (mt hcondition.mpr hc)⟩

/-- A computation gives a result, whatever it says. -/
def Yields (t : Taking α) (a : α) : Prop := ∃ earlier, (t.run earlier).1 = .ok a

theorem Yields.of_bind {b : β}
    (h : Yields (t >>= next) b) : ∃ a, Yields t a ∧ Yields (next a) b := by
  obtain ⟨earlier, h⟩ := h
  rw [run_bind] at h
  cases houtcome : (t.run earlier).1 with
  | error e =>
    rw [houtcome] at h
    cases h
  | ok a =>
    rw [houtcome] at h
    exact ⟨a, ⟨earlier, houtcome⟩, _, h⟩

theorem Yields.eq_of_pure {a b : α} (h : Yields (pure a) b) : b = a := by
  obtain ⟨_, h⟩ := h
  exact (Except.ok.inj h).symm

/-! ### What is set -/

/-- The value that is set for the number of forks: in the file, else in the environment, else
one. -/
def forksValue (fallbacks : Fallbacks) (fields : List (Value × Value)) : Value :=
  match Value.field? fields "forks", fallbacks.forks? with
  | some value, _ => value
  | none, some text => .text text
  | none, none => .integer 1

/-- A value is an infinite number. -/
def IsInfinite (v : Value) : Prop := ∃ x, v = .real x ∧ x.isInf = true

theorem truncate_eq_infinite_iff {x : Float} :
    truncate x = .error .infinite ↔ x.isInf = true := by
  rw [isInf_iff, truncate, toInteger]
  cases Double.ofFloat x <;> simp

/-- Infinite numbers have no integer in a way of their own. -/
theorem toInteger_eq_infinite_iff {v : Value} :
    v.toInteger = .error (.unbounded .infinite) ↔ IsInfinite v := by
  have htext (base : ℕ) (s : Text) :
      Value.integerOfText base s ≠ .error (.unbounded .infinite) := by
    unfold Value.integerOfText
    split <;> exact nofun
  unfold IsInfinite
  cases v with
  | real x =>
    rw [Value.toInteger]
    cases h : truncate x <;> simp [Except.mapError, ← truncate_eq_infinite_iff, h]
  | text s => simpa [Value.toInteger] using htext 10 s
  | bytes content => simpa [Value.toInteger] using htext 10 _
  | _ => simp [Value.toInteger]

/-- An entry is a mapping with a task and a path that are given. -/
def NamesSource (entry task path : Value) : Prop :=
  ∃ fields, entry = .mapping fields ∧ Value.field? fields "task" = some task ∧
    Value.field? fields "path" = some path ∧ task.isTruthy = true ∧ path.isTruthy = true

theorem sourceFields?_eq_some_iff {entry task path : Value} :
    sourceFields? entry = some (task, path) ↔ NamesSource entry task path := by
  unfold sourceFields? NamesSource
  constructor
  · intro h
    split at h
    · next fields =>
      split at h
      · next task' path' htask hpath =>
        split at h
        · next htruthy =>
          obtain ⟨rfl, rfl⟩ := Prod.mk.inj (Option.some.inj h)
          obtain ⟨htask', hpath'⟩ := Bool.and_eq_true_iff.mp htruthy
          exact ⟨fields, rfl, htask, hpath, htask', hpath'⟩
        · cases h
      · cases h
    · cases h
  · rintro ⟨fields, rfl, htask, hpath, htask', hpath'⟩
    simp [htask, hpath, htask', hpath']

/-! ### Values that are written -/

variable [Value.Stack]

/-- A value can be written: there are frames enough for it, and its integers have few enough
digits. -/
structure Writable (v : Value) : Prop where
  fits : v.fits = true
  isWritable : v.isWritable = true

theorem takes_written (form : Value → α) (v : Value) :
    Takes (written form v) (Writable v) fun a said => a = form v ∧ said = [] := by
  unfold written
  refine ⟨fun h => ⟨form v, [], ?_, rfl, rfl⟩, fun h => ?_⟩
  · rw [h.fits, h.isWritable]
    exact gives_pure _
  · cases hfits : v.fits with
    | false => exact ⟨.endless, [], gives_throw _⟩
    | true =>
      cases hwritable : v.isWritable with
      | false => exact ⟨_, [], gives_throw _⟩
      | true => exact absurd ⟨hfits, hwritable⟩ h

/-- How a value is told in a notice, if its integers have few enough digits. -/
def literal? (v : Value) : Option String := if v.isWritable then some v.literal else none

theorem takes_noticed (v : Value) :
    Takes (noticed v) (v.fits = true) fun a said => a = literal? v ∧ said = [] := by
  unfold noticed
  refine ⟨fun h => ⟨literal? v, [], ?_, rfl, rfl⟩, fun h => ⟨.endless, [], ?_⟩⟩
  · rw [h]
    exact gives_pure _
  · rw [Bool.eq_false_iff.mpr h]
    exact gives_throw _

/-- Where a field is there, its value can be written. -/
def WritableField (fields : List (Value × Value)) (name : Text) : Prop :=
  ∀ v, Value.field? fields name = some v → Writable v

theorem takes_textOr (fields : List (Value × Value)) (name standIn : Text) :
    Takes (textOr fields name standIn) (WritableField fields name) fun _ said => said = [] := by
  unfold textOr WritableField
  cases Value.field? fields name with
  | some v => exact (takes_written _ v).mono (by simp) fun _ _ h => h.2
  | none => exact (takes_pure standIn).mono (by simp) fun _ _ h => h.2

/-- The texts of the file of durations can be written; a path alone always can. -/
def WritableTimings (fields : List (Value × Value)) : Prop :=
  ∀ name ∈ (["path", "name_column", "duration_column"] : List Text),
    WritableField (sectionFields fields "timings") name

theorem takes_timingsOf (fallbacks : Fallbacks) (fields : List (Value × Value)) :
    Takes (timingsOf fallbacks fields) (WritableTimings fields) fun _ said => said = [] := by
  have hthree (timings : List (Value × Value)) (path name duration : Text) :
      Takes (do
          return TimingSettings.mk (← textOr timings "path" path)
            (← textOr timings "name_column" name) (← textOr timings "duration_column" duration))
        (∀ name ∈ (["path", "name_column", "duration_column"] : List Text),
          WritableField timings name) fun _ said => said = [] := by
    refine ((takes_textOr _ _ _).bind fun _ => (takes_textOr _ _ _).bind fun _ =>
      (takes_textOr _ _ _).bind fun _ => takes_pure _).mono ?_ ?_
    · simp
    · rintro _ _ ⟨_, _, _, rfl, ⟨_, _, _, rfl, ⟨_, _, _, rfl, ⟨-, rfl⟩, rfl⟩, rfl⟩, rfl⟩
      rfl
  unfold WritableTimings
  by_cases h : ∃ path, Value.field? fields "timings" = some (.text path)
  · -- A path alone is a text, and the section has no fields then.
    obtain ⟨path, h⟩ := h
    have hsection : sectionFields fields "timings" = [] := by rw [sectionFields, h]
    unfold timingsOf
    simp only [h, hsection]
    refine (hthree _ _ _ _).mono (iff_of_true (fun _ _ _ hv => nomatch hv) ?_) fun _ _ h => h
    intro name _ v hv
    obtain ⟨field, hfield, rfl⟩ := Option.map_eq_some_iff.mp hv
    obtain rfl := List.mem_singleton.mp (List.mem_of_find?_eq_some hfield)
    exact ⟨rfl, rfl⟩
  · unfold timingsOf
    dsimp only
    split
    · next path hpath => exact absurd ⟨path, hpath⟩ h
    · exact hthree _ _ _ _

/-- The texts of the output can be written. -/
def WritableOutput (fields : List (Value × Value)) : Prop :=
  ∀ name ∈ (["plan_file", "format"] : List Text),
    WritableField (sectionFields fields "output") name

theorem takes_outputOf (fields : List (Value × Value)) :
    Takes (outputOf fields) (WritableOutput fields) fun _ said => said = [] := by
  unfold outputOf
  refine ((takes_textOr _ _ _).bind fun _ => (takes_textOr _ _ _).bind fun _ =>
    takes_pure _).mono ?_ ?_
  · simp [WritableOutput]
  · rintro _ _ ⟨_, _, _, rfl, ⟨_, _, _, rfl, ⟨-, rfl⟩, rfl⟩, rfl⟩
    rfl

/-! ### The number of forks -/

/-- A value is no infinite number, and if it stands for no integer, there are frames enough to tell
it in a notice. -/
def WritableForks (v : Value) : Prop :=
  ¬IsInfinite v ∧ ((∀ n, v.toInteger ≠ .ok n) → v.fits = true)

/-- The number of forks that a value stands for, or one with a notice, if it stands for none. -/
def ForksTold (v : Value) (n : ℤ) (said : List Notice) : Prop :=
  v.toInteger = .ok n ∧ said = [] ∨
    (∀ m, v.toInteger ≠ .ok m) ∧ n = 1 ∧ said = [.invalidForks (literal? v) 1]

theorem forksOf_eq (fallbacks : Fallbacks) (fields : List (Value × Value)) :
    forksOf fallbacks fields = match (forksValue fallbacks fields).toInteger with
      | .ok n => pure n
      | .error (.unbounded .infinite) => throw (.number (.unbounded .infinite))
      | .error _ => do
        note (.invalidForks (← noticed (forksValue fallbacks fields)) 1)
        return 1 := rfl

theorem gives_forksOf_infinite (h : IsInfinite (forksValue fallbacks fields)) :
    Gives (forksOf fallbacks fields) (.error (.number (.unbounded .infinite))) [] := by
  rw [forksOf_eq, toInteger_eq_infinite_iff.mpr h]
  exact gives_throw _

theorem takes_forksOf (fallbacks : Fallbacks) (fields : List (Value × Value)) :
    Takes (forksOf fallbacks fields) (WritableForks (forksValue fallbacks fields))
      (ForksTold (forksValue fallbacks fields)) := by
  by_cases hinfinite : IsInfinite (forksValue fallbacks fields)
  · exact ⟨fun h => absurd hinfinite h.1, fun _ => ⟨_, [], gives_forksOf_infinite hinfinite⟩⟩
  rw [forksOf_eq]
  generalize forksValue fallbacks fields = v at hinfinite ⊢
  unfold WritableForks
  rw [and_iff_right hinfinite]
  split
  · next n h =>
    refine (takes_pure n).mono (by simp [h]) ?_
    rintro _ _ ⟨rfl, rfl⟩
    exact .inl ⟨h, rfl⟩
  · next h => exact absurd (toInteger_eq_infinite_iff.mp h) hinfinite
  · next e _ h =>
    have hnone (n : ℤ) : v.toInteger ≠ .ok n := fun hn => by cases h.symm.trans hn
    refine ((takes_noticed v).bind fun s =>
      (takes_note (.invalidForks s 1)).bind fun _ => takes_pure 1).mono ?_ ?_
    · simp [hnone]
    · rintro _ _ ⟨_, _, _, ⟨rfl, rfl⟩, ⟨_, _, _, rfl, ⟨rfl, rfl⟩, rfl⟩, rfl⟩
      exact .inr ⟨hnone, rfl, rfl⟩

/-! ### Sources -/

/-- What is taken of an entry can be written, or else there are frames enough to tell the entry in a
notice. -/
def WritableEntry (entry : Value) : Prop :=
  (∀ task path, NamesSource entry task path → Writable task ∧ Writable path) ∧
  ((∀ task path, ¬NamesSource entry task path) → entry.fits = true)

/-- The sources that entries name, in their order, and a notice for each that names none. -/
inductive SourcesTold : List Value → List SourceSettings → List Notice → Prop
  | nil : SourcesTold [] [] []
  | named {entry task path : Value} {entries : List Value} {sources : List SourceSettings}
      {said : List Notice} (h : NamesSource entry task path)
      (rest : SourcesTold entries sources said) :
      SourcesTold (entry :: entries) (⟨task.plain, path.plain⟩ :: sources) said
  | unnamed {entry : Value} {entries : List Value} {sources : List SourceSettings}
      {said : List Notice} (h : ∀ task path, ¬NamesSource entry task path)
      (rest : SourcesTold entries sources said) :
      SourcesTold (entry :: entries) sources (.invalidSource (literal? entry) :: said)

/-- The source of an entry. -/
def EntryTold (entry : Value) (source? : Option SourceSettings) (said : List Notice) : Prop :=
  (∃ task path, NamesSource entry task path ∧ source? = some ⟨task.plain, path.plain⟩ ∧
    said = []) ∨
  (∀ task path, ¬NamesSource entry task path) ∧ source? = none ∧
    said = [.invalidSource (literal? entry)]

theorem takes_sourceOf (entry : Value) :
    Takes (sourceOf entry) (WritableEntry entry) (EntryTold entry) := by
  unfold sourceOf
  split
  · next task path h =>
    have hnames : NamesSource entry task path := sourceFields?_eq_some_iff.mp h
    refine ((takes_written Value.plain task).bind fun _ =>
      (takes_written Value.plain path).bind fun _ => takes_pure _).mono ?_ ?_
    · constructor
      · rintro ⟨hwritable, -⟩
        exact ⟨(hwritable task path hnames).1, (hwritable task path hnames).2, trivial⟩
      · rintro ⟨htask, hpath, -⟩
        refine ⟨fun task' path' hnames' => ?_, fun hnone => absurd hnames (hnone task path)⟩
        obtain ⟨rfl, rfl⟩ := Prod.mk.inj (Option.some.inj
          (h.symm.trans (sourceFields?_eq_some_iff.mpr hnames')))
        exact ⟨htask, hpath⟩
    · rintro _ _ ⟨_, _, _, ⟨rfl, rfl⟩, ⟨_, _, _, ⟨rfl, rfl⟩, ⟨rfl, rfl⟩, rfl⟩, rfl⟩
      exact .inl ⟨task, path, hnames, rfl, rfl⟩
  · next h =>
    have hnames (task path : Value) : ¬NamesSource entry task path := by
      rw [← sourceFields?_eq_some_iff, h]
      exact nofun
    refine ((takes_noticed entry).bind fun s =>
      (takes_note (.invalidSource s)).bind fun _ => takes_pure _).mono ?_ ?_
    · simp [WritableEntry, hnames]
    · rintro _ _ ⟨_, _, _, ⟨rfl, rfl⟩, ⟨_, _, _, rfl, ⟨rfl, rfl⟩, rfl⟩, rfl⟩
      exact .inr ⟨hnames, rfl, rfl⟩

theorem takes_mapM_sourceOf (entries : List Value) :
    Takes (entries.mapM sourceOf) (∀ entry ∈ entries, WritableEntry entry)
      fun sources said => SourcesTold entries (sources.filterMap id) said := by
  induction entries with
  | nil =>
    refine (takes_pure []).mono (by simp) ?_
    rintro _ _ ⟨rfl, rfl⟩
    exact .nil
  | cons entry entries ih =>
    rw [List.mapM_cons]
    refine ((takes_sourceOf entry).bind fun _ => ih.bind fun _ => takes_pure _).mono ?_ ?_
    · rw [List.forall_mem_cons, and_true]
    · rintro _ _ ⟨source?, _, _, hentry, ⟨sources, later, _, hlater, ⟨rfl, rfl⟩, rfl⟩, rfl⟩
      rw [List.append_nil]
      obtain ⟨task, path, hnames, rfl, rfl⟩ | ⟨hnames, rfl, rfl⟩ := hentry
      · exact .named hnames hlater
      · exact .unnamed hnames hlater

theorem takes_sourcesOf (fields : List (Value × Value)) :
    Takes (sourcesOf fields) (∀ entry ∈ sourceEntries fields, WritableEntry entry)
      (SourcesTold (sourceEntries fields)) := by
  unfold sourcesOf
  refine ((takes_mapM_sourceOf _).bind fun _ => takes_pure _).mono (by simp) ?_
  rintro _ _ ⟨sources, first, later, htold, ⟨rfl, rfl⟩, rfl⟩
  simpa using htold

/-! ### The settings of a mapping -/

/-- The settings in a mapping can be taken out of it. -/
structure Loadable (fallbacks : Fallbacks) (fields : List (Value × Value)) : Prop where
  forks : WritableForks (forksValue fallbacks fields)
  timings : WritableTimings fields
  sources : ∀ entry ∈ sourceEntries fields, WritableEntry entry
  output : WritableOutput fields

/-- What is told of the settings in a mapping: the number of forks and the sources, with the notices
about the one and about the others. -/
def SettingsTold (fallbacks : Fallbacks) (fields : List (Value × Value)) (s : Settings)
    (said : List Notice) : Prop :=
  ∃ first later, ForksTold (forksValue fallbacks fields) s.forks first ∧
    SourcesTold (sourceEntries fields) s.sources later ∧ said = first ++ later

/-- **The settings of a mapping.** -/
theorem takes_take (root : Path) (fallbacks : Fallbacks) (fields : List (Value × Value)) :
    Takes (take root fallbacks fields) (Loadable fallbacks fields)
      (SettingsTold fallbacks fields) := by
  unfold take
  refine ((takes_forksOf fallbacks fields).bind fun _ =>
    (takes_timingsOf fallbacks fields).bind fun _ => (takes_sourcesOf fields).bind fun _ =>
      (takes_outputOf fields).bind fun _ => takes_pure _).mono ?_ ?_
  · rw [and_true]
    exact ⟨fun ⟨hforks, htimings, hsources, houtput⟩ => ⟨hforks, htimings, hsources, houtput⟩,
      fun ⟨hforks, htimings, hsources, houtput⟩ => ⟨hforks, htimings, hsources, houtput⟩⟩
  · rintro _ _ ⟨forks, first, _, hforks, ⟨timings, _, _, rfl, ⟨sources, later, _, hsources,
      ⟨output, _, _, rfl, ⟨rfl, rfl⟩, rfl⟩, rfl⟩, rfl⟩, rfl⟩
    exact ⟨first, later, hforks, hsources, by simp⟩

/-- **An infinite number of forks is refused**, whatever else is set. -/
theorem gives_take_infinite (root : Path) (h : IsInfinite (forksValue fallbacks fields)) :
    Gives (take root fallbacks fields) (.error (.number (.unbounded .infinite))) [] :=
  (gives_forksOf_infinite h).bind_error

end SuiteBalance.Settings
