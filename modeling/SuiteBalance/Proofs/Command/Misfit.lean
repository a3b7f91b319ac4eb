import Mathlib
import SuiteBalance.Command.Run
import SuiteBalance.Proofs.Json.Depth
import SuiteBalance.Proofs.Number.Overflow
import SuiteBalance.Proofs.Traversal

/-!
# Proofs — Commands — misfits

A plan file is read from any JSON value, and values of other kinds stand in for those that are
expected as far as they can.  Where none can, and where a number is beyond the format, the fault is
not among those that are told to the user.  Such a file is a misfit, and what makes it one is read
off its document.

* **`Untold`**: a reading fails for a reason that is not told.
* `NoIndex`, `NoLoad`, `Single`, `NoTests`: the values that stand for nothing.
* **`MisfitEntry`**, **`MisfitDocument`**, **`Misfit`**: the entries, documents and files that have
  such a value where it is the first thing wrong with them.
* **`untold_ofBytes_iff`**: the misfits are the files that fail for a reason that is not told.
-/

namespace SuiteBalance.Command

open Snapshot Number

variable {α β : Type}

/-! ### Faults -/

/-- A reading fails for a reason that is not told to the user. -/
def Untold (outcome : Except DocumentFault α) : Prop :=
  ∃ fault, outcome = .error fault ∧ isTold (.document fault) = false

@[simp] theorem untold_ok (a : α) : ¬Untold (.ok a : Except DocumentFault α) := nofun

@[simp] theorem untold_error (fault : DocumentFault) :
    Untold (.error fault : Except DocumentFault α) ↔ isTold (.document fault) = false := by
  simp [Untold]

/-- What is done with a result goes wrong before or behind it. -/
theorem untold_bind {outcome : Except DocumentFault α} {next : α → Except DocumentFault β} :
    Untold (outcome >>= next) ↔ Untold outcome ∨ ∃ a, outcome = .ok a ∧ Untold (next a) := by
  cases outcome with
  | error fault => simp [bind, Except.bind]
  | ok a => simp [bind, Except.bind]

@[simp] theorem untold_map {outcome : Except DocumentFault α} {f : α → β} :
    Untold (outcome.map f) ↔ Untold outcome := by
  cases outcome <;> simp [Except.map]

/-- A traversal goes wrong at one member. -/
theorem untold_mapM {f : α → Except DocumentFault β} {l : List α} :
    Untold (l.mapM f) ↔ ∃ before a behind, l = before ++ a :: behind ∧
      (∀ b ∈ before, ∃ c, f b = .ok c) ∧ Untold (f a) := by
  constructor
  · rintro ⟨fault, hfault, htold⟩
    obtain ⟨before, a, behind, hl, hbefore, ha⟩ := mapM_eq_error_iff.mp hfault
    exact ⟨before, a, behind, hl, hbefore, fault, ha, htold⟩
  · rintro ⟨before, a, behind, hl, hbefore, fault, ha, htold⟩
    exact ⟨fault, mapM_eq_error_iff.mpr ⟨before, a, behind, hl, hbefore, ha⟩, htold⟩

/-- Where no member goes wrong for a reason that is told, the order of the members is all one. -/
theorem untold_mapM_iff_exists {f : α → Except DocumentFault β} {l : List α}
    (h : ∀ a ∈ l, (∃ b, f a = .ok b) ∨ Untold (f a)) :
    Untold (l.mapM f) ↔ ∃ a ∈ l, Untold (f a) := by
  rw [untold_mapM]
  constructor
  · rintro ⟨before, a, behind, rfl, -, ha⟩
    exact ⟨a, by simp, ha⟩
  · rintro ⟨a, ha, fault, hfault, -⟩
    cases hl : l.mapM f with
    | ok bs =>
        obtain ⟨b, hb⟩ := exists_mapM_eq_ok_iff.mp ⟨bs, hl⟩ a ha
        rw [hfault] at hb
        cases hb
    | error e =>
        obtain ⟨before, first, behind, rfl, hbefore, hfirst⟩ := mapM_eq_error_iff.mp hl
        refine ⟨before, first, behind, rfl, hbefore, (h first (by simp)).resolve_left ?_⟩
        rintro ⟨b, hb⟩
        rw [hfirst] at hb
        cases hb

/-! ### Numbers -/

/-- A value in which no number is looked for. -/
inductive Numberless : Json → Prop
  | null : Numberless .null
  | array (items : List Json) : Numberless (.array items)
  | object (fields : List (Text × Json)) : Numberless (.object fields)

/-- A value that stands for no index, and is no text. -/
inductive NoIndex : Json → Prop
  | numberless {value : Json} (h : Numberless value) : NoIndex value
  | infinite {x : Float} (h : x.isInf = true) : NoIndex (.real x)

/-- A value that stands for no load, and is no text. -/
inductive NoLoad : Json → Prop
  | numberless {value : Json} (h : Numberless value) : NoLoad value
  | large {n : ℤ} (h : overflowThreshold ≤ n.natAbs) : NoLoad (.integer n)

/-- The integer that a value stands for. -/
def indexOf (value : Json) : Except DocumentFault ℤ := (Value.ofJson value).toInteger.mapError .number

/-- The double that a value stands for. -/
def loadOf (value : Json) : Except DocumentFault Float := (Value.ofJson value).toFloat.mapError .number

theorem told_integerOfText (s : Text) : ¬Untold ((Value.integerOfText 10 s).mapError .number) := by
  unfold Value.integerOfText
  split
  · exact untold_ok _
  · simp [Except.mapError, isTold]
  · simp [Except.mapError, isTold]

/-- An infinity has no integer part, and what is no number has none. -/
theorem untold_truncate_iff {x : Float} :
    Untold (((truncate x).mapError NumberFault.unbounded).mapError .number) ↔ x.isInf = true := by
  rw [isInf_iff]
  unfold truncate toInteger
  cases Double.ofFloat x with
  | notANumber => simp [Except.mapError, isTold]
  | infinite negative => simp [Except.mapError, isTold]
  | finite negative m q => simp [Except.mapError]

/-- **What stands for no index.** -/
theorem untold_indexOf_iff {value : Json} : Untold (indexOf value) ↔ NoIndex value := by
  unfold indexOf
  cases value with
  | null => exact iff_of_true ⟨_, rfl, rfl⟩ (.numberless .null)
  | bool b => exact iff_of_false nofun nofun
  | integer n => exact iff_of_false nofun nofun
  | real x =>
      refine untold_truncate_iff.trans ⟨.infinite, ?_⟩
      rintro (⟨⟨⟩⟩ | h)
      exact h
  | text s => exact iff_of_false (told_integerOfText s) nofun
  | array items => exact iff_of_true ⟨_, rfl, rfl⟩ (.numberless (.array items))
  | object fields => exact iff_of_true ⟨_, rfl, rfl⟩ (.numberless (.object fields))

/-- **What stands for no load.** -/
theorem untold_loadOf_iff {value : Json} : Untold (loadOf value) ↔ NoLoad value := by
  unfold loadOf
  cases value with
  | null => exact iff_of_true ⟨_, rfl, rfl⟩ (.numberless .null)
  | bool b => exact iff_of_false nofun nofun
  | integer n =>
      have hlarge : Untold ((Value.floatOfInteger n).mapError .number) ↔
          overflowThreshold ≤ n.natAbs := by
        rw [← isInf_ofInt_iff]
        unfold Value.floatOfInteger
        dsimp only
        split_ifs with h
        · exact iff_of_true ⟨_, rfl, rfl⟩ h
        · exact iff_of_false nofun h
      refine hlarge.trans ⟨.large, ?_⟩
      rintro (⟨⟨⟩⟩ | h)
      exact h
  | real x => exact iff_of_false nofun nofun
  | text s =>
      refine iff_of_false ?_ nofun
      unfold Value.ofJson Value.toFloat
      dsimp only
      cases readFloat? s.visible with
      | none => simp [Except.mapError, isTold]
      | some x => exact untold_ok _
  | array items => exact iff_of_true ⟨_, rfl, rfl⟩ (.numberless (.array items))
  | object fields => exact iff_of_true ⟨_, rfl, rfl⟩ (.numberless (.object fields))

/-! ### Members -/

/-- A value that yields no others. -/
inductive Single : Json → Prop
  | null : Single .null
  | bool (b : Bool) : Single (.bool b)
  | integer (n : ℤ) : Single (.integer n)
  | real (x : Float) : Single (.real x)

/-- A value yields its members, or it yields none, which is not told. -/
theorem exists_members_or_untold (value : Json) :
    (∃ items, members value = .ok items) ∨ Untold (members value) := by
  cases value with
  | text s => exact .inl ⟨_, rfl⟩
  | array items => exact .inl ⟨_, rfl⟩
  | object fields => exact .inl ⟨_, rfl⟩
  | _ => exact .inr ⟨_, rfl, rfl⟩

theorem untold_members_iff {value : Json} : Untold (members value) ↔ Single value := by
  cases value with
  | null => exact iff_of_true ⟨_, rfl, rfl⟩ .null
  | bool b => exact iff_of_true ⟨_, rfl, rfl⟩ (.bool b)
  | integer n => exact iff_of_true ⟨_, rfl, rfl⟩ (.integer n)
  | real x => exact iff_of_true ⟨_, rfl, rfl⟩ (.real x)
  | _ => exact iff_of_false nofun nofun

/-- A value that is no object. -/
def NoObject (value : Json) : Prop := ∀ fields, value ≠ .object fields

/-- What stands for no patterns of tasks: a value that is no object, and an object in which the
patterns of a task are a value that yields no others. -/
inductive NoTests : Json → Prop
  | noObject {value : Json} (h : NoObject value) : NoTests value
  | single {tasks : List (Text × Json)} {task : Text} {names : Json} (h : (task, names) ∈ tasks)
      (hnames : Single names) : NoTests (.object tasks)

/-- **What stands for no patterns of tasks.** -/
theorem untold_tests_iff {value : Json} : Untold (tests value) ↔ NoTests value := by
  cases value with
  | object tasks =>
      have hmembers (entry : Text × Json) :
          Untold ((patterns entry.2).map (entry.1, ·)) ↔ Single entry.2 := by
        rw [untold_map, patterns, untold_map, untold_members_iff]
      have hmapM := untold_mapM_iff_exists (l := tasks)
        (f := fun entry => (patterns entry.2).map (entry.1, ·)) fun entry _ => by
          rw [hmembers, ← untold_members_iff]
          refine (exists_members_or_untold entry.2).imp_left ?_
          rintro ⟨items, hitems⟩
          rw [patterns, hitems]
          exact ⟨_, rfl⟩
      refine hmapM.trans ⟨?_, ?_⟩
      · rintro ⟨⟨task, names⟩, hmem, hfault⟩
        exact .single hmem ((hmembers (task, names)).mp hfault)
      · rintro (h | ⟨hmem, hnames⟩)
        · exact absurd rfl (h tasks)
        · exact ⟨_, hmem, (hmembers _).mpr hnames⟩
  | _ => exact iff_of_true ⟨_, rfl, rfl⟩ (.noObject nofun)

/-! ### Documents -/

/-- The load that the fields of an entry name, zero where they name none. -/
def loadField (fields : List (Text × Json)) : Except DocumentFault Float :=
  match Entries.get? fields "duration" with
  | some value => loadOf value
  | none => .ok 0.0

/-- An entry that is no object, or in which the first thing wrong is a value that stands for
nothing. -/
inductive MisfitEntry : Json → Prop
  | noObject {entry : Json} (h : NoObject entry) : MisfitEntry entry
  | index {fields : List (Text × Json)} {index : Json}
      (hindex : Entries.get? fields "index" = some index) (h : NoIndex index) :
      MisfitEntry (.object fields)
  | load {fields : List (Text × Json)} {index load : Json} {n : ℤ}
      (hindex : Entries.get? fields "index" = some index) (hn : indexOf index = .ok n)
      (hload : Entries.get? fields "duration" = some load) (h : NoLoad load) :
      MisfitEntry (.object fields)
  | tests {fields : List (Text × Json)} {index tests : Json} {n : ℤ} {x : Float}
      (hindex : Entries.get? fields "index" = some index) (hn : indexOf index = .ok n)
      (hload : loadField fields = .ok x) (htests : Entries.get? fields "tests" = some tests)
      (h : NoTests tests) : MisfitEntry (.object fields)

/-- A field that is missing is told. -/
theorem told_required (fields : List (Text × Json)) (name : Text) :
    ¬Untold (required fields name) := by
  unfold required
  cases Entries.get? fields name <;> simp [isTold]

theorem required_eq_ok_iff {fields : List (Text × Json)} {name : Text} {value : Json} :
    required fields name = .ok value ↔ Entries.get? fields name = some value := by
  unfold required
  cases Entries.get? fields name <;> simp

theorem untold_loadField_iff {fields : List (Text × Json)} : Untold (loadField fields) ↔
    ∃ load, Entries.get? fields "duration" = some load ∧ NoLoad load := by
  unfold loadField
  cases Entries.get? fields "duration" with
  | none => simp
  | some load => simp [untold_loadOf_iff]

/-- An entry is read field by field. -/
theorem fork_object (fields : List (Text × Json)) :
    fork (.object fields) = required fields "index" >>= fun index =>
      indexOf index >>= fun n => loadField fields >>= fun x =>
        required fields "tests" >>= fun value => tests value >>= fun found =>
          .ok ⟨n, x, found⟩ := by
  unfold fork loadField
  dsimp only
  cases Entries.get? fields "duration" <;> rfl

/-- **The entries that fail for a reason that is not told.** -/
theorem untold_fork_iff {entry : Json} : Untold (fork entry) ↔ MisfitEntry entry := by
  cases entry with
  | object fields =>
      rw [fork_object]
      simp only [untold_bind, told_required, required_eq_ok_iff, untold_indexOf_iff,
        untold_loadField_iff, untold_tests_iff, untold_ok, false_or, and_false, exists_false,
        or_false]
      constructor
      · rintro ⟨index, hindex, h | ⟨n, hn, ⟨load, hload, h⟩ | ⟨x, hload, tests, htests, h⟩⟩⟩
        · exact .index hindex h
        · exact .load hindex hn hload h
        · exact .tests hindex hn hload htests h
      · rintro (h | ⟨hindex, h⟩ | ⟨hindex, hn, hload, h⟩ | ⟨hindex, hn, hload, htests, h⟩)
        · exact absurd rfl (h fields)
        · exact ⟨_, hindex, .inl h⟩
        · exact ⟨_, hindex, .inr ⟨_, hn, .inl ⟨_, hload, h⟩⟩⟩
        · exact ⟨_, hindex, .inr ⟨_, hn, .inr ⟨_, hload, _, htests, h⟩⟩⟩
  | _ => exact iff_of_true ⟨_, rfl, rfl⟩ (.noObject nofun)

/-- A document of the version that is read whose entries are a value that yields no others, or of
whose entries the first that is not read is a misfit. -/
inductive MisfitDocument (document : Json) : Prop
  | single {workers : Json} (hversion : (document.field? "version").any isVersion = true)
      (hworkers : document.field? "workers" = some workers) (h : Single workers)
  | entry {workers entry : Json} {before behind : List Json}
      (hversion : (document.field? "version").any isVersion = true)
      (hworkers : document.field? "workers" = some workers)
      (hmembers : members workers = .ok (before ++ entry :: behind))
      (hbefore : ∀ earlier ∈ before, ∃ f, fork earlier = .ok f) (h : MisfitEntry entry)

theorem told_ofForks (forks : List SnapshotFork) : ¬Untold (ofForks forks) := by
  unfold ofForks
  dsimp only
  split_ifs
  · exact untold_ok _
  · simp [isTold]

/-- **The documents that fail for a reason that is not told.** -/
theorem untold_ofDocument_iff {document : Json} :
    Untold (ofDocument document) ↔ MisfitDocument document := by
  have hread (hversion : (document.field? "version").any isVersion = true) :
      ofDocument document = members ((document.field? "workers").getD (.array [])) >>=
        fun entries => entries.mapM fork >>= ofForks := by
    unfold ofDocument
    rw [hversion]
    rfl
  constructor
  · intro h
    have hversion : (document.field? "version").any isVersion = true := by
      by_contra hwrong
      obtain ⟨fault, hfault, htold⟩ := h
      unfold ofDocument at hfault
      rw [Bool.not_eq_true] at hwrong
      rw [hwrong] at hfault
      obtain rfl := Except.error.inj hfault
      cases htold
    rw [hread hversion, untold_bind, untold_members_iff] at h
    cases hworkers : document.field? "workers" with
    | none =>
        rw [hworkers] at h
        rcases h with h | ⟨entries, hmembers, h⟩
        · cases h
        · obtain rfl := Except.ok.inj hmembers
          exact absurd h (told_ofForks [])
    | some workers =>
        rw [hworkers, Option.getD_some] at h
        rcases h with h | ⟨entries, hmembers, h⟩
        · exact .single hversion hworkers h
        · rw [untold_bind, untold_mapM] at h
          rcases h with ⟨before, entry, behind, rfl, hbefore, h⟩ | ⟨forks, -, h⟩
          · exact .entry hversion hworkers hmembers hbefore (untold_fork_iff.mp h)
          · exact absurd h (told_ofForks forks)
  · rintro (⟨hversion, hworkers, h⟩ | ⟨hversion, hworkers, hmembers, hbefore, h⟩)
    · rw [hread hversion, hworkers, Option.getD_some, untold_bind]
      exact .inl (untold_members_iff.mpr h)
    · rw [hread hversion, hworkers, Option.getD_some, untold_bind]
      refine .inr ⟨_, hmembers, ?_⟩
      rw [untold_bind, untold_mapM]
      exact .inl ⟨_, _, _, rfl, hbefore, untold_fork_iff.mpr h⟩

/-! ### Files -/

variable [Json.Levels]

/-- A file that is too deep, or that holds a document that is a misfit. -/
inductive Misfit (bytes : List UInt8) : Prop
  | deep {text : List Char} (htext : Text.Utf8.decode bytes = .ok text)
      (h : Json.Deep (Text.unifyBreaks text))
  | document {text : List Char} {document : Json} (htext : Text.Utf8.decode bytes = .ok text)
      (hparse : Json.parse (Text.unifyBreaks text) = .ok document) (h : MisfitDocument document)

/-- What makes a file with a text a misfit. -/
theorem misfit_iff {bytes : List UInt8} {text : List Char}
    (htext : Text.Utf8.decode bytes = .ok text) :
    Misfit bytes ↔ Json.Deep (Text.unifyBreaks text) ∨
      ∃ document, Json.parse (Text.unifyBreaks text) = .ok document ∧ MisfitDocument document := by
  constructor
  · rintro (⟨htext', h⟩ | ⟨htext', hparse, h⟩)
    · obtain rfl := Except.ok.inj (htext.symm.trans htext')
      exact .inl h
    · obtain rfl := Except.ok.inj (htext.symm.trans htext')
      exact .inr ⟨_, hparse, h⟩
  · rintro (h | ⟨document, hparse, h⟩)
    · exact .deep htext h
    · exact .document htext hparse h

/-- **The files that fail for a reason that is not told.** -/
theorem untold_ofBytes_iff {bytes : List UInt8} :
    (∃ e, ofBytes bytes = .error e ∧ isTold e = false) ↔ Misfit bytes := by
  unfold ofBytes
  cases htext : Text.Utf8.decode bytes with
  | error fault =>
      refine iff_of_false ?_ ?_
      · rintro ⟨e, he, htold⟩
        obtain rfl := Except.error.inj he
        cases htold
      · rintro (⟨htext', -⟩ | ⟨htext', -, -⟩) <;> rw [htext] at htext' <;> cases htext'
  | ok text =>
      rw [misfit_iff htext, ← Json.deep_iff]
      change (∃ e, ((Json.parse (Text.unifyBreaks text)).mapError PlanFileError.notJson >>=
        fun document => (ofDocument document).mapError .document) = .error e ∧ _) ↔ _
      cases Json.parse (Text.unifyBreaks text) with
      | error fault => simp [Except.mapError, bind, Except.bind, isTold]
      | ok document =>
          have hdocument : Untold (ofDocument document) ↔ _ := untold_ofDocument_iff
          unfold Untold at hdocument
          simp only [Except.mapError, bind, Except.bind, reduceCtorEq, false_and, exists_false,
            false_or, Except.ok.injEq, exists_eq_left', ← hdocument]
          cases ofDocument document <;> simp

end SuiteBalance.Command
