import Mathlib
import SuiteBalance.Proofs.Command.Misfit
import SuiteBalance.Proofs.Snapshot.Numbering

/-!
# Proofs — Snapshot — where names come from

A document is meant to hold an array of names for each task of a fork.  What it holds instead is
taken for names if it yields any: a text is spelled out, and an object gives the names of its
fields.  Only a value that yields nothing at all is refused.

* **`Held`**: the value that a document holds for a task on a fork.
* **`Tells`**: the names that a value comes to.
* `Stray`: the values that come to names and are no arrays.
* `Readable`, `readable_iff`: the entries that are converted.
* **`loaded_told`**: the names that a snapshot gives are those that the value held comes to; they are
  the texts of the items of an array unless the value is stray; and a stray value is no reason to
  refuse a document.
-/

namespace SuiteBalance.Snapshot

open Command

variable {document entry value : Json} {entries : List Json} {forks : List SnapshotFork}
  {s : Snapshot} {f : SnapshotFork} {i : ℤ} {task name : Text} {names : List Text}

/-! ### Values -/

/-- A name that a value comes to: the text of an item of an array, a point of a text, or the name of
a field of an object. -/
inductive Tells : Json → Text → Prop
  | item {items : List Json} {item : Json} (h : item ∈ items) :
      Tells (.array items) (Value.ofJson item).plain
  | point {t : Text} {p : CodePoint} (h : p ∈ t.points) : Tells (.text t) (.ofPoints [p])
  | field {fields : List (Text × Json)} {field : Text × Json} (h : field ∈ fields) :
      Tells (.object fields) field.1

/-- A value that comes to names and is no array. -/
inductive Stray : Json → Prop
  | text {t : Text} (h : t.points ≠ []) : Stray (.text t)
  | object {fields : List (Text × Json)} (h : fields ≠ []) : Stray (.object fields)

/-- The names that are read from a value are those that it tells. -/
theorem mem_patterns_iff (h : patterns value = .ok names) : name ∈ names ↔ Tells value name := by
  obtain ⟨items, hitems, rfl⟩ := map_eq_ok_iff.mp h
  cases value with
  | array items' =>
      obtain rfl := Except.ok.inj hitems
      rw [List.mem_map]
      constructor
      · rintro ⟨item, hitem, rfl⟩
        exact .item hitem
      · rintro (hitem | _ | _)
        exact ⟨_, hitem, rfl⟩
  | text t =>
      obtain rfl := Except.ok.inj hitems
      rw [List.map_map, List.mem_map]
      constructor
      · rintro ⟨p, hp, rfl⟩
        exact .point hp
      · rintro (_ | hp | _)
        exact ⟨_, hp, rfl⟩
  | object fields =>
      obtain rfl := Except.ok.inj hitems
      rw [List.map_map, List.mem_map]
      constructor
      · rintro ⟨field, hfield, rfl⟩
        exact .field hfield
      · rintro (_ | _ | hfield)
        exact ⟨_, hfield, rfl⟩
  | _ => cases hitems

/-- A value is taken for names unless it yields nothing. -/
theorem exists_patterns_iff : (∃ names, patterns value = .ok names) ↔ ¬Single value := by
  cases value with
  | text t => exact iff_of_true ⟨_, rfl⟩ nofun
  | array items => exact iff_of_true ⟨_, rfl⟩ nofun
  | object fields => exact iff_of_true ⟨_, rfl⟩ nofun
  | null => exact iff_of_false nofun fun h => h .null
  | bool b => exact iff_of_false nofun fun h => h (.bool b)
  | integer n => exact iff_of_false nofun fun h => h (.integer n)
  | real x => exact iff_of_false nofun fun h => h (.real x)

/-- A stray value tells some name. -/
theorem Stray.exists_tells (h : Stray value) : ∃ name, Tells value name := by
  cases h with
  | text h =>
      obtain ⟨p, hp⟩ := List.exists_mem_of_ne_nil _ h
      exact ⟨_, .point hp⟩
  | object h =>
      obtain ⟨field, hfield⟩ := List.exists_mem_of_ne_nil _ h
      exact ⟨_, .field hfield⟩

/-- What tells a name is an array that has it, or stray. -/
theorem Tells.item_or_stray (h : Tells value name) :
    (∃ items item, value = .array items ∧ item ∈ items ∧ name = (Value.ofJson item).plain) ∨
      Stray value := by
  cases h with
  | item h => exact .inl ⟨_, _, rfl, h, rfl⟩
  | point h => exact .inr (.text (List.ne_nil_of_mem h))
  | field h => exact .inr (.object (List.ne_nil_of_mem h))

/-! ### Entries -/

/-- An entry with an index under whose tests a task has a value. -/
inductive EntryHolds (i : ℤ) (task : Text) (value : Json) : Json → Prop
  | intro {fields tasks : List (Text × Json)} {index : Json}
      (hindex : Entries.get? fields "index" = some index) (hi : indexOf index = .ok i)
      (htests : Entries.get? fields "tests" = some (.object tasks))
      (htask : Entries.get? tasks task = some value) : EntryHolds i task value (.object fields)

/-- An entry holds one value for a task. -/
theorem EntryHolds.unique {j : ℤ} {other : Json} (h : EntryHolds i task value entry)
    (hother : EntryHolds j task other entry) : value = other := by
  obtain ⟨-, -, htests, htask⟩ := h
  obtain ⟨-, -, htests', htask'⟩ := hother
  obtain rfl : _ = _ := Json.object.inj (Option.some_inj.mp (htests.symm.trans htests'))
  exact Option.some_inj.mp (htask.symm.trans htask')

/-- The names of each task are read from its value. -/
theorem get?_tests {tasks : List (Text × Json)} {found : Entries Text (List Text)}
    (h : tests (.object tasks) = .ok found) (task : Text) :
    (found.get? task).map Except.ok = (Entries.get? tasks task).map patterns := by
  have hread := mapM_eq_ok_iff.mp h
  clear h
  induction hread with
  | nil => rfl
  | @cons entry pair tasks found hpair _ ih =>
      obtain ⟨key, value⟩ := entry
      obtain ⟨names, hnames, rfl⟩ := map_eq_ok_iff.mp hpair
      unfold Entries.get? at ih ⊢
      rw [List.lookup_cons, List.lookup_cons]
      cases task == key with
      | true => exact congrArg some hnames.symm
      | false => exact ih

/-- The tests of an object are read if no task has a value that yields nothing. -/
theorem exists_tests_iff : (∃ found, tests value = .ok found) ↔
    ∃ tasks, value = .object tasks ∧ ∀ e ∈ tasks, ¬Single e.2 := by
  cases value with
  | object tasks =>
      have htask (e : Text × Json) :
          (∃ pair, (patterns e.2).map (e.1, ·) = .ok pair) ↔ ¬Single e.2 := by
        rw [← exists_patterns_iff]
        simp only [map_eq_ok_iff]
        constructor
        · rintro ⟨_, names, hnames, -⟩
          exact ⟨names, hnames⟩
        · rintro ⟨names, hnames⟩
          exact ⟨_, names, hnames, rfl⟩
      have hall := exists_mapM_eq_ok_iff (l := tasks) (f := fun e => (patterns e.2).map (e.1, ·))
      simp only [htask] at hall
      refine hall.trans ⟨fun h => ⟨tasks, rfl, h⟩, ?_⟩
      rintro ⟨_, ⟨⟩, h⟩
      exact h
  | _ => exact iff_of_false nofun (by rintro ⟨_, ⟨⟩, -⟩)

/-- **What is read from an entry.** -/
theorem fork_eq_ok_iff : fork entry = .ok f ↔ ∃ fields index value, entry = .object fields ∧
    Entries.get? fields "index" = some index ∧ indexOf index = .ok f.index ∧
    loadField fields = .ok f.load ∧ Entries.get? fields "tests" = some value ∧
    tests value = .ok f.tests := by
  cases entry with
  | object fields =>
      rw [fork_object]
      simp only [bind_eq_ok_iff, required_eq_ok_iff]
      constructor
      · rintro ⟨index, hindex, n, hn, x, hx, value, hvalue, found, hfound, hf⟩
        obtain rfl := Except.ok.inj hf
        exact ⟨fields, index, value, rfl, hindex, hn, hx, hvalue, hfound⟩
      · rintro ⟨_, index, value, ⟨⟩, hindex, hn, hx, hvalue, hfound⟩
        exact ⟨index, hindex, _, hn, _, hx, value, hvalue, _, hfound, rfl⟩
  | _ => exact iff_of_false nofun (by rintro ⟨_, _, _, ⟨⟩, -⟩)

/-- What an entry holds for a task is read as the names of the task. -/
theorem EntryHolds.get?_fork (h : EntryHolds i task value entry) (hf : fork entry = .ok f) :
    f.index = i ∧ ∃ names, f.tests.get? task = some names ∧ patterns value = .ok names := by
  obtain ⟨hindex, hi, htests, htask⟩ := h
  obtain ⟨fields, index, tests, ⟨⟩, hindex', hi', -, htests', hfound⟩ := fork_eq_ok_iff.mp hf
  obtain rfl := Option.some_inj.mp (hindex.symm.trans hindex')
  obtain rfl := Option.some_inj.mp (htests.symm.trans htests')
  have hget := get?_tests hfound task
  rw [htask, Option.map_some, Option.map_eq_some_iff] at hget
  obtain ⟨names, hnames, hvalue⟩ := hget
  exact ⟨Except.ok.inj (hi'.symm.trans hi), names, hnames, hvalue.symm⟩

/-- The names of a task are read from what the entry holds for it. -/
theorem exists_entryHolds (hf : fork entry = .ok f) (hnames : f.tests.get? task = some names) :
    ∃ value, EntryHolds f.index task value entry ∧ patterns value = .ok names := by
  obtain ⟨fields, index, value, rfl, hindex, hi, -, htests, hfound⟩ := fork_eq_ok_iff.mp hf
  obtain ⟨tasks, rfl, -⟩ := exists_tests_iff.mp ⟨_, hfound⟩
  have hget := get?_tests hfound task
  rw [hnames, Option.map_some, eq_comm, Option.map_eq_some_iff] at hget
  obtain ⟨value, hvalue, hpatterns⟩ := hget
  exact ⟨value, ⟨hindex, hi, htests, hvalue⟩, hpatterns⟩

/-- An entry that can be read, with the index that it names: an object whose index and load are
numbers, and whose tests are an object without a value that yields nothing. -/
inductive Readable : Json → ℤ → Prop
  | intro {fields tasks : List (Text × Json)} {index : Json} {n : ℤ} {load : Float}
      (hindex : Entries.get? fields "index" = some index) (hn : indexOf index = .ok n)
      (hload : loadField fields = .ok load)
      (htests : Entries.get? fields "tests" = some (.object tasks))
      (hvalues : ∀ e ∈ tasks, ¬Single e.2) : Readable (.object fields) n

/-- **The entries that are read.** -/
theorem readable_iff : Readable entry i ↔ ∃ f, fork entry = .ok f ∧ f.index = i := by
  constructor
  · rintro ⟨hindex, hn, hload, htests, hvalues⟩
    obtain ⟨found, hfound⟩ := exists_tests_iff.mpr ⟨_, rfl, hvalues⟩
    exact ⟨⟨_, _, found⟩, fork_eq_ok_iff.mpr ⟨_, _, _, rfl, hindex, hn, hload, htests, hfound⟩, rfl⟩
  · rintro ⟨f, hf, rfl⟩
    obtain ⟨fields, index, value, rfl, hindex, hn, hload, htests, hfound⟩ := fork_eq_ok_iff.mp hf
    obtain ⟨tasks, rfl, hvalues⟩ := exists_tests_iff.mp ⟨_, hfound⟩
    exact ⟨hindex, hn, hload, htests, hvalues⟩

theorem forall₂_readable_iff {indices : List ℤ} : List.Forall₂ Readable entries indices ↔
    ∃ forks, Converts entries forks ∧ forks.map SnapshotFork.index = indices := by
  constructor
  · intro h
    induction h with
    | nil => exact ⟨[], .nil, rfl⟩
    | cons hentry _ ih =>
        obtain ⟨f, hf, rfl⟩ := readable_iff.mp hentry
        obtain ⟨forks, hforks, rfl⟩ := ih
        exact ⟨f :: forks, .cons hf hforks, rfl⟩
  · rintro ⟨forks, hforks, rfl⟩
    exact List.forall₂_map_right_iff.mpr (hforks.imp fun _ f hf => readable_iff.mpr ⟨f, hf, rfl⟩)

/-! ### Documents -/

/-- What a snapshot is read from. -/
theorem ofDocument_eq_ok_iff : ofDocument document = .ok s ↔ ∃ entries forks,
    ListsEntries document entries ∧ Converts entries forks ∧ ofForks forks = .ok s := by
  constructor
  · intro h
    cases hversion : (document.field? "version").any isVersion with
    | false =>
        unfold ofDocument at h
        rw [hversion] at h
        cases h
    | true =>
        cases hmembers : members ((document.field? "workers").getD (.array [])) with
        | error fault =>
            unfold ofDocument at h
            rw [hversion, hmembers] at h
            cases h
        | ok entries =>
            rw [ofDocument_of_entries ⟨hversion, hmembers⟩] at h
            obtain ⟨forks, hforks, hs⟩ := bind_eq_ok_iff.mp h
            exact ⟨entries, forks, ⟨hversion, hmembers⟩, mapM_eq_ok_iff.mp hforks, hs⟩
  · rintro ⟨entries, forks, hentries, hforks, hs⟩
    rw [ofDocument_of_converts hentries hforks, hs]

theorem ListsEntries.unique {others : List Json} (h : ListsEntries document entries)
    (hothers : ListsEntries document others) : entries = others :=
  Except.ok.inj (h.members.symm.trans hothers.members)

/-- Each entry is converted to one of the forks. -/
theorem Converts.exists_fork (h : Converts entries forks) (hentry : entry ∈ entries) :
    ∃ f ∈ forks, fork entry = .ok f := by
  obtain ⟨k, hk⟩ := List.mem_iff_getElem?.mp hentry
  obtain ⟨f, hf⟩ := exists_mapM_eq_ok_iff.mp ⟨forks, mapM_eq_ok_iff.mpr h⟩ entry hentry
  exact ⟨f, List.mem_of_getElem? (h.entryAt_iff.mp ⟨entry, hk, hf⟩), hf⟩

/-- Each fork is what one of the entries is converted to. -/
theorem Converts.exists_entry (h : Converts entries forks) (hf : f ∈ forks) :
    ∃ entry ∈ entries, fork entry = .ok f := by
  obtain ⟨k, hk⟩ := List.mem_iff_getElem?.mp hf
  obtain ⟨entry, hentry, hread⟩ := h.entryAt_iff.mpr hk
  exact ⟨entry, List.mem_of_getElem? hentry, hread⟩

/-- Entries are told apart by the indices of their forks, if these can be numbered. -/
theorem Converts.inj (h : Converts entries forks) (hnumberable : Numberable forks)
    {other : Json} {g : SnapshotFork} (hentry : entry ∈ entries) (hother : other ∈ entries)
    (hf : fork entry = .ok f) (hg : fork other = .ok g) (hindex : f.index = g.index) :
    entry = other := by
  -- the indices that entries are converted to are those of the forks, so they are distinct
  have hmap : entries.map (fun e => (fork e).map SnapshotFork.index) =
      (forks.map SnapshotFork.index).map Except.ok := by
    clear hentry hother hnumberable
    induction h with
    | nil => rfl
    | cons hread _ ih => rw [List.map_cons, List.map_cons, List.map_cons, hread, ih]; rfl
  have hnodup : (entries.map fun e => (fork e).map SnapshotFork.index).Nodup := by
    rw [hmap]
    exact hnumberable.nodup.map fun _ _ => Except.ok.inj
  refine List.inj_on_of_nodup_map hnodup hentry hother ?_
  rw [hf, hg]
  exact congrArg Except.ok hindex

/-! ### Snapshots -/

/-- **A document holds a value for a task on a fork**: an entry with the fork's index does. -/
def Held (document : Json) (i : ℤ) (task : Text) (value : Json) : Prop :=
  ∃ entries entry, ListsEntries document entries ∧ entry ∈ entries ∧ EntryHolds i task value entry

/-- A value held is read as the names of the task. -/
theorem Held.testsFor_eq (h : Held document i task value) (hs : ofDocument document = .ok s) :
    ∃ names, s.testsFor i task = .ok names ∧ patterns value = .ok names := by
  obtain ⟨entries, forks, hentries, hforks, hmade⟩ := ofDocument_eq_ok_iff.mp hs
  obtain ⟨entries', entry, hentries', hentry, hholds⟩ := h
  obtain rfl := hentries'.unique hentries
  obtain ⟨f, hmem, hf⟩ := hforks.exists_fork hentry
  obtain ⟨rfl, names, hnames, hvalue⟩ := hholds.get?_fork hf
  refine ⟨names, ?_, hvalue⟩
  rw [testsFor_ofForks hmade hmem, hnames]
  rfl

/-- A document that is accepted holds one value for a task on a fork. -/
theorem Held.unique {other : Json} (h : Held document i task value)
    (hother : Held document i task other) (hs : ofDocument document = .ok s) : value = other := by
  obtain ⟨entries, forks, hentries, hforks, hmade⟩ := ofDocument_eq_ok_iff.mp hs
  obtain ⟨hnumberable, -⟩ := ofForks_eq_ok_iff.mp hmade
  obtain ⟨entries₁, entry₁, hentries₁, hentry₁, hholds₁⟩ := h
  obtain ⟨entries₂, entry₂, hentries₂, hentry₂, hholds₂⟩ := hother
  obtain rfl := hentries₁.unique hentries
  obtain rfl := hentries₂.unique hentries
  obtain ⟨f, -, hf⟩ := hforks.exists_fork hentry₁
  obtain ⟨g, -, hg⟩ := hforks.exists_fork hentry₂
  have hindex : f.index = g.index :=
    (hholds₁.get?_fork hf).1.trans (hholds₂.get?_fork hg).1.symm
  obtain rfl := hforks.inj hnumberable hentry₁ hentry₂ hf hg hindex
  exact hholds₁.unique hholds₂

/-- A name that a snapshot gives is read from a value held. -/
theorem exists_held (hs : ofDocument document = .ok s) (hnames : s.testsFor i task = .ok names)
    (hname : name ∈ names) : ∃ value, Held document i task value ∧ patterns value = .ok names := by
  obtain ⟨entries, forks, hentries, hforks, hmade⟩ := ofDocument_eq_ok_iff.mp hs
  obtain ⟨-, hbyIndex⟩ := ofForks_eq_ok_iff.mp hmade
  obtain ⟨f, hworker, rfl⟩ := map_eq_ok_iff.mp hnames
  obtain ⟨k, rfl, hk⟩ := atWorker_eq_ok_iff.mp hworker
  have hmem : f ∈ forks := by
    rw [← (perm_byIndex forks).mem_iff, ← hbyIndex]
    exact List.mem_of_getElem? hk
  obtain ⟨entry, hentry, hf⟩ := hforks.exists_entry hmem
  cases hget : f.tests.get? task with
  | none =>
      rw [hget] at hname
      cases hname
  | some found =>
      obtain ⟨value, hholds, hvalue⟩ := exists_entryHolds hf hget
      rw [index_eq hk] at hholds
      exact ⟨value, ⟨entries, entry, hentries, hentry, hholds⟩, hvalue⟩

/-- **The names that a snapshot gives are those that the value held tells.** -/
theorem mem_testsFor_iff (hs : ofDocument document = .ok s)
    (hnames : s.testsFor i task = .ok names) :
    name ∈ names ↔ ∃ value, Held document i task value ∧ Tells value name := by
  constructor
  · intro hname
    obtain ⟨value, hheld, hvalue⟩ := exists_held hs hnames hname
    exact ⟨value, hheld, (mem_patterns_iff hvalue).mp hname⟩
  · rintro ⟨value, hheld, htells⟩
    obtain ⟨names', hnames', hvalue⟩ := hheld.testsFor_eq hs
    obtain rfl := Except.ok.inj (hnames.symm.trans hnames')
    exact (mem_patterns_iff hvalue).mpr htells

/-- A document holds an array for a task on a fork, and a name is the text of an item of it. -/
def FromArray (document : Json) (i : ℤ) (task name : Text) : Prop :=
  ∃ items item, Held document i task (.array items) ∧ item ∈ items ∧
    name = (Value.ofJson item).plain

/-- **The names come from an array unless the value held is stray.** -/
theorem fromArray_iff (hs : ofDocument document = .ok s) (hnames : s.testsFor i task = .ok names) :
    (∀ name ∈ names, FromArray document i task name) ↔
      ∀ value, Held document i task value → ¬Stray value := by
  constructor
  · intro harray value hheld hstray
    -- a stray value has a name to show, and an array for it would be a second value held
    obtain ⟨name, htells⟩ := hstray.exists_tells
    have hname := (mem_testsFor_iff hs hnames).mpr ⟨value, hheld, htells⟩
    obtain ⟨items, -, hitems, -⟩ := harray name hname
    obtain rfl := hheld.unique hitems hs
    cases hstray
  · intro hnone name hname
    obtain ⟨value, hheld, htells⟩ := (mem_testsFor_iff hs hnames).mp hname
    obtain ⟨items, item, rfl, hitem, rfl⟩ | hstray := htells.item_or_stray
    · exact ⟨items, item, hheld, hitem, rfl⟩
    · exact absurd hstray (hnone value hheld)

/-- **The documents that are accepted.** -/
theorem exists_ofDocument_iff : (∃ s, ofDocument document = .ok s) ↔ ∃ entries indices,
    ListsEntries document entries ∧ List.Forall₂ Readable entries indices ∧
      indices.Perm ((List.range entries.length).map Int.ofNat) := by
  simp only [ofDocument_eq_ok_iff, forall₂_readable_iff]
  constructor
  · rintro ⟨s, entries, forks, hentries, hforks, hmade⟩
    have hnumberable := (ofForks_eq_ok_iff.mp hmade).1
    rw [Numberable, ← hforks.length_eq] at hnumberable
    exact ⟨entries, _, hentries, ⟨forks, hforks, rfl⟩, hnumberable⟩
  · rintro ⟨entries, _, hentries, ⟨forks, hforks, rfl⟩, hperm⟩
    rw [hforks.length_eq] at hperm
    obtain ⟨s, hmade, -⟩ := ofForks_of_numberable hperm
    exact ⟨s, entries, forks, hentries, hforks, hmade⟩

/-- **No pattern is invented, but a value that is no array is spelled out.**  The names that a plan
file gives for a task on a fork are those that the value held for it tells.  They are the texts of
the items of an array held there if and only if no text and no object with anything in it is.  Such
a value is no reason to refuse a document: those that are accepted list entries with the indices from
zero on, in any order, in which no task has a value that yields nothing. -/
theorem loaded_told [Json.Levels] {w : Workspace} {path : Path}
    (hfile : HoldsDocument w path document) :
    (∀ s, loaded w path = .ok s → ∀ i task names, s.testsFor i task = .ok names →
      (∀ name, name ∈ names ↔ ∃ value, Held document i task value ∧ Tells value name) ∧
      ((∀ name ∈ names, FromArray document i task name) ↔
        ∀ value, Held document i task value → ¬Stray value)) ∧
    ((∃ s, loaded w path = .ok s) ↔ ∃ entries indices,
      ListsEntries document entries ∧ List.Forall₂ Readable entries indices ∧
        indices.Perm ((List.range entries.length).map Int.ofNat)) := by
  have hok (s : Snapshot) : loaded w path = .ok s ↔ ofDocument document = .ok s := by
    rw [loaded_of_holds hfile, mapError_eq_ok_iff]
  refine ⟨fun s hs i task names hnames => ?_, ?_⟩
  · have hmade := (hok s).mp hs
    exact ⟨fun name => mem_testsFor_iff hmade hnames, fromArray_iff hmade hnames⟩
  · simp only [hok]
    exact exists_ofDocument_iff

/-- A document of one fork. -/
def singleDocument (tasks : List (Text × Json)) : Json :=
  .object [("version", .integer 1),
    ("workers", .array [.object [("index", .integer 0), ("tests", .object tasks)]])]

theorem held_singleDocument_iff {tasks : List (Text × Json)} :
    Held (singleDocument tasks) 0 task value ↔ Entries.get? tasks task = some value := by
  have hlists : ListsEntries (singleDocument tasks)
      [.object [("index", .integer 0), ("tests", .object tasks)]] := ⟨rfl, rfl⟩
  constructor
  · rintro ⟨entries, entry, hentries, hentry, hholds⟩
    obtain rfl := hentries.unique hlists
    obtain rfl := List.mem_singleton.mp hentry
    obtain ⟨-, -, htests, htask⟩ := hholds
    cases htests
    exact htask
  · intro h
    exact ⟨_, _, hlists, List.mem_singleton_self _, ⟨rfl, rfl, rfl, h⟩⟩

/-- A document of one fork is accepted if no task has a value that yields nothing. -/
theorem readable_singleDocument {tasks : List (Text × Json)} (h : ∀ e ∈ tasks, ¬Single e.2) :
    ∃ entries indices, ListsEntries (singleDocument tasks) entries ∧
      List.Forall₂ Readable entries indices ∧
        indices.Perm ((List.range entries.length).map Int.ofNat) :=
  ⟨_, [0], ⟨rfl, rfl⟩, .cons ⟨rfl, rfl, rfl, rfl, h⟩ .nil, List.Perm.refl _⟩

/-- An array of names, of which one is a number, and an object without fields. -/
def listedTasks : List (Text × Json) :=
  [("unit", .array [.text "slow*", .integer 5]), ("lint", .object [])]

/-- A plan file with these. -/
def listedPlan : String :=
  "\x7b\"version\": 1, \"workers\": [\x7b\"index\": 0, " ++
    "\"tests\": \x7b\"unit\": [\"slow*\", 5], \"lint\": \x7b\x7d\x7d\x7d]\x7d"

/-- The names of an array are given as they stand there, and an object without fields gives none. -/
theorem loaded_told_listed :
    ∃ s, loaded (withPlan listedPlan) (Path.ofText "plan.json") = .ok s ∧
      (∀ names, s.testsFor 0 "unit" = .ok names →
        ("5" : Text) ∈ names ∧ ∀ name ∈ names, FromArray (singleDocument listedTasks) 0 "unit" name) ∧
      ∀ names, s.testsFor 0 "lint" = .ok names → names = [] := by
  have hfile : HoldsDocument (withPlan listedPlan) (Path.ofText "plan.json")
      (singleDocument listedTasks) := holdsDocument_withPlan rfl
  obtain ⟨hnames, haccepted⟩ := loaded_told hfile
  have hvalues : ∀ e ∈ listedTasks, ¬Single e.2 :=
    List.forall_mem_cons.mpr ⟨nofun, List.forall_mem_singleton.mpr nofun⟩
  obtain ⟨s, hs⟩ := haccepted.mpr (readable_singleDocument hvalues)
  refine ⟨s, hs, fun names hunit => ⟨?_, ?_⟩, fun names hlint => ?_⟩
  · refine ((hnames s hs 0 "unit" names hunit).1 "5").mpr ⟨_, held_singleDocument_iff.mpr rfl, ?_⟩
    exact .item (List.mem_cons_of_mem _ (List.mem_singleton_self _))
  · refine (hnames s hs 0 "unit" names hunit).2.mpr fun value hvalue => ?_
    obtain rfl := Option.some_inj.mp (held_singleDocument_iff.mp hvalue)
    nofun
  · refine List.eq_nil_iff_forall_not_mem.mpr fun name hname => ?_
    obtain ⟨value, hvalue, htells⟩ := ((hnames s hs 0 "lint" names hlint).1 name).mp hname
    obtain rfl := Option.some_inj.mp (held_singleDocument_iff.mp hvalue)
    cases htells with
    | field h => cases h

/-- A text in the place of an array of names. -/
def spelledTasks : List (Text × Json) := [("unit", .text "slow*")]

/-- A plan file with it. -/
def spelledPlan : String :=
  "\x7b\"version\": 1, \"workers\": [\x7b\"index\": 0, " ++
    "\"tests\": \x7b\"unit\": \"slow*\"\x7d\x7d]\x7d"

/-- **A text is taken for names.**  The document is accepted, and each point of the text is a name
that is in no array. -/
theorem spelled_out :
    HoldsDocument (withPlan spelledPlan) (Path.ofText "plan.json") (singleDocument spelledTasks) ∧
    Held (singleDocument spelledTasks) 0 "unit" (.text "slow*") ∧
    ∃ s, loaded (withPlan spelledPlan) (Path.ofText "plan.json") = .ok s ∧
      s.testsFor 0 "unit" = .ok ["s", "l", "o", "w", "*"] ∧
      ∀ name, ¬FromArray (singleDocument spelledTasks) 0 "unit" name := by
  have hfile : HoldsDocument (withPlan spelledPlan) (Path.ofText "plan.json")
      (singleDocument spelledTasks) := holdsDocument_withPlan rfl
  have hheld : Held (singleDocument spelledTasks) 0 "unit" (.text "slow*") :=
    held_singleDocument_iff.mpr rfl
  have hvalues : ∀ e ∈ spelledTasks, ¬Single e.2 := List.forall_mem_singleton.mpr nofun
  obtain ⟨s, hs⟩ := exists_ofDocument_iff.mpr (readable_singleDocument hvalues)
  obtain ⟨names, hnames, hvalue⟩ := hheld.testsFor_eq hs
  obtain rfl : (["s", "l", "o", "w", "*"] : List Text) = names := Except.ok.inj hvalue
  refine ⟨hfile, hheld, s, ?_, hnames, ?_⟩
  · rw [loaded_of_holds hfile, mapError_eq_ok_iff]
    exact hs
  · rintro name ⟨items, item, hitems, -⟩
    cases hheld.unique hitems hs

end SuiteBalance.Snapshot
