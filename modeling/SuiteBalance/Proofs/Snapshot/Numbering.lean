import Mathlib
import SuiteBalance.Proofs.Schedule.Tasks
import SuiteBalance.Proofs.Text.Utf8
import SuiteBalance.Proofs.Traversal
import SuiteBalance.Proofs.Workspace.Calls
import SuiteBalance.Snapshot.File

/-!
# Proofs — Snapshot — entries in any order

A document may list the forks of a plan in any order.  They are put in order by their indices, and
the document is refused unless these are the positions that the forks then have.

* **`Numberable`**: the forks that can be put in their positions.
* `ofForks_perm`: their order in the document is all one.
* `testsFor_ofForks`: the entry with an index is the one that answers for it.
* `ListsEntries`, `ofDocument_of_entries`: a document is read entry by entry.
* **`loaded_numbered`**: all this of the files of plans.
-/

namespace SuiteBalance.Snapshot

variable {forks others : List SnapshotFork} {s : Snapshot}

/-! ### Indices -/

/-- The indices of some forks are those from zero on, in any order. -/
def Numberable (forks : List SnapshotFork) : Prop :=
  (forks.map SnapshotFork.index).Perm ((List.range forks.length).map Int.ofNat)

/-- Forks by their indices. -/
def byIndex (forks : List SnapshotFork) : List SnapshotFork :=
  forks.mergeSort fun a b => decide (a.index ≤ b.index)

theorem perm_byIndex (forks : List SnapshotFork) : (byIndex forks).Perm forks :=
  List.mergeSort_perm forks _

theorem pairwise_byIndex (forks : List SnapshotFork) :
    ((byIndex forks).map SnapshotFork.index).Pairwise (· ≤ ·) := by
  have hsorted : (byIndex forks).Pairwise fun a b => decide (a.index ≤ b.index) = true := by
    refine List.pairwise_mergeSort (fun a b c hab hbc => ?_) (fun a b => ?_) forks
    · rw [decide_eq_true_iff] at *
      exact hab.trans hbc
    · rw [Bool.or_eq_true, decide_eq_true_iff, decide_eq_true_iff]
      exact le_total _ _
  exact List.pairwise_map.mpr (hsorted.imp of_decide_eq_true)

/-- Indices that are sorted are numbered if and only if they are those from zero on. -/
theorem map_index_byIndex_iff : (byIndex forks).map SnapshotFork.index =
    (List.range (byIndex forks).length).map Int.ofNat ↔ Numberable forks := by
  have hperm := (perm_byIndex forks).map SnapshotFork.index
  rw [(perm_byIndex forks).length_eq]
  constructor
  · intro h
    exact hperm.symm.trans (List.Perm.of_eq h)
  · intro h
    have hrange : ((List.range forks.length).map Int.ofNat).Pairwise (· ≤ ·) :=
      List.pairwise_map.mpr (List.pairwise_le_range.imp Int.ofNat_le.mpr)
    exact (hperm.trans h).eq_of_pairwise (fun _ _ _ _ => le_antisymm) (pairwise_byIndex forks) hrange

/-- Forks that can be numbered have distinct indices. -/
theorem Numberable.nodup (h : Numberable forks) : (forks.map SnapshotFork.index).Nodup :=
  h.nodup_iff.mpr (List.nodup_range.map fun _ _ => Int.ofNat.inj)

theorem Numberable.inj (h : Numberable forks) {f g : SnapshotFork} (hf : f ∈ forks) (hg : g ∈ forks)
    (hindex : f.index = g.index) : f = g :=
  List.inj_on_of_nodup_map h.nodup hf hg hindex

theorem Numberable.perm (h : Numberable forks) (hperm : forks.Perm others) : Numberable others := by
  have hindices := (hperm.map SnapshotFork.index).symm.trans h
  rwa [hperm.length_eq] at hindices

/-- Where the order is by distinct indices, it does not matter what the order was before. -/
theorem byIndex_perm (h : Numberable forks) (hperm : forks.Perm others) :
    byIndex forks = byIndex others := by
  have hall : (byIndex forks).Perm (byIndex others) :=
    (perm_byIndex forks).trans (hperm.trans (perm_byIndex others).symm)
  -- only distinct indices make the order by them antisymmetric
  refine hall.eq_of_pairwise (fun f g hf hg hfg hgf => ?_)
    (List.pairwise_map.mp (pairwise_byIndex forks)) (List.pairwise_map.mp (pairwise_byIndex others))
  have hg' : g ∈ forks := (perm_byIndex forks).mem_iff.mp (hall.mem_iff.mpr hg)
  exact h.inj ((perm_byIndex forks).mem_iff.mp hf) hg' (le_antisymm hfg hgf)

/-! ### Forks in any order -/

/-- Forks that can be numbered are put in their positions. -/
theorem ofForks_of_numberable (h : Numberable forks) :
    ∃ s, ofForks forks = .ok s ∧ s.forks = byIndex forks := by
  have hnumbered := map_index_byIndex_iff.mpr h
  refine ⟨⟨byIndex forks, hnumbered⟩, ?_, rfl⟩
  exact dif_pos hnumbered

/-- Other forks are refused. -/
theorem ofForks_of_not_numberable (h : ¬Numberable forks) : ofForks forks = .error .notNumbered :=
  dif_neg (map_index_byIndex_iff.not.mpr h)

/-- **What a snapshot is made of**: forks that can be numbered, each at its index. -/
theorem ofForks_eq_ok_iff : ofForks forks = .ok s ↔ Numberable forks ∧ s.forks = byIndex forks := by
  by_cases h : Numberable forks
  · obtain ⟨made, hmade, hforks⟩ := ofForks_of_numberable h
    rw [hmade, Except.ok.injEq]
    constructor
    · rintro rfl
      exact ⟨h, hforks⟩
    · rintro ⟨-, hs⟩
      obtain ⟨_, _⟩ := made
      obtain ⟨_, _⟩ := s
      dsimp only at hforks hs
      subst hforks hs
      rfl
  · rw [ofForks_of_not_numberable h]
    exact iff_of_false nofun fun hs => h hs.1

/-- **The order of the forks is all one**, whether or not they can be numbered. -/
theorem ofForks_perm (hperm : forks.Perm others) : ofForks forks = ofForks others := by
  by_cases h : Numberable forks
  · obtain ⟨s, hs, hforks⟩ := ofForks_of_numberable h
    rw [hs, eq_comm, ofForks_eq_ok_iff]
    exact ⟨h.perm hperm, hforks.trans (byIndex_perm h hperm)⟩
  · rw [ofForks_of_not_numberable h, ofForks_of_not_numberable fun hothers => h (hothers.perm hperm.symm)]

/-- A fork of a snapshot stands at its index. -/
theorem index_eq {i : ℕ} {f : SnapshotFork} (h : s.forks[i]? = some f) : f.index = i := by
  have hget : (s.forks.map SnapshotFork.index)[i]? =
      ((List.range s.forks.length).map Int.ofNat)[i]? := congrArg (·[i]?) s.numbered
  rw [List.getElem?_map, h, List.getElem?_map,
    List.getElem?_range (List.getElem?_eq_some_iff.mp h).1] at hget
  exact Option.some_inj.mp hget

/-- **The fork with an index answers for it.** -/
theorem testsFor_ofForks (h : ofForks forks = .ok s) {f : SnapshotFork} (hf : f ∈ forks)
    (task : Text) : s.testsFor f.index task = .ok ((f.tests.get? task).getD []) := by
  obtain ⟨-, hforks⟩ := ofForks_eq_ok_iff.mp h
  have hmem : f ∈ s.forks := by
    rw [hforks]
    exact (perm_byIndex forks).mem_iff.mpr hf
  obtain ⟨i, hi⟩ := List.mem_iff_getElem?.mp hmem
  rw [testsFor, atWorker_eq_ok_iff.mpr ⟨i, index_eq hi, hi⟩]
  rfl

/-! ### Documents -/

/-- A document of the version that is read lists some entries. -/
structure ListsEntries (document : Json) (entries : List Json) : Prop where
  version : (document.field? "version").any isVersion = true
  members : members ((document.field? "workers").getD (.array [])) = .ok entries

/-- The forks that entries are converted to. -/
def Converts (entries : List Json) (forks : List SnapshotFork) : Prop :=
  List.Forall₂ (fun entry f => fork entry = .ok f) entries forks

variable {document : Json} {entries : List Json}

/-- A document is read entry by entry. -/
theorem ofDocument_of_entries (h : ListsEntries document entries) :
    ofDocument document = entries.mapM fork >>= ofForks := by
  unfold ofDocument
  rw [h.version, h.members]
  rfl

/-- A document whose entries are converted comes to the forks that these are. -/
theorem ofDocument_of_converts (h : ListsEntries document entries) (hforks : Converts entries forks) :
    ofDocument document = ofForks forks := by
  rw [ofDocument_of_entries h, mapM_eq_ok_iff.mpr hforks]
  rfl

/-- The entry at a position is converted to a fork. -/
def EntryAt (entries : List Json) (k : ℕ) (f : SnapshotFork) : Prop :=
  ∃ entry, entries[k]? = some entry ∧ fork entry = .ok f

theorem Converts.entryAt_iff (h : Converts entries forks) {k : ℕ} {f : SnapshotFork} :
    EntryAt entries k f ↔ forks[k]? = some f := by
  unfold EntryAt
  induction h generalizing k with
  | nil => simp
  | @cons entry g entries forks hentry _ ih =>
      cases k with
      | zero => simp [hentry]
      | succ k => simpa using ih

/-- **One entry has the index of each fork.** -/
theorem Converts.exists_entryAt (h : Converts entries forks) (hnumberable : Numberable forks) {i : ℕ}
    (hi : i < entries.length) : ∃ k f, EntryAt entries k f ∧ f.index = i ∧
      ∀ k' g, EntryAt entries k' g → g.index = i → k' = k := by
  have hmem : (i : ℤ) ∈ forks.map SnapshotFork.index := by
    rw [hnumberable.mem_iff, ← List.Forall₂.length_eq h]
    exact List.mem_map_of_mem (List.mem_range.mpr hi)
  obtain ⟨f, hf, hindex⟩ := List.mem_map.mp hmem
  obtain ⟨k, hk⟩ := List.mem_iff_getElem?.mp hf
  refine ⟨k, f, h.entryAt_iff.mpr hk, hindex, fun k' g hg hgi => ?_⟩
  have hk' := h.entryAt_iff.mp hg
  have hlt : k' < (forks.map SnapshotFork.index).length := by
    rw [List.length_map]
    exact (List.getElem?_eq_some_iff.mp hk').1
  refine (List.getElem?_inj hlt hnumberable.nodup).mp ?_
  rw [List.getElem?_map, List.getElem?_map, hk, hk', Option.map_some, Option.map_some, hindex, hgi]

/-! ### Files -/

/-- What comes of loading a plan file. -/
def loaded [Json.Levels] (w : Workspace) (path : Path) : Except PlanFileError Snapshot :=
  (ask (load path : StateM Workspace (Except PlanFileError Snapshot)) w).1

/-- A file holds a document. -/
def HoldsDocument [Json.Levels] (w : Workspace) (path : Path) (document : Json) : Prop :=
  ∃ bytes text, w.read path = .ok bytes ∧ Text.Utf8.decode bytes = .ok text ∧
    Json.parse (Text.unifyBreaks text) = .ok document

theorem loaded_of_holds [Json.Levels] {w : Workspace} {path : Path}
    (h : HoldsDocument w path document) :
    loaded w path = (ofDocument document).mapError .document := by
  obtain ⟨bytes, text, hread, hdecode, hparse⟩ := h
  rw [loaded, load, ask_bind, Workspace.ask_read hread]
  dsimp only
  rw [ask_pure, ofBytes, hdecode]
  change ((Json.parse (Text.unifyBreaks text)).mapError PlanFileError.notJson).bind
    (fun document => (ofDocument document).mapError PlanFileError.document) = _
  rw [hparse]
  rfl

theorem mapError_eq_ok_iff {α ε ε' : Type} {outcome : Except ε α} {f : ε → ε'} {a : α} :
    outcome.mapError f = .ok a ↔ outcome = .ok a := by
  cases outcome <;> simp [Except.mapError]

/-- **A document whose entries are converted is taken for a plan if and only if the indices are those
from zero on, in any order.**  Otherwise it is refused for that.  The snapshot has a fork for each
entry, at the index that the entry gives it, and answers for it with the tests of that one entry; and
a document with the entries in another order comes to the same. -/
theorem loaded_numbered [Json.Levels] {w : Workspace} {path : Path}
    (hfile : HoldsDocument w path document) (hentries : ListsEntries document entries)
    (hforks : Converts entries forks) :
    ((∃ s, loaded w path = .ok s) ↔ Numberable forks) ∧
    (¬Numberable forks → loaded w path = .error (.document .notNumbered)) ∧
    (∀ s, loaded w path = .ok s →
      s.forkCount = entries.length ∧ (∀ (i : ℕ) f, s.forks[i]? = some f → f.index = i) ∧
      ∀ i < entries.length, ∃ k f, EntryAt entries k f ∧ f.index = (i : ℕ) ∧
        (∀ k' g, EntryAt entries k' g → g.index = (i : ℕ) → k' = k) ∧
        ∀ task, s.testsFor (i : ℕ) task = .ok ((f.tests.get? task).getD [])) ∧
    ∀ (v : Workspace) (other : Path) (reordered : Json) (permuted : List Json),
      HoldsDocument v other reordered → ListsEntries reordered permuted → entries.Perm permuted →
        loaded v other = loaded w path := by
  have hloaded : loaded w path = (ofForks forks).mapError .document := by
    rw [loaded_of_holds hfile, ofDocument_of_converts hentries hforks]
  have hok (s : Snapshot) : loaded w path = .ok s ↔ ofForks forks = .ok s := by
    rw [hloaded, mapError_eq_ok_iff]
  refine ⟨?_, fun h => ?_, fun s hs => ?_, fun v other reordered permuted hother hpermuted hperm => ?_⟩
  · simp only [hok]
    constructor
    · rintro ⟨s, hs⟩
      exact (ofForks_eq_ok_iff.mp hs).1
    · intro h
      obtain ⟨s, hs, -⟩ := ofForks_of_numberable h
      exact ⟨s, hs⟩
  · rw [hloaded, ofForks_of_not_numberable h]
    rfl
  · have hmade := (hok s).mp hs
    obtain ⟨hnumberable, hbyIndex⟩ := ofForks_eq_ok_iff.mp hmade
    refine ⟨?_, fun i f => index_eq, fun i hi => ?_⟩
    · rw [forkCount, hbyIndex, (perm_byIndex forks).length_eq]
      exact (List.Forall₂.length_eq hforks).symm
    · obtain ⟨k, f, hentry, hindex, honly⟩ := hforks.exists_entryAt hnumberable hi
      refine ⟨k, f, hentry, hindex, honly, fun task => ?_⟩
      rw [← hindex]
      exact testsFor_ofForks hmade (List.mem_of_getElem? (hforks.entryAt_iff.mp hentry)) task
  · obtain ⟨forks', hforks', hforksPerm⟩ := List.perm_comp_forall₂ hperm.symm hforks
    rw [loaded_of_holds hother, ofDocument_of_converts hpermuted hforks', hloaded,
      ofForks_perm hforksPerm]

/-- An entry whose index is written as a text. -/
def slowEntry : Json :=
  .object [("index", .text "1"), ("tests", .object [("unit", .array [.text "slow*"])])]

/-- An entry whose index is a truth value, and on which nothing runs. -/
def idleEntry : Json := .object [("index", .bool false), ("tests", .object [])]

/-- The fork of the first entry. -/
def slowFork : SnapshotFork := ⟨1, 0.0, [("unit", ["slow*"])]⟩

/-- The fork of the second entry. -/
def idleFork : SnapshotFork := ⟨0, 0.0, []⟩

/-- A document of two entries. -/
def pairDocument (first second : Json) : Json :=
  .object [("version", .integer 1), ("workers", .array [first, second])]

/-- A plan file with the entry of the second fork first. -/
def swappedPlan : String :=
  "\x7b\"version\": 1, \"workers\": [\x7b\"index\": \"1\", \"tests\": \x7b\"unit\": [\"slow*\"]\x7d\x7d, " ++
    "\x7b\"index\": false, \"tests\": \x7b\x7d\x7d]\x7d"

/-- A plan file with the same entries in the order of the forks. -/
def orderedPlan : String :=
  "\x7b\"version\": 1, \"workers\": [\x7b\"index\": false, \"tests\": \x7b\x7d\x7d, " ++
    "\x7b\"index\": \"1\", \"tests\": \x7b\"unit\": [\"slow*\"]\x7d\x7d]\x7d"

/-- A workspace with a plan file. -/
def withPlan (text : String) : Workspace :=
  ({} : Workspace).withFile ["plan.json"] text.toUTF8.toList

theorem holdsDocument_withPlan {text : String}
    (h : Json.parse (Text.unifyBreaks text.toList) = .ok document) :
    HoldsDocument (withPlan text) (Path.ofText "plan.json") document := by
  have hdecode := Text.decode_toUTF8 text.toList
  rw [String.ofList_toList] at hdecode
  exact ⟨_, _, rfl, hdecode, h⟩

/-- Two entries in the wrong order make a plan of two forks, and so they do in the right order. -/
theorem loaded_numbered_swapped :
    ∃ s, loaded (withPlan swappedPlan) (Path.ofText "plan.json") = .ok s ∧ s.forkCount = 2 ∧
      s.testsFor 1 "unit" = .ok ["slow*"] ∧ s.testsFor 0 "unit" = .ok [] ∧
      loaded (withPlan orderedPlan) (Path.ofText "plan.json") = .ok s := by
  have hswapped : HoldsDocument (withPlan swappedPlan) (Path.ofText "plan.json")
      (pairDocument slowEntry idleEntry) := holdsDocument_withPlan rfl
  have hordered : HoldsDocument (withPlan orderedPlan) (Path.ofText "plan.json")
      (pairDocument idleEntry slowEntry) := holdsDocument_withPlan rfl
  have hforks : Converts [slowEntry, idleEntry] [slowFork, idleFork] :=
    .cons rfl (.cons rfl .nil)
  have hnumberable : Numberable [slowFork, idleFork] := List.Perm.swap 0 1 []
  obtain ⟨haccepted, -, hanswers, hperm⟩ := loaded_numbered hswapped ⟨rfl, rfl⟩ hforks
  obtain ⟨s, hs⟩ := haccepted.mpr hnumberable
  obtain ⟨hcount, -, hentry⟩ := hanswers s hs
  refine ⟨s, hs, hcount, ?_, ?_, ?_⟩
  · obtain ⟨k, f, hk, hindex, -, htests⟩ := hentry 1 (by decide)
    have hmem := List.mem_of_getElem? (hforks.entryAt_iff.mp hk)
    rcases List.mem_pair.mp hmem with rfl | rfl
    · exact htests "unit"
    · cases hindex
  · obtain ⟨k, f, hk, hindex, -, htests⟩ := hentry 0 (by decide)
    have hmem := List.mem_of_getElem? (hforks.entryAt_iff.mp hk)
    rcases List.mem_pair.mp hmem with rfl | rfl
    · cases hindex
    · exact htests "unit"
  · rw [hperm _ _ _ _ hordered ⟨rfl, rfl⟩ (List.Perm.swap _ _ _), hs]

end SuiteBalance.Snapshot
