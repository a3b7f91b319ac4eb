import Mathlib
import SuiteBalance.Proofs.Json.RoundTrip
import SuiteBalance.Proofs.Schedule.Tasks
import SuiteBalance.Proofs.Traversal
import SuiteBalance.Snapshot.Document

/-!
# Proofs — Snapshot — the document of a plan

The document of a plan is read back as what the plan's forks say of the texts of their tasks.  Of
tasks with one text the last on a fork is kept; tasks that are names are told apart by their texts.

* **`Fork.keptPatterns`**: what a document keeps under a text.
* **`Fork.snapshot`**: what a snapshot knows of a fork.
* `Fork.testsByText_eq`: all of its tasks, if they are names.
* `Plan.fits_document`: the document of a plan can be written.
* **`Plan.ofDocument_document`**: it is read as the snapshots of the plan's forks.
-/

namespace SuiteBalance

namespace Task

/-- A task that is a name. -/
def IsName (t : Task) : Prop := ∃ s : Text, t = .name s

/-- A task that is a string. -/
def IsString (t : Task) : Prop := ∃ s : String, t = .name s

variable {t : Task}

theorem IsString.isName (h : t.IsString) : t.IsName := by
  obtain ⟨s, rfl⟩ := h
  exact ⟨s, rfl⟩

theorem IsName.isWritable (h : t.IsName) : t.isWritable = true := by
  obtain ⟨s, rfl⟩ := h
  rfl

theorem IsString.unpaired (h : t.IsString) : t.text.Unpaired := by
  obtain ⟨s, rfl⟩ := h
  exact Text.unpaired_ofString s

/-- Names are told apart by their texts. -/
theorem text_inj {s : Task} (hs : s.IsName) (ht : t.IsName) (h : s.text = t.text) : s = t := by
  obtain ⟨s, rfl⟩ := hs
  obtain ⟨t, rfl⟩ := ht
  exact congrArg Task.name h

end Task

/-! ### What a document says of a fork -/

namespace Fork

/-- The last task of a fork with a text. -/
def lastTask? (f : Fork) (t : Text) : Option Task := f.taskList.reverse.find? (·.text == t)

/-- The patterns that a document keeps under a text: those of the last task with the text. -/
def keptPatterns (f : Fork) (t : Text) : List String :=
  ((f.lastTask? t).map f.patternsOf).getD []

/-- What a snapshot knows of a fork. -/
def snapshot (f : Fork) : SnapshotFork where
  index := f.index
  load := f.load
  tests := f.testsByText.map fun e => (e.1, e.2.map Text.ofString)

variable {f : Fork}

theorem of_lastTask? {t : Text} {u : Task} (h : f.lastTask? t = some u) :
    u ∈ f.taskList ∧ u.text = t := by
  have htext : (u.text == t) = true := List.find?_some (p := fun u : Task => u.text == t) h
  exact ⟨List.mem_reverse.mp (List.mem_of_find?_eq_some h), beq_iff_eq.mp htext⟩

theorem text_ne_of_lastTask? {t : Text} (h : f.lastTask? t = none) {u : Task}
    (hu : u ∈ f.taskList) : u.text ≠ t := by
  rintro rfl
  exact List.find?_eq_none.mp h u (List.mem_reverse.mpr hu) (beq_self_eq_true u.text)

theorem nodup_taskList (f : Fork) : f.taskList.Nodup := by
  by_cases h : f.isFrozen = true
  · rw [taskList_eq h]
    exact nodup_eraseDups _
  · rw [taskList_of_not_frozen h]
    exact List.nodup_nil

/-- The tasks are put in one by one. -/
theorem testsByText_eq_foldl (f : Fork) :
    f.testsByText =
      f.taskList.foldl (fun tests t => Entries.put tests t.text (f.patternsOf t)) [] := by
  rw [testsByText]
  conv_lhs => rw [Entries.eq_map_keys (nodup_taskList f) []]
  rw [List.foldl_map]
  rfl

/-- The texts of tasks are distinct in a document. -/
theorem nodup_keys_testsByText (f : Fork) : (f.testsByText.map Prod.fst).Nodup := by
  rw [testsByText_eq_foldl]
  exact Entries.nodup_keys_foldl_put Task.text f.patternsOf f.taskList

/-- **Under a text stand the patterns of the last task with it.** -/
theorem get?_testsByText (f : Fork) (t : Text) :
    (f.testsByText.get? t).getD [] = f.keptPatterns t := by
  rw [testsByText_eq_foldl, Entries.get?_foldl_put]
  rfl

/-- The texts of tasks that are names are distinct. -/
theorem nodup_texts (h : ∀ t ∈ f.taskList, t.IsName) : (f.taskList.map Task.text).Nodup :=
  (nodup_taskList f).map_on fun s hs t ht => Task.text_inj (h s hs) (h t ht)

/-- The tasks that are names keep their places. -/
theorem testsByText_eq (h : ∀ t ∈ f.taskList, t.IsName) :
    f.testsByText = f.taskList.map fun t => (t.text, f.patternsOf t) := by
  have hdistinct : ((f.taskList.map fun t => (t.text, f.patternsOf t)).map Prod.fst).Nodup := by
    rw [List.map_map]
    exact nodup_texts h
  rw [testsByText_eq_foldl, ← List.foldl_map (f := fun t => (t.text, f.patternsOf t))
    (g := fun tests (e : Text × List String) => Entries.put tests e.1 e.2)]
  exact Entries.foldl_put hdistinct

/-- The document of a fork can be written. -/
theorem fits_document (h : ∀ t ∈ f.taskList, t.text.Unpaired)
    (hindex : Number.isWritable f.index = true) : Json.Fits 3 f.document := by
  refine .object ?_ ?_ ?_
  · change (["index", "duration", "tests"] : List Text).Nodup
    decide
  · simp only [List.forall_mem_cons]
    exact ⟨Text.unpaired_ofString _, Text.unpaired_ofString _, Text.unpaired_ofString _, nofun⟩
  · simp only [List.forall_mem_cons]
    refine ⟨.integer hindex, .real f.load, .object ?_ ?_ ?_, nofun⟩
    · rw [List.map_map]
      exact nodup_keys_testsByText f
    · intro field hfield
      obtain ⟨e, he, rfl⟩ := List.mem_map.mp hfield
      rw [testsByText_eq_foldl] at he
      obtain ⟨t, ht, htext⟩ := Entries.exists_of_mem_foldl_put he
      exact htext ▸ h t ht
    · intro field hfield
      obtain ⟨e, -, rfl⟩ := List.mem_map.mp hfield
      refine .array fun v hv => ?_
      obtain ⟨name, -, rfl⟩ := List.mem_map.mp hv
      exact .text (Text.unpaired_ofString name)

end Fork

/-! ### Reading the document -/

namespace Snapshot

theorem patterns_array (names : List String) :
    patterns (.array (names.map fun (name : String) => .text name)) =
      .ok (names.map Text.ofString) := by
  rw [patterns, members, Except.map, List.map_map]
  refine congrArg Except.ok (List.map_congr_left fun name _ => ?_)
  simp [Value.ofJson, Value.plain]

/-- The tests in the document of a fork. -/
theorem tests_document (f : Fork) :
    tests (.object (f.testsByText.map fun e =>
      (e.1, .array (e.2.map fun (name : String) => .text name)))) = .ok f.snapshot.tests := by
  rw [tests, List.mapM_map]
  refine mapM_ok fun e _ => ?_
  exact congrArg (Except.map (e.1, ·)) (patterns_array e.2)

/-- **The document of a fork is read as its snapshot.** -/
theorem fork_document (f : Fork) : fork f.document = .ok f.snapshot := by
  have htests := tests_document f
  unfold Fork.document
  -- the three look-ups are computed without looking into the tests
  generalize Json.object (f.testsByText.map fun e =>
    (e.1, .array (e.2.map fun (name : String) => .text name))) = documented at *
  have hindex : required [("index", .integer f.index), ("duration", .real f.load),
      ("tests", documented)] "index" = .ok (.integer f.index) := rfl
  have hload : Entries.get? [(("index" : Text), .integer f.index), ("duration", .real f.load),
      ("tests", documented)] "duration" = some (.real f.load) := rfl
  have hfield : required [("index", .integer f.index), ("duration", .real f.load),
      ("tests", documented)] "tests" = .ok documented := rfl
  have hinteger : (Value.ofJson (.integer f.index)).toInteger = .ok f.index := by
    rw [Value.ofJson]
    rfl
  have hreal : (Value.ofJson (.real f.load)).toFloat = .ok f.load := by
    rw [Value.ofJson]
    rfl
  rw [fork, hindex, hload, hfield]
  change ((Value.ofJson (.integer f.index)).toInteger.mapError .number).bind (fun index =>
    ((Value.ofJson (.real f.load)).toFloat.mapError .number).bind fun load =>
      (tests documented).bind fun tests => .ok (SnapshotFork.mk index load tests)) = _
  rw [hinteger, hreal, htests]
  rfl

/-- Forks in the order of their indices are not moved. -/
theorem ofForks_numbered {forks : List SnapshotFork}
    (h : forks.map SnapshotFork.index = (List.range forks.length).map Int.ofNat) :
    ofForks forks = .ok ⟨forks, h⟩ := by
  have hsorted : forks.Pairwise fun a b => decide (a.index ≤ b.index) = true := by
    have hrange : ((List.range forks.length).map Int.ofNat).Pairwise (· ≤ ·) :=
      List.pairwise_map.mpr (List.pairwise_le_range.imp Int.ofNat_le.mpr)
    rw [← h, List.pairwise_map] at hrange
    exact hrange.imp decide_eq_true
  have hmerge : (forks.mergeSort fun a b => decide (a.index ≤ b.index)) = forks :=
    List.mergeSort_of_pairwise hsorted
  simp only [ofForks, hmerge]
  rw [dif_pos h]

end Snapshot

namespace Plan

/-- The forks of a plan stand at their indices. -/
def Numbered (p : Plan) : Prop := p.forks.map Fork.index = List.range p.forks.length

variable {p : Plan} {doc : Json}

/-- The document of a plan with a slowest fork. -/
theorem document_eq (hdoc : p.document = .ok doc) : ∃ makespan,
    p.makespan = .ok makespan ∧ doc = .object [
      ("version", .integer documentVersion),
      ("fork_count", .integer p.forkCount),
      ("makespan", .real makespan),
      ("workers", .array (p.forks.map Fork.document))] := by
  unfold document at hdoc
  cases hmakespan : p.makespan with
  | error e =>
      rw [hmakespan] at hdoc
      cases hdoc
  | ok makespan =>
      rw [hmakespan] at hdoc
      cases hwritable : p.isWritable with
      | false =>
          rw [hwritable] at hdoc
          cases hdoc
      | true =>
          rw [hwritable] at hdoc
          exact ⟨makespan, rfl, (Except.ok.inj hdoc).symm⟩

/-- A plan with forks has a document, if its tasks can be written. -/
theorem exists_document (hne : p.forks ≠ []) (hwritable : p.isWritable = true) :
    ∃ doc, p.document = .ok doc := by
  unfold document makespan loads
  rw [hwritable]
  cases hforks : p.forks with
  | nil => exact absurd hforks hne
  | cons f rest => exact ⟨_, rfl⟩

theorem Numbered.lt (h : p.Numbered) {f : Fork} (hf : f ∈ p.forks) : f.index < p.forkCount := by
  have hmem := List.mem_map_of_mem (f := Fork.index) hf
  rw [h] at hmem
  exact List.mem_range.mp hmem

/-- **The document of a plan can be written** if its number of forks can. -/
theorem fits_document (hdoc : p.document = .ok doc) (hnumbered : p.Numbered)
    (hcount : Number.isWritable p.forkCount = true)
    (h : ∀ f ∈ p.forks, ∀ t ∈ f.taskList, t.text.Unpaired) : Json.Fits 5 doc := by
  obtain ⟨makespan, -, rfl⟩ := document_eq hdoc
  refine .object ?_ ?_ ?_
  · change (["version", "fork_count", "makespan", "workers"] : List Text).Nodup
    decide
  · simp only [List.forall_mem_cons]
    exact ⟨Text.unpaired_ofString _, Text.unpaired_ofString _, Text.unpaired_ofString _,
      Text.unpaired_ofString _, nofun⟩
  · simp only [List.forall_mem_cons]
    refine ⟨.integer (Json.isWritable_of_lt (by decide)), .integer hcount, .real makespan,
      .array fun v hv => ?_, nofun⟩
    obtain ⟨f, hf, rfl⟩ := List.mem_map.mp hv
    exact Fork.fits_document (h f hf) (Json.isWritable_mono (hnumbered.lt hf).le hcount)

/-- **The document of a plan is read as the snapshots of its forks.** -/
theorem ofDocument_document (hdoc : p.document = .ok doc) (hnumbered : p.Numbered) :
    ∃ s, Snapshot.ofDocument doc = .ok s ∧ s.forks = p.forks.map Fork.snapshot := by
  obtain ⟨makespan, -, rfl⟩ := document_eq hdoc
  have hforks : (p.forks.map Fork.document).mapM Snapshot.fork =
      .ok (p.forks.map Fork.snapshot) := by
    rw [List.mapM_map]
    exact mapM_ok fun f _ => Snapshot.fork_document f
  have hindices : (p.forks.map Fork.snapshot).map SnapshotFork.index =
      (List.range (p.forks.map Fork.snapshot).length).map Int.ofNat := by
    rw [List.length_map, ← hnumbered, List.map_map, List.map_map]
    rfl
  refine ⟨⟨_, hindices⟩, ?_, rfl⟩
  rw [← Snapshot.ofForks_numbered hindices]
  generalize p.forks.map Fork.document = documents at *
  have hversion : (Json.field? (.object [("version", .integer documentVersion),
      ("fork_count", .integer p.forkCount), ("makespan", .real makespan),
      ("workers", .array documents)]) "version").any Snapshot.isVersion = true := rfl
  have hworkers : Json.field? (.object [("version", .integer documentVersion),
      ("fork_count", .integer p.forkCount), ("makespan", .real makespan),
      ("workers", .array documents)]) "workers" = some (.array documents) := rfl
  rw [Snapshot.ofDocument, hversion, hworkers]
  change (documents.mapM Snapshot.fork).bind Snapshot.ofForks = _
  rw [hforks]
  rfl

end Plan

end SuiteBalance
