import Mathlib
import SuiteBalance.Proofs.Json.Plain
import SuiteBalance.Proofs.Planner.Partition
import SuiteBalance.Proofs.Planner.Replay
import SuiteBalance.Proofs.Schedule.Run
import SuiteBalance.Proofs.Snapshot.Document
import SuiteBalance.Proofs.Workspace
import SuiteBalance.Snapshot.File

/-!
# Proofs — Snapshot — the plan file

A plan that is saved is loaded as a snapshot that answers as the plan does.

* `Snapshot.testsFor_eq_kept`: the snapshots of a plan's forks answer with what is kept of them.
* `Snapshot.testsFor_eq`: they give the plan's answers, if all tasks are names.
* `Plan.ofBytes_fileText`: the text of a plan file is read as these snapshots.
* `Plan.load_save`: so is the file, if one was written.
* **`Planner.load_generate`**: all this of the plans that a planner makes.
-/

namespace SuiteBalance

variable {p : Plan} {s : Snapshot}

/-! ### The answers of a snapshot -/

/-- A snapshot of a fork answers with what is kept of the fork. -/
theorem Fork.get?_snapshot (f : Fork) (t : Text) :
    (f.snapshot.tests.get? t).getD [] = (f.keptPatterns t).map Text.ofString := by
  rw [← get?_testsByText, snapshot, Entries.get?_map_value]
  cases f.testsByText.get? t <;> rfl

/-- All is kept of tasks that are names. -/
theorem Fork.keptPatterns_eq {f : Fork} (hfrozen : f.isFrozen = true)
    (h : ∀ t ∈ f.taskList, t.IsName) (t : Text) :
    f.keptPatterns t = f.patternsOf (.name t) := by
  unfold keptPatterns
  cases hlast : f.lastTask? t with
  | some u =>
      obtain ⟨hu, htext⟩ := of_lastTask? hlast
      rw [Task.text_inj (h u hu) ⟨t, rfl⟩ htext]
      rfl
  | none =>
      -- no task has the text, so no bucket has the name for its task
      have hnone : f.buckets.filter (·.task = .name t) = [] := by
        rw [List.filter_eq_nil_iff]
        exact fun b hb hbt => text_ne_of_lastTask? hlast
          ((mem_taskList hfrozen).mpr ⟨b, hb, of_decide_eq_true hbt⟩) rfl
      rw [patternsOf_eq hfrozen, hnone]
      rfl

namespace Snapshot

/-- **The snapshots of a plan's forks answer with what is kept of the forks.** -/
theorem testsFor_eq_kept (hforks : s.forks = p.forks.map Fork.snapshot) (index : ℤ) (t : Text) :
    s.testsFor index t = (p.worker index).map fun f => (f.keptPatterns t).map Text.ofString := by
  rw [testsFor, Plan.worker, hforks, atWorker_map]
  cases atWorker p.forks index with
  | error e => rfl
  | ok f => exact congrArg Except.ok (f.get?_snapshot t)

/-- **If all tasks are names, they give the plan's answers**, for every index. -/
theorem testsFor_eq (hforks : s.forks = p.forks.map Fork.snapshot)
    (h : ∀ f ∈ p.forks, ∀ t ∈ f.taskList, t.IsName) (index : ℤ) (t : Text) :
    s.testsFor index t = (p.testsFor index (.name t)).map (·.map Text.ofString) := by
  rw [testsFor_eq_kept hforks, Plan.testsFor]
  cases hworker : p.worker index with
  | error e => rfl
  | ok f =>
      obtain ⟨i, -, hi⟩ := atWorker_eq_ok_iff.mp hworker
      have hf := List.mem_of_getElem? hi
      have hkept := Fork.keptPatterns_eq (p.frozen f hf) (h f hf) t
      exact congrArg (fun names => Except.ok (names.map Text.ofString)) hkept

theorem forkCount_eq (hforks : s.forks = p.forks.map Fork.snapshot) :
    s.forkCount = p.forkCount := by
  rw [forkCount, hforks, List.length_map]
  rfl

theorem makespan_eq (hforks : s.forks = p.forks.map Fork.snapshot) (hne : p.forks ≠ []) :
    p.makespan = .ok s.makespan := by
  have hloads : s.forks.map SnapshotFork.load = p.loads := by
    rw [hforks, List.map_map]
    rfl
  rw [Plan.makespan, makespan, hloads, Plan.loads]
  cases hlist : p.forks with
  | nil => exact absurd hlist hne
  | cons f rest => rfl

end Snapshot

/-! ### Files -/

/-- A file is written, or nothing changes. -/
theorem ask_write (path : Path) (bytes : List UInt8) (w : Workspace) :
    ask (Host.write path bytes : StateM Workspace _) w =
      match w.write path bytes with
      | .ok w' => (.ok (), w')
      | .error e => (.error e, w) := by
  rfl

namespace Plan

/-- **The text of a plan file is read back**, if no two surrogates in the text of a task make a
pair. -/
theorem ofBytes_fileText_of_unpaired [Json.Levels] (hnumbered : p.Numbered) (hne : p.forks ≠ [])
    (hcount : Number.isWritable p.forkCount = true) (hwritable : p.isWritable = true)
    (h : ∀ f ∈ p.forks, ∀ t ∈ f.taskList, t.text.Unpaired) :
    ∃ text s, p.fileText = .ok text ∧ Snapshot.ofBytes text.toUTF8.toList = .ok s ∧
      s.forks = p.forks.map Fork.snapshot := by
  obtain ⟨doc, hdoc⟩ := exists_document hne hwritable
  obtain ⟨s, hs, hforks⟩ := ofDocument_document hdoc hnumbered
  obtain ⟨text, hdecode, hparse⟩ :=
    Json.parse_document (fits_document hdoc hnumbered hcount h) Json.Levels.room
  refine ⟨Json.document doc, s, by rw [fileText, hdoc]; rfl, ?_, hforks⟩
  rw [Snapshot.ofBytes, hdecode]
  change ((Json.parse (Text.unifyBreaks text)).mapError PlanFileError.notJson).bind
    (fun document => (Snapshot.ofDocument document).mapError PlanFileError.document) = _
  rw [hparse]
  change (Snapshot.ofDocument doc).mapError PlanFileError.document = _
  rw [hs]
  rfl

/-- Tasks that are names can be written. -/
theorem isWritable_of_isName (h : ∀ f ∈ p.forks, ∀ t ∈ f.taskList, t.IsName) :
    p.isWritable = true := by
  refine List.all_eq_true.mpr fun t ht => ?_
  obtain ⟨f, hf, htask⟩ := List.mem_flatMap.mp (List.mem_eraseDups.mp ht)
  exact (h f hf t htask).isWritable

/-- The text of a plan file whose tasks are strings is read back. -/
theorem ofBytes_fileText [Json.Levels] (hnumbered : p.Numbered) (hne : p.forks ≠ [])
    (hcount : Number.isWritable p.forkCount = true)
    (h : ∀ f ∈ p.forks, ∀ t ∈ f.taskList, t.IsString) :
    ∃ text s, p.fileText = .ok text ∧ Snapshot.ofBytes text.toUTF8.toList = .ok s ∧
      s.forks = p.forks.map Fork.snapshot :=
  ofBytes_fileText_of_unpaired hnumbered hne hcount
    (isWritable_of_isName fun f hf t ht => (h f hf t ht).isName)
    fun f hf t ht => (h f hf t ht).unpaired

/-- What a plan that was saved has written. -/
theorem write_of_save {path : Path} {w w' : Workspace} {text : String}
    (htext : p.fileText = .ok text) (h : ask (p.save path) w = (.ok (), w')) :
    ∃ made : Workspace, made.write path text.toUTF8.toList = .ok w' := by
  unfold save at h
  rw [htext] at h
  simp only [Host.writeUnder, bind_assoc, ask_bind] at h
  generalize ask (Host.makeDirectories path.parent : StateM Workspace _) w = made at h
  obtain ⟨outcome, made⟩ := made
  cases outcome with
  | error e => cases congrArg Prod.fst h
  | ok _ =>
      refine ⟨made, ?_⟩
      simp only [ask_pure, ask_write] at h
      cases hwrite : made.write path text.toUTF8.toList with
      | error e =>
          rw [hwrite] at h
          cases congrArg Prod.fst h
      | ok left =>
          rw [hwrite] at h
          exact congrArg Except.ok (congrArg Prod.snd h)

/-- **A plan that was saved to a file is loaded from it.** -/
theorem load_save [Json.Levels] {path : Path} {w w' : Workspace} {text : String}
    (htext : p.fileText = .ok text)
    (h : ask (p.save path) w = (.ok (), w')) (hkind : w'.kind path = .ok .file) :
    ask (Snapshot.load path) w' = (Snapshot.ofBytes text.toUTF8.toList, w') := by
  obtain ⟨made, hwrite⟩ := write_of_save htext h
  have hread : ask (Host.read path : StateM Workspace _) w' = (w'.read path, w') := rfl
  rw [Snapshot.load, ask_bind, hread, Workspace.read_write hwrite hkind]
  rfl

end Plan

/-! ### The plans of planners -/

/-- What a snapshot and a plan have in common if the one is read from the file of the other: the
forks with their loads and tests, and all answers. -/
structure Snapshot.Shows (s : Snapshot) (p : Plan) : Prop where
  forkCount : s.forkCount = p.forkCount
  makespan : p.makespan = .ok s.makespan
  worker : ∀ (i : ℕ) g, s.forks[i]? = some g → ∃ f, p.forks[i]? = some f ∧ g.index = i ∧
    g.load = f.load ∧ g.tests = f.taskList.map fun t => (t.text, (f.patternsOf t).map Text.ofString)
  answer : ∀ (index : ℤ) (t : Text),
    s.testsFor index t = (p.testsFor index (.name t)).map (·.map Text.ofString)

theorem Plan.numbered_of_getElem? (h : ∀ (i : ℕ) f, p.forks[i]? = some f → f.index = i) :
    p.Numbered := by
  refine List.ext_getElem? fun i => ?_
  rw [List.getElem?_map]
  by_cases hi : i < p.forks.length
  · have hget := List.getElem?_eq_getElem hi
    rw [List.getElem?_range hi, hget, Option.map_some, h i _ hget]
  · rw [List.getElem?_eq_none (not_lt.mp hi), List.getElem?_eq_none (by simpa using hi)]
    rfl

/-- The forks of a schedule stand at their indices. -/
theorem Plan.numbered_schedule {count : ℕ} (h : 0 < count) (groups : List Group)
    (records : List TimingRecord) : (Plan.schedule count groups records).1.Numbered :=
  numbered_of_getElem? fun _ _ hf => (getElem?_forks_schedule h hf).1

theorem Snapshot.shows (hforks : s.forks = p.forks.map Fork.snapshot) (hne : p.forks ≠ [])
    (hindex : ∀ (i : ℕ) f, p.forks[i]? = some f → f.index = i)
    (h : ∀ f ∈ p.forks, ∀ t ∈ f.taskList, t.IsString) : s.Shows p := by
  have hname : ∀ f ∈ p.forks, ∀ t ∈ f.taskList, t.IsName := fun f hf t ht => (h f hf t ht).isName
  refine ⟨forkCount_eq hforks, makespan_eq hforks hne, fun i g hg => ?_, testsFor_eq hforks hname⟩
  rw [hforks, List.getElem?_map] at hg
  obtain ⟨f, hf, rfl⟩ := Option.map_eq_some_iff.mp hg
  refine ⟨f, hf, congrArg Int.ofNat (hindex i f hf), rfl, ?_⟩
  rw [Fork.snapshot, Fork.testsByText_eq (hname f (List.mem_of_getElem? hf)), List.map_map]
  rfl

/-- **A plan whose tasks are strings is loaded from the file that it was saved to**, and the
snapshot shows what the plan shows.  The number of forks is written with no more than
`Number.digitLimit` digits.  This leaves out no planner that a machine can hold, as the forks of
those with more are a list of that length; what fits in a machine word has few enough digits
(`Json.isWritable_of_lt`). -/
theorem Planner.load_generate [Json.Levels] {p : Planner Id} {plan : Plan}
    (h : (Id.run p.generate).1.outcome = .ok plan)
    (hcount : Number.isWritable p.forkCount = true) (hstrings : ∀ t ∈ plan.tasks, t.IsString) :
    ∃ text s, plan.fileText = .ok text ∧ Snapshot.ofBytes text.toUTF8.toList = .ok s ∧
      s.Shows plan ∧
      ∀ (path : Path) (w w' : Workspace), ask (plan.save path) w = (.ok (), w') →
        w'.kind path = .ok .file → ask (Snapshot.load path) w' = (.ok s, w') := by
  obtain ⟨records, groups, -, -, hplan⟩ := generate_ok h
  have hlength : plan.forks.length = p.forkCount := by
    rw [hplan]
    exact Plan.length_forks_schedule p.at_least_one groups records
  have hne : plan.forks ≠ [] := by
    rw [← List.length_pos_iff, hlength]
    exact p.at_least_one
  have hindex : ∀ (i : ℕ) f, plan.forks[i]? = some f → f.index = i := by
    rw [hplan]
    exact fun i f hf => (Plan.getElem?_forks_schedule p.at_least_one hf).1
  have hforkStrings : ∀ f ∈ plan.forks, ∀ t ∈ f.taskList, t.IsString := by
    intro f hf t ht
    exact hstrings t (List.mem_eraseDups.mpr (List.mem_flatMap.mpr ⟨f, hf, ht⟩))
  have hwritable : Number.isWritable plan.forkCount = true := by
    rw [Plan.forkCount, hlength]
    exact hcount
  obtain ⟨text, s, htext, hread, hforks⟩ :=
    Plan.ofBytes_fileText (Plan.numbered_of_getElem? hindex) hne hwritable hforkStrings
  refine ⟨text, s, htext, hread, Snapshot.shows hforks hne hindex hforkStrings, ?_⟩
  intro path w w' hsave hkind
  rw [Plan.load_save htext hsave hkind, hread]

/-- A file for the plan of the small planner. -/
def smallPath : Path := { parts := ["plan.json"] }

/-- The planner of one task saves its plan in an empty directory and loads it from there; it has no
third fork. -/
theorem Planner.load_generate_small :
    ∃ (plan : Plan) (s : Snapshot) (w : Workspace),
      (Id.run smallPlanner.generate).1.outcome = .ok plan ∧
      ask (plan.save smallPath) ({} : Workspace) = (.ok (), w) ∧
      ask (Snapshot.load smallPath) w = (.ok s, w) ∧
      s.Shows plan ∧ s.testsFor 2 "unit" = .error (.noWorker 2 2) := by
  obtain ⟨groups, hgroups, houtcome⟩ := generate_small
  generalize hplan : (Plan.schedule 2 groups []).1 = plan at houtcome
  have hstrings : ∀ t ∈ plan.tasks, t.IsString := by
    intro t ht
    rw [← hplan, mem_tasks _ two_pos hgroups, Source.patternsFor, Ne,
      List.flatMap_eq_nil_iff] at ht
    push Not at ht
    obtain ⟨source, hsource, hpatterns⟩ := ht
    rw [List.mem_filter, decide_eq_true_iff] at hsource
    obtain ⟨hmem, rfl⟩ := hsource
    simp only [smallPlanner, List.mem_cons, List.not_mem_nil, or_false] at hmem
    rcases hmem with rfl | rfl | rfl
    · exact ⟨_, rfl⟩
    · exact absurd rfl hpatterns
    · exact ⟨_, rfl⟩
  have hcount : Number.isWritable smallPlanner.forkCount = true :=
    Json.isWritable_of_lt (by decide : 2 < 2 ^ 64)
  obtain ⟨text, s, htext, -, hshows, hload⟩ := load_generate houtcome hcount hstrings
  have hsave : ask (plan.save smallPath) ({} : Workspace) =
      (.ok (), ({} : Workspace).withFile ["plan.json"] text.toUTF8.toList) := by
    unfold Plan.save
    rw [htext]
    rfl
  refine ⟨plan, s, _, houtcome, hsave, hload _ _ _ hsave rfl, hshows, ?_⟩
  have hlength : plan.forks.length = 2 := by
    rw [← hplan]
    exact Plan.length_forks_schedule two_pos _ _
  have hnone : plan.testsFor (2 : ℕ) (.name "unit") = .error (.noWorker 2 2) := by
    rw [Plan.testsFor_eq, List.getElem?_eq_none hlength.le, hlength]
    rfl
  exact (hshows.answer 2 "unit").trans (congrArg _ hnone)

end SuiteBalance
