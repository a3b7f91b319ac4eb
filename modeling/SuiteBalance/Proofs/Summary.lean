import Mathlib
import SuiteBalance.Proofs.Snapshot.Document
import SuiteBalance.Summary

/-!
# Proofs — Summaries

The document of a summary is for other programs, which look the forks up by their indices and the
groups of a fork by the texts of their tasks.

* **`Fork.namesFor_summary`**: the names of the groups of a task in a summary.
* **`listedNames?`**: the names of the groups of a task that a document lists for a fork.
* **`Plan.listedNames?_summaryDocument`**: they are the patterns that the task runs there.
-/

namespace SuiteBalance

namespace Json

/-- The items of an array; other values have none. -/
def items : Json → List Json
  | .array items => items
  | _ => []

/-- The integer that a value is. -/
def integer? : Json → Option ℤ
  | .integer n => some n
  | _ => none

/-- The text that a value is. -/
def text? : Json → Option Text
  | .text t => some t
  | _ => none

/-- The integer in a field. -/
def integerAt? (v : Json) (name : Text) : Option ℤ := (v.field? name).bind integer?

/-- The text in a field. -/
def textAt? (v : Json) (name : Text) : Option Text := (v.field? name).bind text?

/-- The items of a field. -/
def itemsAt (v : Json) (name : Text) : List Json := (v.field? name).elim [] items

end Json

/-- The names of the groups of a task that the document of a fork lists. -/
def namesOf (worker : Json) (task : Text) : List Text :=
  ((worker.itemsAt "groups").filter (·.textAt? "task" = some task)).filterMap (·.textAt? "name")

/-- The names of the groups of a task that the document of a summary lists for the fork of an
index, if there is one. -/
def listedNames? (document : Json) (index : ℤ) (task : Text) : Option (List Text) :=
  ((document.itemsAt "workers").find? (·.integerAt? "index" = some index)).map (namesOf · task)

/-- The names of the groups of a task in the summary of a fork, in their order. -/
def ForkSummary.namesFor (s : ForkSummary) (task : Text) : List String :=
  (s.groups.filter (·.task = task)).map GroupSummary.name

/-- A document lists the names that are in the summary. -/
theorem ForkSummary.namesOf_document (s : ForkSummary) (task : Text) :
    namesOf s.document task = (s.namesFor task).map Text.ofString := by
  have hitems : s.document.itemsAt "groups" = s.groups.map GroupSummary.document := rfl
  have hfilter : s.groups.filter (fun g => g.document.textAt? "task" = some task) =
      s.groups.filter (·.task = task) := by
    refine List.filter_congr fun g _ => decide_eq_decide.mpr ?_
    have htask : g.document.textAt? "task" = some g.task := rfl
    rw [htask, Option.some_inj]
  rw [namesOf, hitems, List.filter_map, List.filterMap_map, namesFor, List.map_map, ← hfilter]
  exact congrFun List.filterMap_eq_map _

/-- **The groups of a task in a summary are the patterns that the task runs**, if all tasks are
names. -/
theorem Fork.namesFor_summary {f : Fork} (hfrozen : f.isFrozen = true)
    (h : ∀ t ∈ f.taskList, t.IsName) (task : Text) :
    f.summary.namesFor task = f.patternsOf (.name task) := by
  have hfilter : f.buckets.filter (fun b => b.summary.task = task) =
      f.buckets.filter (·.task = .name task) := by
    refine List.filter_congr fun b hb => decide_eq_decide.mpr ?_
    have hname := h b.task ((mem_taskList hfrozen).mpr ⟨b, hb, rfl⟩)
    exact ⟨fun htext => Task.text_inj hname ⟨task, rfl⟩ htext, fun heq => congrArg Task.text heq⟩
  have hgroups : f.summary.groups = f.buckets.map Bucket.summary := rfl
  rw [ForkSummary.namesFor, hgroups, List.filter_map, List.map_map, patternsOf_eq hfrozen,
    ← hfilter]
  rfl

namespace Plan

variable {p : Plan} {doc : Json}

/-- A plan with forks has a summary. -/
theorem exists_summaryDocument (h : p.forks ≠ []) : ∃ doc, p.summaryDocument = .ok doc := by
  unfold summaryDocument makespan loads
  cases hforks : p.forks with
  | nil => exact absurd hforks h
  | cons f rest => exact ⟨_, rfl⟩

/-- The forks that a summary lists. -/
theorem itemsAt_summaryDocument (h : p.summaryDocument = .ok doc) :
    doc.itemsAt "workers" = p.forks.map fun f => f.summary.document := by
  unfold summaryDocument at h
  cases hmakespan : p.makespan with
  | error e =>
      rw [hmakespan] at h
      cases h
  | ok makespan =>
      rw [hmakespan] at h
      obtain rfl := Except.ok.inj h
      change (p.forks.map Fork.summary).map ForkSummary.document = _
      rw [List.map_map]
      rfl

theorem Numbered.index_eq (h : p.Numbered) {i : ℕ} {f : Fork} (hf : p.forks[i]? = some f) :
    f.index = i := by
  have hget : (p.forks.map Fork.index)[i]? = (List.range p.forks.length)[i]? := congrArg (·[i]?) h
  rw [List.getElem?_map, hf, List.getElem?_range (List.getElem?_eq_some_iff.mp hf).1] at hget
  exact Option.some_inj.mp hget

/-- A plan answers for the indices of its forks. -/
theorem exists_testsFor_iff (p : Plan) (index : ℤ) (t : Task) :
    (∃ names, p.testsFor index t = .ok names) ↔ 0 ≤ index ∧ index < p.forkCount := by
  constructor
  · rintro ⟨names, hnames⟩
    rw [testsFor] at hnames
    cases hworker : p.worker index with
    | error e =>
        rw [hworker] at hnames
        cases hnames
    | ok f =>
        obtain ⟨i, rfl, hi⟩ := atWorker_eq_ok_iff.mp hworker
        exact ⟨i.cast_nonneg, Nat.cast_lt.mpr (List.getElem?_eq_some_iff.mp hi).1⟩
  · rintro ⟨hnonneg, hlt⟩
    lift index to ℕ using hnonneg
    rw [testsFor_eq, List.getElem?_eq_getElem (Nat.cast_lt.mp hlt)]
    exact ⟨_, rfl⟩

/-- **Forks that stand at their indices are found by them.** -/
theorem Numbered.find?_index (h : p.Numbered) (index : ℤ) :
    (p.forks.find? fun f => ((f.index : ℕ) : ℤ) = index) = (p.worker index).toOption := by
  cases hfind : p.forks.find? fun f => ((f.index : ℕ) : ℤ) = index with
  | some f =>
      obtain ⟨i, hi⟩ := List.mem_iff_getElem?.mp (List.mem_of_find?_eq_some hfind)
      have hindex : ((f.index : ℕ) : ℤ) = index :=
        of_decide_eq_true
          (List.find?_some (p := fun f : Fork => decide ((f.index : ℤ) = index)) hfind)
      rw [← hindex, h.index_eq hi, worker_eq, hi]
      rfl
  | none =>
      cases hworker : p.worker index with
      | error e => rfl
      | ok f =>
          obtain ⟨i, rfl, hi⟩ := atWorker_eq_ok_iff.mp hworker
          have hother := List.find?_eq_none.mp hfind f (List.mem_of_getElem? hi)
          exact absurd (decide_eq_true (congrArg Nat.cast (h.index_eq hi))) hother

/-- **The names that a summary lists are the patterns that the task runs on the fork.** -/
theorem listedNames?_summaryDocument (hdoc : p.summaryDocument = .ok doc) (hnumbered : p.Numbered)
    (h : ∀ f ∈ p.forks, ∀ t ∈ f.taskList, t.IsName) (index : ℤ) (task : Text) :
    listedNames? doc index task =
      (p.testsFor index (.name task)).toOption.map (·.map Text.ofString) := by
  have hindex : ((fun worker : Json => decide (worker.integerAt? "index" = some index)) ∘
      fun f : Fork => f.summary.document) = fun f => decide (((f.index : ℕ) : ℤ) = index) := by
    funext f
    have hfield : f.summary.document.integerAt? "index" = some ((f.index : ℕ) : ℤ) := rfl
    rw [Function.comp_apply, decide_eq_decide, hfield, Option.some_inj]
  rw [listedNames?, itemsAt_summaryDocument hdoc, List.find?_map, hindex,
    hnumbered.find?_index, testsFor]
  cases hworker : p.worker index with
  | error e => rfl
  | ok f =>
      obtain ⟨i, -, hi⟩ := atWorker_eq_ok_iff.mp hworker
      have hf := List.mem_of_getElem? hi
      have hnames := Fork.namesFor_summary (p.frozen f hf) (h f hf) task
      exact congrArg some ((f.summary.namesOf_document task).trans (congrArg _ hnames))

end Plan

end SuiteBalance
