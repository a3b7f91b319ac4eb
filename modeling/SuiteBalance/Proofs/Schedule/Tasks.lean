import Mathlib
import SuiteBalance.Plan

/-!
# Proofs — Schedule — the tasks of a plan

A fork groups its buckets by task as they come.  What it answers is a filter of its buckets, and
its tasks are those of its buckets, each once.

* `Fork.bucketsOf_eq`: the buckets of a task are those that have the task, in their order.
* `Fork.taskList_eq`: the tasks stand in the order of their first buckets.
* `Plan.nodup_tasks`, `Plan.mem_tasks`: a plan names each task with a bucket, once.
-/

namespace SuiteBalance

/-! ### Grouping -/

@[simp] theorem groupByTask_append (front : List Bucket) (b : Bucket) :
    groupByTask (front ++ [b]) =
      (groupByTask front).put b.task (((groupByTask front).get? b.task).getD [] ++ [b]) := by
  simp [groupByTask]

/-- Under a task stand the buckets that have it; a task that no bucket has is missing. -/
theorem get?_groupByTask (buckets : List Bucket) (t : Task) :
    (groupByTask buckets).get? t =
      if buckets.filter (·.task = t) = [] then none else some (buckets.filter (·.task = t)) := by
  induction buckets using List.reverseRecOn generalizing t with
  | nil => rfl
  | append_singleton front b ih =>
      rw [groupByTask_append, Entries.get?_put]
      by_cases h : t = b.task
      · obtain rfl := h
        rw [ih, if_pos (beq_self_eq_true _), List.filter_append]
        by_cases hfront : front.filter (·.task = b.task) = []
        · simp [hfront]
        · simp [hfront]
      · have hb : [b].filter (·.task = t) = [] := by simpa using fun h' => h h'.symm
        rw [if_neg (by simpa using h), ih, List.filter_append, hb, List.append_nil]

/-- The tasks stand in the order of their first buckets. -/
theorem keys_groupByTask (buckets : List Bucket) :
    (groupByTask buckets).keys = (buckets.map Bucket.task).eraseDups := by
  induction buckets using List.reverseRecOn with
  | nil => rfl
  | append_singleton front b ih =>
      rw [groupByTask_append, Entries.keys_put, ih, List.map_append, List.eraseDups_append,
        List.map_singleton]
      by_cases h : b.task ∈ front.map Bucket.task
      · have hremove : [b.task].removeAll (front.map Bucket.task) = [] := by
          simpa [List.removeAll] using h
        rw [if_pos (List.mem_eraseDups.mpr h), hremove, List.eraseDups_nil, List.append_nil]
      · have hremove : [b.task].removeAll (front.map Bucket.task) = [b.task] := by
          simpa [List.removeAll] using h
        rw [if_neg (mt List.mem_eraseDups.mp h), hremove]
        rfl

theorem nodup_eraseDups (tasks : List Task) : tasks.eraseDups.Nodup := by
  induction h : tasks.length using Nat.strong_induction_on generalizing tasks with
  | _ k ih =>
      cases tasks with
      | nil => exact List.nodup_nil
      | cons t rest =>
          rw [List.eraseDups_cons, List.nodup_cons, List.mem_eraseDups]
          refine ⟨by simp, ih _ ?_ _ rfl⟩
          exact h ▸ Nat.lt_succ_of_le (List.length_filter_le _ _)

namespace Fork

variable {f : Fork}

/-- **The buckets of a task on a frozen fork are those that have the task**, in their order. -/
theorem bucketsOf_eq (h : f.isFrozen = true) (t : Task) :
    f.bucketsOf t = f.buckets.filter (·.task = t) := by
  rw [bucketsOf, byTask_of_frozen h, get?_groupByTask]
  split
  case isTrue h => rw [h]; rfl
  case isFalse h => rfl

theorem patternsOf_eq (h : f.isFrozen = true) (t : Task) :
    f.patternsOf t = (f.buckets.filter (·.task = t)).map Bucket.pattern := by
  rw [patternsOf, bucketsOf_eq h]

theorem taskList_eq (h : f.isFrozen = true) :
    f.taskList = (f.buckets.map Bucket.task).eraseDups := by
  rw [taskList, byTask_of_frozen h, keys_groupByTask]

/-- A fork that accumulates has no tasks to answer for yet. -/
theorem taskList_of_not_frozen (h : ¬f.isFrozen = true) : f.taskList = [] := by
  have hphase : f.phase = .accumulating := by
    cases hphase : f.phase with
    | accumulating => rfl
    | frozen => exact absurd (beq_iff_eq.mpr hphase) h
  rw [taskList, f.byTask_eq, hphase]
  rfl

theorem mem_taskList (h : f.isFrozen = true) {t : Task} :
    t ∈ f.taskList ↔ ∃ b ∈ f.buckets, b.task = t := by
  rw [taskList_eq h, List.mem_eraseDups, List.mem_map]

/-- Buckets whose tasks are all listed, each once, are parted by them. -/
theorem perm_flatMap_filter {tasks : List Task} (hnodup : tasks.Nodup) {buckets : List Bucket}
    (hmem : ∀ b ∈ buckets, b.task ∈ tasks) :
    (tasks.flatMap fun t => buckets.filter (·.task = t)).Perm buckets := by
  induction tasks generalizing buckets with
  | nil =>
      have hnil : buckets = [] := List.eq_nil_iff_forall_not_mem.mpr fun b hb =>
        List.not_mem_nil (hmem b hb)
      rw [hnil, List.flatMap_nil]
  | cons t rest ih =>
      obtain ⟨ht, hrest⟩ := List.nodup_cons.mp hnodup
      have hothers (u : Task) (hu : u ∈ rest) : buckets.filter (·.task = u) =
          (buckets.filter fun b => !decide (b.task = t)).filter (·.task = u) := by
        rw [List.filter_filter]
        refine List.filter_congr fun b _ => ?_
        by_cases hb : b.task = u
        · have hne : u ≠ t := fun hut => ht (hut ▸ hu)
          simp [hb, hne]
        · simp [hb]
      have hmem' : ∀ b ∈ buckets.filter fun b => !decide (b.task = t), b.task ∈ rest := by
        intro b hb
        obtain ⟨hb, hbt⟩ := List.mem_filter.mp hb
        exact (List.mem_cons.mp (hmem b hb)).resolve_left (by simpa using hbt)
      rw [List.flatMap_cons, List.flatMap_congr hothers]
      exact ((ih hrest hmem').append_left _).trans (List.filter_append_perm _ buckets)

/-- The buckets of a frozen fork are those of its tasks. -/
theorem perm_bucketsOf (h : f.isFrozen = true) :
    (f.taskList.flatMap f.bucketsOf).Perm f.buckets := by
  have hgroups : f.bucketsOf = fun t => f.buckets.filter (·.task = t) := funext (bucketsOf_eq h)
  rw [hgroups]
  refine perm_flatMap_filter ?_ fun b hb => (mem_taskList h).mpr ⟨b, hb, rfl⟩
  rw [taskList_eq h]
  exact nodup_eraseDups _

end Fork

/-! ### Plans -/

/-- What stands at an index. -/
theorem atWorker_eq_ok_iff {α : Type} {workers : List α} {index : ℤ} {a : α} :
    atWorker workers index = .ok a ↔ ∃ i : ℕ, index = i ∧ workers[i]? = some a := by
  unfold atWorker
  constructor
  · intro h
    split at h
    · next worker hget =>
        obtain rfl := Except.ok.inj h
        split_ifs at hget with hneg
        exact ⟨index.toNat, (Int.toNat_of_nonneg (not_lt.mp hneg)).symm, hget⟩
    · cases h
  · rintro ⟨i, rfl, hi⟩
    have hnonneg : ¬(i : ℤ) < 0 := by omega
    rw [if_neg hnonneg, Int.toNat_natCast, hi]

theorem atWorker_map {α β : Type} (workers : List α) (f : α → β) (index : ℤ) :
    atWorker (workers.map f) index = (atWorker workers index).map f := by
  unfold atWorker
  rw [List.length_map]
  by_cases hneg : index < 0
  · rw [if_pos hneg, if_pos hneg]
    rfl
  · rw [if_neg hneg, if_neg hneg, List.getElem?_map]
    cases workers[index.toNat]? <;> rfl

namespace Plan

theorem nodup_tasks (p : Plan) : p.tasks.Nodup := nodup_eraseDups _

theorem mem_tasks {p : Plan} {t : Task} :
    t ∈ p.tasks ↔ ∃ b ∈ p.forks.flatMap Fork.buckets, b.task = t := by
  rw [tasks, List.mem_eraseDups, List.mem_flatMap]
  constructor
  · rintro ⟨f, hf, ht⟩
    obtain ⟨b, hb, hbt⟩ := (Fork.mem_taskList (p.frozen f hf)).mp ht
    exact ⟨b, List.mem_flatMap.mpr ⟨f, hf, hb⟩, hbt⟩
  · rintro ⟨b, hb, hbt⟩
    obtain ⟨f, hf, hmem⟩ := List.mem_flatMap.mp hb
    exact ⟨f, hf, (Fork.mem_taskList (p.frozen f hf)).mpr ⟨b, hmem, hbt⟩⟩

theorem worker_eq (p : Plan) (w : ℕ) :
    p.worker w = match p.forks[w]? with
      | some f => .ok f
      | none => .error (.noWorker w p.forks.length) := by
  have hw : ¬ (w : ℤ) < 0 := by omega
  rw [worker, atWorker, if_neg hw, Int.toNat_natCast]
  cases p.forks[w]? with
  | none => rfl
  | some f => rfl

/-- A plan answers for its forks, and for no other index. -/
theorem testsFor_eq (p : Plan) (w : ℕ) (t : Task) :
    p.testsFor w t = match p.forks[w]? with
      | some f => .ok (f.patternsOf t)
      | none => .error (.noWorker w p.forks.length) := by
  rw [testsFor, worker_eq]
  cases p.forks[w]? with
  | none => rfl
  | some f => rfl

/-- All forks answer for a task, each with its own patterns. -/
theorem mapM_testsFor (p : Plan) (t : Task) :
    (List.range p.forks.length).mapM (fun w => p.testsFor (w : ℕ) t) =
      .ok (p.forks.map (·.patternsOf t)) := by
  suffices h : ∀ (front rest : List Fork), p.forks = front ++ rest →
      (List.range' front.length rest.length).mapM (fun w => p.testsFor (w : ℕ) t) =
        .ok (rest.map (·.patternsOf t)) by
    rw [List.range_eq_range']
    exact h [] p.forks rfl
  intro front rest
  induction rest generalizing front with
  | nil => exact fun _ => rfl
  | cons f rest ih =>
      intro h
      have hget : p.forks[front.length]? = some f := by
        rw [h, List.getElem?_append_right le_rfl, Nat.sub_self, List.getElem?_cons_zero]
      have hrest := ih (front ++ [f]) (by rw [h, List.append_assoc, List.singleton_append])
      rw [List.length_append, List.length_singleton] at hrest
      rw [List.length_cons, List.range'_succ, List.mapM_cons, testsFor_eq, hget, hrest]
      rfl

end Plan

end SuiteBalance
