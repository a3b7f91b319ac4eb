import Mathlib
import SuiteBalance.Proofs.Planner.Estimate
import SuiteBalance.Proofs.Snapshot.RoundTrip
import SuiteBalance.Proofs.Summary

/-!
# Proofs — Planner — what a summary says

A plan is told in three ways: by the buckets of its forks, by the patterns that each task runs, and
by the loads that were kept while buckets were added.  A summary lists the first, and has to agree
with the others.

* `Fork.testCount_summary`, `Fork.load_summary`: the numbers of a fork are sums over its groups.
* `Fork.mem_taskList_iff_summary`: its tasks are those of its groups.
* **`Plan.Summarized`**: a summary agrees with its plan.
* **`Planner.summary_generate`**: that of a plan that is generated does, if all tasks are names.
-/

namespace SuiteBalance

open Number

/-! ### Forks -/

namespace Fork

variable {f : Fork}

/-- The tests that a fork covers are those of its groups. -/
theorem testCount_summary (f : Fork) :
    f.summary.testCount = ((f.summary.groups.map fun g => g.matched.length).sum : ℕ) := by
  change ((f.testCount : ℕ) : ℤ) = (((f.buckets.map Bucket.summary).map _).sum : ℕ)
  rw [testCount, List.length_flatMap, List.map_map]
  rfl

/-- The load of a fork has been added up from the costs of its groups. -/
theorem load_summary (f : Fork) :
    f.summary.load = (f.summary.groups.map GroupSummary.cost).foldl (· + ·) 0.0 := by
  change f.load = ((f.buckets.map Bucket.summary).map GroupSummary.cost).foldl (· + ·) 0.0
  rw [f.load_eq, Bucket.total_eq, List.map_map]
  rfl

/-- Where no sum has been rounded, the load is the exact sum of the costs. -/
theorem exact_load_summary
    (h : Number.Unrounded 0.0 (f.summary.groups.map GroupSummary.cost)) :
    exact f.summary.load = (f.summary.groups.map fun g => exact g.cost).sum := by
  rw [load_summary, h.exact_foldl, exact_zero, zero_add, List.map_map]
  rfl

/-- The tasks of a frozen fork are those of its groups. -/
theorem mem_taskList_iff_summary (hfrozen : f.isFrozen = true)
    (h : ∀ t ∈ f.taskList, t.IsName) {t : Task} :
    t ∈ f.taskList ↔ ∃ g ∈ f.summary.groups, .name g.task = t := by
  have htask : ∀ b ∈ f.buckets, Task.name b.summary.task = b.task := by
    intro b hb
    obtain ⟨name, hname⟩ := h b.task ((mem_taskList hfrozen).mpr ⟨b, hb, rfl⟩)
    have htext : b.summary.task = b.task.text := rfl
    rw [htext, hname]
    rfl
  rw [mem_taskList hfrozen]
  constructor
  · rintro ⟨b, hb, rfl⟩
    exact ⟨b.summary, List.mem_map_of_mem hb, htask b hb⟩
  · rintro ⟨g, hg, rfl⟩
    obtain ⟨b, hb, rfl⟩ := List.mem_map.mp hg
    exact ⟨b, hb, (htask b hb).symm⟩

end Fork

/-! ### Plans -/

namespace Plan

/-- A summary agrees with its plan: it has one entry for each fork, in the order of the indices, with
the fork's load, the names and tasks of its groups and the sums over them. -/
structure Summarized (plan : Plan) : Prop where
  indices : plan.summary.map ForkSummary.index = (List.range plan.forkCount).map Int.ofNat
  names : ∀ (w : ℕ) s, plan.summary[w]? = some s → ∀ task,
    plan.testsFor w (.name task) = .ok (s.namesFor task)
  tasks : ∀ (w : ℕ) s, plan.summary[w]? = some s → ∃ f tasks, plan.worker w = .ok f ∧
    f.tasks = .ok tasks ∧ ∀ t, t ∈ tasks ↔ ∃ g ∈ s.groups, .name g.task = t
  loads : plan.summary.map ForkSummary.load = plan.loads
  makespan : ∃ load, plan.makespan = .ok load ∧ load ∈ plan.summary.map ForkSummary.load ∧
    ∀ y ∈ plan.summary.map ForkSummary.load, y ≤ load
  testCount : ∀ s ∈ plan.summary,
    s.testCount = ((s.groups.map fun g => g.matched.length).sum : ℕ)
  load : ∀ s ∈ plan.summary, s.load = (s.groups.map GroupSummary.cost).foldl (· + ·) 0.0
  exact_load : ∀ s ∈ plan.summary, Number.Unrounded 0.0 (s.groups.map GroupSummary.cost) →
    exact s.load = (s.groups.map fun g => exact g.cost).sum

variable {plan : Plan}

/-- **The summary of a plan agrees with it** if its forks stand at their indices and all tasks are
names. -/
theorem summarized (hnumbered : plan.Numbered) (hne : plan.forks ≠ [])
    (h : ∀ t ∈ plan.tasks, t.IsName) : plan.Summarized := by
  have hnames : ∀ f ∈ plan.forks, ∀ t ∈ f.taskList, t.IsName := by
    intro f hf t ht
    exact h t (List.mem_eraseDups.mpr (List.mem_flatMap.mpr ⟨f, hf, ht⟩))
  have hentry {w : ℕ} {s : ForkSummary} (hs : plan.summary[w]? = some s) :
      ∃ f, plan.forks[w]? = some f ∧ f.summary = s := by
    rw [summary, List.getElem?_map] at hs
    exact Option.map_eq_some_iff.mp hs
  have hloads : plan.summary.map ForkSummary.load = plan.loads := List.map_map
  exact {
    indices := by
      rw [summary, List.map_map, forkCount, ← hnumbered, List.map_map]
      rfl
    names := fun w s hs task => by
      obtain ⟨f, hf, rfl⟩ := hentry hs
      have hmem := List.mem_of_getElem? hf
      rw [testsFor_eq, hf, Fork.namesFor_summary (plan.frozen f hmem) (hnames f hmem)]
    tasks := fun w s hs => by
      obtain ⟨f, hf, rfl⟩ := hentry hs
      have hmem := List.mem_of_getElem? hf
      have hfrozen := plan.frozen f hmem
      refine ⟨f, f.taskList, ?_, if_pos hfrozen,
        fun t => Fork.mem_taskList_iff_summary hfrozen (hnames f hmem)⟩
      rw [worker_eq, hf]
    loads := hloads
    makespan := by
      rw [hloads]
      exact exists_greatest_load hne
    testCount := List.forall_mem_map.mpr fun f _ => f.testCount_summary
    load := List.forall_mem_map.mpr fun f _ => f.load_summary
    exact_load := List.forall_mem_map.mpr fun f _ => f.exact_load_summary }

end Plan

namespace Planner

/-- **The summary of a plan that is generated agrees with it**, if all tasks are names. -/
theorem summary_generate {σ : Type} {p : Planner (StateM σ)} {world : σ} {plan : Plan}
    (h : (ask p.generate world).1.1.outcome = .ok plan) (hnames : ∀ t ∈ plan.tasks, t.IsName) :
    plan.Summarized := by
  rcases p.ask_generate world with ⟨e, he, -⟩ | ⟨records, groups, -, -, hplan, -⟩
  · rw [h] at he
    cases he
  · obtain rfl := Except.ok.inj (h.symm.trans hplan)
    exact Plan.summarized (Plan.numbered_schedule p.at_least_one groups records)
      (Plan.forks_schedule_ne_nil p.at_least_one groups records) hnames

end Planner

/-- A suite of two tasks that cover the same tests by one pattern. -/
def wordGroups : List Group :=
  [⟨"d*", .name "unit", by decide⟩, ⟨"w*", .name "unit", by decide⟩, ⟨"d*", .name "e2e", by decide⟩]

/-- A planner of this suite. -/
def wordPlanner : Planner (StateM Unit) where
  forkCount := 2
  at_least_one := Nat.two_pos
  timings := pure ⟨.ok signedHistory, []⟩
  sources := [⟨pure ⟨.ok ["d*", "w*"], []⟩, .name "unit"⟩, ⟨pure ⟨.ok ["d*"], []⟩, .name "e2e"⟩]

/-- The plan of three groups of two tasks for two forks. -/
theorem Planner.summary_generate_words : ∃ plan,
    (ask wordPlanner.generate ()).1.1.outcome = .ok plan ∧ (∀ t ∈ plan.tasks, t.IsName) ∧
      plan.Summarized ∧ plan.summary.map ForkSummary.index = [0, 1] := by
  have hplan : (ask wordPlanner.generate ()).1.1.outcome =
      .ok (Plan.schedule 2 wordGroups signedHistory).1 := rfl
  have hnames : ∀ t ∈ (Plan.schedule 2 wordGroups signedHistory).1.tasks, t.IsName := by
    intro t ht
    obtain ⟨b, hb, rfl⟩ := Plan.mem_tasks.mp ht
    have hgroup := List.mem_map_of_mem (f := Bucket.group)
      ((Plan.perm_schedule two_pos wordGroups signedHistory).mem_iff.mp hb)
    rw [Bucket.map_group_build] at hgroup
    have hwords : ∀ g ∈ wordGroups, g.task.IsName := by
      simp only [wordGroups, List.forall_mem_cons]
      exact ⟨⟨_, rfl⟩, ⟨_, rfl⟩, ⟨_, rfl⟩, List.forall_mem_nil _⟩
    exact hwords _ hgroup
  have hsummarized := summary_generate hplan hnames
  refine ⟨_, hplan, hnames, hsummarized, ?_⟩
  rw [hsummarized.indices, Plan.forkCount, Plan.length_forks_schedule two_pos]
  rfl

end SuiteBalance
