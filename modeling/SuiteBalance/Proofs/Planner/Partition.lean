import Mathlib
import SuiteBalance.Proofs.Planner.Discovery
import SuiteBalance.Proofs.Schedule.Run
import SuiteBalance.Proofs.Schedule.Tasks

/-!
# Proofs — Planner — a plan parts what was discovered

The forks of a plan together run what the sources listed: for each task the same patterns, each as
often as it was listed.  On a fork buckets stand by decreasing cost, and in the order of discovery
where they cost the same.

* `Planner.perm_patterns`: no pattern is lost, doubled or moved to another task.
* `Planner.mem_tasks`: a plan names the tasks for which something was listed.
* `Planner.generate_partition`: the whole of it, and the order.
-/

namespace SuiteBalance

/-! ### Buckets and groups -/

/-- The pattern of a bucket with the task that runs it. -/
def Bucket.entry (b : Bucket) : String × Task := (b.pattern, b.task)

theorem Bucket.map_entry_build (groups : List Group) (records : List TimingRecord) :
    (build groups records).1.map entry = groups.map fun g => (g.pattern, g.task) := by
  simp only [build, List.map_map]
  rfl

/-- The patterns that sources list for a task. -/
def Source.patternsFor (sources : List (Source Id)) (t : Task) : List String :=
  (sources.filter (·.task = t)).flatMap Source.patterns

theorem Source.filter_listed (sources : List (Source Id)) (t : Task) :
    ((listed sources).filter (·.2 = t)).map Prod.fst = patternsFor sources t := by
  induction sources with
  | nil => rfl
  | cons s rest ih =>
      have hcons : listed (s :: rest) = s.patterns.map (·, s.task) ++ listed rest := rfl
      rw [hcons, List.filter_append, List.map_append, ih, patternsFor, patternsFor]
      by_cases h : s.task = t
      · rw [List.filter_cons_of_pos (by simpa using h), List.flatMap_cons]
        simp [h, List.filter_map, Function.comp_def]
      · rw [List.filter_cons_of_neg (by simpa using h)]
        simp [h]

/-- The patterns of a task are those of its entries. -/
theorem Bucket.map_pattern_filter (buckets : List Bucket) (t : Task) :
    (buckets.filter (·.task = t)).map pattern =
      ((buckets.map entry).filter (·.2 = t)).map Prod.fst := by
  rw [List.filter_map, List.map_map]
  rfl

namespace Planner

variable {groups : List Group} {sources : List (Source Id)} {count : ℕ}

/-- **What the forks of a schedule run for a task is what was listed for it.** -/
theorem perm_patterns (records : List TimingRecord) (hcount : 0 < count)
    (hgroups : groups.map (fun g => (g.pattern, g.task)) = Source.listed sources) (t : Task) :
    ((Plan.schedule count groups records).1.forks.flatMap (·.patternsOf t)).Perm
      (Source.patternsFor sources t) := by
  have hperm := ((Plan.perm_schedule hcount groups records).filter
    (·.task = t)).map Bucket.pattern
  rw [Bucket.map_pattern_filter (Bucket.build groups records).1, Bucket.map_entry_build, hgroups,
    Source.filter_listed, List.filter_flatMap, List.map_flatMap] at hperm
  have hpatterns : (Plan.schedule count groups records).1.forks.flatMap (·.patternsOf t) =
      (Plan.schedule count groups records).1.forks.flatMap fun f =>
        (f.buckets.filter (·.task = t)).map Bucket.pattern :=
    List.flatMap_congr fun f hf => Fork.patternsOf_eq (Plan.frozen _ f hf) t
  rwa [hpatterns]

/-- **A schedule names the tasks for which something was listed.** -/
theorem mem_tasks (records : List TimingRecord) (hcount : 0 < count)
    (hgroups : groups.map (fun g => (g.pattern, g.task)) = Source.listed sources) (t : Task) :
    t ∈ (Plan.schedule count groups records).1.tasks ↔ Source.patternsFor sources t ≠ [] := by
  have hperm := perm_patterns records hcount hgroups t
  rw [Plan.mem_tasks]
  constructor
  · rintro ⟨b, hb, rfl⟩ hnil
    rw [hnil] at hperm
    obtain ⟨f, hf, hmem⟩ := List.mem_flatMap.mp hb
    have hnone := List.flatMap_eq_nil_iff.mp hperm.eq_nil f hf
    rw [Fork.patternsOf_eq (Plan.frozen _ f hf), List.map_eq_nil_iff, List.filter_eq_nil_iff] at hnone
    exact hnone b hmem (by simp)
  · intro h
    obtain ⟨pattern, hpattern⟩ := List.exists_mem_of_ne_nil _ h
    obtain ⟨f, hf, hmem⟩ := List.mem_flatMap.mp (hperm.mem_iff.mpr hpattern)
    rw [Fork.patternsOf_eq (Plan.frozen _ f hf)] at hmem
    obtain ⟨b, hb, -⟩ := List.mem_map.mp hmem
    exact ⟨b, List.mem_flatMap.mpr ⟨f, hf, List.mem_of_mem_filter hb⟩,
      of_decide_eq_true (List.mem_filter.mp hb).2⟩

/-- The buckets of a schedule's fork stand by decreasing cost, and in the order of discovery where
they cost the same. -/
theorem fork_order {records : List TimingRecord} (hcount : 0 < count) {w : ℕ} {f : Fork}
    (hf : (Plan.schedule count groups records).1.forks[w]? = some f) :
    (f.buckets.Pairwise fun a b => b.cost ≤ a.cost) ∧
      ∀ cost, (f.buckets.filter (·.cost == cost)).Sublist
        ((Bucket.build groups records).1.filter (·.cost == cost)) := by
  obtain ⟨-, -, hsub⟩ := Plan.getElem?_forks_schedule hcount hf
  refine ⟨(Bucket.pairwise_byCost _).sublist hsub, fun cost => ?_⟩
  rw [← Bucket.filter_byCost (Bucket.build groups records).1]
  exact hsub.filter _

/-- What a schedule's fork runs for a task is taken in order from the buckets of the task, stably
sorted by cost. -/
theorem sublist_patternsOf {records : List TimingRecord} (hcount : 0 < count) {w : ℕ} {f : Fork}
    (hf : (Plan.schedule count groups records).1.forks[w]? = some f) (t : Task) :
    (f.patternsOf t).Sublist
      ((Bucket.byCost ((Bucket.build groups records).1.filter (·.task = t))).map Bucket.pattern) := by
  obtain ⟨-, hfrozen, hsub⟩ := Plan.getElem?_forks_schedule hcount hf
  rw [Fork.patternsOf_eq hfrozen, Bucket.byCost_filter]
  exact (hsub.filter _).map _

/-- **A plan parts what was discovered.**  For each task the forks together run what was listed for
it; the plan names each task for which something was listed, once; and on each fork the buckets
stand by decreasing cost, in the order of discovery where they cost the same. -/
theorem generate_partition {p : Planner Id} {plan : Plan}
    (h : (Id.run p.generate).1.outcome = .ok plan) :
    (∀ t, ∃ answers, (List.range p.forkCount).mapM (fun w => plan.testsFor (w : ℕ) t) = .ok answers ∧
        answers.flatten.Perm (Source.patternsFor p.sources t)) ∧
      plan.tasks.Nodup ∧ (∀ t, t ∈ plan.tasks ↔ Source.patternsFor p.sources t ≠ []) ∧
      ∃ records groups, (Id.run p.timings).outcome = .ok records ∧
        groups.map (fun g => (g.pattern, g.task)) = Source.listed p.sources ∧
        ∀ (w : ℕ) f, plan.worker w = .ok f →
          (f.buckets.Pairwise fun a b => b.cost ≤ a.cost) ∧
          (∀ cost, (f.buckets.filter (·.cost == cost)).Sublist
            ((Bucket.build groups records).1.filter (·.cost == cost))) ∧
          ∀ t, ∃ patterns, plan.testsFor w t = .ok patterns ∧ patterns.Sublist
            ((Bucket.byCost ((Bucket.build groups records).1.filter (·.task = t))).map
              Bucket.pattern) := by
  obtain ⟨records, groups, htimings, hfound, rfl⟩ := generate_ok h
  have hgroups := discover_ok hfound
  have hcount := p.at_least_one
  refine ⟨fun t => ?_, Plan.nodup_tasks _, mem_tasks records hcount hgroups, records, groups, htimings,
    hgroups, fun w f hf => ?_⟩
  · have hall := Plan.mapM_testsFor (Plan.schedule p.forkCount groups records).1 t
    rw [Plan.length_forks_schedule hcount groups records] at hall
    exact ⟨_, hall, perm_patterns records hcount hgroups t⟩
  · have hget : (Plan.schedule p.forkCount groups records).1.forks[w]? = some f := by
      rw [Plan.worker_eq] at hf
      split at hf
      · rename_i hget
        exact hget.trans (congrArg some (Except.ok.inj hf))
      · cases hf
    obtain ⟨sorted, same⟩ := fork_order hcount hget
    refine ⟨sorted, same, fun t => ⟨_, ?_, sublist_patternsOf hcount hget t⟩⟩
    rw [Plan.testsFor_eq, hget]

end Planner

/-- A planner for two forks and no history: two sources list patterns for one task, one of them in
common, and a third source lists nothing. -/
def smallPlanner : Planner Id where
  forkCount := 2
  at_least_one := Nat.two_pos
  timings := pure ⟨.ok [], []⟩
  sources := [⟨pure ⟨.ok ["slow*", "fast*"], []⟩, .name "unit"⟩, ⟨pure ⟨.ok [], []⟩, .number 7⟩,
    ⟨pure ⟨.ok ["fast*"], []⟩, .name "unit"⟩]

/-- The planner succeeds with the groups of the three patterns. -/
theorem Planner.generate_small : ∃ groups : List Group,
    groups.map (fun g => (g.pattern, g.task)) = Source.listed smallPlanner.sources ∧
      (Id.run smallPlanner.generate).1.outcome = .ok (Plan.schedule 2 groups []).1 :=
  ⟨[⟨"slow*", .name "unit", by decide⟩, ⟨"fast*", .name "unit", by decide⟩,
    ⟨"fast*", .name "unit", by decide⟩], rfl, rfl⟩

/-- The planner's plan parts the three patterns among two forks. -/
theorem Planner.generate_partition_small :
    ∃ plan, (Id.run smallPlanner.generate).1.outcome = .ok plan ∧
      (∃ answers, (List.range 2).mapM (fun w => plan.testsFor (w : ℕ) (.name "unit")) = .ok answers ∧
        answers.flatten.Perm ["slow*", "fast*", "fast*"]) ∧
      .name "unit" ∈ plan.tasks ∧ .number 7 ∉ plan.tasks := by
  obtain ⟨groups, -, houtcome⟩ := generate_small
  obtain ⟨answers, -, tasks, -⟩ := generate_partition houtcome
  refine ⟨_, houtcome, answers (.name "unit"), (tasks _).mpr ?_, fun h => (tasks _).mp h ?_⟩
  · exact List.cons_ne_nil _ _
  · rfl

end SuiteBalance
