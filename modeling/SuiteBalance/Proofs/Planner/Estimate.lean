import Mathlib
import SuiteBalance.Proofs.Planner.Reordering
import SuiteBalance.Proofs.Schedule.Comparison

/-!
# Proofs — Planner — what a plan estimates

The costs, loads and makespan of a plan come of a bisected history, of buckets and of loads that are
kept from step to step.  Where no sum has been rounded, they are what one formula over the records
gives.

* `Plan.Estimated`: what the formula of `Group.estimate` says of a plan.
* `Plan.estimated_schedule`: every schedule is estimated by the formula.
* **`Planner.estimated_generate`**: so is every plan that is generated, by the provider's records.
-/

namespace SuiteBalance

open Number

/-! ### Loads -/

/-- Where no sum has been rounded, the load of a fork is the estimate of its groups. -/
theorem Fork.Unrounded.exact_load {f : Fork} (h : f.Unrounded) {records : List TimingRecord}
    (hmatched : ∀ b ∈ f.buckets, b.matched.Perm (b.group.covered records)) :
    exact f.load = ((f.buckets.map fun b => b.group.estimate records).sum : ℚ) := by
  have hseconds : ∀ b ∈ f.buckets, b.seconds = b.group.estimate records := by
    intro b hb
    rw [h.seconds_eq hb, Group.estimate, Timing.exactEstimate_eq_of_perm (hmatched b hb)]
  rw [h.toExact.exact_load, List.map_congr_left hseconds]

namespace Plan

/-- What a plan says of some groups by the records of earlier runs. -/
structure Estimated (plan : Plan) (groups : List Group) (records : List TimingRecord) : Prop where
  perm_groups : ((plan.forks.flatMap Fork.buckets).map Bucket.group).Perm groups
  matched : ∀ f ∈ plan.forks, ∀ b ∈ f.buckets, b.matched.Perm (b.group.covered records)
  testCount : ∀ f ∈ plan.forks, ∀ b ∈ f.buckets, b.testCount = (b.group.covered records).length
  load : ∀ f ∈ plan.forks, f.Unrounded →
    exact f.load = ((f.buckets.map fun b => b.group.estimate records).sum : ℚ)
  total : (∀ f ∈ plan.forks, f.Unrounded) →
    (plan.loads.map exact).sum = ((groups.map fun g => g.estimate records).sum : ℚ)
  makespan : ∃ load, plan.makespan = .ok load ∧ load ∈ plan.loads ∧ ∀ y ∈ plan.loads, y ≤ load

variable {plan : Plan} {groups : List Group} {records : List TimingRecord}

/-- Loads that are the estimates of the groups on each fork are together that of all groups. -/
theorem sum_loads_eq (hgroups : ((plan.forks.flatMap Fork.buckets).map Bucket.group).Perm groups)
    (hload : ∀ f ∈ plan.forks,
      exact f.load = ((f.buckets.map fun b => b.group.estimate records).sum : ℚ)) :
    (plan.loads.map exact).sum = ((groups.map fun g => g.estimate records).sum : ℚ) := by
  have hsum := (hgroups.map fun g => g.estimate records).sum_eq
  rw [List.map_map, List.map_flatMap, List.flatMap_def, List.sum_flatten, List.map_map] at hsum
  rw [loads, List.map_map, ← hsum, coe_sum, List.map_map]
  exact congrArg List.sum (List.map_congr_left hload)

/-- The makespan of a plan with forks is the greatest of its loads. -/
theorem exists_greatest_load (h : plan.forks ≠ []) :
    ∃ load, plan.makespan = .ok load ∧ load ∈ plan.loads ∧ ∀ y ∈ plan.loads, y ≤ load := by
  obtain ⟨f, hf, hmakespan, hslowest⟩ := exists_slowest h
  refine ⟨f.load, hmakespan, List.mem_map_of_mem hf, fun y hy => ?_⟩
  obtain ⟨g, hg, rfl⟩ := List.mem_map.mp hy
  exact (le_iff_exact_le g.nonneg_load f.nonneg_load).mpr (hslowest g hg)

/-- **The costs, loads and makespan of a schedule are what the formula gives.** -/
theorem estimated_schedule {count : ℕ} (hcount : 0 < count) (groups : List Group)
    (records : List TimingRecord) : (schedule count groups records).1.Estimated groups records := by
  have hperm := perm_schedule hcount groups records
  have hgroups := hperm.map Bucket.group
  rw [Bucket.map_group_build] at hgroups
  have hmatched : ∀ f ∈ (schedule count groups records).1.forks, ∀ b ∈ f.buckets,
      b.matched.Perm (b.group.covered records) := fun f hf b hb =>
    Bucket.perm_matched (hperm.mem_iff.mp (List.mem_flatMap.mpr ⟨f, hf, hb⟩))
  have hne : (schedule count groups records).1.forks ≠ [] := by
    rw [← List.length_pos_iff, length_forks_schedule hcount groups records]
    exact hcount
  exact {
    perm_groups := hgroups
    matched := hmatched
    testCount := fun f hf b hb => (hmatched f hf b hb).length_eq
    load := fun f hf h => h.exact_load (hmatched f hf)
    total := fun h => sum_loads_eq hgroups fun f hf => (h f hf).exact_load (hmatched f hf)
    makespan := exists_greatest_load hne }

end Plan

namespace Planner

/-- **A plan estimates what was discovered by the records that the provider answered.**  Where no sum
is rounded, a fork takes as long as its groups by the formula of `Group.estimate`, the forks together
as long as all groups, and the makespan is the greatest of the loads. -/
theorem estimated_generate {σ : Type} {p : Planner (StateM σ)} {world : σ} {plan : Plan}
    (h : (ask p.generate world).1.1.outcome = .ok plan) :
    ∃ records groups, (ask p.timings world).1.outcome = .ok records ∧
      (ask (discover p.sources) (ask p.timings world).2).1.outcome = .ok groups ∧
      plan.Estimated groups records := by
  rcases p.ask_generate world with ⟨e, he, -⟩ | ⟨records, groups, htimings, hfound, hplan, -⟩
  · rw [h] at he
    cases he
  · obtain rfl := Except.ok.inj (h.symm.trans hplan)
    exact ⟨records, groups, htimings, hfound, Plan.estimated_schedule p.at_least_one groups records⟩

end Planner

/-- The groups of a suite in which two groups cover the same tests. -/
def pairGroups : List Group :=
  [⟨"db*", .name "7", by decide⟩, ⟨"web*", .name "7", by decide⟩, ⟨"db1*", .number 7, by decide⟩]

/-- The signed history in whole seconds. -/
def signedSeconds (r : TimingRecord) : ℕ := if r.name = "web1" then 25 else 0

theorem exact_signedHistory : ∀ r ∈ signedHistory, exact r.duration = (signedSeconds r : ℚ) := by
  have hsigned : exact (-0.0) = ((0 : ℕ) : ℚ) := by
    have : Double.ofFloat (-0.0) = .finite true 0 (-1074) := by decide +kernel
    simp [exact, this, Double.magnitude]
  have hlong : exact 25.0 = ((25 : ℕ) : ℚ) := by
    have : Double.ofFloat 25.0 = .finite false (25 * 2 ^ 48) (-48) := by decide +kernel
    norm_num [exact, this, Double.magnitude]
  intro r hr
  simp only [signedHistory, List.mem_cons, List.not_mem_nil, or_false] at hr
  rcases hr with rfl | rfl | rfl
  · exact exact_zero
  · exact hlong
  · exact hsigned

/-- Of three groups two cover both records of one name, each raised to ten seconds. -/
theorem Planner.estimated_generate_signed : ∃ plan,
    (ask (pairPlanner signedHistory ["db*", "web*"] ["db1*"]).generate ()).1.1.outcome =
      .ok plan ∧ (∀ f ∈ plan.forks, f.Unrounded) ∧ plan.Estimated pairGroups signedHistory ∧
      (plan.loads.map exact).sum = (65 : ℚ) := by
  have hplan : (ask (pairPlanner signedHistory ["db*", "web*"] ["db1*"]).generate
      ()).1.1.outcome = .ok (Plan.schedule 2 pairGroups signedHistory).1 := rfl
  obtain ⟨records, groups, hrecords, hgroups, hestimated⟩ := estimated_generate hplan
  obtain rfl : signedHistory = records := Except.ok.inj hrecords
  obtain rfl : pairGroups = groups := Except.ok.inj hgroups
  have hunrounded : ∀ f ∈ (Plan.schedule 2 pairGroups signedHistory).1.forks, f.Unrounded := by
    refine Plan.unrounded_of_whole two_pos signedSeconds exact_signedHistory ?_
    refine lt_of_le_of_lt (List.sum_le_card_nsmul _ 50 fun s hs => ?_) ?_
    · obtain ⟨b, hb, rfl⟩ := List.mem_map.mp hs
      exact (Bucket.wholeEstimate_matched_le _ hb).trans (by decide)
    · decide
  have hwhole : pairGroups.map (fun g => Timing.wholeEstimate signedSeconds
      (g.covered signedHistory)) = [20, 25, 20] := by decide +kernel
  have hestimates : (pairGroups.map fun g => g.estimate signedHistory) =
      [20, 25, 20].map (Nat.cast : ℕ → ℚ) := by
    rw [← hwhole, List.map_map]
    exact List.map_congr_left fun g _ => Timing.exactEstimate_of_whole fun r hr =>
      exact_signedHistory r (List.mem_of_mem_filter hr)
  refine ⟨_, hplan, hunrounded, hestimated, ?_⟩
  rw [hestimated.total hunrounded, hestimates]
  norm_num

end SuiteBalance
