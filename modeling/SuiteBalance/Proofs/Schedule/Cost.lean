import Mathlib
import SuiteBalance.Allocation
import SuiteBalance.Proofs.Number.Arithmetic
import SuiteBalance.Proofs.Sorting

/-!
# Proofs — Schedule — what buckets cost

A bucket costs at least ten seconds, so no cost is below zero and the order of costs is total.

* `Bucket.ten_le_cost`: the least cost of a bucket.
* `Bucket.pairwise_byCost`, `Bucket.perm_byCost`, `Bucket.filter_byCost`: giving-out order is by
  decreasing cost, holds the same buckets, and keeps the order of those that cost the same.
* `Bucket.map_cost_byCost`: the costs that are given out do not depend on the order of discovery.
* `Bucket.byCost_filter`: the order of some buckets does not depend on the others.
* `Bucket.exact_total_append`: a load grows by sums that are fitted to the format.
-/

namespace SuiteBalance

open Number

/-! ### Durations -/

theorem nonneg_of_isFinite {x : Float} (finite : x.isFinite = true) (h : ¬ x < 0.0) : 0.0 ≤ x := by
  replace finite : x.toModel.unpack.isFinite = true := finite
  rw [lt_iff_unpack_lt, unpack_zero] at h
  rw [le_iff_unpack_le, unpack_zero]
  cases hu : x.toModel.unpack with
  | infinity => simp [hu, Float.Model.UnpackedFloat.isFinite] at finite
  | notANumber => simp [hu, Float.Model.UnpackedFloat.isFinite] at finite
  | zero => rfl
  | finite s =>
      cases s with
      | negative =>
          rw [hu] at h
          exact absurd rfl h
      | positive => rfl

theorem TimingRecord.nonneg_duration (r : TimingRecord) : 0.0 ≤ r.duration :=
  nonneg_of_isFinite r.finite r.not_negative

namespace Timing

theorem exact_leastCost : exact leastCost = 10 := by
  have : Double.ofFloat leastCost = .finite false (10 * 2 ^ 49) (-49) := by decide +kernel
  rw [exact, this]
  norm_num [Double.magnitude]

theorem nonneg_leastCost : 0.0 ≤ leastCost := by decide +kernel

variable {seconds : Float}

theorem nonneg_atLeastCost (h : 0.0 ≤ seconds) : 0.0 ≤ atLeastCost seconds := by
  unfold atLeastCost
  split
  · exact nonneg_leastCost
  · exact h

/-- Raising a duration to the least cost is a maximum. -/
theorem exact_atLeastCost (h : 0.0 ≤ seconds) :
    exact (atLeastCost seconds) = max 10 (exact seconds) := by
  have hlt := lt_iff_exact_lt h nonneg_leastCost
  rw [exact_leastCost] at hlt
  unfold atLeastCost
  split
  case isTrue hs => rw [exact_leastCost, max_eq_left (hlt.mp hs).le]
  case isFalse hs => rw [max_eq_right (not_lt.mp fun h => hs (hlt.mpr h))]

/-- Durations summed from left to right stay above zero. -/
theorem nonneg_foldl (records : List TimingRecord) {start : Float} (h : 0.0 ≤ start) :
    0.0 ≤ records.foldl (fun total r => total + atLeastCost r.duration) start := by
  induction records generalizing start with
  | nil => exact h
  | cons r rest ih => exact ih (nonneg_add h (nonneg_atLeastCost r.nonneg_duration))

theorem ne_zero_of_ten_le {r : WithTop ℚ} (h : 10 ≤ r) : r ≠ 0 := by
  have hpos : (0 : WithTop ℚ) < 10 := by exact_mod_cast (by norm_num : (0 : ℚ) < 10)
  exact (hpos.trans_le h).ne'

/-- Durations that compare equal, as the two zeros do, are raised to one cost. -/
theorem atLeastCost_congr {other : Float} (h : 0.0 ≤ seconds) (heq : seconds == other) :
    atLeastCost seconds = atLeastCost other := by
  have hother := nonneg_of_beq h heq
  refine eq_of_exact_eq (nonneg_atLeastCost h) (nonneg_atLeastCost hother) ?_ ?_
  · rw [exact_atLeastCost h, exact_atLeastCost hother, (beq_iff_exact_eq h hother).mp heq]
  · rw [exact_atLeastCost h]
    exact ne_zero_of_ten_le (le_max_left _ _)

theorem nonneg_zero : (0.0 : Float) ≤ 0.0 := by decide +kernel

/-- An estimate is made of the costs of the tests alone. -/
theorem estimate_eq (records : List TimingRecord) : estimate records =
    atLeastCost ((records.map fun r => atLeastCost r.duration).foldl (· + ·) 0.0) :=
  congrArg atLeastCost List.foldl_map.symm

theorem nonneg_estimate (records : List TimingRecord) : 0.0 ≤ estimate records :=
  nonneg_atLeastCost (nonneg_foldl records nonneg_zero)

theorem ten_le_estimate (records : List TimingRecord) : 10 ≤ exact (estimate records) := by
  rw [estimate, exact_atLeastCost (nonneg_foldl records nonneg_zero)]
  exact le_max_left _ _

end Timing

/-! ### Costs -/

namespace Bucket

theorem nonneg_cost (b : Bucket) : 0.0 ≤ b.cost := b.cost_eq ▸ Timing.nonneg_estimate b.matched

/-- **A bucket costs at least ten seconds.** -/
theorem ten_le_cost (b : Bucket) : 10 ≤ exact b.cost := b.cost_eq ▸ Timing.ten_le_estimate b.matched

theorem cost_le_iff (a b : Bucket) : a.cost ≤ b.cost ↔ exact a.cost ≤ exact b.cost :=
  le_iff_exact_le a.nonneg_cost b.nonneg_cost

/-! ### The order of giving out -/

theorem byCost_trans (a b c : Bucket) (hab : decide (b.cost ≤ a.cost) = true)
    (hbc : decide (c.cost ≤ b.cost) = true) : decide (c.cost ≤ a.cost) = true := by
  rw [decide_eq_true_iff, cost_le_iff] at *
  exact hbc.trans hab

theorem byCost_total (a b : Bucket) :
    (decide (b.cost ≤ a.cost) || decide (a.cost ≤ b.cost)) = true := by
  rw [Bool.or_eq_true, decide_eq_true_iff, decide_eq_true_iff, cost_le_iff, cost_le_iff]
  exact le_total _ _

/-- Buckets are given out by decreasing cost. -/
theorem pairwise_byCost (buckets : List Bucket) :
    (byCost buckets).Pairwise fun a b => b.cost ≤ a.cost := by
  have := List.pairwise_mergeSort byCost_trans byCost_total buckets
  exact this.imp fun h => of_decide_eq_true h

theorem perm_byCost (buckets : List Bucket) : (byCost buckets).Perm buckets :=
  List.mergeSort_perm _ _

/-- **Buckets that cost the same are given out in the order in which they came.** -/
theorem filter_byCost (buckets : List Bucket) (cost : Float) :
    (byCost buckets).filter (·.cost == cost) = buckets.filter (·.cost == cost) := by
  refine filter_mergeSort byCost_trans byCost_total fun a _ b _ ha hb => ?_
  have hcost := nonneg_of_beq a.nonneg_cost ha
  rw [decide_eq_true_iff, cost_le_iff, (beq_iff_exact_eq a.nonneg_cost hcost).mp ha,
    (beq_iff_exact_eq b.nonneg_cost hcost).mp hb]

/-- Costs that stand for one number are one. -/
theorem cost_eq_of_exact_eq {b c : Bucket} (h : exact b.cost = exact c.cost) : b.cost = c.cost :=
  eq_of_exact_eq b.nonneg_cost c.nonneg_cost h (Timing.ne_zero_of_ten_le b.ten_le_cost)

/-- **The costs that are given out do not depend on the order in which the buckets came.** -/
theorem map_cost_byCost {buckets buckets' : List Bucket}
    (h : (buckets.map cost).Perm (buckets'.map cost)) :
    (byCost buckets).map cost = (byCost buckets').map cost := by
  have hsorted (buckets : List Bucket) :
      ((byCost buckets).map cost).Pairwise fun x y => y ≤ x :=
    List.pairwise_map.mpr (pairwise_byCost buckets)
  have hperm := ((perm_byCost buckets).map cost).trans
    (h.trans ((perm_byCost buckets').map cost).symm)
  refine hperm.eq_of_pairwise (fun x y hx hy hyx hxy => ?_) (hsorted buckets) (hsorted buckets')
  obtain ⟨b, -, rfl⟩ := List.mem_map.mp hx
  obtain ⟨c, -, rfl⟩ := List.mem_map.mp hy
  exact cost_eq_of_exact_eq (le_antisymm ((cost_le_iff b c).mp hxy) ((cost_le_iff c b).mp hyx))

/-- One more bucket comes behind those that cost more, and before all others. -/
theorem byCost_cons (b : Bucket) (rest : List Bucket) :
    ∃ l₁ l₂, byCost (b :: rest) = l₁ ++ b :: l₂ ∧ byCost rest = l₁ ++ l₂ := by
  obtain ⟨l₁, l₂, hcons, hrest, -⟩ := exists_mergeSort_cons byCost_trans byCost_total b rest
  exact ⟨l₁, l₂, hcons, hrest⟩

/-- **Some of the buckets are given out as if they were alone.** -/
theorem byCost_filter (buckets : List Bucket) (q : Bucket → Bool) :
    byCost (buckets.filter q) = (byCost buckets).filter q :=
  mergeSort_filter byCost_trans byCost_total q buckets

/-! ### Loads -/

/-- A load is made of costs alone. -/
theorem total_eq (buckets : List Bucket) :
    total buckets = (buckets.map cost).foldl (· + ·) 0.0 := List.foldl_map.symm

@[simp] theorem total_append (front : List Bucket) (b : Bucket) :
    total (front ++ [b]) = total front + b.cost := by
  simp [total]

theorem nonneg_total (buckets : List Bucket) : 0.0 ≤ total buckets := by
  induction buckets using List.reverseRecOn with
  | nil => exact Timing.nonneg_zero
  | append_singleton front b ih =>
      rw [total_append]
      exact nonneg_add ih b.nonneg_cost

/-- A load grows by sums that are fitted to the format. -/
theorem exact_total_append (front : List Bucket) (b : Bucket) :
    exact (total (front ++ [b])) = fitted (exact (total front) + exact b.cost) := by
  rw [total_append, exact_add (nonneg_total front) b.nonneg_cost]

end Bucket

end SuiteBalance
