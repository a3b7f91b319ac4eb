import Mathlib
import SuiteBalance.Proofs.Schedule.Overlap
import SuiteBalance.Proofs.Schedule.Reordering

/-!
# Proofs — Schedule — repeated names in another order

Several records may have one name, and they stay in the order in which they came.  What a group
costs is a sum of doubles, which are rounded, so it may depend on that order.  It stays near the
exact sum, and it does not depend on the order if the records of each name cost the same in turn, or
if no sum is rounded, or if there are at most two of them.

* `Timing.within_estimate`: how far an estimate is from exact.
* `Group.Settled`: when the order does not matter.
* `Group.cost_eq_of_settled`: then it does not change what the group costs.
* `Plan.Agrees`: plans whose forks have the same groups at the same costs.
* **`Plan.reordered_schedule`**: what the order of the records may change, and what it may not.
* `Plan.moved_drifting`: it may move groups to other forks.
-/

namespace SuiteBalance

open Number

/-! ### Estimates -/

namespace Timing

/-- Raising a duration to the least cost is no rounding. -/
theorem within_atLeastCost {n : ℕ} {x : Float} {s : ℚ} (h : Within n x s) (hx : 0.0 ≤ x) :
    Within n (atLeastCost x) (max 10 s) := by
  have hten : ((10 : ℚ) : WithTop ℚ) = 10 := rfl
  have hdown : (0 : ℚ) ≤ (1 - roundoff) ^ n := pow_nonneg (sub_nonneg.mpr roundoff_lt_one.le) n
  have hup : (1 : ℚ) ≤ (1 + roundoff) ^ n :=
    one_le_pow₀ (le_add_of_nonneg_right roundoff_pos.le)
  constructor
  · rw [exact_atLeastCost hx, mul_max_of_nonneg _ _ hdown, WithTop.coe_max, ← hten]
    refine max_le_max (WithTop.coe_le_coe.mpr ?_) h.below
    exact mul_le_of_le_one_left (by norm_num)
      (pow_le_one₀ (sub_nonneg.mpr roundoff_lt_one.le) (sub_le_self 1 roundoff_pos.le))
  · intro hlt
    rw [mul_max_of_nonneg _ _ (zero_le_one.trans hup)] at hlt ⊢
    rw [exact_atLeastCost hx, WithTop.coe_max, ← hten]
    refine max_le_max (WithTop.coe_le_coe.mpr ?_) (h.above ((le_max_right _ _).trans_lt hlt))
    exact le_mul_of_one_le_left (by norm_num) hup

/-- **An estimate is rounded once for each test but the first.** -/
theorem within_estimate (records : List TimingRecord) :
    Within (records.length - 1) (estimate records) (exactEstimate records) := by
  have hcosts : Within (0 + (records.length - 1))
      ((records.map fun r => atLeastCost r.duration).foldl (· + ·) 0.0)
      (records.map fun r => max r.seconds 10).sum := by
    refine within_sum (fun r _ => ⟨?_, ?_, ?_⟩) fun r _ => ?_
    · exact nonneg_atLeastCost r.nonneg_duration
    · exact le_max_of_le_right (by norm_num)
    · exact .of_exact_eq (exact_atLeastCost_duration r)
    · rw [exact_atLeastCost_duration]
      exact WithTop.one_le_coe.mpr (le_max_of_le_right (by norm_num))
  rw [zero_add] at hcosts
  rw [estimate_eq]
  refine within_atLeastCost hcosts ?_
  rw [List.foldl_map]
  exact nonneg_foldl records nonneg_zero

/-- Estimates are the same if the sums of their costs stand for the same number. -/
theorem estimate_eq_of_exact {records records' : List TimingRecord}
    (h : exact ((costs records).foldl (· + ·) 0.0) = exact ((costs records').foldl (· + ·) 0.0)) :
    estimate records = estimate records' := by
  refine eq_of_exact_eq (nonneg_estimate records) (nonneg_estimate records') ?_
    (ne_zero_of_ten_le (ten_le_estimate records))
  rw [exact_estimate_eq, exact_estimate_eq, h]

end Timing

/-! ### Groups -/

/-- Lists with the same keys give the same values if they do so for each key. -/
theorem map_eq_of_filter {α β γ : Type} [DecidableEq β] {key : α → β} {value : α → γ}
    {l m : List α} (hkeys : l.map key = m.map key)
    (hvalues : ∀ k, (l.filter (key · = k)).map value = (m.filter (key · = k)).map value) :
    l.map value = m.map value := by
  induction l generalizing m with
  | nil =>
      rw [List.map_nil, eq_comm, List.map_eq_nil_iff] at hkeys
      rw [hkeys]
  | cons a l ih =>
      obtain ⟨b, m, rfl, hkey, hkeys⟩ := List.map_eq_cons_iff.mp hkeys.symm
      have hhead := hvalues (key a)
      rw [List.filter_cons_of_pos (by simp), List.filter_cons_of_pos (by simp [hkey]),
        List.map_cons, List.map_cons, List.cons.injEq] at hhead
      rw [List.map_cons, List.map_cons, hhead.1, ih hkeys.symm fun k => ?_]
      have htail := hvalues k
      by_cases hk : key a = k
      · obtain rfl := hk
        exact hhead.2
      · rwa [List.filter_cons_of_neg (by simpa using hk),
          List.filter_cons_of_neg (by simpa [hkey] using hk)] at htail

namespace Group

variable {g : Group} {records records' : List TimingRecord}

theorem perm_matched (g : Group) (records : List TimingRecord) :
    (g.bucket records).matched.Perm (g.covered records) :=
  History.perm_startingWith records g.stem

theorem covered_perm (hperm : records.Perm records') :
    (g.covered records).Perm (g.covered records') :=
  hperm.filter _

/-- Of one name a group covers the records in the order in which they came. -/
theorem filter_matched (g : Group) (records : List TimingRecord) (name : String) :
    (g.bucket records).matched.filter (·.name = name) =
      (g.covered records).filter (·.name = name) := by
  have hmatched : (g.bucket records).matched =
      (records.mergeSort TimingRecord.precedes).filter fun r => startsWith r.name g.stem :=
    History.startingWith_eq_filter _ _
  rw [hmatched, covered, List.filter_comm, History.filter_name_mergeSort, List.filter_comm]

/-- The names of the records that a group covers do not depend on the order. -/
theorem map_name_matched (hperm : records.Perm records') :
    (g.bucket records).matched.map TimingRecord.name =
      (g.bucket records').matched.map TimingRecord.name := by
  have hhistory := forall₂_map_eq_iff.mpr (History.map_name_ofList hperm)
  exact forall₂_map_eq_iff.mp (History.forall₂_startingWith (fun _ _ h => h) hhistory g.stem)

/-- **A group costs what all of its tests cost, rounded once for each test but the first.** -/
theorem within_cost (g : Group) (records : List TimingRecord) :
    Within ((g.covered records).length - 1) (g.bucket records).cost (g.estimate records) := by
  have hwithin := Timing.within_estimate (g.bucket records).matched
  rwa [(g.perm_matched records).length_eq,
    Timing.exactEstimate_eq_of_perm (g.perm_matched records)] at hwithin

/-- Why the order of the records does not matter for a group: those of each name cost the same in
turn, or their costs are fewer than `2 ^ 53` units in all, of some power of two, or they are at most
two. -/
inductive Settled (g : Group) (records records' : List TimingRecord) : Prop where
  | inTurn (h : ∀ name, Timing.costs ((g.covered records).filter (·.name = name)) =
      Timing.costs ((g.covered records').filter (·.name = name)))
  | onGrid {e : ℤ} (he : leastExponent ≤ e ∧ e ≤ greatestExponent) (units : TimingRecord → ℕ)
      (hunits : ∀ r ∈ g.covered records,
        exact (Timing.atLeastCost r.duration) = (units r * 2 ^ e : ℚ))
      (small : ((g.covered records).map units).sum < 2 ^ 53)
  | few (h : (g.covered records).length ≤ 2)

/-- The exact sum of what the tests of a group cost does not depend on the order. -/
theorem sum_costs_matched (hperm : records.Perm records') :
    ((Timing.costs (g.bucket records).matched).map exact).sum =
      ((Timing.costs (g.bucket records').matched).map exact).sum :=
  (((((g.perm_matched records).trans (covered_perm hperm)).trans
    (g.perm_matched records').symm).map _).map _).sum_eq

/-- Costs that are few units of a power of two are summed exactly. -/
theorem exact_foldl_of_units {records : List TimingRecord} {e : ℤ}
    (he : leastExponent ≤ e ∧ e ≤ greatestExponent) {units : TimingRecord → ℕ}
    (hunits : ∀ r ∈ g.covered records,
      exact (Timing.atLeastCost r.duration) = (units r * 2 ^ e : ℚ))
    (small : ((g.covered records).map units).sum < 2 ^ 53) :
    exact ((Timing.costs (g.bucket records).matched).foldl (· + ·) 0.0) =
      ((Timing.costs (g.bucket records).matched).map exact).sum := by
  have hmatched := g.perm_matched records
  have hunrounded : Number.Unrounded 0.0 (Timing.costs (g.bucket records).matched) := by
    refine unrounded_of_grid (n := 0) he units (fun r hr => ⟨?_, ?_⟩) Timing.nonneg_zero ?_ ?_
    · exact Timing.nonneg_atLeastCost r.nonneg_duration
    · exact hunits r (hmatched.mem_iff.mp hr)
    · rw [exact_zero, Nat.cast_zero, zero_mul]
      rfl
    · rwa [zero_add, (hmatched.map units).sum_eq]
  rw [hunrounded.exact_foldl, exact_zero, zero_add]

/-- The costs of at most two tests are summed with one rounding. -/
theorem exact_foldl_of_few {records : List TimingRecord} (h : (g.covered records).length ≤ 2) :
    exact ((Timing.costs (g.bucket records).matched).foldl (· + ·) 0.0) =
      fitted ((Timing.costs (g.bucket records).matched).map exact).sum := by
  refine exact_foldl_of_length_le (fun _ => Timing.nonneg_of_mem_costs) ?_
  rwa [Timing.costs, List.length_map, (g.perm_matched records).length_eq]

/-- **A settled group costs the same.** -/
theorem cost_eq_of_settled (hperm : records.Perm records') (h : g.Settled records records') :
    (g.bucket records).cost = (g.bucket records').cost := by
  have hcovered := covered_perm (g := g) hperm
  have hsums : exact ((Timing.costs (g.bucket records).matched).foldl (· + ·) 0.0) =
      exact ((Timing.costs (g.bucket records').matched).foldl (· + ·) 0.0) := by
    cases h with
    | inTurn h =>
        have hcosts : Timing.costs (g.bucket records).matched =
            Timing.costs (g.bucket records').matched :=
          map_eq_of_filter (map_name_matched hperm) fun name => by
            rw [filter_matched, filter_matched]
            exact h name
        rw [hcosts]
    | onGrid he units hunits small =>
        have hunits' := fun r hr => hunits r (hcovered.mem_iff.mpr hr)
        have small' := (hcovered.map units).sum_eq ▸ small
        rw [exact_foldl_of_units he hunits small, exact_foldl_of_units he hunits' small',
          sum_costs_matched hperm]
    | few h =>
        rw [exact_foldl_of_few h, exact_foldl_of_few (hcovered.length_eq ▸ h),
          sum_costs_matched hperm]
  exact Timing.estimate_eq_of_exact hsums

end Group

/-! ### Plans -/

/-- Buckets of one group and one cost that have the same records, in any order. -/
structure Bucket.Agrees (b c : Bucket) : Prop where
  group : b.group = c.group
  cost : b.cost = c.cost
  matched : b.matched.Perm c.matched

/-- Plans whose forks hold buckets that agree.  They have the same loads and tasks and give the same
answers. -/
structure Plan.Agrees (p p' : Plan) : Prop where
  forks : List.Forall₂ (Fork.Related Bucket.Agrees) p.forks p'.forks
  loads : p.loads = p'.loads
  makespan : p.makespan = p'.makespan
  tasks : p.tasks = p'.tasks
  testsFor : ∀ index t, p.testsFor index t = p'.testsFor index t

theorem Plan.Agrees.of_forks {p p' : Plan}
    (h : List.Forall₂ (Fork.Related Bucket.Agrees) p.forks p'.forks) : p.Agrees p' := by
  obtain ⟨hloads, hmakespan, htasks, hanswers⟩ :=
    answers_of_related (fun _ _ hb => hb.group) (fun _ _ hb => hb.cost) h
  exact ⟨h, hloads, hmakespan, htasks, hanswers⟩

theorem Group.agrees_bucket {g : Group} {records records' : List TimingRecord}
    (hperm : records.Perm records') (hcost : (g.bucket records).cost = (g.bucket records').cost) :
    (g.bucket records).Agrees (g.bucket records') where
  group := rfl
  cost := hcost
  matched := ((g.perm_matched records).trans (covered_perm hperm)).trans
    (g.perm_matched records').symm

theorem exists_of_forall₂ {α : Type} {S : α → α → Prop} {l m : List α} (h : List.Forall₂ S l m)
    {a : α} (ha : a ∈ l) : ∃ b ∈ m, S a b := by
  induction h with
  | nil => cases ha
  | cons hab _ ih =>
      rcases List.mem_cons.mp ha with rfl | ha
      · exact ⟨_, List.mem_cons_self, hab⟩
      · obtain ⟨b, hb, hS⟩ := ih ha
        exact ⟨b, List.mem_cons_of_mem _ hb, hS⟩

namespace Plan

variable {count : ℕ} {groups : List Group} {records records' : List TimingRecord}

/-- **Plans agree if and only if their groups cost the same.** -/
theorem agrees_schedule_iff (hcount : 0 < count) (hperm : records.Perm records') :
    (schedule count groups records).1.Agrees (schedule count groups records').1 ↔
      ∀ g ∈ groups, (g.bucket records).cost = (g.bucket records').cost := by
  constructor
  · intro h g hg
    -- the bucket of the group stands on a fork, and beside it one of the same group and cost
    have hbuilt := (perm_schedule hcount groups records).mem_iff.mpr
      (List.mem_map_of_mem (f := (·.bucket records)) hg)
    obtain ⟨f, hf, hb⟩ := List.mem_flatMap.mp hbuilt
    obtain ⟨f', hf', hrelated⟩ := exists_of_forall₂ h.forks hf
    obtain ⟨c, hc, hagrees⟩ := exists_of_forall₂ hrelated.buckets hb
    have hbuilt' := (perm_schedule hcount groups records').mem_iff.mp
      (List.mem_flatMap.mpr ⟨f', hf', hc⟩)
    obtain ⟨g', -, rfl⟩ := List.mem_map.mp hbuilt'
    obtain rfl : g = g' := hagrees.group
    exact hagrees.cost
  · intro h
    have hbuckets : List.Forall₂ Bucket.Agrees (Bucket.build groups records).1
        (Bucket.build groups records').1 := by
      rw [Bucket.build_eq, Bucket.build_eq, List.forall₂_map_left_iff, List.forall₂_map_right_iff,
        List.forall₂_same]
      exact fun g hg => Group.agrees_bucket hperm (h g hg)
    have hcost : ∀ b c, Bucket.Agrees b c → b.cost = c.cost := fun _ _ hb => hb.cost
    exact .of_forks (related_schedule hcount hcost (Bucket.forall₂_byCost hcost hbuckets))

/-- **What the order of the records may change.**  What a group costs is the exact estimate, rounded
once for each test but the first, whatever the order, and it is the same if the group is settled.
The plans agree, with the same groups on each fork, if and only if all groups cost the same. -/
theorem reordered_schedule (hcount : 0 < count) (groups : List Group)
    (hperm : records.Perm records') :
    (∀ g : Group,
      Within ((g.covered records).length - 1) (g.bucket records).cost (g.estimate records) ∧
      Within ((g.covered records).length - 1) (g.bucket records').cost (g.estimate records) ∧
      (g.Settled records records' → (g.bucket records).cost = (g.bucket records').cost)) ∧
    ((schedule count groups records).1.Agrees (schedule count groups records').1 ↔
      ∀ g ∈ groups, (g.bucket records).cost = (g.bucket records').cost) := by
  refine ⟨fun g => ⟨g.within_cost records, ?_, Group.cost_eq_of_settled hperm⟩,
    agrees_schedule_iff hcount hperm⟩
  have hcovered := Group.covered_perm (g := g) hperm
  have hwithin := g.within_cost records'
  rwa [← hcovered.length_eq, Group.estimate, ← Timing.exactEstimate_eq_of_perm hcovered] at hwithin

end Plan

/-- The small suite, with an earlier run of a slow test. -/
def repeatedHistory : List TimingRecord :=
  ⟨"slow1", 20.0, by decide +kernel, by decide +kernel⟩ :: smallHistory

/-- Two runs of one test may come in either order. -/
theorem Plan.reordered_schedule_repeated :
    0 < 2 ∧ repeatedHistory.Perm repeatedHistory.reverse ∧
      (schedule 2 smallGroups repeatedHistory).1.Agrees
        (schedule 2 smallGroups repeatedHistory.reverse).1 := by
  have hperm : repeatedHistory.Perm repeatedHistory.reverse := (List.reverse_perm _).symm
  have hfew : ∀ g ∈ smallGroups, (g.covered repeatedHistory).length ≤ 2 := by decide +kernel
  obtain ⟨hgroups, hagrees⟩ := reordered_schedule two_pos smallGroups hperm
  exact ⟨two_pos, hperm, hagrees.mpr fun g hg => (hgroups g).2.2 (.few (hfew g hg))⟩

/-! ### A group that moves -/

/-- Records that come sorted by name are found as they came. -/
theorem Group.bucket_of_sorted (g : Group) {records : List TimingRecord}
    (sorted : records.Pairwise fun a b => a.precedes b = true) :
    g.bucket records = .ofMatched g (g.covered records) := by
  have hrecords : (History.ofList records).records.toList = records :=
    List.mergeSort_of_pairwise sorted
  rw [bucket, History.startingWith_eq_filter, hrecords, covered]

/-- Of two buckets the second is given out first if it costs more. -/
theorem Bucket.byCost_pair {b c : Bucket} (h : ¬ c.cost ≤ b.cost) : byCost [b, c] = [c, b] := by
  rw [byCost, List.mergeSort]
  simp [h]

/-- The group of a test that was run once. -/
def steadyGroup : Group := ⟨"b*", .name "unit", by decide⟩

/-- The group of a test that was run three times. -/
def driftingGroup : Group := ⟨"a*", .name "unit", by decide⟩

/-- Three runs of one test, whose costs are rounded when they are summed, and one run of another. -/
def driftingHistory : List TimingRecord :=
  [⟨"a1", 10.1, by decide +kernel, by decide +kernel⟩,
    ⟨"a1", 20.2, by decide +kernel, by decide +kernel⟩,
    ⟨"a1", 30.3, by decide +kernel, by decide +kernel⟩,
    ⟨"b1", 60.599999999999994, by decide +kernel, by decide +kernel⟩]

/-- The same records, the longest run of the first test before the shortest. -/
def driftedHistory : List TimingRecord :=
  [⟨"a1", 30.3, by decide +kernel, by decide +kernel⟩,
    ⟨"a1", 20.2, by decide +kernel, by decide +kernel⟩,
    ⟨"a1", 10.1, by decide +kernel, by decide +kernel⟩,
    ⟨"b1", 60.599999999999994, by decide +kernel, by decide +kernel⟩]

/-- **Three records in another order make a group cost more**, by the last bit of a double.  It cost
as much as another group, and now comes before it, so both are run by other forks. -/
theorem Plan.moved_drifting :
    driftingHistory.Perm driftedHistory ∧
      (driftingGroup.bucket driftingHistory).cost < (driftingGroup.bucket driftedHistory).cost ∧
      (schedule 2 [steadyGroup, driftingGroup] driftingHistory).1.testsFor 0 (.name "unit") =
        .ok ["b*"] ∧
      (schedule 2 [steadyGroup, driftingGroup] driftedHistory).1.testsFor 0 (.name "unit") =
        .ok ["a*"] := by
  have hbucket (g : Group) : g.bucket driftingHistory = .ofMatched g (g.covered driftingHistory) :=
    g.bucket_of_sorted (by decide +kernel)
  have hbucket' (g : Group) : g.bucket driftedHistory = .ofMatched g (g.covered driftedHistory) :=
    g.bucket_of_sorted (by decide +kernel)
  have hgiven : givenOut [steadyGroup, driftingGroup] driftingHistory =
      [.ofMatched steadyGroup (steadyGroup.covered driftingHistory),
        .ofMatched driftingGroup (driftingGroup.covered driftingHistory)] := by
    rw [givenOut, Bucket.build_eq, List.map_cons, List.map_singleton, hbucket, hbucket]
    exact List.mergeSort_of_pairwise (by decide +kernel)
  have hgiven' : givenOut [steadyGroup, driftingGroup] driftedHistory =
      [.ofMatched driftingGroup (driftingGroup.covered driftedHistory),
        .ofMatched steadyGroup (steadyGroup.covered driftedHistory)] := by
    rw [givenOut, Bucket.build_eq, List.map_cons, List.map_singleton, hbucket', hbucket']
    exact Bucket.byCost_pair (by decide +kernel)
  refine ⟨?_, ?_, ?_, ?_⟩
  · exact ((List.reverse_perm [_, _, _]).symm.append_right [_])
  · rw [hbucket, hbucket']
    decide +kernel
  · rw [testsFor, worker, forks_schedule two_pos, hgiven]
    decide +kernel
  · rw [testsFor, worker, forks_schedule two_pos, hgiven']
    decide +kernel

end SuiteBalance
