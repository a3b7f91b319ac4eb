import Mathlib
import SuiteBalance.Proofs.Schedule.Run
import SuiteBalance.Proofs.Timing.History

/-!
# Proofs — Schedule — loads that are not rounded

Costs and loads are doubles, and sums of doubles are rounded.  Where no sum is rounded, a load is
the sum of its costs, and a cost is that of the durations it is made of.

* `Number.Unrounded`: no addition of a sum from left to right is rounded.
* `Fork.Exact`: no sum of costs on a fork has been rounded.
* `Fork.Unrounded`: nor has any sum of durations.
* `Timing.exactEstimate`, `Timing.exact_estimate`: what durations cost whose sum is not rounded.
* `Group.estimate`: what a group costs by the formula.
* `Plan.unrounded_of_whole`: durations in whole seconds are not rounded below `2 ^ 53` in all.
-/

namespace SuiteBalance

open Number

/-! ### Sums from left to right -/

namespace Number

/-- No addition is rounded when numbers are added to a first one from left to right. -/
def Unrounded (start : Float) : List Float → Prop
  | [] => True
  | x :: rest => exact (start + x) = exact start + exact x ∧ Unrounded (start + x) rest

variable {start : Float}

/-- A sum that is not rounded stands for the sum of what its terms stand for. -/
theorem Unrounded.exact_foldl {xs : List Float} (h : Unrounded start xs) :
    exact (xs.foldl (· + ·) start) = exact start + (xs.map exact).sum := by
  induction xs generalizing start with
  | nil => exact (add_zero _).symm
  | cons x rest ih => rw [List.foldl_cons, ih h.2, h.1, List.map_cons, List.sum_cons, add_assoc]

theorem Unrounded.of_append {xs ys : List Float} (h : Unrounded start (xs ++ ys)) :
    Unrounded start xs := by
  induction xs generalizing start with
  | nil => trivial
  | cons x rest ih => exact ⟨h.1, ih h.2⟩

/-- Multiples of a power of two are added exactly if they are fewer than `2 ^ 53` units. -/
theorem exact_add_of_grid {x y : Float} {a b : ℕ} {e : ℤ} (hx : 0.0 ≤ x) (hy : 0.0 ≤ y)
    (he : leastExponent ≤ e ∧ e ≤ greatestExponent) (ha : exact x = (a * 2 ^ e : ℚ))
    (hb : exact y = (b * 2 ^ e : ℚ)) (small : a + b < 2 ^ 53) :
    exact (x + y) = ((a + b : ℕ) * 2 ^ e : ℚ) := by
  have hlt : ((a + b : ℕ) * 2 ^ e : ℚ) < 2 ^ (1024 : ℤ) := by
    calc ((a + b : ℕ) * 2 ^ e : ℚ) < (2 ^ 53 : ℕ) * 2 ^ e := by gcongr
      _ = 2 ^ (53 : ℤ) * 2 ^ e := by norm_num
      _ ≤ 2 ^ (53 : ℤ) * 2 ^ greatestExponent := by
          gcongr
          · exact one_le_two
          · exact he.2
      _ = 2 ^ (1024 : ℤ) := (zpow_add₀ two_ne_zero _ _).symm
  rw [exact_add hx hy, ha, hb, ← WithTop.coe_add, ← add_mul, ← Nat.cast_add,
    fitted_of_grid small he.1 hlt]

/-- **Sums of multiples of a power of two are not rounded** below `2 ^ 53` units. -/
theorem unrounded_of_grid {α : Type} {number : α → Float} {e : ℤ}
    (he : leastExponent ≤ e ∧ e ≤ greatestExponent) (units : α → ℕ) {items : List α}
    (hunits : ∀ a ∈ items, 0.0 ≤ number a ∧ exact (number a) = (units a * 2 ^ e : ℚ)) {n : ℕ}
    (hstart : 0.0 ≤ start) (hn : exact start = (n * 2 ^ e : ℚ))
    (small : n + (items.map units).sum < 2 ^ 53) : Unrounded start (items.map number) := by
  induction items generalizing start n with
  | nil => trivial
  | cons a rest ih =>
      obtain ⟨⟨hnumber, ha⟩, hrest⟩ := List.forall_mem_cons.mp hunits
      rw [List.map_cons, List.sum_cons, ← add_assoc] at small
      have hsum := exact_add_of_grid hstart hnumber he hn ha (by omega)
      refine ⟨?_, ih hrest (nonneg_add hstart hnumber) hsum small⟩
      rw [hsum, hn, ha, Nat.cast_add, add_mul, WithTop.coe_add]

/-- Sums of whole numbers are not rounded below `2 ^ 53`. -/
theorem unrounded_of_whole {α : Type} {number : α → Float} (whole : α → ℕ) {items : List α}
    (hwhole : ∀ a ∈ items, 0.0 ≤ number a ∧ exact (number a) = (whole a : ℚ)) {n : ℕ}
    (hstart : 0.0 ≤ start) (hn : exact start = (n : ℚ))
    (small : n + (items.map whole).sum < 2 ^ 53) : Unrounded start (items.map number) := by
  have hunit (k : ℕ) : (k * 2 ^ (0 : ℤ) : ℚ) = k := by rw [zpow_zero, mul_one]
  refine unrounded_of_grid (e := 0) ⟨by decide, by decide⟩ whole (fun a ha => ?_) hstart ?_ small
  · rw [hunit]
    exact hwhole a ha
  · rw [hunit, hn]

theorem coe_sum (l : List ℚ) : (l.sum : WithTop ℚ) = (l.map WithTop.some).sum :=
  map_list_sum WithTop.addHom l

end Number

/-! ### Exact loads -/

/-- What a bucket costs, in seconds, if it is not infinite. -/
def Bucket.seconds (b : Bucket) : ℚ := (exact b.cost).untopD 0

theorem Bucket.seconds_nonneg (b : Bucket) : 0 ≤ b.seconds := by
  have h := exact_nonneg b.nonneg_cost
  unfold Bucket.seconds
  cases hcost : exact b.cost with
  | top => exact le_rfl
  | coe r =>
      rw [hcost] at h
      exact WithTop.coe_nonneg.mp h

/-- No sum of costs on a fork has been rounded: its load has always been the exact sum. -/
def Fork.Exact (f : Fork) : Prop :=
  ∀ front, front <+: f.buckets → exact (Bucket.total front) = ((front.map Bucket.seconds).sum : ℚ)

namespace Fork.Exact

variable {f : Fork}

theorem of_push {b : Bucket} (h : (f.push b).Exact) : f.Exact :=
  fun front hfront => h front (hfront.trans (List.prefix_append _ _))

theorem exact_load (h : f.Exact) : exact f.load = ((f.buckets.map Bucket.seconds).sum : ℚ) :=
  f.load_eq ▸ h f.buckets (List.prefix_refl _)

/-- The costs on a fork whose load is exact are finite. -/
theorem exact_cost (h : f.Exact) {b : Bucket} (hb : b ∈ f.buckets) : exact b.cost = b.seconds := by
  obtain ⟨front, rest, hsplit⟩ := List.append_of_mem hb
  have hfront := h (front ++ [b]) ⟨rest, by rw [hsplit]; simp⟩
  rw [Bucket.exact_total_append] at hfront
  unfold Bucket.seconds
  cases hcost : exact b.cost with
  | top =>
      rw [hcost, add_top] at hfront
      exact absurd hfront (WithTop.coe_ne_top).symm
  | coe r => rfl

end Fork.Exact

theorem exact_of_set {forks : List Fork} {i : ℕ} {f : Fork} {b : Bucket} (hf : forks[i]? = some f)
    (h : ∀ g ∈ forks.set i (f.push b), g.Exact) : ∀ g ∈ forks, g.Exact := by
  intro g hg
  obtain ⟨j, hj⟩ := List.getElem?_of_mem hg
  by_cases hij : i = j
  · obtain rfl := hij
    obtain rfl : f = g := Option.some_inj.mp (hf.symm.trans hj)
    have hlt := (List.getElem?_eq_some_iff.mp hf).1
    exact (h _ (List.mem_set hlt _)).of_push
  · refine h g (List.mem_of_getElem? (i := j) ?_)
    rw [List.getElem?_set_ne hij, hj]

/-! ### Durations and costs -/

/-- How long a test took, in seconds. -/
def TimingRecord.seconds (r : TimingRecord) : ℚ := (exact r.duration).untopD 0

theorem TimingRecord.exact_duration (r : TimingRecord) : exact r.duration = r.seconds := by
  have hfinite := exact_ne_top r.finite
  unfold seconds
  cases hduration : exact r.duration with
  | top => exact absurd hduration hfinite
  | coe s => rfl

namespace Timing

/-- What the tests of some records cost together in exact arithmetic: each at least ten seconds, and
at least ten seconds in all. -/
def exactEstimate (records : List TimingRecord) : ℚ :=
  max 10 (records.map fun r => max r.seconds 10).sum

/-- A test costs its duration, raised to the least cost. -/
theorem exact_atLeastCost_duration (r : TimingRecord) :
    exact (atLeastCost r.duration) = (max r.seconds 10 : ℚ) := by
  rw [exact_atLeastCost r.nonneg_duration, r.exact_duration, max_comm]
  exact (WithTop.coe_max _ _).symm

theorem exactEstimate_eq_of_perm {records records' : List TimingRecord}
    (h : records.Perm records') : exactEstimate records = exactEstimate records' := by
  rw [exactEstimate, exactEstimate, (h.map _).sum_eq]

/-- What durations cost whose sum is not rounded. -/
theorem exact_estimate {records : List TimingRecord}
    (h : Number.Unrounded 0.0 (records.map fun r => atLeastCost r.duration)) :
    exact (estimate records) = exactEstimate records := by
  have hcosts : records.map (exact ∘ fun r => atLeastCost r.duration) =
      records.map (WithTop.some ∘ fun r => max r.seconds 10) :=
    List.map_congr_left fun r _ => exact_atLeastCost_duration r
  have hnonneg := nonneg_foldl records nonneg_zero
  rw [← List.foldl_map (l := records) (f := fun r => atLeastCost r.duration)] at hnonneg
  rw [estimate_eq, exact_atLeastCost hnonneg, h.exact_foldl, exact_zero, zero_add, List.map_map,
    hcosts, ← List.map_map, ← coe_sum]
  exact (WithTop.coe_max _ _).symm

end Timing

/-- How many seconds a group takes by the records of all tests that it covers. -/
def Group.estimate (g : Group) (records : List TimingRecord) : ℚ :=
  Timing.exactEstimate (g.covered records)

/-- No sum has been rounded on a fork, neither of the durations that its buckets cover nor of what
the buckets cost. -/
structure Fork.Unrounded (f : Fork) : Prop where
  costs : ∀ b ∈ f.buckets, Number.Unrounded 0.0 (b.matched.map fun r => Timing.atLeastCost r.duration)
  load : Number.Unrounded 0.0 (f.buckets.map Bucket.cost)

namespace Fork.Unrounded

variable {f : Fork}

/-- What a bucket costs whose durations have not been rounded. -/
theorem exact_cost (h : f.Unrounded) {b : Bucket} (hb : b ∈ f.buckets) :
    exact b.cost = Timing.exactEstimate b.matched :=
  b.cost_eq ▸ Timing.exact_estimate (h.costs b hb)

theorem seconds_eq (h : f.Unrounded) {b : Bucket} (hb : b ∈ f.buckets) :
    b.seconds = Timing.exactEstimate b.matched := by
  rw [Bucket.seconds, h.exact_cost hb, WithTop.untopD_coe]

/-- Where no sum has been rounded, the load is exact. -/
theorem toExact (h : f.Unrounded) : f.Exact := by
  rintro front ⟨rest, hsplit⟩
  have hload := h.load
  rw [← hsplit, List.map_append] at hload
  rw [Bucket.total_eq, hload.of_append.exact_foldl, exact_zero, zero_add, List.map_map, coe_sum,
    List.map_map]
  refine congrArg List.sum (List.map_congr_left fun b hb => ?_)
  have hmem : b ∈ f.buckets := hsplit ▸ List.mem_append_left _ hb
  rw [Function.comp_apply, Function.comp_apply, h.seconds_eq hmem, h.exact_cost hmem]

end Fork.Unrounded

/-! ### Whole seconds -/

namespace Timing

/-- What tests cost that took whole numbers of seconds. -/
def wholeEstimate (whole : TimingRecord → ℕ) (records : List TimingRecord) : ℕ :=
  max 10 (records.map fun r => max 10 (whole r)).sum

variable {whole : TimingRecord → ℕ} {records : List TimingRecord}

theorem exact_atLeastCost_of_whole {seconds : Float} {n : ℕ} (h : 0.0 ≤ seconds)
    (hn : exact seconds = (n : ℚ)) : exact (atLeastCost seconds) = ((max 10 n : ℕ) : ℚ) := by
  rw [exact_atLeastCost h, hn, Nat.cast_max, WithTop.coe_max]
  rfl

/-- Durations in whole seconds are not rounded in sums below `2 ^ 53`. -/
theorem unrounded_of_whole (hwhole : ∀ r ∈ records, exact r.duration = (whole r : ℚ))
    (small : wholeEstimate whole records < 2 ^ 53) :
    Number.Unrounded 0.0 (records.map fun r => atLeastCost r.duration) := by
  refine Number.unrounded_of_whole (n := 0) (fun r => max 10 (whole r)) (fun r hr => ?_)
    nonneg_zero exact_zero ?_
  · exact ⟨nonneg_atLeastCost r.nonneg_duration,
      exact_atLeastCost_of_whole r.nonneg_duration (hwhole r hr)⟩
  · rw [zero_add]
    exact (le_max_right _ _).trans_lt small

theorem exactEstimate_of_whole (hwhole : ∀ r ∈ records, exact r.duration = (whole r : ℚ)) :
    exactEstimate records = wholeEstimate whole records := by
  have hseconds : ∀ r ∈ records, max r.seconds 10 = ((max 10 (whole r) : ℕ) : ℚ) := by
    intro r hr
    rw [TimingRecord.seconds, hwhole r hr, WithTop.untopD_coe, max_comm, Nat.cast_max]
    rfl
  rw [exactEstimate, List.map_congr_left hseconds, wholeEstimate, Nat.cast_max, Nat.cast_list_sum,
    List.map_map]
  rfl

/-- The estimate of durations in whole seconds is not rounded. -/
theorem exact_estimate_of_whole (hwhole : ∀ r ∈ records, exact r.duration = (whole r : ℚ))
    (small : wholeEstimate whole records < 2 ^ 53) :
    exact (estimate records) = (wholeEstimate whole records : ℚ) := by
  rw [exact_estimate (unrounded_of_whole hwhole small), exactEstimate_of_whole hwhole]

end Timing

/-- A bucket has found all records that its group covers, whatever their order. -/
theorem Bucket.perm_matched {groups : List Group} {records : List TimingRecord} {b : Bucket}
    (hb : b ∈ (build groups records).1) : b.matched.Perm (b.group.covered records) := by
  obtain ⟨g, -, rfl⟩ := List.mem_map.mp hb
  exact History.perm_startingWith records g.stem

theorem Bucket.map_group_build (groups : List Group) (records : List TimingRecord) :
    (build groups records).1.map group = groups := by
  rw [build, List.map_map]
  exact List.map_id groups

/-- A bucket covers records of the history, each at most once. -/
theorem Bucket.matched_sublist {groups : List Group} {records : List TimingRecord} {b : Bucket}
    (hb : b ∈ (build groups records).1) :
    b.matched.Sublist (History.ofList records).records.toList := by
  obtain ⟨g, -, rfl⟩ := List.mem_map.mp hb
  exact (List.takeWhile_sublist _).trans (List.drop_sublist _ _)

theorem Bucket.mem_of_mem_matched {groups : List Group} {records : List TimingRecord} {b : Bucket}
    (hb : b ∈ (build groups records).1) {r : TimingRecord} (hr : r ∈ b.matched) : r ∈ records :=
  (History.perm_ofList records).mem_iff.mp ((matched_sublist hb).mem hr)

/-- A bucket is not estimated above the whole history. -/
theorem Bucket.wholeEstimate_matched_le (whole : TimingRecord → ℕ) {groups : List Group}
    {records : List TimingRecord} {b : Bucket} (hb : b ∈ (build groups records).1) :
    Timing.wholeEstimate whole b.matched ≤ Timing.wholeEstimate whole records := by
  unfold Timing.wholeEstimate
  rw [← ((History.perm_ofList records).map _).sum_eq]
  exact max_le_max_left _ (((matched_sublist hb).map _).sum_le_sum fun _ _ => Nat.zero_le _)

/-- **Durations in whole seconds are not rounded** if all estimates together stay below `2 ^ 53`. -/
theorem Plan.unrounded_of_whole {count : ℕ} (hcount : 0 < count) {groups : List Group}
    {records : List TimingRecord} (whole : TimingRecord → ℕ)
    (hwhole : ∀ r ∈ records, exact r.duration = (whole r : ℚ))
    (small : ((Bucket.build groups records).1.map fun b =>
      Timing.wholeEstimate whole b.matched).sum < 2 ^ 53) :
    ∀ f ∈ (schedule count groups records).1.forks, f.Unrounded := by
  intro f hf
  -- what stands on a fork was built, so its sum is part of the grand total
  have hsub := sublist_givenOut hcount hf
  have hperm := Bucket.perm_byCost (Bucket.build groups records).1
  have hbuilt : ∀ b ∈ f.buckets, b ∈ (Bucket.build groups records).1 :=
    fun b hb => hperm.mem_iff.mp (hsub.mem hb)
  have hmatched : ∀ b ∈ f.buckets, ∀ r ∈ b.matched, exact r.duration = (whole r : ℚ) :=
    fun b hb r hr => hwhole r (Bucket.mem_of_mem_matched (hbuilt b hb) hr)
  have hsmall : ∀ b ∈ f.buckets, Timing.wholeEstimate whole b.matched < 2 ^ 53 := fun b hb =>
    (List.le_sum_of_mem (List.mem_map_of_mem (hbuilt b hb))).trans_lt small
  refine ⟨fun b hb => Timing.unrounded_of_whole (hmatched b hb) (hsmall b hb), ?_⟩
  refine Number.unrounded_of_whole (n := 0) (fun b => Timing.wholeEstimate whole b.matched)
    (fun b hb => ⟨b.nonneg_cost, ?_⟩) Timing.nonneg_zero exact_zero ?_
  · rw [b.cost_eq]
    exact Timing.exact_estimate_of_whole (hmatched b hb) (hsmall b hb)
  · rw [zero_add]
    refine lt_of_le_of_lt ?_ small
    rw [← (hperm.map _).sum_eq]
    exact (hsub.map _).sum_le_sum fun _ _ => Nat.zero_le _

theorem Plan.exact_of_whole {count : ℕ} (hcount : 0 < count) {groups : List Group}
    {records : List TimingRecord} (whole : TimingRecord → ℕ)
    (hwhole : ∀ r ∈ records, exact r.duration = (whole r : ℚ))
    (small : ((Bucket.build groups records).1.map fun b =>
      Timing.wholeEstimate whole b.matched).sum < 2 ^ 53) :
    ∀ f ∈ (schedule count groups records).1.forks, f.Exact :=
  fun f hf => (unrounded_of_whole hcount whole hwhole small f hf).toExact

end SuiteBalance
