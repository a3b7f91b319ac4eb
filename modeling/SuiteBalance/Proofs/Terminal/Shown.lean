import Mathlib
import SuiteBalance.Platform.Usual
import SuiteBalance.Proofs.Schedule.Rounding
import SuiteBalance.Proofs.Schedule.Tasks
import SuiteBalance.Proofs.Terminal.Bar

/-!
# Proofs — Terminal — plans that can be shown

Each record has a finite duration, but sums of durations may be too large for the format.  A plan
whose tasks can be written is shown if and only if none of its loads is infinite and the console
refuses nothing of its summary.  All loads are finite as long as the estimates of all groups
together stay below the threshold, with some room for roundings; a group whose own estimate reaches
the threshold makes a load infinite.

* `Plan.Finite`: no load is infinite.
* `Plan.Accepted`: the console refuses nothing of the summary.
* `Plan.Showable`: what these mean for the makespan and for what is shown.
* `Fork.within_load`: how far a load is from the estimates of its groups.
* `Plan.finite_of_lt`, `Plan.not_finite_of_le`: which schedules have finite loads.
* **`Plan.showable_schedule`**: which schedules can be shown.
* `Plan.not_shown_huge`: two finite durations that make a plan that cannot.
-/

namespace SuiteBalance

open Number

/-! ### Plans -/

namespace Plan

/-- No fork of a plan has an infinite load. -/
def Finite (p : Plan) : Prop := ∀ load ∈ p.loads, load.isFinite = true

theorem finite_iff {p : Plan} : p.Finite ↔ ∀ f ∈ p.forks, exact f.load ≠ ⊤ :=
  List.forall_mem_map.trans (forall₂_congr fun f _ => isFinite_iff_exact f.nonneg_load)

variable [Terminal.Console]

/-- The console refuses nothing of the summary of a plan, if there is one. -/
def Accepted (p : Plan) : Prop :=
  ∀ printed, Terminal.summary p.summary = .ok printed →
    ∀ item ∈ printed, Terminal.Console.refusal? item = none

/-- The makespan of a plan is finite if and only if all of its loads are.  The plan is shown if and
only if its tasks can be written, all of its loads are finite and the console refuses nothing; where
a load is infinite, its share of the greatest is no number. -/
structure Showable (p : Plan) : Prop where
  makespan : ∃ load, p.makespan = .ok load ∧ (load.isFinite = true ↔ p.Finite)
  shown : Terminal.showPlan p = .ok () ↔ p.isWritable = true ∧ p.Finite ∧ p.Accepted
  infinite : p.isWritable = true → ¬p.Finite →
    Terminal.showPlan p = .error (.bar (.unbounded .notANumber))

theorem display_eq_ok_iff {printed : List Terminal.Printed} :
    Terminal.display printed = .ok () ↔
      ∀ item ∈ printed, Terminal.Console.refusal? item = none := by
  induction printed with
  | nil => exact iff_of_true rfl (List.forall_mem_nil _)
  | cons item rest ih =>
      rw [Terminal.display, List.forall_mem_cons]
      cases Terminal.Console.refusal? item with
      | none => simpa using ih
      | some e => exact iff_of_false (fun h => by cases h) fun h => by cases h.1

variable {p : Plan}

/-- A plan whose tasks can be written is shown by printing its summary. -/
theorem showPlan_eq (h : p.isWritable = true) : Terminal.showPlan p =
    ((Terminal.summary p.summary).mapError .bar >>= Terminal.display) := by
  rw [Terminal.showPlan, summarize, if_pos h]
  rfl

theorem showPlan_eq_error (h : ¬p.isWritable = true) :
    Terminal.showPlan p = .error (.plan .unwritable) := by
  rw [Terminal.showPlan, summarize, if_neg h]
  rfl

/-- **A plan with forks is shown if and only if its loads are finite**, where its tasks can be
written and the console refuses nothing. -/
theorem showable (hne : p.forks ≠ []) : p.Showable := by
  obtain ⟨f, hf, hmakespan, hslowest⟩ := exists_slowest hne
  have hnonneg : ∀ s ∈ p.summary, 0.0 ≤ s.load :=
    List.forall_mem_map.mpr fun f _ => f.nonneg_load
  have hloads : (∀ s ∈ p.summary, s.load.isFinite = true) ↔ p.Finite := by
    rw [Finite, loads, summary, List.forall_mem_map, List.forall_mem_map]
    rfl
  obtain ⟨hprinted, hfailure⟩ := Terminal.summary_spec hnonneg
  rw [hloads] at hprinted
  refine ⟨⟨f.load, hmakespan, ?_⟩, ?_, fun hwritable hinfinite => ?_⟩
  · rw [isFinite_iff_exact f.nonneg_load, finite_iff]
    exact ⟨fun h g hg htop => h (top_le_iff.mp (htop ▸ hslowest g hg)), fun h => h f hf⟩
  · by_cases hwritable : p.isWritable = true
    · rw [showPlan_eq hwritable, and_iff_right hwritable, ← hprinted]
      cases hsummary : Terminal.summary p.summary with
      | error e =>
          refine iff_of_false (fun h => by cases h) ?_
          rintro ⟨⟨_, h⟩, -⟩
          cases h
      | ok printed =>
          refine display_eq_ok_iff.trans ⟨fun h => ⟨⟨printed, rfl⟩, fun other hother => ?_⟩,
            fun h => h.2 printed hsummary⟩
          obtain rfl := Except.ok.inj (hsummary.symm.trans hother)
          exact h
    · rw [showPlan_eq_error hwritable]
      exact iff_of_false (fun h => by cases h) fun h => hwritable h.1
  · rw [showPlan_eq hwritable]
    cases hsummary : Terminal.summary p.summary with
    | error e =>
        obtain rfl := hfailure e hsummary
        rfl
    | ok printed => exact absurd (hprinted.mp ⟨printed, hsummary⟩) hinfinite

end Plan

/-! ### Loads -/

theorem Group.estimate_nonneg (g : Group) (records : List TimingRecord) :
    0 ≤ g.estimate records := le_max_of_le_left (by norm_num)

/-- A load is rounded at most once for each record and once for each bucket. -/
theorem Fork.within_load {f : Fork} {groups : List Group} {records : List TimingRecord}
    (h : ∀ b ∈ f.buckets, b ∈ (Bucket.build groups records).1) :
    Within (records.length + f.buckets.length) f.load
      (f.buckets.map fun b => b.group.estimate records).sum := by
  have hvalue : ∀ b ∈ f.buckets, 0 ≤ b.group.estimate records :=
    fun b _ => b.group.estimate_nonneg records
  have hsum : Within (records.length + (f.buckets.length - 1))
      ((f.buckets.map Bucket.cost).foldl (· + ·) 0.0)
      (f.buckets.map fun b => b.group.estimate records).sum := by
    refine within_sum (fun b hb => ⟨b.nonneg_cost, hvalue b hb, ?_⟩) fun b _ => ?_
    · obtain ⟨g, -, rfl⟩ := List.mem_map.mp (h b hb)
      exact (g.within_cost records).mono (g.estimate_nonneg records)
        ((Nat.sub_le _ _).trans (List.length_filter_le _ _))
    · have hone : (1 : WithTop ℚ) ≤ 10 := by exact_mod_cast (by norm_num : (1 : ℚ) ≤ 10)
      exact hone.trans b.ten_le_cost
  rw [f.load_eq, Bucket.total_eq]
  exact hsum.mono (List.sum_nonneg (List.forall_mem_map.mpr hvalue))
    (Nat.add_le_add_left (Nat.sub_le _ _) _)

/-- The load of a fork is no smaller than the cost of a bucket on it. -/
theorem Fork.exact_cost_le_load {f : Fork} {b : Bucket} (hb : b ∈ f.buckets) :
    exact b.cost ≤ exact f.load := by
  have hsub : [b.cost].Sublist (f.buckets.map Bucket.cost) :=
    List.singleton_sublist.mpr (List.mem_map_of_mem hb)
  have hle := exact_foldl_le hsub (List.forall_mem_map.mpr fun c _ => c.nonneg_cost)
    Timing.nonneg_zero Timing.nonneg_zero le_rfl
  rw [← Bucket.total_eq, ← f.load_eq] at hle
  refine le_trans ?_ hle
  rw [List.foldl_cons, List.foldl_nil, exact_add Timing.nonneg_zero b.nonneg_cost, exact_zero,
    zero_add, (denotes_of_nonneg b.nonneg_cost).fitted_eq]

/-! ### Schedules -/

namespace Plan

variable {count : ℕ} {groups : List Group} {records : List TimingRecord}

/-- A fork has buckets of the groups, of each group at most one. -/
theorem buckets_schedule (hcount : 0 < count) {f : Fork}
    (hf : f ∈ (schedule count groups records).1.forks) :
    (∀ b ∈ f.buckets, b ∈ (Bucket.build groups records).1) ∧ f.buckets.length ≤ groups.length ∧
      (f.buckets.map fun b => b.group.estimate records).sum ≤
        (groups.map fun g => g.estimate records).sum := by
  have hsub := sublist_givenOut hcount hf
  have hperm := Bucket.perm_byCost (Bucket.build groups records).1
  have hestimates : (Bucket.build groups records).1.map (fun b => b.group.estimate records) =
      groups.map fun g => g.estimate records := by
    rw [Bucket.build_eq, List.map_map]
    rfl
  refine ⟨fun b hb => hperm.mem_iff.mp (hsub.mem hb), ?_, ?_⟩
  · refine (hsub.length_le.trans_eq hperm.length_eq).trans_eq ?_
    rw [Bucket.build_eq, List.length_map]
  · rw [← hestimates, ← (hperm.map _).sum_eq]
    exact (hsub.map _).sum_le_sum
      (List.forall_mem_map.mpr fun b _ => b.group.estimate_nonneg records)

/-- Loads are finite if all estimates together stay below the threshold. -/
theorem finite_of_lt (hcount : 0 < count)
    (hlt : (1 + roundoff) ^ (records.length + groups.length) *
      (groups.map fun g => g.estimate records).sum < overflowThreshold) :
    (schedule count groups records).1.Finite := by
  refine finite_iff.mpr fun f hf => ?_
  obtain ⟨hbuilt, hlength, hsum⟩ := buckets_schedule hcount hf
  have hone : 1 ≤ 1 + roundoff := le_add_of_nonneg_right roundoff_pos.le
  have hnonneg : 0 ≤ (f.buckets.map fun b => b.group.estimate records).sum :=
    List.sum_nonneg (List.forall_mem_map.mpr fun b _ => b.group.estimate_nonneg records)
  refine (Fork.within_load hbuilt).ne_top (lt_of_le_of_lt ?_ hlt)
  exact mul_le_mul (pow_le_pow_right₀ hone (Nat.add_le_add_left hlength _)) hsum hnonneg
    (pow_nonneg (zero_le_one.trans hone) _)

/-- A load is infinite if the estimate of one group reaches the threshold. -/
theorem not_finite_of_le (hcount : 0 < count) {g : Group} (hg : g ∈ groups)
    (hle : (overflowThreshold : ℚ) ≤
      (1 - roundoff) ^ ((g.covered records).length - 1) * g.estimate records) :
    ¬ (schedule count groups records).1.Finite := by
  intro hfinite
  have hbuilt := (perm_schedule hcount groups records).mem_iff.mpr
    (List.mem_map_of_mem (f := (·.bucket records)) hg)
  obtain ⟨f, hf, hb⟩ := List.mem_flatMap.mp hbuilt
  have htop := (g.within_cost records).eq_top (g.bucket records).nonneg_cost hle
  exact finite_iff.mp hfinite f hf (top_le_iff.mp (htop ▸ Fork.exact_cost_le_load hb))

/-- The tasks of a schedule are those of the groups. -/
theorem isWritable_schedule (hcount : 0 < count) (groups : List Group)
    (records : List TimingRecord) :
    (schedule count groups records).1.isWritable = true ↔
      ∀ g ∈ groups, g.task.isWritable = true := by
  have htask (t : Task) : t ∈ (schedule count groups records).1.tasks ↔ ∃ g ∈ groups, g.task = t := by
    rw [mem_tasks]
    simp only [(perm_schedule hcount groups records).mem_iff, Bucket.build_eq, List.mem_map]
    constructor
    · rintro ⟨_, ⟨g, hg, rfl⟩, rfl⟩
      exact ⟨g, hg, rfl⟩
    · rintro ⟨g, hg, rfl⟩
      exact ⟨_, ⟨g, hg, rfl⟩, rfl⟩
  rw [isWritable, List.all_eq_true]
  constructor
  · exact fun h g hg => h g.task ((htask g.task).mpr ⟨g, hg, rfl⟩)
  · intro h t ht
    obtain ⟨g, hg, rfl⟩ := (htask t).mp ht
    exact h g hg

/-- **A schedule whose tasks can be written is shown if and only if its loads are finite**, on a
console that refuses nothing of it.  The loads are finite if the estimates of all groups together
stay below the threshold, with room for one rounding for each record and each group; they are not if
the estimate of one group reaches it by more than what roundings may take away. -/
theorem showable_schedule [Terminal.Console] (hcount : 0 < count) (groups : List Group)
    (records : List TimingRecord) :
    (schedule count groups records).1.Showable ∧
      ((schedule count groups records).1.isWritable = true ↔
        ∀ g ∈ groups, g.task.isWritable = true) ∧
      ((1 + roundoff) ^ (records.length + groups.length) *
          (groups.map fun g => g.estimate records).sum < overflowThreshold →
        (schedule count groups records).1.Finite) ∧
      ∀ g ∈ groups, (overflowThreshold : ℚ) ≤
          (1 - roundoff) ^ ((g.covered records).length - 1) * g.estimate records →
        ¬ (schedule count groups records).1.Finite :=
  ⟨showable (forks_schedule_ne_nil hcount groups records),
    isWritable_schedule hcount groups records, finite_of_lt hcount,
    fun _ hg => not_finite_of_le hcount hg⟩

end Plan

/-- The history of the small suite in whole seconds. -/
def smallSeconds (r : TimingRecord) : ℕ := if r.name = "slow1" then 30 else 12

theorem exact_smallHistory : ∀ r ∈ smallHistory, exact r.duration = (smallSeconds r : ℚ) := by
  have hslow : Double.ofFloat 30.0 = .finite false (30 * 2 ^ 48) (-48) := by decide +kernel
  have hfast : Double.ofFloat 12.0 = .finite false (12 * 2 ^ 49) (-49) := by decide +kernel
  have hname : "fast1" ≠ "slow1" := by decide
  intro r hr
  rcases List.mem_pair.mp hr with rfl | rfl
  · norm_num [smallSeconds, exact, hslow, Double.magnitude]
  · norm_num [smallSeconds, exact, hfast, Double.magnitude, hname]

/-- The small suite is shown on the usual console. -/
theorem Plan.showable_schedule_small :
    0 < 2 ∧ (schedule 2 smallGroups smallHistory).1.Finite ∧
      (∃ load, (schedule 2 smallGroups smallHistory).1.makespan = .ok load ∧
        load.isFinite = true) ∧
      Terminal.showPlan (schedule 2 smallGroups smallHistory).1 = .ok () := by
  obtain ⟨hshowable, hwritable, hsmall, -⟩ := showable_schedule two_pos smallGroups smallHistory
  have hwhole : smallGroups.map (fun g => Timing.wholeEstimate smallSeconds
      (g.covered smallHistory)) = [12, 30] := by decide +kernel
  have hestimates : (smallGroups.map fun g => g.estimate smallHistory) =
      [12, 30].map (Nat.cast : ℕ → ℚ) := by
    rw [← hwhole, List.map_map]
    exact List.map_congr_left fun g _ => Timing.exactEstimate_of_whole fun r hr =>
      exact_smallHistory r (List.mem_of_mem_filter hr)
  have hfinite : (schedule 2 smallGroups smallHistory).1.Finite := by
    refine hsmall (lt_overflowThreshold ?_)
    rw [hestimates]
    norm_num [roundoff, smallHistory, smallGroups]
  obtain ⟨load, hmakespan, hload⟩ := hshowable.makespan
  exact ⟨two_pos, hfinite, ⟨load, hmakespan, hload.mpr hfinite⟩,
    hshowable.shown.mpr ⟨hwritable.mpr (by decide +kernel), hfinite, fun _ _ _ _ => rfl⟩⟩

/-- The group of two tests that take too long together. -/
def hugeGroup : Group := ⟨"h*", .name "unit", by decide⟩

/-- Two durations that are finite, and whose sum is not. -/
def hugeHistory : List TimingRecord :=
  [⟨"h1", 1e308, by decide +kernel, by decide +kernel⟩,
    ⟨"h2", 1e308, by decide +kernel, by decide +kernel⟩]

/-- **Two records make a plan that cannot be shown**, though each has a finite duration. -/
theorem Plan.not_shown_huge :
    (∀ r ∈ hugeHistory, r.duration.isFinite = true) ∧
      (schedule 1 [hugeGroup] hugeHistory).1.loads.map Float.isFinite = [false] ∧
      (schedule 1 [hugeGroup] hugeHistory).1.isWritable = true ∧
      Terminal.summary (schedule 1 [hugeGroup] hugeHistory).1.summary =
        .error (.unbounded .notANumber) := by
  have hgiven : givenOut [hugeGroup] hugeHistory =
      [.ofMatched hugeGroup (hugeGroup.covered hugeHistory)] := by
    rw [givenOut, Bucket.build_eq, List.map_singleton,
      hugeGroup.bucket_of_sorted (by decide +kernel), Bucket.byCost, List.mergeSort_singleton]
  refine ⟨fun r _ => r.finite, ?_, ?_, ?_⟩
  · rw [loads, forks_schedule one_pos, hgiven]
    decide +kernel
  · exact (isWritable_schedule one_pos _ _).mpr (by decide)
  · rw [summary, forks_schedule one_pos, hgiven]
    decide +kernel

end SuiteBalance
