import Mathlib
import SuiteBalance.Proofs.Schedule.Bound
import SuiteBalance.Proofs.Schedule.Cover

/-!
# Proofs — Schedule — balance

A fork is given a bucket only while no other fork is loaded less, and loads do not sink.  So what a
fork had before its last bucket is no more than any fork has at the end, whatever the forks had to
start with.

* **`Balanced`**: what holds of the forks after each step, and `Balanced.step`.
* `Balanced.load_le`, `Balanced.length_le_one`: what this says of forks that start empty.
* **`allocate_balanced`**: an allocation leaves its forks balanced.
-/

namespace SuiteBalance

open Number

variable {start forks : List Fork} {i : ℕ} {f g : Fork} {b : Bucket}

/-- The forks at some positions before and after some buckets were given out are balanced: each
holds what it held and then those that it was given, and before the last of these its load was no
more than that of any fork is now. -/
structure Balanced (start forks : List Fork) : Prop where
  length : forks.length = start.length
  each : ∀ (i : ℕ) (before after : Fork), start[i]? = some before → forks[i]? = some after →
    ∃ given, after.buckets = before.buckets ++ given ∧
      ∀ front last, given = front ++ [last] →
        ∀ g ∈ forks, Bucket.total (before.buckets ++ front) ≤ g.load

theorem Fork.load_le_iff (f g : Fork) : f.load ≤ g.load ↔ exact f.load ≤ exact g.load :=
  le_iff_exact_le f.nonneg_load g.nonneg_load

/-- What is no more than any load stays so as a fork takes a bucket. -/
theorem le_of_mem_set {x : Float} (hx : 0.0 ≤ x) (hf : forks[i]? = some f)
    (h : ∀ g ∈ forks, x ≤ g.load) : ∀ g ∈ forks.set i (f.push b), x ≤ g.load := by
  intro g hg
  rcases List.mem_or_eq_of_mem_set hg with hg | rfl
  · exact h g hg
  · have hload := h f (List.mem_of_getElem? hf)
    rw [le_iff_exact_le hx f.nonneg_load] at hload
    rw [le_iff_exact_le hx (f.push b).nonneg_load]
    exact hload.trans (f.exact_load_le_push b)

theorem Bucket.exact_total_nil : exact (total []) = 0 := exact_zero

/-- Buckets cost at least ten seconds together, unless there are none. -/
theorem Bucket.ten_le_total {buckets : List Bucket} (h : buckets ≠ []) :
    10 ≤ exact (total buckets) := by
  obtain ⟨front, b, rfl⟩ := (List.eq_nil_or_concat' buckets).resolve_left h
  have hcost := exact_nonneg b.nonneg_cost
  calc 10 ≤ exact b.cost := b.ten_le_cost
    _ = fitted (exact b.cost) := (denotes_of_nonneg b.nonneg_cost).fitted_eq.symm
    _ ≤ fitted (exact (total front) + exact b.cost) :=
        fitted_mono hcost (le_add_of_nonneg_left (exact_nonneg (nonneg_total front)))
    _ = exact (total (front ++ [b])) := (exact_total_append front b).symm

namespace Balanced

theorem refl (start : List Fork) : Balanced start start where
  length := rfl
  each i before after hbefore hafter := by
    obtain rfl := Option.some_inj.mp (hbefore.symm.trans hafter)
    exact ⟨[], (List.append_nil _).symm, fun front last hnil => by simp at hnil⟩

/-- **A step keeps the balance.** -/
theorem step (h : Balanced start forks) (hf : FirstLeast forks i f) (b : Bucket) :
    Balanced start (forks.set i (f.push b)) where
  length := by rw [List.length_set, h.length]
  each j before after hbefore hafter := by
    rw [List.getElem?_set] at hafter
    split_ifs at hafter with hij hlt
    · -- the fork that takes the bucket was loaded least, and its load was what it held
      obtain rfl := hij
      obtain rfl : f.push b = after := by simpa using hafter
      obtain ⟨given, hgiven, -⟩ := h.each i before f hbefore hf.at_index
      refine ⟨given ++ [b], by rw [← List.append_assoc, ← hgiven]; rfl, fun front last hlast => ?_⟩
      obtain ⟨rfl, -⟩ := List.append_inj' hlast rfl
      rw [← hgiven, ← f.load_eq]
      exact le_of_mem_set f.nonneg_load hf.at_index
        fun g hg => (f.load_le_iff g).mpr (hf.least g hg)
    · obtain ⟨given, hgiven, hlast⟩ := h.each j before after hbefore hafter
      exact ⟨given, hgiven, fun front last heq =>
        le_of_mem_set (Bucket.nonneg_total _) hf.at_index (hlast front last heq)⟩

/-! ### Forks that start empty -/

variable {buckets : List Bucket}

/-- What is known of a fork that started empty and has a last bucket. -/
theorem total_le (h : Balanced start forks) (hempty : ∀ f ∈ start, f.buckets = []) (hf : f ∈ forks)
    {front : List Bucket} {last : Bucket} (hbuckets : f.buckets = front ++ [last])
    (hg : g ∈ forks) : Bucket.total front ≤ g.load := by
  obtain ⟨i, hi, rfl⟩ := List.mem_iff_getElem.mp hf
  obtain ⟨before, hbefore⟩ : ∃ before, start[i]? = some before :=
    ⟨_, List.getElem?_eq_getElem (h.length ▸ hi)⟩
  obtain ⟨given, hgiven, hlast⟩ := h.each i before _ hbefore (List.getElem?_eq_getElem hi)
  have hnil := hempty before (List.mem_of_getElem? hbefore)
  rw [hnil, List.nil_append] at hgiven
  have hle := hlast front last (hgiven.symm.trans hbuckets) g hg
  rwa [hnil, List.nil_append] at hle

/-- Loads that have not been rounded differ by no more than some bucket costs. -/
theorem load_le (h : Balanced start forks) (hempty : ∀ f ∈ start, f.buckets = []) (hf : f ∈ forks)
    (hg : g ∈ forks) (hexact : f.Exact) {most : ℚ} (hnonneg : 0 ≤ most)
    (hmost : ∀ b ∈ f.buckets, b.seconds ≤ most) : exact f.load ≤ exact g.load + most := by
  rcases List.eq_nil_or_concat' f.buckets with hnil | ⟨front, last, hbuckets⟩
  · have hzero : exact f.load = 0 := by
      rw [hexact.exact_load, hnil]
      rfl
    rw [hzero]
    exact add_nonneg (exact_nonneg g.nonneg_load) (WithTop.coe_nonneg.mpr hnonneg)
  · have hle := h.total_le hempty hf hbuckets hg
    rw [le_iff_exact_le (Bucket.nonneg_total _) g.nonneg_load,
      hexact front ⟨[last], hbuckets.symm⟩] at hle
    have hlast := hmost last (by rw [hbuckets]; simp)
    calc exact f.load = ((front.map Bucket.seconds).sum : ℚ) + (last.seconds : WithTop ℚ) := by
          rw [hexact.exact_load, hbuckets, ← WithTop.coe_add]
          simp
      _ ≤ exact g.load + most := add_le_add hle (WithTop.coe_le_coe.mpr hlast)

/-- While a fork is empty, no other one holds two buckets. -/
theorem length_le_one (h : Balanced start forks) (hempty : ∀ f ∈ start, f.buckets = [])
    (hf : f ∈ forks) (hnone : f.buckets = []) (hg : g ∈ forks) : g.buckets.length ≤ 1 := by
  rcases List.eq_nil_or_concat' g.buckets with hnil | ⟨front, last, hbuckets⟩
  · simp [hnil]
  · -- buckets before the last one would cost something, and the empty fork has no load
    have hle := h.total_le hempty hg hbuckets hf
    rw [f.load_eq, hnone, le_iff_exact_le (Bucket.nonneg_total _) (Bucket.nonneg_total _)] at hle
    have hfront : front = [] := by
      by_contra hne
      exact absurd ((Bucket.ten_le_total hne).trans hle) (by rw [Bucket.exact_total_nil]; decide)
    simp [hbuckets, hfront]

end Balanced

/-! ### Allocations -/

/-- What the costliest of some buckets costs, in seconds; nothing, if there is none. -/
def Bucket.greatestCost (buckets : List Bucket) : ℚ := (buckets.map Bucket.seconds).foldr max 0

theorem Bucket.greatestCost_nonneg (buckets : List Bucket) : 0 ≤ greatestCost buckets := by
  induction buckets with
  | nil => exact le_rfl
  | cons b rest ih => exact ih.trans (le_max_right _ _)

theorem Bucket.seconds_le_greatestCost {buckets : List Bucket} (hb : b ∈ buckets) :
    b.seconds ≤ greatestCost buckets := by
  induction buckets with
  | nil => cases hb
  | cons c rest ih =>
      rcases List.mem_cons.mp hb with rfl | hb
      · exact le_max_left _ _
      · exact (ih hb).trans (le_max_right _ _)

/-- **An allocation gives out all its buckets and leaves its forks balanced**, whatever they had to
start with.  If they were empty, their loads differ by no more than the costliest bucket where no
sum has been rounded, and none is empty while another one holds two buckets. -/
theorem allocate_balanced (ready : Ready forks) (buckets : List Bucket) :
    (allocate buckets forks).ended = none ∧
    ((allocate buckets forks).forks.flatMap Fork.buckets).Perm
      (forks.flatMap Fork.buckets ++ buckets) ∧
    Balanced forks (allocate buckets forks).forks ∧
    ((∀ f ∈ forks, f.buckets = []) →
      ((∀ f ∈ (allocate buckets forks).forks, f.Exact) →
        ∀ f ∈ (allocate buckets forks).forks, ∀ g ∈ (allocate buckets forks).forks,
          exact f.load ≤ exact g.load + Bucket.greatestCost buckets) ∧
      ∀ f ∈ (allocate buckets forks).forks, f.buckets = [] →
        ∀ g ∈ (allocate buckets forks).forks, g.buckets.length ≤ 1) := by
  have hrun : allocate buckets forks = Allocation.run forks (Bucket.byCost buckets) := by
    rw [allocate, if_neg (by simpa using ready.ne_nil)]
  rw [hrun]
  obtain ⟨hended, hbalanced⟩ := Allocation.run_induction ready.ne_nil ready.accumulating
    (motive := fun _ => Balanced forks) (.refl forks) (fun _ b _ _ _ h hf => h.step hf b)
    (Bucket.byCost buckets)
  obtain ⟨-, hgiven⟩ := Allocation.given_run ready.ne_nil ready.accumulating (Bucket.byCost buckets)
  have hperm := hgiven.perm.trans ((Bucket.perm_byCost buckets).append_left _)
  refine ⟨hended, hperm, hbalanced, fun hempty => ⟨fun hexact f hf g hg => ?_,
    fun f hf hnone g hg => hbalanced.length_le_one hempty hf hnone hg⟩⟩
  refine hbalanced.load_le hempty hf hg (hexact f hf) (Bucket.greatestCost_nonneg buckets)
    fun b hb => Bucket.seconds_le_greatestCost ?_
  -- what stands on a fork that started empty was given out
  have hnone : forks.flatMap Fork.buckets = [] := List.flatMap_eq_nil_iff.mpr hempty
  have hmem := hperm.mem_iff.mp (List.mem_flatMap.mpr ⟨f, hf, hb⟩)
  rwa [hnone, List.nil_append] at hmem

/-- Two forks, of which the first has a bucket of thirty seconds to start with. -/
def unevenForks : List Fork :=
  [(Bucket.build (smallGroups.drop 1) smallHistory).1.foldl Fork.push (Fork.empty 0), Fork.empty 1]

/-- The buckets of the small suite without an earlier run, which cost ten seconds each. -/
def evenBuckets : List Bucket := (Bucket.build smallGroups []).1

/-- The buckets on forks of which one has a start, and on three that are empty. -/
theorem allocate_balanced_uneven :
    Ready unevenForks ∧ Balanced unevenForks (allocate evenBuckets unevenForks).forks ∧
      (∀ f ∈ (allocate evenBuckets (Fork.fresh 3)).forks,
        ∀ g ∈ (allocate evenBuckets (Fork.fresh 3)).forks,
          exact f.load ≤ exact g.load + Bucket.greatestCost evenBuckets) ∧
      (∃ f ∈ (allocate evenBuckets (Fork.fresh 3)).forks, f.buckets = []) ∧
      ∀ g ∈ (allocate evenBuckets (Fork.fresh 3)).forks, g.buckets.length ≤ 1 := by
  have huneven : Ready unevenForks := ⟨by decide, by decide⟩
  have hempty : ∀ f ∈ Fork.fresh 3, f.buckets = [] := by
    intro f hf
    obtain ⟨i, -, rfl⟩ := List.mem_map.mp hf
    rfl
  obtain ⟨-, -, -, hloads⟩ := allocate_balanced (.fresh three_pos) evenBuckets
  obtain ⟨hdiffer, hspread⟩ := hloads hempty
  have hexact : ∀ f ∈ (allocate evenBuckets (Fork.fresh 3)).forks, f.Exact := by
    have hsmall : (evenBuckets.map fun b => Timing.wholeEstimate (fun _ => 0) b.matched).sum <
        2 ^ 53 := by
      refine lt_of_le_of_lt (List.sum_le_card_nsmul _ 10 fun s hs => ?_) (by decide)
      obtain ⟨b, hb, rfl⟩ := List.mem_map.mp hs
      exact Bucket.wholeEstimate_matched_le _ hb
    intro f hf
    exact Plan.exact_of_whole three_pos (fun _ => 0) (List.forall_mem_nil _) hsmall f.freeze
      (List.mem_map_of_mem hf)
  have hnone : (allocate evenBuckets (Fork.fresh 3)).forks.any (·.buckets.isEmpty) = true := by
    have hrun : allocate evenBuckets (Fork.fresh 3) = Allocation.run (Fork.fresh 3)
        (smallGroups.map fun g => Bucket.ofMatched g []) := by
      rw [← Plan.givenOut_nil]
      rfl
    rw [hrun]
    decide +kernel
  obtain ⟨f, hf, hf'⟩ := List.any_eq_true.mp hnone
  rw [List.isEmpty_iff] at hf'
  exact ⟨huneven, (allocate_balanced huneven evenBuckets).2.2.1, hdiffer hexact, ⟨f, hf, hf'⟩,
    hspread f hf hf'⟩

end SuiteBalance
