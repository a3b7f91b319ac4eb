import Mathlib
import SuiteBalance.Proofs.Number.Sums
import SuiteBalance.Proofs.Schedule.Run

/-!
# Proofs — Schedule — one run beside another

Two runs of an allocation part ways as soon as a fork or a bucket is added, and no fork of the one
answers to a fork of the other.  What can be compared is how many forks of each are loaded above a
threshold: **`Covers`** says that one run has as many above each threshold as the other, up to the
number of its forks.  Every step in which both runs give out the same cost keeps this, since the
forks that take the buckets are the least loaded ones.

* `above_set`: what one step does to the number of forks above a threshold.
* **`Covers.step`**, `Covers.push`: what is kept by a step in both runs, and by a bucket that only one
  run gives out.
* `Covers.run`, **`Covers.run_insert`**: what is kept by whole runs.
-/

namespace SuiteBalance

open Number

/-! ### Sums of loads and costs -/

namespace Fork

theorem load_push (f : Fork) (b : Bucket) : (f.push b).load = f.load + b.cost := by
  rw [(f.push b).load_eq, f.load_eq]
  exact Bucket.total_append f.buckets b

/-- A fork's load does not sink as it takes a bucket. -/
theorem exact_load_le_push (f : Fork) (b : Bucket) : exact f.load ≤ exact (f.push b).load := by
  rw [load_push]
  exact exact_le_add f.nonneg_load b.nonneg_cost

/-- Of two forks that take the same cost, the one with the smaller load keeps it. -/
theorem exact_push_mono {f g : Fork} {b c : Bucket} (hload : exact f.load ≤ exact g.load)
    (hcost : exact b.cost = exact c.cost) : exact (f.push b).load ≤ exact (g.push c).load := by
  rw [load_push, load_push, exact_add f.nonneg_load b.nonneg_cost,
    exact_add g.nonneg_load c.nonneg_cost, hcost]
  refine fitted_mono ?_ (add_le_add_left hload _)
  exact add_nonneg (exact_nonneg f.nonneg_load) (exact_nonneg c.nonneg_cost)

end Fork

/-! ### Forks above a threshold -/

/-- How many forks are loaded above a threshold. -/
def above (x : WithTop ℚ) (forks : List Fork) : ℕ := forks.countP fun f => decide (x < exact f.load)

variable {x : WithTop ℚ} {forks forks' : List Fork} {i i' : ℕ} {f f' : Fork} {b b' : Bucket}

theorem above_le_length (x : WithTop ℚ) (forks : List Fork) : above x forks ≤ forks.length :=
  List.countP_le_length

theorem above_eq_length (h : ∀ g ∈ forks, x < exact g.load) : above x forks = forks.length := by
  rw [above, List.countP_eq_length]
  intro g hg
  exact decide_eq_true (h g hg)

theorem above_lt_length (hf : f ∈ forks) (h : ¬ x < exact f.load) :
    above x forks < forks.length := by
  rw [above, List.countP_lt_length_iff]
  exact ⟨f, hf, decide_eq_false h⟩

/-- **What one step does**: above a threshold below all loads stand all forks, before and after it;
above any other stands one fork more if its load comes to be above. -/
theorem above_set (hf : FirstLeast forks i f) (b : Bucket) (x : WithTop ℚ) :
    above x (forks.set i (f.push b)) =
      if x < exact f.load then forks.length
      else above x forks + if x < exact (f.push b).load then 1 else 0 := by
  obtain ⟨hi, hget⟩ := List.getElem?_eq_some_iff.mp hf.at_index
  split_ifs with hload hpush
  · have hall : ∀ g ∈ forks.set i (f.push b), x < exact g.load := by
      intro g hg
      rcases List.mem_or_eq_of_mem_set hg with hg | rfl
      · exact hload.trans_le (hf.least g hg)
      · exact hload.trans_le (f.exact_load_le_push b)
    rw [above_eq_length hall, List.length_set]
  all_goals
    rw [above, List.countP_set hi, hget]
    simp [hload, hpush, above]

/-! ### One run covers another -/

/-- The loads of some forks cover those of others: above each threshold there are as many of them as
of the others, up to the number that there are in all. -/
def Covers (forks forks' : List Fork) : Prop :=
  ∀ x, min forks.length (above x forks') ≤ above x forks

namespace Covers

theorem refl (forks : List Fork) : Covers forks forks := fun _ => min_le_right _ _

/-- The least load of forks that cover others is no smaller than theirs. -/
theorem load_le (h : Covers forks forks') (hlength : forks.length ≤ forks'.length)
    (hf : FirstLeast forks i f) (hf' : FirstLeast forks' i' f') :
    exact f'.load ≤ exact f.load := by
  by_contra hlt
  rw [not_le] at hlt
  -- at the smaller load stand all of the others, but not the fork that has it
  have hall : above (exact f.load) forks' = forks'.length :=
    above_eq_length fun g hg => hlt.trans_le (hf'.least g hg)
  have hnot := above_lt_length (List.mem_of_getElem? hf.at_index) (lt_irrefl (exact f.load))
  have hcovers := h (exact f.load)
  rw [hall, min_eq_left hlength] at hcovers
  exact absurd hcovers (not_le.mpr hnot)

/-- **A step in which both runs give out the same cost keeps the cover.** -/
theorem step (h : Covers forks forks') (hlength : forks.length ≤ forks'.length)
    (hf : FirstLeast forks i f) (hf' : FirstLeast forks' i' f')
    (hcost : exact b.cost = exact b'.cost) :
    Covers (forks.set i (f.push b)) (forks'.set i' (f'.push b')) := by
  intro x
  have hcovers := h x
  have hload := h.load_le hlength hf hf'
  rw [List.length_set, above_set hf, above_set hf']
  by_cases hx : x < exact f.load
  · rw [if_pos hx]
    exact min_le_left _ _
  · -- not all forks are above, so not all of the others are, and the one that takes the bucket comes
    -- to be above only if the fork that covers it does
    have hnot : ¬ x < exact f'.load := fun hx' => hx (hx'.trans_le hload)
    have hpush : x < exact (f'.push b').load → x < exact (f.push b).load :=
      fun hx' => hx'.trans_le (Fork.exact_push_mono hload hcost.symm)
    have hone : (if x < exact (f'.push b').load then 1 else 0) ≤
        if x < exact (f.push b).load then 1 else 0 := by
      split_ifs with h₁ h₂
      · exact le_rfl
      · exact absurd (hpush h₁) h₂
      · exact zero_le_one
      · exact le_rfl
    have hlt := above_lt_length (List.mem_of_getElem? hf.at_index) hx
    rw [if_neg hx, if_neg hnot]
    omega

/-- A bucket that is given out only by the run that covers the other. -/
theorem push (h : Covers forks forks') (hf : FirstLeast forks i f) (b : Bucket) :
    Covers (forks.set i (f.push b)) forks' := by
  intro x
  have hcovers := h x
  rw [List.length_set, above_set hf]
  split_ifs
  · exact min_le_left _ _
  · exact Nat.le_add_right_of_le hcovers
  · exact hcovers

end Covers

/-! ### Whole runs -/

/-- Forks of which each takes the bucket that it is given. -/
structure Ready (forks : List Fork) : Prop where
  ne_nil : forks ≠ []
  accumulating : ∀ f ∈ forks, f.phase = .accumulating

namespace Ready

theorem fresh {count : ℕ} (h : 0 < count) : Ready (Fork.fresh count) :=
  ⟨Fork.fresh_ne_nil h, fun _ => Fork.phase_of_mem_fresh⟩

theorem set (h : Ready forks) (hf : forks[i]? = some f) (b : Bucket) :
    Ready (forks.set i (f.push b)) := by
  refine ⟨?_, fun g hg => ?_⟩
  · rw [Ne, List.set_eq_nil_iff]
    exact h.ne_nil
  · rcases List.mem_or_eq_of_mem_set hg with hg | rfl
    · exact h.accumulating g hg
    · exact h.accumulating f (List.mem_of_getElem? hf)

/-- A run begins with the step of its first bucket. -/
theorem run_cons (h : Ready forks) (b : Bucket) : ∃ i f, FirstLeast forks i f ∧
    Ready (forks.set i (f.push b)) ∧ ∀ rest, (Allocation.run forks (b :: rest)).forks =
      (Allocation.run (forks.set i (f.push b)) rest).forks := by
  obtain ⟨i, f, hf, hassign⟩ := Allocation.assign_eq h.ne_nil b
  rw [h.accumulating f (List.mem_of_getElem? hf.at_index)] at hassign
  refine ⟨i, f, hf, h.set hf.at_index b, fun rest => ?_⟩
  rw [Allocation.run, hassign]

/-- A run goes on where the one before it ended. -/
theorem run_append (h : Ready forks) (front behind : List Bucket) :
    Ready (Allocation.run forks front).forks ∧
      (Allocation.run forks (front ++ behind)).forks =
        (Allocation.run (Allocation.run forks front).forks behind).forks := by
  induction front generalizing forks with
  | nil => exact ⟨h, rfl⟩
  | cons b front ih =>
      obtain ⟨i, f, -, hready, hrun⟩ := h.run_cons b
      rw [List.cons_append, hrun, hrun]
      exact ih hready

theorem length_run (h : Ready forks) (buckets : List Bucket) :
    (Allocation.run forks buckets).forks.length = forks.length :=
  (Allocation.given_run h.ne_nil h.accumulating buckets).2.length

end Ready

namespace Covers

/-- **Runs that give out the same costs keep the cover.** -/
theorem run (h : Covers forks forks') (hready : Ready forks) (hready' : Ready forks')
    (hlength : forks.length ≤ forks'.length) {buckets buckets' : List Bucket}
    (hcosts : buckets.map (fun b => exact b.cost) = buckets'.map fun b => exact b.cost) :
    Covers (Allocation.run forks buckets).forks (Allocation.run forks' buckets').forks := by
  induction buckets generalizing forks forks' buckets' with
  | nil =>
      rw [List.map_nil, eq_comm, List.map_eq_nil_iff] at hcosts
      subst hcosts
      exact h
  | cons b buckets ih =>
      cases buckets' with
      | nil => cases hcosts
      | cons b' buckets' =>
          rw [List.map_cons, List.map_cons, List.cons.injEq] at hcosts
          obtain ⟨hcost, hcosts⟩ := hcosts
          obtain ⟨i, f, hf, hset, hrun⟩ := hready.run_cons b
          obtain ⟨i', f', hf', hset', hrun'⟩ := hready'.run_cons b'
          rw [hrun, hrun']
          refine ih (h.step hlength hf hf' hcost) hset hset' ?_ hcosts
          rwa [List.length_set, List.length_set]

/-- **A run that gives out one bucket more covers the run without it**, wherever the bucket comes. -/
theorem run_insert (hready : Ready forks) {front behind all : List Bucket} {d : Bucket}
    (hcosts : all.map (fun b => exact b.cost) =
      (front ++ d :: behind).map fun b => exact b.cost) :
    Covers (Allocation.run forks all).forks (Allocation.run forks (front ++ behind)).forks := by
  obtain ⟨front', rest', rfl, hfront, hrest⟩ := List.map_eq_append_iff.mp
    (hcosts.trans List.map_append)
  obtain ⟨d', behind', rfl, -, hbehind⟩ := List.map_eq_cons_iff.mp hrest
  obtain ⟨hready₁, hrun₁⟩ := hready.run_append front' (d' :: behind')
  obtain ⟨hready₂, hrun₂⟩ := hready.run_append front behind
  obtain ⟨i, f, hf, hset, hrun⟩ := hready₁.run_cons d'
  have hsame : Covers (Allocation.run forks front').forks (Allocation.run forks front).forks :=
    (refl forks).run hready hready le_rfl hfront
  rw [hrun₁, hrun₂, hrun]
  refine (hsame.push hf d').run hset hready₂ ?_ hbehind
  rw [List.length_set, hready.length_run, hready.length_run]

end Covers

end SuiteBalance
