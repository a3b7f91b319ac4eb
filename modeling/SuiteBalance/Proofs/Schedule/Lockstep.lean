import Mathlib
import SuiteBalance.Proofs.Schedule.Run
import SuiteBalance.Proofs.Timing.History

/-!
# Proofs — Schedule — runs in lockstep

Which fork takes a bucket depends on costs alone.  Runs that give out buckets of the same costs take
the same steps, whatever else the buckets are, and their forks hold at each place buckets that were
given out together.

* `Bucket.forall₂_byCost`: lists of buckets that cost the same are put into one order.
* `Fork.Related`: forks that hold buckets which go together.
* `Allocation.related_assign`, **`Allocation.related_run`**: what one step keeps, and a whole run.
* **`Plan.related_schedule`**: schedules of buckets that are given out together.
-/

namespace SuiteBalance

open Number

variable {R : Bucket → Bucket → Prop}

/-! ### Lists that go together -/

theorem getElem?_of_forall₂ {α : Type} {S : α → α → Prop} {l m : List α} (h : List.Forall₂ S l m)
    (i : ℕ) : (l[i]? = none ∧ m[i]? = none) ∨ ∃ a b, l[i]? = some a ∧ m[i]? = some b ∧ S a b := by
  induction h generalizing i with
  | nil => exact .inl ⟨rfl, rfl⟩
  | cons hab _ ih =>
      cases i with
      | zero => exact .inr ⟨_, _, rfl, rfl, hab⟩
      | succ i => exact ih i

theorem forall₂_set {α : Type} {S : α → α → Prop} {l m : List α} (h : List.Forall₂ S l m) (i : ℕ)
    {a b : α} (hab : S a b) : List.Forall₂ S (l.set i a) (m.set i b) := by
  induction h generalizing i with
  | nil => exact .nil
  | cons hcd _ ih =>
      cases i with
      | zero => exact .cons hab ‹_›
      | succ i => exact .cons hcd (ih i)

/-- Lists that go together are sorted together, if what goes together is ordered alike. -/
theorem forall₂_mergeSort {α : Type} {S : α → α → Prop} {le : α → α → Bool}
    (hle : ∀ a b c d, S a b → S c d → le a c = le b d) {l m : List α} (h : List.Forall₂ S l m) :
    List.Forall₂ S (l.mergeSort le) (m.mergeSort le) := by
  obtain ⟨hlength, hpairs⟩ := List.forall₂_iff_zip.mp h
  -- both are sorted as the list of pairs is by the first components
  let sorted := (l.zip m).mergeSort fun p q => le p.1 q.1
  have hfst : sorted.map Prod.fst = l.mergeSort le := by
    rw [List.map_mergeSort (s := le) fun _ _ _ _ => rfl, List.map_fst_zip hlength.le]
  have hsnd : sorted.map Prod.snd = m.mergeSort le := by
    rw [List.map_mergeSort (s := le) fun p hp q hq => hle _ _ _ _ (hpairs hp) (hpairs hq),
      List.map_snd_zip hlength.ge]
  rw [← hfst, ← hsnd, List.forall₂_map_left_iff, List.forall₂_map_right_iff, List.forall₂_same]
  exact fun p hp => hpairs ((List.mergeSort_perm _ _).mem_iff.mp hp)

/-- **Buckets that cost the same one by one are put into one order.** -/
theorem Bucket.forall₂_byCost (hcost : ∀ b c, R b c → b.cost = c.cost)
    {buckets buckets' : List Bucket} (h : List.Forall₂ R buckets buckets') :
    List.Forall₂ R (byCost buckets) (byCost buckets') :=
  forall₂_mergeSort (fun a b c d hab hcd => by rw [hcost a b hab, hcost c d hcd]) h

/-! ### Forks that hold buckets together -/

/-- Forks with one index and one phase, whose buckets go together one by one. -/
structure Fork.Related (R : Bucket → Bucket → Prop) (f f' : Fork) : Prop where
  index : f.index = f'.index
  phase : f.phase = f'.phase
  buckets : List.Forall₂ R f.buckets f'.buckets

namespace Fork.Related

variable {f f' : Fork}

theorem load (hcost : ∀ b c, R b c → b.cost = c.cost) (h : f.Related R f') : f.load = f'.load := by
  have hcosts : f.buckets.map Bucket.cost = f'.buckets.map Bucket.cost :=
    forall₂_map_eq_iff.mp (h.buckets.imp hcost)
  rw [f.load_eq, f'.load_eq, Bucket.total_eq, Bucket.total_eq, hcosts]

theorem push (h : f.Related R f') {b b' : Bucket} (hb : R b b') :
    (f.push b).Related R (f'.push b') where
  index := h.index
  phase := h.phase
  buckets := List.rel_append h.buckets (.cons hb .nil)

theorem freeze (h : f.Related R f') : f.freeze.Related R f'.freeze := ⟨h.index, rfl, h.buckets⟩

end Fork.Related

variable {forks forks' : List Fork}

theorem map_load_of_related (hcost : ∀ b c, R b c → b.cost = c.cost)
    (h : List.Forall₂ (Fork.Related R) forks forks') : forks.map Fork.load = forks'.map Fork.load :=
  forall₂_map_eq_iff.mp (h.imp fun _ _ hf => hf.load hcost)

/-! ### Runs -/

namespace Allocation

/-- **Runs take their steps together**: both fail, or both give their bucket to the same fork. -/
theorem related_assign (hcost : ∀ b c, R b c → b.cost = c.cost)
    (h : List.Forall₂ (Fork.Related R) forks forks') {b b' : Bucket} (hb : R b b') :
    (∃ e e', assign forks b = .error e ∧ assign forks' b' = .error e') ∨
      ∃ next next' a a', assign forks b = .ok (next, a) ∧ assign forks' b' = .ok (next', a') ∧
        List.Forall₂ (Fork.Related R) next next' := by
  have hleast : leastLoaded forks' = leastLoaded forks := by
    rw [leastLoaded, leastLoaded, map_load_of_related hcost h]
  unfold assign
  rw [hleast]
  cases leastLoaded forks with
  | none => exact .inl ⟨_, _, rfl, rfl⟩
  | some i =>
      dsimp only
      rcases getElem?_of_forall₂ h i with ⟨hf, hf'⟩ | ⟨f, f', hf, hf', hrelated⟩
      · rw [hf, hf']
        exact .inl ⟨_, _, rfl, rfl⟩
      · rw [hf, hf']
        simp only [Fork.add_eq, ← hrelated.phase]
        cases f.phase with
        | frozen => exact .inl ⟨_, _, rfl, rfl⟩
        | accumulating => exact .inr ⟨_, _, _, _, rfl, rfl, forall₂_set h i (hrelated.push hb)⟩

/-- **Runs that give out buckets of the same costs leave forks that hold them together.** -/
theorem related_run (hcost : ∀ b c, R b c → b.cost = c.cost)
    (h : List.Forall₂ (Fork.Related R) forks forks') {buckets buckets' : List Bucket}
    (hbuckets : List.Forall₂ R buckets buckets') :
    List.Forall₂ (Fork.Related R) (run forks buckets).forks (run forks' buckets').forks := by
  induction hbuckets generalizing forks forks' with
  | nil => exact h
  | cons hb _ ih =>
      rcases related_assign hcost h hb with
        ⟨e, e', hassign, hassign'⟩ | ⟨next, next', a, a', hassign, hassign', hnext⟩
      · rw [run, run, hassign, hassign']
        exact h
      · rw [run, run, hassign, hassign']
        exact ih hnext

end Allocation

/-! ### Schedules -/

namespace Plan

variable {count : ℕ} {groups groups' : List Group} {records records' : List TimingRecord}

/-- **Schedules of buckets that are given out together have forks that hold them together.** -/
theorem related_schedule (hcount : 0 < count) (hcost : ∀ b c, R b c → b.cost = c.cost)
    (h : List.Forall₂ R (givenOut groups records) (givenOut groups' records')) :
    List.Forall₂ (Fork.Related R) (schedule count groups records).1.forks
      (schedule count groups' records').1.forks := by
  have hfresh : List.Forall₂ (Fork.Related R) (Fork.fresh count) (Fork.fresh count) :=
    List.forall₂_same.mpr fun f hf => by
      obtain ⟨i, -, rfl⟩ := List.mem_map.mp hf
      exact ⟨rfl, rfl, .nil⟩
  rw [forks_schedule hcount, forks_schedule hcount]
  exact List.rel_map (fun _ _ hf => hf.freeze) (Allocation.related_run hcost hfresh h)

theorem makespan_congr {p p' : Plan} (h : p.loads = p'.loads) : p.makespan = p'.makespan := by
  rw [makespan, makespan, h]

end Plan

end SuiteBalance
