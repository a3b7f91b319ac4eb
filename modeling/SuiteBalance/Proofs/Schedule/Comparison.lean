import Mathlib
import SuiteBalance.Proofs.Schedule.Bound
import SuiteBalance.Proofs.Schedule.Cover

/-!
# Proofs — Schedule — schedules side by side

What it says of the loads of two schedules that the forks of one cover those of the other, and which
schedules cover which.

* `Covers.makespan_le`, `Covers.forall₂_sortedLoads`: the makespans, and all loads one by one.
* **`Plan.makespan_anti`**: more forks never take longer.
* **`Plan.loads_le_insert`**: one more group never lowers a load.
-/

namespace SuiteBalance

open Number

/-! ### Makespans -/

/-- The greatest of some loads is no smaller than any of them. -/
theorem exact_le_greatest? {loads : List Float} (h : ∀ y ∈ loads, 0.0 ≤ y) {best : Float}
    (hbest : greatest? loads = some best) : ∀ y ∈ loads, exact y ≤ exact best := by
  cases loads with
  | nil => cases hbest
  | cons first rest =>
      -- the fold keeps the greatest load so far, so the induction is on its end
      induction rest using List.reverseRecOn generalizing best with
      | nil =>
          obtain rfl := Option.some_inj.mp hbest
          intro y hy
          exact (congrArg exact (List.mem_singleton.mp hy)).le
      | append_singleton rest last ih =>
          obtain ⟨before, hbefore⟩ : ∃ before, greatest? (first :: rest) = some before := ⟨_, rfl⟩
          have hmem : ∀ y ∈ first :: rest, y ∈ first :: (rest ++ [last]) := by
            intro y hy
            rw [← List.cons_append]
            exact List.mem_append_left _ hy
          have hle := ih (fun y hy => h y (hmem y hy)) hbefore
          have hstep : (if before < last then last else before) = best := by
            rw [greatest?, List.foldl_append, Option.some_inj] at hbest
            rw [← hbest, ← Option.some_inj.mp hbefore]
            rfl
          have hlt := lt_iff_exact_lt (h before (hmem before (greatest?_mem hbefore)))
            (h last (by simp))
          intro y hy
          rw [← List.cons_append, List.mem_append, List.mem_singleton] at hy
          rw [← hstep]
          split_ifs with hcase
          · rcases hy with hy | rfl
            · exact (hle y hy).trans (hlt.mp hcase).le
            · exact le_rfl
          · rcases hy with hy | rfl
            · exact hle y hy
            · exact not_lt.mp (mt hlt.mpr hcase)

/-- The makespan of a plan with forks is the load of a fork that no other exceeds. -/
theorem Plan.exists_slowest {p : Plan} (h : p.forks ≠ []) :
    ∃ f ∈ p.forks, p.makespan = .ok f.load ∧ ∀ g ∈ p.forks, exact g.load ≤ exact f.load := by
  obtain ⟨f, hf, hmakespan⟩ := Plan.exists_makespan h
  refine ⟨f, hf, hmakespan, fun g hg => ?_⟩
  have hnonneg : ∀ y ∈ p.loads, 0.0 ≤ y := by
    intro y hy
    obtain ⟨e, -, rfl⟩ := List.mem_map.mp hy
    exact e.nonneg_load
  rw [Plan.makespan] at hmakespan
  split at hmakespan
  case h_1 load hload =>
    obtain rfl := Except.ok.inj hmakespan
    exact exact_le_greatest? hnonneg hload _ (List.mem_map_of_mem hg)
  case h_2 => cases hmakespan

/-- The slowest of some forks is no faster than the slowest of those that they cover. -/
theorem Covers.makespan_le {p p' : Plan} (h : Covers p.forks p'.forks) (hne : p.forks ≠ [])
    (hne' : p'.forks ≠ []) :
    ∃ load load', p.makespan = .ok load ∧ p'.makespan = .ok load' ∧ load' ≤ load := by
  obtain ⟨f, hf, hmakespan, hslowest⟩ := Plan.exists_slowest hne
  obtain ⟨f', hf', hmakespan', -⟩ := Plan.exists_slowest hne'
  refine ⟨f.load, f'.load, hmakespan, hmakespan', ?_⟩
  rw [le_iff_exact_le f'.nonneg_load f.nonneg_load]
  by_contra hlt
  rw [not_le] at hlt
  -- no fork is above the slowest one, so none of those that are covered is
  have hnone : above (exact f.load) p.forks = 0 := by
    rw [above, List.countP_eq_zero]
    intro g hg
    rw [decide_eq_true_iff, not_lt]
    exact hslowest g hg
  have hsome : 0 < above (exact f.load) p'.forks := by
    rw [above, List.countP_pos_iff]
    exact ⟨f', hf', decide_eq_true hlt⟩
  have hpos := List.length_pos_iff.mpr hne
  have hcovers := h (exact f.load)
  rw [hnone] at hcovers
  omega

/-! ### Sorted loads -/

/-- Sorted lists of one length, of which the one has at least as many members above each threshold
as the other, are ordered member by member. -/
theorem forall₂_of_countP_le {α : Type} [LinearOrder α] {l m : List α} (hlength : l.length = m.length)
    (hl : l.Pairwise (· ≤ ·)) (hm : m.Pairwise (· ≤ ·))
    (h : ∀ x, l.countP (fun a => decide (x < a)) ≤ m.countP fun a => decide (x < a)) :
    List.Forall₂ (· ≤ ·) l m := by
  induction l generalizing m with
  | nil =>
      rw [List.length_nil, eq_comm, List.length_eq_zero_iff] at hlength
      subst hlength
      exact .nil
  | cons a l ih =>
      cases m with
      | nil => cases hlength
      | cons b m =>
          rw [List.pairwise_cons] at hl hm
          have hlength : l.length = m.length := Nat.succ.inj hlength
          have hle : a ≤ b := by
            by_contra hlt
            rw [not_le] at hlt
            -- all of the one list is above `b`, and of the other at least `b` is not
            have hall : (a :: l).countP (fun c => decide (b < c)) = (a :: l).length := by
              rw [List.countP_eq_length]
              intro c hc
              rcases List.mem_cons.mp hc with rfl | hc
              · exact decide_eq_true hlt
              · exact decide_eq_true (hlt.trans_le (hl.1 c hc))
            have hnot : (b :: m).countP (fun c => decide (b < c)) < (b :: m).length := by
              rw [List.countP_lt_length_iff]
              exact ⟨b, List.mem_cons_self .., decide_eq_false (lt_irrefl b)⟩
            have := h b
            rw [hall, List.length_cons, hlength, ← List.length_cons (a := b)] at this
            exact absurd this (not_le.mpr hnot)
          refine .cons hle (ih hlength hl.2 hm.2 fun x => ?_)
          by_cases hx : x < b
          · have hall : m.countP (fun c => decide (x < c)) = m.length := by
              rw [List.countP_eq_length]
              intro c hc
              exact decide_eq_true (hx.trans_le (hm.1 c hc))
            rw [hall, ← hlength]
            exact List.countP_le_length
          · have hcount := h x
            rwa [List.countP_cons_of_neg (by simpa using hle.trans (not_lt.mp hx)),
              List.countP_cons_of_neg (by simpa using hx)] at hcount

/-- The loads of a plan's forks, the least first. -/
def Plan.sortedLoads (p : Plan) : List Float := p.loads.mergeSort fun x y => decide (x ≤ y)

namespace Plan

variable {p p' : Plan}

theorem perm_sortedLoads (p : Plan) : p.sortedLoads.Perm p.loads := List.mergeSort_perm _ _

theorem nonneg_of_mem_sortedLoads {y : Float} (hy : y ∈ p.sortedLoads) : 0.0 ≤ y := by
  obtain ⟨f, -, rfl⟩ := List.mem_map.mp ((perm_sortedLoads p).mem_iff.mp hy)
  exact f.nonneg_load

theorem length_sortedLoads (p : Plan) : p.sortedLoads.length = p.forks.length := by
  rw [(perm_sortedLoads p).length_eq, loads, List.length_map]

theorem pairwise_sortedLoads (p : Plan) : (p.sortedLoads.map exact).Pairwise (· ≤ ·) := by
  -- loads are sorted as the forks are by their loads, which no load is below zero to disturb
  have hle (f g : Fork) : decide (f.load ≤ g.load) = true ↔ exact f.load ≤ exact g.load := by
    rw [decide_eq_true_iff, le_iff_exact_le f.nonneg_load g.nonneg_load]
  have hforks : p.sortedLoads =
      (p.forks.mergeSort fun f g => decide (f.load ≤ g.load)).map Fork.load :=
    (List.map_mergeSort (r := fun f g : Fork => decide (f.load ≤ g.load))
      (s := fun x y => decide (x ≤ y)) (f := Fork.load) (l := p.forks) fun _ _ _ _ => rfl).symm
  have hsorted : (p.forks.mergeSort fun f g => decide (f.load ≤ g.load)).Pairwise
      fun f g => decide (f.load ≤ g.load) = true := by
    refine List.pairwise_mergeSort (fun f g e hfg hge => ?_) (fun f g => ?_) p.forks
    · exact (hle f e).mpr (((hle f g).mp hfg).trans ((hle g e).mp hge))
    · rw [Bool.or_eq_true, hle, hle]
      exact le_total _ _
  rw [hforks, List.pairwise_map, List.pairwise_map]
  exact hsorted.imp fun h => (hle _ _).mp h

theorem countP_sortedLoads (p : Plan) (x : WithTop ℚ) :
    (p.sortedLoads.map exact).countP (fun y => decide (x < y)) = above x p.forks := by
  rw [((perm_sortedLoads p).map exact).countP_eq, loads, List.map_map, List.countP_map]
  rfl

end Plan

/-- **The loads of forks that cover as many others are no smaller than theirs**, sorted. -/
theorem Covers.forall₂_sortedLoads {p p' : Plan} (h : Covers p.forks p'.forks)
    (hlength : p.forks.length = p'.forks.length) :
    List.Forall₂ (· ≤ ·) p'.sortedLoads p.sortedLoads := by
  have hexact : List.Forall₂ (· ≤ ·) (p'.sortedLoads.map exact) (p.sortedLoads.map exact) := by
    refine forall₂_of_countP_le ?_ p'.pairwise_sortedLoads p.pairwise_sortedLoads fun x => ?_
    · rw [List.length_map, List.length_map, Plan.length_sortedLoads, Plan.length_sortedLoads, hlength]
    · rw [Plan.countP_sortedLoads, Plan.countP_sortedLoads]
      have hcovers := h x
      rwa [min_eq_right (hlength ▸ above_le_length x p'.forks)] at hcovers
  rw [List.forall₂_map_left_iff, List.forall₂_map_right_iff] at hexact
  refine List.forall₂_iff_get.mpr ⟨hexact.length_eq, fun i hi hi' => ?_⟩
  have hle := (List.forall₂_iff_get.mp hexact).2 i hi hi'
  exact (le_iff_exact_le (Plan.nonneg_of_mem_sortedLoads (List.getElem_mem hi))
    (Plan.nonneg_of_mem_sortedLoads (List.getElem_mem hi'))).mpr hle

/-! ### Schedules -/

namespace Plan

variable {n m : ℕ}

theorem forks_schedule_ne_nil (hn : 0 < n) (groups : List Group) (records : List TimingRecord) :
    (schedule n groups records).1.forks ≠ [] := by
  rw [← List.length_pos_iff, length_forks_schedule hn]
  exact hn

/-- Freezing forks does not change their loads. -/
theorem covers_schedule (hn : 0 < n) (hm : 0 < m) {groups groups' : List Group}
    {records : List TimingRecord}
    (h : Covers (Allocation.run (Fork.fresh n) (givenOut groups records)).forks
      (Allocation.run (Fork.fresh m) (givenOut groups' records)).forks) :
    Covers (schedule n groups records).1.forks (schedule m groups' records).1.forks := by
  intro x
  have habove (forks : List Fork) : above x (forks.map Fork.freeze) = above x forks := by
    rw [above, List.countP_map]
    rfl
  rw [forks_schedule hn, forks_schedule hm, List.length_map, habove, habove]
  exact h x

/-- Forks without loads cover any number of such forks. -/
theorem covers_fresh (n m : ℕ) : Covers (Fork.fresh n) (Fork.fresh m) := by
  intro x
  have hload {count : ℕ} : ∀ f ∈ Fork.fresh count, exact f.load = 0 := by
    intro f hf
    obtain ⟨i, -, rfl⟩ := List.mem_map.mp hf
    exact exact_zero
  rcases lt_or_ge x (0 : WithTop ℚ) with hx | hx
  · have hall : ∀ f ∈ Fork.fresh n, x < exact f.load := by
      intro f hf
      rw [hload f hf]
      exact hx
    rw [above_eq_length hall]
    exact min_le_left _ _
  · have hnone : above x (Fork.fresh m) = 0 := by
      rw [above, List.countP_eq_zero]
      intro f hf
      rw [hload f hf, decide_eq_true_iff, not_lt]
      exact hx
    rw [hnone, Nat.min_zero]
    exact Nat.zero_le _

/-- **More forks never take longer** for the same buckets. -/
theorem makespan_anti (hn : 0 < n) (hnm : n ≤ m) (groups : List Group)
    (records : List TimingRecord) :
    (schedule n groups records).1.Holds n (Bucket.build groups records).1 ∧
      (schedule m groups records).1.Holds m (Bucket.build groups records).1 ∧
      ∃ load load', (schedule n groups records).1.makespan = .ok load ∧
        (schedule m groups records).1.makespan = .ok load' ∧ load' ≤ load := by
  have hm : 0 < m := hn.trans_le hnm
  have hlength : (Fork.fresh n).length ≤ (Fork.fresh m).length := by
    rwa [Fork.length_fresh, Fork.length_fresh]
  have hrun := (covers_fresh n m).run (.fresh hn) (.fresh hm) hlength
    (rfl : (givenOut groups records).map _ = _)
  refine ⟨holds_schedule hn groups records, holds_schedule hm groups records, ?_⟩
  exact (covers_schedule hn hm hrun).makespan_le (forks_schedule_ne_nil hn groups records)
    (forks_schedule_ne_nil hm groups records)

/-- A schedule covers the one with a group less. -/
theorem covers_insert (hn : 0 < n) (front behind : List Group) (g : Group)
    (records : List TimingRecord) :
    Covers (schedule n (front ++ g :: behind) records).1.forks
      (schedule n (front ++ behind) records).1.forks := by
  refine covers_schedule hn hn ?_
  -- the new bucket stands between those that cost more and the others, as if it had come first
  obtain ⟨d, hd⟩ : ∃ d, (Bucket.build (front ++ g :: behind) records).1.Perm
      (d :: (Bucket.build (front ++ behind) records).1) := by
    simp only [Bucket.build, List.map_append, List.map_cons]
    exact ⟨_, List.perm_middle⟩
  obtain ⟨before, after, hwith, hwithout⟩ :=
    Bucket.byCost_cons d (Bucket.build (front ++ behind) records).1
  have hcosts := congrArg (List.map exact) (Bucket.map_cost_byCost (hd.map Bucket.cost))
  rw [hwith, List.map_map, List.map_map] at hcosts
  rw [givenOut, givenOut, hwithout]
  exact Covers.run_insert (.fresh hn) hcosts

/-- **One more group never lowers a load**: wherever it is discovered, the loads with it, sorted, are
no smaller than those without it, one by one, and neither is the makespan.  The forks hold the
buckets of the groups with it and without it. -/
theorem loads_le_insert (hn : 0 < n) (front behind : List Group) (g : Group)
    (records : List TimingRecord) :
    (schedule n (front ++ g :: behind) records).1.Holds n
        (Bucket.build (front ++ g :: behind) records).1 ∧
      (schedule n (front ++ behind) records).1.Holds n (Bucket.build (front ++ behind) records).1 ∧
      List.Forall₂ (· ≤ ·) (schedule n (front ++ behind) records).1.sortedLoads
        (schedule n (front ++ g :: behind) records).1.sortedLoads ∧
      ∃ load load', (schedule n (front ++ g :: behind) records).1.makespan = .ok load ∧
        (schedule n (front ++ behind) records).1.makespan = .ok load' ∧ load' ≤ load := by
  have hcovers := covers_insert hn front behind g records
  refine ⟨holds_schedule hn _ records, holds_schedule hn _ records,
    hcovers.forall₂_sortedLoads ?_, hcovers.makespan_le
      (forks_schedule_ne_nil hn _ _) (forks_schedule_ne_nil hn _ _)⟩
  rw [length_forks_schedule hn, length_forks_schedule hn]

end Plan

/-- The small suite takes no longer on two forks than on one. -/
theorem Plan.makespan_anti_small :
    0 < 1 ∧ 1 ≤ 2 ∧
      (schedule 1 smallGroups smallHistory).1.Holds 1 (Bucket.build smallGroups smallHistory).1 ∧
      (schedule 2 smallGroups smallHistory).1.Holds 2 (Bucket.build smallGroups smallHistory).1 ∧
      ∃ load load', (schedule 1 smallGroups smallHistory).1.makespan = .ok load ∧
        (schedule 2 smallGroups smallHistory).1.makespan = .ok load' ∧ load' ≤ load :=
  ⟨one_pos, one_le_two, makespan_anti one_pos one_le_two smallGroups smallHistory⟩

/-- A group of the small suite's slow tests, discovered between the two groups, lowers no load. -/
theorem Plan.loads_le_insert_small :
    0 < 2 ∧ List.Forall₂ (· ≤ ·)
        (schedule 2 (smallGroups.take 1 ++ smallGroups.drop 1) smallHistory).1.sortedLoads
        (schedule 2 (smallGroups.take 1 ++ ⟨"slow1*", .name "unit", by decide⟩ ::
          smallGroups.drop 1) smallHistory).1.sortedLoads :=
  ⟨two_pos,
    (loads_le_insert two_pos (smallGroups.take 1) (smallGroups.drop 1) _ smallHistory).2.2.1⟩

end SuiteBalance
