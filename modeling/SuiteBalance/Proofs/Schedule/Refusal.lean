import Mathlib
import SuiteBalance.Proofs.Schedule.Run

/-!
# Proofs — Schedule — forks that refuse

Buckets may be given out to forks of which some are frozen.  A frozen fork is not passed over: once
it is the first of the least loaded forks it refuses the bucket whose turn it is, and the allocation
ends there.  What was given out before stays where it is.

* `Takes`, `Refuses`: forks take buckets one after the other, or refuse one.
* `Stops`: buckets are taken up to one that is refused.
* `run_cases`, `run_of_takes`, `run_of_refuses`: a run takes all buckets or stops, and where.
* `Added`: what is left of forks that took buckets, and `Takes.added`.
* **`allocate_stops`**: when an allocation is refused, and what it has done until then.
-/

namespace SuiteBalance

open Number

variable {start forks left : List Fork} {buckets done rest later : List Bucket} {b : Bucket}
  {i j : ℕ} {f g : Fork} {e : ForkError}

/-! ### Taking and refusing -/

/-- Forks refuse a bucket: the first of the least loaded ones is frozen. -/
def Refuses (forks : List Fork) (b : Bucket) (e : ForkError) : Prop :=
  ∃ i f, FirstLeast forks i f ∧ f.phase = .frozen ∧ e = .frozen f.index b.pattern

/-- Forks take buckets one after the other: each goes to the first of the least loaded forks, which
accumulates. -/
inductive Takes : List Fork → List Bucket → List Fork → Prop where
  | nil (forks : List Fork) : Takes forks [] forks
  | cons {forks left : List Fork} {b : Bucket} {rest : List Bucket} {i : ℕ} {f : Fork}
      (hf : FirstLeast forks i f) (hphase : f.phase = .accumulating)
      (later : Takes (forks.set i (f.push b)) rest left) : Takes forks (b :: rest) left

/-- Forks take the first buckets of an order and refuse the one behind these. -/
structure Stops (forks : List Fork) (order done : List Bucket) (left : List Fork) (e : ForkError) :
    Prop where
  takes : Takes forks done left
  refuses : ∃ b later, order = done ++ b :: later ∧ Refuses left b e

/-- There is one first least loaded fork. -/
theorem FirstLeast.unique (hf : FirstLeast forks i f) (hg : FirstLeast forks j g) :
    i = j ∧ f = g := by
  have hfg := hf.least g (List.mem_of_getElem? hg.at_index)
  have hgf := hg.least f (List.mem_of_getElem? hf.at_index)
  obtain rfl : i = j := by
    rcases lt_trichotomy i j with hlt | heq | hlt
    · exact absurd hfg (not_le.mpr (hg.first i hlt f hf.at_index))
    · exact heq
    · exact absurd hgf (not_le.mpr (hf.first j hlt g hg.at_index))
  exact ⟨rfl, Option.some_inj.mp (hf.at_index.symm.trans hg.at_index)⟩

/-! ### Runs -/

namespace Allocation

theorem run_of_refuses (hne : forks ≠ []) (h : Refuses forks b e) (later : List Bucket) :
    run forks (b :: later) = ⟨forks, [], some (.refused e)⟩ := by
  obtain ⟨i, f, hf, hphase, rfl⟩ := h
  obtain ⟨j, g, hg, hassign⟩ := assign_eq hne b
  obtain ⟨rfl, rfl⟩ := hf.unique hg
  rw [hphase] at hassign
  rw [run, hassign]

/-- A run goes on with the forks that are left by the buckets that they took. -/
theorem run_of_takes (h : Takes forks done left) (hne : forks ≠ []) (later : List Bucket) :
    left ≠ [] ∧ (run forks (done ++ later)).forks = (run left later).forks ∧
      (run forks (done ++ later)).ended = (run left later).ended := by
  induction h with
  | nil forks => exact ⟨hne, rfl, rfl⟩
  | @cons forks left b rest i f hf hphase _ ih =>
      obtain ⟨j, g, hg, hassign⟩ := assign_eq hne b
      obtain ⟨rfl, rfl⟩ := hf.unique hg
      rw [hphase] at hassign
      rw [List.cons_append, run, hassign]
      exact ih (by simpa using hne)

/-- **A run takes all its buckets, or stops at one that is refused.** -/
theorem run_cases (hne : forks ≠ []) (buckets : List Bucket) :
    ((run forks buckets).ended = none ∧ Takes forks buckets (run forks buckets).forks) ∨
      ∃ done e, (run forks buckets).ended = some (.refused e) ∧
        Stops forks buckets done (run forks buckets).forks e := by
  induction buckets generalizing forks with
  | nil => exact .inl ⟨rfl, .nil forks⟩
  | cons b rest ih =>
      obtain ⟨i, f, hf, hassign⟩ := assign_eq hne b
      rw [run, hassign]
      cases hphase : f.phase with
      | frozen =>
          exact .inr ⟨[], _, rfl, .nil forks, b, rest, rfl, i, f, hf, hphase, rfl⟩
      | accumulating =>
          have hne' : forks.set i (f.push b) ≠ [] := by simpa using hne
          rcases ih hne' with ⟨hended, htakes⟩ | ⟨done, e, hended, htakes, c, later, rfl, hrefuses⟩
          · exact .inl ⟨hended, .cons hf hphase htakes⟩
          · exact .inr ⟨b :: done, e, hended, .cons hf hphase htakes, c, later, rfl, hrefuses⟩

theorem run_of_stops (hne : forks ≠ []) (h : Stops forks buckets done left e) :
    (run forks buckets).forks = left ∧ (run forks buckets).ended = some (.refused e) := by
  obtain ⟨htakes, b, later, rfl, hrefuses⟩ := h
  obtain ⟨hleft, hforks, hended⟩ := run_of_takes htakes hne (b :: later)
  rw [run_of_refuses hleft hrefuses] at hforks hended
  exact ⟨hforks, hended⟩

/-- **A run is refused where it stops, and only there.** -/
theorem ended_run_iff (hne : forks ≠ []) (buckets : List Bucket) (e : AllocationError) :
    (run forks buckets).ended = some e ↔
      ∃ done left refusal, Stops forks buckets done left refusal ∧ e = .refused refusal := by
  constructor
  · intro h
    rcases run_cases hne buckets with ⟨hended, -⟩ | ⟨done, refusal, hended, hstops⟩
    · rw [hended] at h
      cases h
    · exact ⟨done, _, refusal, hstops, Option.some_inj.mp (h.symm.trans hended)⟩
  · rintro ⟨done, left, refusal, hstops, rfl⟩
    exact (run_of_stops hne hstops).2

end Allocation

/-! ### What is left -/

/-- Buckets have been added to forks that still accumulate: none is lost and none is doubled, what a
fork held stays in front of what it was given, its load has grown by the costs of these, and a
frozen fork is as it was. -/
structure Added (start : List Fork) (front : List Bucket) (forks : List Fork) : Prop
    extends Allocation.Given start front forks where
  frozen : ∀ (i : ℕ) f, start[i]? = some f → f.phase = .frozen → forks[i]? = some f
  load : ∀ (i : ℕ) f g own, start[i]? = some f → forks[i]? = some g →
    g.buckets = f.buckets ++ own → g.load = own.foldl (fun load b => load + b.cost) f.load

/-- The load of a fork with more buckets is the load before with their costs added in order. -/
theorem Fork.load_of_buckets {own : List Bucket} (h : g.buckets = f.buckets ++ own) :
    g.load = own.foldl (fun load b => load + b.cost) f.load := by
  rw [g.load_eq, f.load_eq, h]
  exact List.foldl_append

theorem Added.refl (start : List Fork) : Added start [] start where
  toGiven := .refl start
  frozen _ _ hf _ := hf
  load _ _ _ _ _ _ := Fork.load_of_buckets

theorem Added.step (h : Added start done forks) (b : Bucket) (hf : FirstLeast forks i f)
    (hphase : f.phase = .accumulating) : Added start (done ++ [b]) (forks.set i (f.push b)) where
  toGiven := h.toGiven.step b hf.at_index
  frozen j g hg hfrozen := by
    have hget := h.frozen j g hg hfrozen
    have hij : i ≠ j := by
      rintro rfl
      obtain rfl := Option.some_inj.mp (hf.at_index.symm.trans hget)
      cases hphase.symm.trans hfrozen
    rw [List.getElem?_set_ne hij, hget]
  load _ _ _ _ _ _ := Fork.load_of_buckets

/-- **What is left of forks that took buckets.** -/
theorem Takes.added (h : Takes start buckets left) : Added start buckets left := by
  -- the induction is on what is taken last, so what was added before varies
  suffices hmore : ∀ {forks done}, Added start done forks → Takes forks buckets left →
      Added start (done ++ buckets) left from hmore (.refl start) h
  clear h
  intro forks done hadded htakes
  induction htakes generalizing done with
  | nil => rwa [List.append_nil]
  | cons hf hphase _ ih =>
      have := ih (hadded.step _ hf hphase)
      rwa [List.append_assoc] at this

/-- **An allocation onto forks of which some may be frozen** leaves these as they are.  It is
refused if and only if, when the turn of a bucket comes, the first of the least loaded forks is
frozen; then the buckets before it have been added to forks that accumulate, each to one of them,
and no other has.  If it is not refused, all buckets have been added. -/
theorem allocate_stops (buckets : List Bucket) (forks : List Fork) :
    (∀ (i : ℕ) f, forks[i]? = some f → f.phase = .frozen →
      (allocate buckets forks).forks[i]? = some f) ∧
    (forks = [] → (allocate buckets forks).ended = some .noForks) ∧
    (forks ≠ [] →
      (∀ e, (allocate buckets forks).ended = some e ↔ ∃ done left refusal,
        Stops forks (Bucket.byCost buckets) done left refusal ∧ e = .refused refusal) ∧
      (∀ done left refusal, Stops forks (Bucket.byCost buckets) done left refusal →
        (allocate buckets forks).forks = left ∧ Added forks done left) ∧
      ((allocate buckets forks).ended = none →
        Takes forks (Bucket.byCost buckets) (allocate buckets forks).forks ∧
          Added forks (Bucket.byCost buckets) (allocate buckets forks).forks)) := by
  rcases eq_or_ne forks [] with rfl | hne
  · exact ⟨fun i f hf => (by cases hf), fun _ => rfl, fun h => absurd rfl h⟩
  have hrun : allocate buckets forks = Allocation.run forks (Bucket.byCost buckets) := by
    rw [allocate, if_neg (by simpa using hne)]
  rw [hrun]
  refine ⟨?_, fun h => absurd h hne, fun _ => ⟨Allocation.ended_run_iff hne _, ?_, ?_⟩⟩
  · rcases Allocation.run_cases hne (Bucket.byCost buckets) with ⟨-, htakes⟩ | ⟨done, e, -, hstops⟩
    · exact htakes.added.frozen
    · exact hstops.takes.added.frozen
  · intro done left refusal hstops
    exact ⟨(Allocation.run_of_stops hne hstops).1, hstops.takes.added⟩
  · intro hended
    rcases Allocation.run_cases hne (Bucket.byCost buckets) with ⟨-, htakes⟩ | ⟨done, e, hsome, -⟩
    · exact ⟨htakes, htakes.added⟩
    · cases hended.symm.trans hsome

/-- Two forks, of which the second is frozen before it has been given anything. -/
def halfFrozenForks : List Fork := [Fork.empty 0, (Fork.empty 1).freeze]

/-- A bucket without an earlier run, which costs ten seconds. -/
def lintBucket : Bucket := .ofMatched ⟨"lint*", .name "unit", by decide⟩ []

/-- Another one. -/
def docsBucket : Bucket := .ofMatched ⟨"docs*", .name "unit", by decide⟩ []

/-- The frozen fork refuses the second of two buckets; the first one stays on the other fork. -/
theorem allocate_stops_half :
    halfFrozenForks ≠ [] ∧
      (allocate [lintBucket, docsBucket] halfFrozenForks).ended =
        some (.refused (.frozen 1 "docs*")) ∧
      Added halfFrozenForks [lintBucket]
        (allocate [lintBucket, docsBucket] halfFrozenForks).forks ∧
      (allocate [lintBucket, docsBucket] halfFrozenForks).forks[1]? =
        some (Fork.empty 1).freeze := by
  have hne : halfFrozenForks ≠ [] := by decide
  have hcost : docsBucket.cost ≤ lintBucket.cost := by decide +kernel
  have horder : Bucket.byCost [lintBucket, docsBucket] = [lintBucket, docsBucket] :=
    List.mergeSort_of_pairwise (List.pairwise_pair.mpr (decide_eq_true hcost))
  have hended : (allocate [lintBucket, docsBucket] halfFrozenForks).ended =
      some (.refused (.frozen 1 "docs*")) := by
    rw [allocate, if_neg (by decide), horder]
    decide +kernel
  obtain ⟨hfrozen, -, hforks⟩ := allocate_stops [lintBucket, docsBucket] halfFrozenForks
  obtain ⟨hiff, hleft, -⟩ := hforks hne
  obtain ⟨done, left, refusal, hstops, hrefusal⟩ := (hiff _).mp hended
  obtain ⟨hforks, hadded⟩ := hleft done left refusal hstops
  obtain ⟨b, later, hsplit, i, f, -, -, rfl⟩ := hstops.refuses
  obtain rfl : done = [lintBucket] := by
    rw [horder] at hsplit
    rcases done with - | ⟨c, - | ⟨d, rest⟩⟩
    · -- the bucket that is refused is not the first one
      obtain ⟨rfl, -⟩ := List.cons.inj hsplit
      have hpattern := (ForkError.frozen.inj (AllocationError.refused.inj hrefusal)).2
      exact absurd hpattern (by decide)
    · rw [(List.cons.inj hsplit).1]
    · simp at hsplit
  exact ⟨hne, hended, hforks ▸ hadded, hfrozen 1 _ rfl rfl⟩

end SuiteBalance
