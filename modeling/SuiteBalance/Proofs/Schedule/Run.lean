import Mathlib
import SuiteBalance.Schedule
import SuiteBalance.Proofs.Schedule.Cost

/-!
# Proofs — Schedule — runs

One step of an allocation gives a bucket to the first of the least loaded forks, or fails if that
fork is frozen; forks that accumulate take everything.

* `FirstLeast`: what the choice of a fork means.
* `assign_eq`: all that one step can do.
* `run_induction`: what holds of the forks at first and is kept by each step holds at the end.
* `Given`: what a run leaves, and `given_schedule`, that every plan's forks have been given its
  buckets.
-/

namespace SuiteBalance

open Number

/-! ### The least loaded fork -/

theorem Fork.nonneg_load (f : Fork) : 0.0 ≤ f.load := f.load_eq ▸ Bucket.nonneg_total f.buckets

theorem firstLeast_eq_none {loads : List Float} : firstLeast loads = none ↔ loads = [] := by
  cases loads with
  | nil => exact ⟨fun _ => rfl, fun _ => rfl⟩
  | cons x rest =>
      refine ⟨fun h => ?_, fun h => by cases h⟩
      rw [firstLeast] at h
      split at h
      · cases h
      · split at h <;> cases h

/-- The position that `firstLeast` finds holds a least load, and no position before it does. -/
theorem firstLeast_spec {loads : List Float} (h : ∀ x ∈ loads, 0.0 ≤ x) {i : ℕ} {y : Float}
    (hi : firstLeast loads = some (i, y)) :
    loads[i]? = some y ∧ (∀ x ∈ loads, exact y ≤ exact x) ∧
      ∀ j < i, ∀ x, loads[j]? = some x → exact y < exact x := by
  induction loads generalizing i y with
  | nil => cases hi
  | cons x rest ih =>
      obtain ⟨hx, hrest⟩ := List.forall_mem_cons.mp h
      cases hleast : firstLeast rest with
      | none =>
          obtain rfl := firstLeast_eq_none.mp hleast
          obtain ⟨rfl, rfl⟩ : i = 0 ∧ y = x := by
            simpa [firstLeast, eq_comm] using hi
          exact ⟨rfl, by simp, by simp⟩
      | some least =>
          obtain ⟨k, z⟩ := least
          obtain ⟨hget, hle, hfirst⟩ := ih hrest hleast
          have hz : 0.0 ≤ z := hrest z (List.mem_of_getElem? hget)
          rw [firstLeast, hleast] at hi
          -- the head is found unless a load behind it is smaller
          by_cases hlt : z < x
          · obtain ⟨rfl, rfl⟩ : i = k + 1 ∧ y = z := by simpa [hlt, eq_comm] using hi
            rw [lt_iff_exact_lt hz hx] at hlt
            refine ⟨hget, List.forall_mem_cons.mpr ⟨hlt.le, hle⟩, fun j hj w hw => ?_⟩
            cases j with
            | zero =>
                obtain rfl : x = w := by simpa using hw
                exact hlt
            | succ j => exact hfirst j (Nat.lt_of_succ_lt_succ hj) w (by simpa using hw)
          · obtain ⟨rfl, rfl⟩ : i = 0 ∧ y = x := by simpa [hlt, eq_comm] using hi
            rw [lt_iff_exact_lt hz hx, not_lt] at hlt
            exact ⟨rfl, List.forall_mem_cons.mpr ⟨le_rfl, fun w hw => hlt.trans (hle w hw)⟩,
              by simp⟩

/-- The fork at a position is the first of the least loaded ones. -/
structure FirstLeast (forks : List Fork) (i : ℕ) (f : Fork) : Prop where
  at_index : forks[i]? = some f
  least : ∀ g ∈ forks, exact f.load ≤ exact g.load
  first : ∀ j < i, ∀ g, forks[j]? = some g → exact f.load < exact g.load

/-- Among some forks one is the first of the least loaded ones. -/
theorem exists_firstLeast {forks : List Fork} (hne : forks ≠ []) :
    ∃ i f, leastLoaded forks = some i ∧ FirstLeast forks i f := by
  have hloads : ∀ x ∈ forks.map Fork.load, 0.0 ≤ x := by
    rintro x hx
    obtain ⟨f, -, rfl⟩ := List.mem_map.mp hx
    exact f.nonneg_load
  cases hleast : firstLeast (forks.map Fork.load) with
  | none => exact absurd (List.map_eq_nil_iff.mp (firstLeast_eq_none.mp hleast)) hne
  | some least =>
      obtain ⟨i, y⟩ := least
      obtain ⟨hget, hle, hfirst⟩ := firstLeast_spec hloads hleast
      rw [List.getElem?_map, Option.map_eq_some_iff] at hget
      obtain ⟨f, hf, rfl⟩ := hget
      refine ⟨i, f, by rw [leastLoaded, hleast]; rfl, hf, fun g hg => ?_, fun j hj g hg => ?_⟩
      · exact hle g.load (List.mem_map_of_mem hg)
      · exact hfirst j hj g.load (by rw [List.getElem?_map, hg]; rfl)

/-! ### One step -/

/-- A fork with one more bucket. -/
def Fork.push (f : Fork) (b : Bucket) : Fork where
  index := f.index
  phase := f.phase
  buckets := f.buckets ++ [b]

theorem Fork.eq_of_parts {f g : Fork} (hindex : f.index = g.index) (hphase : f.phase = g.phase)
    (hbuckets : f.buckets = g.buckets) : f = g := by
  obtain ⟨index, phase, buckets, load, rfl, byTask, rfl⟩ := f
  obtain ⟨index', phase', buckets', load', rfl, byTask', rfl⟩ := g
  obtain rfl : index = index' := hindex
  obtain rfl : phase = phase' := hphase
  obtain rfl : buckets = buckets' := hbuckets
  rfl

theorem Fork.add_eq (f : Fork) (b : Bucket) :
    f.add b = match f.phase with
      | .frozen => .error (.frozen f.index b.pattern)
      | .accumulating => .ok (f.push b) := by
  unfold Fork.add
  cases hphase : f.phase with
  | frozen => rfl
  | accumulating => exact congrArg Except.ok (Fork.eq_of_parts rfl hphase.symm rfl)

namespace Allocation

/-- **All that one step can do**: the first of the least loaded forks takes the bucket, or refuses
it because it is frozen. -/
theorem assign_eq {forks : List Fork} (hne : forks ≠ []) (b : Bucket) :
    ∃ i f, FirstLeast forks i f ∧
      assign forks b = match f.phase with
        | .frozen => .error (.refused (.frozen f.index b.pattern))
        | .accumulating => .ok (forks.set i (f.push b), ⟨b, f.index, (f.push b).load⟩) := by
  obtain ⟨i, f, hleast, hf⟩ := exists_firstLeast hne
  refine ⟨i, f, hf, ?_⟩
  rw [assign, hleast]
  simp only [hf.at_index, Fork.add_eq]
  cases hphase : f.phase with
  | frozen => rfl
  | accumulating => rfl

/-- **What holds of the forks at first and is kept by each step holds at the end of a run** whose
forks accumulate, and the run ends with its last bucket. -/
theorem run_induction {motive : List Bucket → List Fork → Prop} {forks : List Fork}
    (hne : forks ≠ []) (accumulating : ∀ f ∈ forks, f.phase = .accumulating)
    (init : motive [] forks)
    (step : ∀ front b forks i f, motive front forks → FirstLeast forks i f →
      motive (front ++ [b]) (forks.set i (f.push b))) (buckets : List Bucket) :
    (run forks buckets).ended = none ∧ motive buckets (run forks buckets).forks := by
  -- the induction is on the buckets that are left, so those given out before vary
  suffices h : ∀ front, motive front forks → (run forks buckets).ended = none ∧
      motive (front ++ buckets) (run forks buckets).forks from h [] init
  clear init
  induction buckets generalizing forks with
  | nil => exact fun front h => ⟨rfl, by rwa [List.append_nil]⟩
  | cons b rest ih =>
      intro front h
      obtain ⟨i, f, hf, hassign⟩ := assign_eq hne b
      have hphase := accumulating f (List.mem_of_getElem? hf.at_index)
      rw [hphase] at hassign
      have hne' : forks.set i (f.push b) ≠ [] := by simpa using hne
      have hrun := ih hne'
        (fun g hg => (List.mem_or_eq_of_mem_set hg).elim (accumulating g) fun h => h ▸ hphase)
        (front ++ [b]) (step front b forks i f h hf)
      rw [List.append_assoc, List.singleton_append] at hrun
      rw [run, hassign]
      exact hrun

/-! ### What a run leaves -/

/-- The buckets of a list have been given to forks: none is lost and none is doubled, and each fork
holds what it held and then some of the buckets in their order. -/
structure Given (start : List Fork) (front : List Bucket) (forks : List Fork) : Prop where
  length : forks.length = start.length
  perm : (forks.flatMap Fork.buckets).Perm (start.flatMap Fork.buckets ++ front)
  each : ∀ (i : ℕ) (g : Fork), forks[i]? = some g → ∃ f, start[i]? = some f ∧ g.index = f.index ∧
    g.phase = f.phase ∧ ∃ own, own.Sublist front ∧ g.buckets = f.buckets ++ own

theorem flatMap_set_push {forks : List Fork} {i : ℕ} {f : Fork} (b : Bucket)
    (h : forks[i]? = some f) :
    ((forks.set i (f.push b)).flatMap Fork.buckets).Perm (forks.flatMap Fork.buckets ++ [b]) := by
  induction forks generalizing i with
  | nil => cases h
  | cons g rest ih =>
      cases i with
      | zero =>
          obtain rfl : g = f := by simpa using h
          simpa [Fork.push] using (List.perm_append_singleton b _).symm.append_left g.buckets
      | succ i => simpa using (ih (by simpa using h)).append_left g.buckets

theorem Given.refl (start : List Fork) : Given start [] start where
  length := rfl
  perm := by rw [List.append_nil]
  each i g hg := ⟨g, hg, rfl, rfl, [], .slnil, (List.append_nil _).symm⟩

theorem Given.step {start forks : List Fork} {front : List Bucket} {i : ℕ} {f : Fork}
    (h : Given start front forks) (b : Bucket) (hf : forks[i]? = some f) :
    Given start (front ++ [b]) (forks.set i (f.push b)) where
  length := by rw [List.length_set, h.length]
  perm := (flatMap_set_push b hf).trans (by simpa using h.perm.append_right [b])
  each j g hg := by
    rw [List.getElem?_set] at hg
    -- the fork at the position holds one bucket more, the others what they held
    split_ifs at hg with hij hlt
    · obtain rfl := hij
      obtain rfl : f.push b = g := by simpa using hg
      obtain ⟨e, he, hindex, hphase, own, hown, hbuckets⟩ := h.each i f hf
      refine ⟨e, he, hindex, hphase, own ++ [b], hown.append (.refl _), ?_⟩
      rw [← List.append_assoc, ← hbuckets]
      rfl
    · obtain ⟨e, he, hindex, hphase, own, hown, hbuckets⟩ := h.each j g hg
      exact ⟨e, he, hindex, hphase, own, hown.trans (List.sublist_append_left _ _), hbuckets⟩

/-- **A run gives out all its buckets** if the forks accumulate. -/
theorem given_run {forks : List Fork} (hne : forks ≠ [])
    (accumulating : ∀ f ∈ forks, f.phase = .accumulating) (buckets : List Bucket) :
    (run forks buckets).ended = none ∧ Given forks buckets (run forks buckets).forks :=
  run_induction hne accumulating (.refl forks)
    (fun _ b _ _ _ h hf => h.step b hf.at_index) buckets

end Allocation

/-! ### Plans -/

theorem Fork.length_fresh (count : ℕ) : (fresh count).length = count := by simp [fresh]

theorem Fork.getElem?_fresh {count i : ℕ} {f : Fork} (h : (fresh count)[i]? = some f) :
    i < count ∧ f = empty i := by
  rw [fresh, List.getElem?_map, Option.map_eq_some_iff] at h
  obtain ⟨j, hj, rfl⟩ := h
  obtain ⟨hi, rfl⟩ := List.getElem?_eq_some_iff.mp hj
  rw [List.length_range] at hi
  exact ⟨hi, by rw [List.getElem_range]⟩

theorem Fork.fresh_ne_nil {count : ℕ} (h : 0 < count) : fresh count ≠ [] := by
  simpa [fresh] using h.ne'

theorem Fork.phase_of_mem_fresh {count : ℕ} {f : Fork} (h : f ∈ fresh count) :
    f.phase = .accumulating := by
  obtain ⟨i, -, rfl⟩ := List.mem_map.mp h
  rfl

theorem Fork.flatMap_fresh (count : ℕ) : (fresh count).flatMap buckets = [] := by
  simp [fresh, List.flatMap_map, empty]

namespace Plan

/-- The buckets of a schedule, in the order in which they are given out. -/
def givenOut (groups : List Group) (records : List TimingRecord) : List Bucket :=
  Bucket.byCost (Bucket.build groups records).1

theorem forks_schedule {count : ℕ} (h : 0 < count) (groups : List Group)
    (records : List TimingRecord) :
    (schedule count groups records).1.forks =
      (Allocation.run (Fork.fresh count) (givenOut groups records)).forks.map Fork.freeze := by
  have hne : (Fork.fresh count).isEmpty = false := by
    simpa [List.isEmpty_eq_false_iff] using Fork.fresh_ne_nil h
  simp only [schedule, freezing, allocate, hne, givenOut]
  rfl

/-- The forks of a schedule before they are frozen have been given all buckets. -/
theorem given_fresh {count : ℕ} (h : 0 < count) (groups : List Group)
    (records : List TimingRecord) :
    Allocation.Given (Fork.fresh count) (givenOut groups records)
      (Allocation.run (Fork.fresh count) (givenOut groups records)).forks :=
  (Allocation.given_run (Fork.fresh_ne_nil h) (fun _ => Fork.phase_of_mem_fresh) _).2

theorem length_forks_schedule {count : ℕ} (h : 0 < count) (groups : List Group)
    (records : List TimingRecord) :
    (schedule count groups records).1.forks.length = count := by
  rw [forks_schedule h, List.length_map, (given_fresh h groups records).length, Fork.length_fresh]

/-- **A schedule loses no bucket and doubles none.** -/
theorem perm_schedule {count : ℕ} (h : 0 < count) (groups : List Group)
    (records : List TimingRecord) :
    ((schedule count groups records).1.forks.flatMap Fork.buckets).Perm
      (Bucket.build groups records).1 := by
  have hgiven := (given_fresh h groups records).perm
  rw [Fork.flatMap_fresh, List.nil_append] at hgiven
  rw [forks_schedule h, List.flatMap_map]
  exact hgiven.trans (Bucket.perm_byCost _)

/-- A plan has a number of forks, which together hold some buckets: none is lost, and none is
doubled. -/
structure Holds (p : Plan) (count : ℕ) (buckets : List Bucket) : Prop where
  forkCount : p.forkCount = count
  perm : (p.forks.flatMap Fork.buckets).Perm buckets

theorem holds_schedule {count : ℕ} (h : 0 < count) (groups : List Group)
    (records : List TimingRecord) :
    (schedule count groups records).1.Holds count (Bucket.build groups records).1 :=
  ⟨length_forks_schedule h groups records, perm_schedule h groups records⟩

/-- The fork at a position has the position as its index, and its buckets stand in the order in
which they were given out. -/
theorem getElem?_forks_schedule {count : ℕ} (h : 0 < count) {groups : List Group}
    {records : List TimingRecord} {i : ℕ} {f : Fork}
    (hf : (schedule count groups records).1.forks[i]? = some f) :
    f.index = i ∧ f.isFrozen = true ∧ f.buckets.Sublist (givenOut groups records) := by
  rw [forks_schedule h, List.getElem?_map, Option.map_eq_some_iff] at hf
  obtain ⟨g, hg, rfl⟩ := hf
  obtain ⟨e, he, hindex, -, own, hown, hbuckets⟩ := (given_fresh h groups records).each i g hg
  obtain ⟨-, rfl⟩ := Fork.getElem?_fresh he
  refine ⟨hindex, rfl, ?_⟩
  rw [show g.freeze.buckets = own from hbuckets]
  exact hown

theorem sublist_givenOut {count : ℕ} (h : 0 < count) {groups : List Group}
    {records : List TimingRecord} {f : Fork} (hf : f ∈ (schedule count groups records).1.forks) :
    f.buckets.Sublist (givenOut groups records) := by
  obtain ⟨i, hi⟩ := List.getElem?_of_mem hf
  exact (getElem?_forks_schedule h hi).2.2

/-- One fork runs all buckets in the order in which they are given out. -/
theorem forks_schedule_one (groups : List Group) (records : List TimingRecord) :
    ∃ f, (schedule 1 groups records).1.forks = [f] ∧ f.buckets = givenOut groups records := by
  obtain ⟨f, hf⟩ := List.length_eq_one_iff.mp (length_forks_schedule one_pos groups records)
  have hget : (schedule 1 groups records).1.forks[0]? = some f := by rw [hf]; rfl
  obtain ⟨-, -, hsub⟩ := getElem?_forks_schedule one_pos hget
  have hperm := perm_schedule one_pos groups records
  rw [hf, List.flatMap_singleton] at hperm
  exact ⟨f, hf, hsub.eq_of_length (hperm.trans (Bucket.perm_byCost _).symm).length_eq⟩

/-- Without records all buckets cost the same and are given out in the order of their groups. -/
theorem givenOut_nil (groups : List Group) :
    givenOut groups [] = groups.map fun g => Bucket.ofMatched g [] := by
  have hmatched (stem : String) : (History.ofList []).startingWith stem = [] := by
    simp [History.startingWith, History.ofList]
  have hbuild : (Bucket.build groups []).1 = groups.map fun g => Bucket.ofMatched g [] := by
    simp only [Bucket.build, hmatched]
  have hcost : Timing.estimate [] ≤ Timing.estimate [] := by decide +kernel
  rw [givenOut, hbuild]
  exact List.mergeSort_of_pairwise
    (List.pairwise_map.mpr (List.pairwise_of_forall fun _ _ => decide_eq_true hcost))

end Plan

end SuiteBalance
