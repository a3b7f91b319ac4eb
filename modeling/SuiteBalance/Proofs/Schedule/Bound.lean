import Mathlib
import SuiteBalance.Proofs.Schedule.Exact

/-!
# Proofs — Schedule — how far from the best assignment

Giving the most costly bucket that is left to the least loaded fork is not always best, but it
takes at most `4/3 - 1/(3n)` times as long as any other assignment to `n` forks.

* `share`: what one fork has under another assignment.
* `three_mul_le`: the bound for one step, in which the least costly bucket so far is given out.
* `Bounded.step`, `Plan.three_mul_makespan_le`: each step keeps the bound, so every schedule has it.
-/

namespace SuiteBalance

open Number

/-! ### Other assignments -/

section Share

variable {α M : Type} [AddCommMonoid M] {n : ℕ}

/-- The sum of the weights of the jobs that an assignment sends to a fork. -/
def share (jobs : List (α × Fin n)) (weight : α → M) (j : Fin n) : M :=
  ((jobs.filter (·.2 = j)).map fun job => weight job.1).sum

theorem share_cons (job : α × Fin n) (jobs : List (α × Fin n)) (weight : α → M) (j : Fin n) :
    share (job :: jobs) weight j = (if job.2 = j then weight job.1 else 0) + share jobs weight j := by
  unfold share
  by_cases h : job.2 = j
  · rw [List.filter_cons_of_pos (by simpa using h), if_pos h, List.map_cons, List.sum_cons]
  · rw [List.filter_cons_of_neg (by simpa using h), if_neg h, zero_add]

theorem share_append (jobs more : List (α × Fin n)) (weight : α → M) (j : Fin n) :
    share (jobs ++ more) weight j = share jobs weight j + share more weight j := by
  simp [share]

theorem share_perm {jobs jobs' : List (α × Fin n)} (h : jobs.Perm jobs') (weight : α → M)
    (j : Fin n) : share jobs weight j = share jobs' weight j :=
  ((h.filter _).map _).sum_eq

theorem share_eq_sum_ite (jobs : List (α × Fin n)) (weight : α → M) (j : Fin n) :
    share jobs weight j = (jobs.map fun job => if job.2 = j then weight job.1 else 0).sum := by
  induction jobs with
  | nil => rfl
  | cons job rest ih => rw [share_cons, ih, List.map_cons, List.sum_cons]

/-- The shares of all forks together are the whole. -/
theorem sum_share (jobs : List (α × Fin n)) (weight : α → M) :
    ∑ j, share jobs weight j = (jobs.map fun job => weight job.1).sum := by
  induction jobs with
  | nil => simp [share]
  | cons job rest ih =>
      simp only [share_cons, Finset.sum_add_distrib, ih, Finset.sum_ite_eq, Finset.mem_univ,
        if_true, List.map_cons, List.sum_cons]

/-- The shares of an assignment that is given by positions. -/
theorem share_ofFn {k : ℕ} (a : Fin k → α) (other : Fin k → Fin n) (weight : α → M) (j : Fin n) :
    share (List.ofFn fun i => (a i, other i)) weight j = ∑ i with other i = j, weight (a i) := by
  rw [share_eq_sum_ite, List.map_ofFn, List.sum_ofFn, Finset.sum_filter]
  rfl

end Share

/-! ### One step -/

variable {n : ℕ} {deadline p : ℚ}

/-- A job counts twice if it leaves no time for a job of length `p` before the deadline. -/
def slots (deadline p x : ℚ) : ℕ := if deadline - p < x then 2 else 1

theorem one_le_slots (deadline p x : ℚ) : 1 ≤ slots deadline p x := by
  unfold slots
  split <;> norm_num

/-- A fork that meets the deadline has at most two slots, if no three jobs meet it. -/
theorem sum_slots_le_two {own : List ℚ} (least : ∀ x ∈ own, p ≤ x) (meets : own.sum ≤ deadline)
    (large : deadline < 3 * p) (hp : 0 ≤ p) : (own.map (slots deadline p)).sum ≤ 2 := by
  -- three jobs are too long together, so at most two are here, and two leave time for a third
  match own, least, meets with
  | [], _, _ => simp
  | [x], _, _ =>
      simp only [List.map_cons, List.map_nil, List.sum_singleton, slots]
      split <;> norm_num
  | [x, y], least, meets =>
      have hx := least x (by simp)
      have hy := least y (by simp)
      simp only [List.sum_cons, List.sum_nil, add_zero] at meets
      simp only [List.map_cons, List.map_nil, List.sum_cons, List.sum_nil, slots]
      rw [if_neg (by linarith), if_neg (by linarith)]
      norm_num
  | x :: y :: z :: rest, least, meets =>
      have hx := least x (by simp)
      have hy := least y (by simp)
      have hz := least z (by simp)
      have hrest : 0 ≤ rest.sum := List.sum_nonneg fun w hw => hp.trans (least w (by simp [hw]))
      simp only [List.sum_cons] at meets
      linarith

/-- A fork that misses the deadline with one more job has at least two slots. -/
theorem two_le_sum_slots {own : List ℚ} (misses : deadline < own.sum + p) (hp : p ≤ deadline) :
    2 ≤ (own.map (slots deadline p)).sum := by
  match own, misses with
  | [], misses =>
      rw [List.sum_nil] at misses
      linarith
  | [x], misses =>
      rw [List.sum_singleton] at misses
      rw [List.map_singleton, List.sum_singleton, slots, if_pos (by linarith)]
  | x :: y :: rest, _ =>
      have hx := one_le_slots deadline p x
      have hy := one_le_slots deadline p y
      simp only [List.map_cons, List.sum_cons]
      omega

/-- If no three jobs meet the deadline that an assignment meets, then the least loaded fork meets it
with the last of the jobs, the shortest one. -/
theorem load_add_le {own : List (List ℚ)} {jobs : List (ℚ × Fin n)} {k : Fin n} {load : ℚ}
    (count : own.length = n) (same : own.flatten.Perm (jobs.map Prod.fst))
    (least : ∀ job ∈ jobs, p ≤ job.1) (hp : 0 ≤ p) (low : ∀ l ∈ own, load ≤ l.sum)
    (meets : ∀ j, share (jobs ++ [(p, k)]) id j ≤ deadline) (large : deadline < 3 * p)
    (enough : p ≤ deadline) : load + p ≤ deadline := by
  by_contra misses
  -- all forks have two slots each, and the other assignment has at most two on each, but holds
  -- one job more
  have lower : 2 * n ≤ ((jobs.map Prod.fst).map (slots deadline p)).sum := by
    have each : ∀ s ∈ own.map fun l => (l.map (slots deadline p)).sum, 2 ≤ s := by
      intro s hs
      obtain ⟨l, hl, rfl⟩ := List.mem_map.mp hs
      exact two_le_sum_slots (by linarith [low l hl]) enough
    have hsum := List.card_nsmul_le_sum _ _ each
    rw [List.length_map, count, smul_eq_mul, mul_comm] at hsum
    rwa [← (same.map _).sum_eq, List.map_flatten, List.sum_flatten, List.map_map]
  have upper : ((jobs.map Prod.fst).map (slots deadline p)).sum + slots deadline p p ≤ 2 * n := by
    have each : ∀ j, share (jobs ++ [(p, k)]) (slots deadline p) j ≤ 2 := by
      intro j
      have hmeets := meets j
      simp only [share, id_eq] at hmeets
      have hleast : ∀ x ∈ ((jobs ++ [(p, k)]).filter (·.2 = j)).map Prod.fst, p ≤ x := by
        intro x hx
        obtain ⟨job, hjob, rfl⟩ := List.mem_map.mp hx
        rcases List.mem_append.mp (List.mem_of_mem_filter hjob) with h | h
        · exact least job h
        · rw [List.mem_singleton.mp h]
      have hslots := sum_slots_le_two hleast hmeets large hp
      rwa [List.map_map] at hslots
    have hsum := Finset.sum_le_card_nsmul Finset.univ _ 2 fun j _ => each j
    rw [sum_share, Finset.card_univ, Fintype.card_fin, smul_eq_mul, mul_comm] at hsum
    simpa [List.map_map, Function.comp_def] using hsum
  have := one_le_slots deadline p p
  omega

/-- **The bound for one step.**  If the jobs before it are no shorter, giving a job to the least
loaded of `n` forks takes at most `4/3 - 1/(3n)` times as long as any assignment takes. -/
theorem three_mul_le {own : List (List ℚ)} {jobs : List (ℚ × Fin n)} {k : Fin n} {load : ℚ}
    (count : own.length = n) (same : own.flatten.Perm (jobs.map Prod.fst))
    (least : ∀ job ∈ jobs, p ≤ job.1) (hp : 0 ≤ p) (low : ∀ l ∈ own, load ≤ l.sum)
    (meets : ∀ j, share (jobs ++ [(p, k)]) id j ≤ deadline) :
    3 * n * (load + p) ≤ (4 * n - 1) * deadline := by
  have hn : (1 : ℚ) ≤ n := by exact_mod_cast k.pos
  have enough : p ≤ deadline := by
    have hshare : 0 ≤ share jobs id k := List.sum_nonneg fun x hx => by
      obtain ⟨job, hjob, rfl⟩ := List.mem_map.mp hx
      exact hp.trans (least job (List.mem_of_mem_filter hjob))
    have := meets k
    rw [share_append] at this
    simp only [share, id_eq, decide_true, List.filter_cons_of_pos, List.filter_nil, List.map_cons,
      List.map_nil, List.sum_singleton] at this hshare
    linarith
  by_cases large : deadline < 3 * p
  · have := load_add_le count same least hp low meets large enough
    nlinarith
  · -- all loads are at least the least one, and together they are what the assignment holds
    have lower : n * load ≤ (jobs.map Prod.fst).sum := by
      have each : ∀ s ∈ own.map List.sum, load ≤ s := by
        intro s hs
        obtain ⟨l, hl, rfl⟩ := List.mem_map.mp hs
        exact low l hl
      have hsum := List.card_nsmul_le_sum _ _ each
      rw [List.length_map, count, nsmul_eq_mul] at hsum
      rwa [← same.sum_eq, List.sum_flatten]
    have upper : (jobs.map Prod.fst).sum + p ≤ n * deadline := by
      have hsum := Finset.sum_le_card_nsmul Finset.univ _ deadline fun j _ => meets j
      rw [sum_share, Finset.card_univ, Fintype.card_fin, nsmul_eq_mul] at hsum
      simpa using hsum
    nlinarith

/-! ### The bound -/

theorem share_map_fst {α : Type} (jobs : List (α × Fin n)) (weight : α → ℚ) (j : Fin n) :
    share (jobs.map (Prod.map weight id)) id j = share jobs weight j := by
  rw [share_eq_sum_ite, share_eq_sum_ite, List.map_map]
  rfl

/-- The bound of `Plan.schedule` while buckets are given out. -/
def Bounded (n : ℕ) (front : List Bucket) (forks : List Fork) : Prop :=
  (front.Pairwise fun a b => b.cost ≤ a.cost) → (∀ f ∈ forks, f.Exact) →
    ∀ (jobs : List (Bucket × Fin n)) (deadline : ℚ), jobs.map Prod.fst = front →
      (∀ j, share jobs Bucket.seconds j ≤ deadline) →
        ∀ f ∈ forks, 3 * n * (f.buckets.map Bucket.seconds).sum ≤ (4 * n - 1) * deadline

/-- The bound holds of the fork that takes a bucket. -/
theorem three_mul_push_le {forks : List Fork} {jobs : List (Bucket × Fin n)} {b : Bucket}
    {k : Fin n} {i : ℕ} {f : Fork} {deadline : ℚ}
    (hgiven : Allocation.Given (Fork.fresh n) (jobs.map Prod.fst) forks)
    (least : ∀ job ∈ jobs, b.seconds ≤ job.1.seconds) (hexact : ∀ f ∈ forks, f.Exact)
    (hf : FirstLeast forks i f)
    (meets : ∀ j, share (jobs ++ [(b, k)]) Bucket.seconds j ≤ deadline) :
    3 * n * ((f.push b).buckets.map Bucket.seconds).sum ≤ (4 * n - 1) * deadline := by
  have count : (forks.map fun g => g.buckets.map Bucket.seconds).length = n := by
    rw [List.length_map, hgiven.length, Fork.length_fresh]
  have same : (forks.map fun g => g.buckets.map Bucket.seconds).flatten.Perm
      ((jobs.map (Prod.map Bucket.seconds id)).map Prod.fst) := by
    have hperm := hgiven.perm.map Bucket.seconds
    rw [Fork.flatMap_fresh, List.nil_append, List.map_flatMap, List.flatMap_def,
      List.map_map] at hperm
    rwa [List.map_map]
  have least' : ∀ job ∈ jobs.map (Prod.map Bucket.seconds id), b.seconds ≤ job.1 := by
    rintro _ hjob
    obtain ⟨job, hmem, rfl⟩ := List.mem_map.mp hjob
    exact least job hmem
  have low : ∀ l ∈ forks.map fun g => g.buckets.map Bucket.seconds,
      (f.buckets.map Bucket.seconds).sum ≤ l.sum := by
    rintro _ hl
    obtain ⟨g, hg, rfl⟩ := List.mem_map.mp hl
    have hle := hf.least g hg
    rwa [(hexact f (List.mem_of_getElem? hf.at_index)).exact_load, (hexact g hg).exact_load,
      WithTop.coe_le_coe] at hle
  have meets' : ∀ j, share (jobs.map (Prod.map Bucket.seconds id) ++ [(b.seconds, k)]) id j ≤
      deadline := by
    intro j
    have hshare := share_map_fst (jobs ++ [(b, k)]) Bucket.seconds j
    rw [List.map_append] at hshare
    exact hshare.trans_le (meets j)
  have hbound := three_mul_le count same least' b.seconds_nonneg low meets'
  rwa [show (f.push b).buckets = f.buckets ++ [b] from rfl, List.map_append, List.sum_append,
    List.map_singleton, List.sum_singleton]

/-- One step keeps the bound. -/
theorem Bounded.step {front : List Bucket} {forks : List Fork} {b : Bucket} {i : ℕ} {f : Fork}
    (h : Bounded n front forks) (hgiven : Allocation.Given (Fork.fresh n) front forks)
    (hf : FirstLeast forks i f) : Bounded n (front ++ [b]) (forks.set i (f.push b)) := by
  intro sorted hexact jobs deadline hjobs meets g hg
  obtain ⟨sortedFront, -, before⟩ := List.pairwise_append.mp sorted
  obtain ⟨jobs, last, rfl, rfl, hlast⟩ := List.map_eq_append_iff.mp hjobs
  obtain ⟨⟨c, k⟩, rfl, hc⟩ := List.map_eq_singleton_iff.mp hlast
  obtain rfl : c = b := hc
  have hforks := exact_of_set hf.at_index hexact
  -- an old fork has the bound of the jobs before, the one that takes the job has that of the step
  rcases List.mem_or_eq_of_mem_set hg with hg | rfl
  · refine h sortedFront hforks jobs deadline rfl (fun j => le_trans ?_ (meets j)) g hg
    rw [share_append]
    refine le_add_of_nonneg_right (List.sum_nonneg fun x hx => ?_)
    obtain ⟨job, -, rfl⟩ := List.mem_map.mp hx
    exact job.1.seconds_nonneg
  · refine three_mul_push_le hgiven (fun job hjob => ?_) hforks hf meets
    have hpush := hexact _ (List.mem_set (List.getElem?_eq_some_iff.mp hf.at_index).1 _)
    have hcost := hpush.exact_cost (b := c) (by simp [Fork.push])
    -- the job has been given to a fork, so its cost is finite and the order of costs is kept
    have hfront : job.1 ∈ forks.flatMap Fork.buckets := by
      rw [hgiven.perm.mem_iff, Fork.flatMap_fresh, List.nil_append]
      exact List.mem_map_of_mem hjob
    obtain ⟨e, he, hmem⟩ := List.mem_flatMap.mp hfront
    have hle := before job.1 (List.mem_map_of_mem hjob) c (List.mem_singleton_self c)
    rwa [Bucket.cost_le_iff, hcost, (hforks e he).exact_cost hmem, WithTop.coe_le_coe] at hle

/-- The bound holds of every run from fresh forks. -/
theorem bounded_run (hn : 0 < n) (buckets : List Bucket) :
    Bounded n buckets (Allocation.run (Fork.fresh n) buckets).forks := by
  have init : Bounded n [] (Fork.fresh n) := by
    intro _ _ jobs deadline _ meets f hf
    obtain ⟨i, -, rfl⟩ := List.mem_map.mp hf
    have hn' : (1 : ℚ) ≤ n := by exact_mod_cast hn
    have : 0 ≤ deadline := by
      refine le_trans (List.sum_nonneg fun x hx => ?_) (meets ⟨0, hn⟩)
      obtain ⟨job, -, rfl⟩ := List.mem_map.mp hx
      exact job.1.seconds_nonneg
    have hempty : (((Fork.empty i).buckets).map Bucket.seconds).sum = 0 := rfl
    rw [hempty, mul_zero]
    exact mul_nonneg (by linarith) this
  -- a step needs to know what the forks hold, so this is carried along with the bound
  have hrun := Allocation.run_induction (motive := fun front forks =>
      Allocation.Given (Fork.fresh n) front forks ∧ Bounded n front forks)
    (Fork.fresh_ne_nil hn) (fun _ => Fork.phase_of_mem_fresh) ⟨.refl _, init⟩
    (fun front b forks i f h hf => ⟨h.1.step b hf.at_index, h.2.step h.1 hf⟩) buckets
  exact hrun.2.2

/-- The greatest of some loads is one of them. -/
theorem greatest?_mem {loads : List Float} {load : Float} (h : greatest? loads = some load) :
    load ∈ loads := by
  cases loads with
  | nil => cases h
  | cons x rest =>
      obtain rfl := Option.some_inj.mp h
      clear h
      induction rest using List.reverseRecOn with
      | nil => simp
      | append_singleton rest y ih =>
          rw [List.foldl_append, List.foldl_cons, List.foldl_nil]
          split
          · simp
          · rcases List.mem_cons.mp ih with h | h
            · exact List.mem_cons.mpr (.inl h)
            · exact List.mem_cons_of_mem _ (List.mem_append_left _ h)

/-- The makespan of a plan with forks is the load of one of them. -/
theorem Plan.exists_makespan {p : Plan} (h : p.forks ≠ []) :
    ∃ f ∈ p.forks, p.makespan = .ok f.load := by
  unfold Plan.makespan
  cases hgreatest : greatest? p.loads with
  | none =>
      unfold Plan.loads at hgreatest
      cases hforks : p.forks with
      | nil => exact absurd hforks h
      | cons f rest => rw [hforks] at hgreatest; cases hgreatest
  | some load =>
      obtain ⟨f, hf, rfl⟩ := List.mem_map.mp (greatest?_mem hgreatest)
      exact ⟨f, hf, rfl⟩

/-- **A schedule is at most `4/3 - 1/(3n)` times as long as any other assignment of its buckets**
to as many forks, if no load has been rounded.  It is an assignment of these buckets itself. -/
theorem Plan.three_mul_makespan_le {count : ℕ} (hcount : 0 < count) (groups : List Group)
    (records : List TimingRecord)
    (hexact : ∀ f ∈ (Plan.schedule count groups records).1.forks, f.Exact)
    (other : Fin (Bucket.build groups records).1.length → Fin count) :
    (Plan.schedule count groups records).1.Holds count (Bucket.build groups records).1 ∧
      ∃ load m, (Plan.schedule count groups records).1.makespan = .ok load ∧
        exact load = (m : ℚ) ∧ 3 * count * m ≤ (4 * count - 1) *
          Finset.univ.sup' ⟨⟨0, hcount⟩, Finset.mem_univ _⟩ fun j =>
            ∑ i with other i = j, (Bucket.build groups records).1[i].seconds := by
  have hforks := Plan.forks_schedule hcount groups records
  have hne : (Plan.schedule count groups records).1.forks ≠ [] := by
    rw [← List.length_pos_iff, Plan.length_forks_schedule hcount groups records]
    exact hcount
  obtain ⟨f, hf, hmakespan⟩ := Plan.exists_makespan hne
  refine ⟨Plan.holds_schedule hcount groups records, f.load, _, hmakespan,
    (hexact f hf).exact_load, ?_⟩
  rw [hforks] at hf hexact
  obtain ⟨g, hg, rfl⟩ := List.mem_map.mp hf
  have hexact' : ∀ g ∈ (Allocation.run (Fork.fresh count) (givenOut groups records)).forks,
      g.Exact := fun g hg => hexact g.freeze (List.mem_map_of_mem hg)
  -- the other assignment, told by positions, is put into the order of giving out
  obtain ⟨jobs, hjobs⟩ : ∃ jobs, jobs = List.ofFn fun i =>
    ((Bucket.build groups records).1[i], other i) := ⟨_, rfl⟩
  have hfst : jobs.map Prod.fst = (Bucket.build groups records).1 := by
    rw [hjobs, List.map_ofFn]
    exact List.ofFn_getElem
  have hsorted : (jobs.mergeSort fun a b => decide (b.1.cost ≤ a.1.cost)).map Prod.fst =
      givenOut groups records := by
    have hmap := List.map_mergeSort (r := fun a b : Bucket × Fin count => decide (b.1.cost ≤ a.1.cost))
      (s := fun a b => decide (b.cost ≤ a.cost)) (f := Prod.fst) (l := jobs) fun _ _ _ _ => rfl
    rw [hmap, hfst]
    rfl
  refine bounded_run hcount (givenOut groups records) (Bucket.pairwise_byCost _) hexact' _ _ hsorted
    (fun j => ?_) g hg
  rw [share_perm (List.mergeSort_perm _ _), hjobs, share_ofFn]
  exact Finset.le_sup' (fun j => ∑ i with other i = j, (Bucket.build groups records).1[i].seconds)
    (Finset.mem_univ j)

/-- Two groups of a small suite. -/
def smallGroups : List Group :=
  [⟨"fast*", .name "unit", by decide⟩, ⟨"slow*", .number 7, by decide⟩]

/-- An earlier run of the small suite. -/
def smallHistory : List TimingRecord :=
  [⟨"slow1", 30.0, by decide +kernel, by decide +kernel⟩,
    ⟨"fast1", 12.0, by decide +kernel, by decide +kernel⟩]

/-- The small suite, compared with running everything on the first of two forks. -/
theorem Plan.three_mul_makespan_le_small :
    0 < 2 ∧ (∀ f ∈ (schedule 2 smallGroups smallHistory).1.forks, f.Exact) ∧
      (schedule 2 smallGroups smallHistory).1.Holds 2 (Bucket.build smallGroups smallHistory).1 ∧
      ∃ load m, (schedule 2 smallGroups smallHistory).1.makespan = .ok load ∧
        exact load = (m : ℚ) ∧ 3 * (2 : ℕ) * m ≤ (4 * (2 : ℕ) - 1) *
          Finset.univ.sup' ⟨⟨0, by decide⟩, Finset.mem_univ _⟩ fun j : Fin 2 =>
            ∑ i : Fin (Bucket.build smallGroups smallHistory).1.length with 0 = j,
              (Bucket.build smallGroups smallHistory).1[i].seconds := by
  have hexact : ∀ f ∈ (schedule 2 smallGroups smallHistory).1.forks, f.Exact := by
    refine exact_of_whole two_pos (fun r => if r.name = "slow1" then 30 else 12) ?_ ?_
    · have hslow : Double.ofFloat 30.0 = .finite false (30 * 2 ^ 48) (-48) := by decide +kernel
      have hfast : Double.ofFloat 12.0 = .finite false (12 * 2 ^ 49) (-49) := by decide +kernel
      intro r hr
      rcases List.mem_pair.mp hr with rfl | rfl
      · norm_num [exact, hslow, Double.magnitude]
      · have hname : "fast1" ≠ "slow1" := by decide
        norm_num [exact, hfast, Double.magnitude, hname]
    · refine lt_of_le_of_lt (List.sum_le_card_nsmul _ 42 fun s hs => ?_) ?_
      · obtain ⟨b, hb, rfl⟩ := List.mem_map.mp hs
        exact (Bucket.wholeEstimate_matched_le _ hb).trans (by decide)
      · decide
  exact ⟨two_pos, hexact, three_mul_makespan_le two_pos smallGroups smallHistory hexact fun _ => 0⟩

end SuiteBalance
