import Mathlib
import SuiteBalance.Proofs.Schedule.Lockstep
import SuiteBalance.Proofs.Schedule.Tasks

/-!
# Proofs — Schedule — records and groups in another order

A schedule does not depend on the order of the timing records, if records with one name have one
duration, and its loads do not depend on the order in which the groups were discovered.

* `TimingRecord.Alike`, `Bucket.Alike`, `Plan.Alike`: what compares equal, although a duration may be
  the one zero here and the other one there.
* **`Plan.alike_schedule`**: records in another order make an alike plan.
* `Plan.schedule_eq_of_perm`: they make the same plan if records with one name are the same.
* **`Plan.loads_schedule_of_perm`**: groups in another order, and of other tasks, make the same loads.
-/

namespace SuiteBalance

open Number

/-! ### Records and buckets that are alike -/

/-- Records with one name whose durations compare equal, as the two zeros do. -/
structure TimingRecord.Alike (r s : TimingRecord) : Prop where
  name : r.name = s.name
  duration : (r.duration == s.duration) = true

/-- Buckets of one group and one cost whose records are alike, one by one. -/
structure Bucket.Alike (b c : Bucket) : Prop where
  group : b.group = c.group
  cost : b.cost = c.cost
  matched : List.Forall₂ TimingRecord.Alike b.matched c.matched

theorem Timing.estimate_congr {records records' : List TimingRecord}
    (h : List.Forall₂ TimingRecord.Alike records records') : estimate records = estimate records' := by
  have hcosts : (records.map fun r => atLeastCost r.duration) =
      records'.map fun r => atLeastCost r.duration :=
    forall₂_map_eq_iff.mp (h.imp fun r _ hrs => atLeastCost_congr r.nonneg_duration hrs.duration)
  rw [estimate_eq, estimate_eq, hcosts]

theorem Bucket.alike_ofMatched (g : Group) {records records' : List TimingRecord}
    (h : List.Forall₂ TimingRecord.Alike records records') :
    (ofMatched g records).Alike (ofMatched g records') :=
  ⟨rfl, Timing.estimate_congr h, h⟩

/-- Records in another order make buckets that are alike. -/
theorem Bucket.alike_build (groups : List Group) {records records' : List TimingRecord}
    (hperm : records.Perm records')
    (same : ∀ r ∈ records, ∀ s ∈ records, r.name = s.name → (r.duration == s.duration) = true) :
    List.Forall₂ Alike (build groups records).1 (build groups records').1 := by
  have hhistory := History.forall₂_ofList hperm (R := TimingRecord.Alike)
    fun r hr s hs hname => ⟨hname, same r hr s hs hname⟩
  simp only [build]
  rw [List.forall₂_map_left_iff, List.forall₂_map_right_iff, List.forall₂_same]
  exact fun g _ => alike_ofMatched g
    (History.forall₂_startingWith (fun _ _ h => h.name) hhistory g.stem)

/-! ### Plans that are alike -/

/-- Plans whose forks hold buckets that are alike.  They have the same loads and tasks and give the
same answers. -/
structure Plan.Alike (p p' : Plan) : Prop where
  forks : List.Forall₂ (Fork.Related Bucket.Alike) p.forks p'.forks
  loads : p.loads = p'.loads
  makespan : p.makespan = p'.makespan
  tasks : p.tasks = p'.tasks
  testsFor : ∀ index t, p.testsFor index t = p'.testsFor index t

namespace Fork.Related

variable {R : Bucket → Bucket → Prop} {f f' : Fork}

theorem map_group (hgroup : ∀ b c, R b c → b.group = c.group) (h : f.Related R f') :
    f.buckets.map Bucket.group = f'.buckets.map Bucket.group :=
  forall₂_map_eq_iff.mp (h.buckets.imp hgroup)

theorem isFrozen (h : f.Related R f') (hf : f.isFrozen = true) : f'.isFrozen = true := by
  rw [← hf, Fork.isFrozen, Fork.isFrozen, h.phase]

theorem taskList_eq (hgroup : ∀ b c, R b c → b.group = c.group) (h : f.Related R f')
    (hf : f.isFrozen = true) : f.taskList = f'.taskList := by
  have htasks (f : Fork) : f.buckets.map Bucket.task = (f.buckets.map Bucket.group).map Group.task :=
    List.map_map.symm
  rw [Fork.taskList_eq hf, Fork.taskList_eq (h.isFrozen hf), htasks, htasks, h.map_group hgroup]

theorem patternsOf_eq (hgroup : ∀ b c, R b c → b.group = c.group) (h : f.Related R f')
    (hf : f.isFrozen = true) (t : Task) :
    f.patternsOf t = f'.patternsOf t := by
  have hpatterns {f : Fork} (hf : f.isFrozen = true) : f.patternsOf t =
      ((f.buckets.map Bucket.group).filter (·.task = t)).map Group.pattern := by
    rw [Fork.patternsOf_eq hf, List.filter_map, List.map_map]
    rfl
  rw [hpatterns hf, hpatterns (h.isFrozen hf), h.map_group hgroup]

end Fork.Related

namespace Plan

/-- **Plans whose forks hold buckets of one group and one cost** have the same loads and tasks and
give the same answers. -/
theorem answers_of_related {R : Bucket → Bucket → Prop} (hgroup : ∀ b c, R b c → b.group = c.group)
    (hcost : ∀ b c, R b c → b.cost = c.cost) {p p' : Plan}
    (h : List.Forall₂ (Fork.Related R) p.forks p'.forks) :
    p.loads = p'.loads ∧ p.makespan = p'.makespan ∧ p.tasks = p'.tasks ∧
      ∀ index t, p.testsFor index t = p'.testsFor index t := by
  have hloads : p.loads = p'.loads := map_load_of_related hcost h
  have hfrozen := (List.forall₂_and_left p.forks p'.forks).mpr ⟨p.frozen, h⟩
  refine ⟨hloads, makespan_congr hloads, ?_, fun index t => ?_⟩
  · have htasks := forall₂_map_eq_iff.mp (hfrozen.imp fun _ _ hf => hf.2.taskList_eq hgroup hf.1)
    rw [tasks, tasks, List.flatMap_def, List.flatMap_def, htasks]
  · have hpatterns :=
      forall₂_map_eq_iff.mp (hfrozen.imp fun _ _ hf => hf.2.patternsOf_eq hgroup hf.1 t)
    rw [testsFor, testsFor, worker, worker, ← atWorker_map, ← atWorker_map, hpatterns]

theorem alike_of_forks {p p' : Plan}
    (h : List.Forall₂ (Fork.Related Bucket.Alike) p.forks p'.forks) : p.Alike p' := by
  obtain ⟨hloads, hmakespan, htasks, hanswers⟩ :=
    answers_of_related (fun _ _ hb => hb.group) (fun _ _ hb => hb.cost) h
  exact ⟨h, hloads, hmakespan, htasks, hanswers⟩

variable {count : ℕ} {records records' : List TimingRecord}

/-! ### The order of the records -/

/-- **Records in another order make an alike plan**, if records with one name have one duration. -/
theorem alike_schedule (hcount : 0 < count) (groups : List Group) (hperm : records.Perm records')
    (same : ∀ r ∈ records, ∀ s ∈ records, r.name = s.name → (r.duration == s.duration) = true) :
    (schedule count groups records).1.Alike (schedule count groups records').1 := by
  have hcost : ∀ b c, Bucket.Alike b c → b.cost = c.cost := fun _ _ hb => hb.cost
  exact alike_of_forks (related_schedule hcount hcost
    (Bucket.forall₂_byCost hcost (Bucket.alike_build groups hperm same)))

/-- Records in another order make the same plan, if records with one name are the same. -/
theorem schedule_eq_of_perm (count : ℕ) (groups : List Group) (hperm : records.Perm records')
    (same : ∀ r ∈ records, ∀ s ∈ records, r.name = s.name → r.duration = s.duration) :
    schedule count groups records = schedule count groups records' := by
  have hlists := History.forall₂_ofList hperm (R := Eq) fun r hr s hs hname => by
    obtain ⟨name, duration, _, _⟩ := r
    obtain ⟨name', duration', _, _⟩ := s
    obtain rfl : name = name' := hname
    obtain rfl : duration = duration' := same _ hr _ hs rfl
    rfl
  rw [List.forall₂_eq_eq_eq, Array.toList_inj] at hlists
  rw [schedule, schedule, Bucket.build, Bucket.build, History.eq_of_records hlists]

/-! ### The order of the groups -/

theorem map_cost_build (groups : List Group) (records : List TimingRecord) :
    (Bucket.build groups records).1.map Bucket.cost = (groups.map Group.pattern).map fun pattern =>
      Timing.estimate ((History.ofList records).startingWith
        (String.ofList pattern.toList.dropLast)) := by
  simp only [Bucket.build, List.map_map]
  rfl

/-- **Groups in another order, and of other tasks, make the same loads.** -/
theorem loads_schedule_of_perm (hcount : 0 < count) {groups groups' : List Group}
    (hperm : (groups.map Group.pattern).Perm (groups'.map Group.pattern))
    (records : List TimingRecord) :
    (schedule count groups records).1.loads = (schedule count groups' records).1.loads := by
  have hcosts : ((Bucket.build groups records).1.map Bucket.cost).Perm
      ((Bucket.build groups' records).1.map Bucket.cost) := by
    rw [map_cost_build, map_cost_build]
    exact hperm.map _
  have hgiven := forall₂_map_eq_iff.mpr (Bucket.map_cost_byCost hcosts)
  exact map_load_of_related (fun _ _ h => h) (related_schedule hcount (fun _ _ h => h) hgiven)

end Plan

end SuiteBalance
