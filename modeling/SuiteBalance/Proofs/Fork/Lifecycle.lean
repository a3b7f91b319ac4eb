import Mathlib
import SuiteBalance.Proofs.Schedule.Run
import SuiteBalance.Proofs.Schedule.Tasks

/-!
# Proofs — Fork — the life of a fork

A fork may be given buckets, be frozen and be asked questions in any order and any number of times.
What it shows at any point is told by the events so far: the buckets that it took, and whether it
has been frozen.

* `Fork.Query`, `Fork.Call`, `Fork.perform`: what can be done with a fork, and what comes of it.
* `Fork.Life`: a fork in use, with the events of its life.
* `Fork.Life.Lawful`: what a fork shows is what its events tell.
* `Fork.Life.Invariant.perform`, **`Fork.lawful_run`**: each call keeps it, so it always holds.
-/

namespace SuiteBalance

namespace Fork

/-! ### Calls -/

/-- What a fork can be asked. -/
inductive Query where
  | tasks
  | bucketsFor (t : Task)
  | testsFor (t : Task)

/-- What an answer consists of. -/
def Query.Answer : Query → Type
  | .tasks => List Task
  | .bucketsFor _ => List Bucket
  | .testsFor _ => List String

/-- What there is to answer about some buckets: their distinct tasks in the order of their first
buckets, or the buckets of a task in their order. -/
def Query.about (buckets : List Bucket) : (q : Query) → q.Answer
  | .tasks => (buckets.map Bucket.task).eraseDups
  | .bucketsFor t => buckets.filter (·.task = t)
  | .testsFor t => (buckets.filter (·.task = t)).map Bucket.pattern

/-- What a fork answers. -/
def answer (f : Fork) : (q : Query) → Except ForkError q.Answer
  | .tasks => f.tasks
  | .bucketsFor t => f.bucketsFor t
  | .testsFor t => f.testsFor t

/-- What can be done with a fork. -/
inductive Call where
  | add (b : Bucket)
  | freeze
  | ask (q : Query)

/-- A call and what came of it. -/
inductive Event where
  | added (b : Bucket)
  | refused (b : Bucket) (e : ForkError)
  | frozen
  | answered (q : Query) (answer : Except ForkError q.Answer)

/-- The call of an event. -/
def Event.call : Event → Call
  | .added b => .add b
  | .refused b _ => .add b
  | .frozen => .freeze
  | .answered q _ => .ask q

/-- The buckets that came to a fork. -/
def Event.taken : Event → List Bucket
  | .added b => [b]
  | _ => []

/-- Does something with a fork. -/
def perform (f : Fork) : Call → Event × Fork
  | .add b =>
    match f.add b with
    | .error e => (.refused b e, f)
    | .ok f' => (.added b, f')
  | .freeze => (.frozen, f.freeze)
  | .ask q => (.answered q (f.answer q), f)

/-- A fork in use, and what has happened to it. -/
structure Life where
  fork : Fork
  events : List Event := []

namespace Life

/-- The buckets that a fork took. -/
def taken (l : Life) : List Bucket := l.events.flatMap Event.taken

/-- The life of a fork goes on by a call. -/
def perform (l : Life) (call : Call) : Life where
  fork := (l.fork.perform call).2
  events := l.events ++ [(l.fork.perform call).1]

/-- The life of a fork goes on by one call after the other. -/
def run (l : Life) (calls : List Call) : Life := calls.foldl perform l

end Life

/-- The groups that a frozen fork answers for its tasks part its buckets. -/
def Parted (f : Fork) : Prop :=
  ∃ tasks groups, f.tasks = .ok tasks ∧ tasks.Nodup ∧ tasks.mapM f.bucketsFor = .ok groups ∧
    (∀ group ∈ groups, group ≠ []) ∧ groups.flatten.Perm f.buckets

/-- What a fork shows is what its events tell.  Its buckets are those that it took, and its load is
their cost from left to right.  Before it is frozen it takes every bucket and refuses every question;
from then on it refuses every bucket, answers about those that it took, and no call changes it. -/
structure Life.Lawful (index : ℕ) (l : Life) : Prop where
  index_eq : l.fork.index = index
  buckets_eq : l.fork.buckets = l.taken
  load_eq : l.fork.load = l.taken.foldl (fun load b => load + b.cost) 0.0
  before : .frozen ∉ l.events →
    (∀ b, l.fork.perform (.add b) = (.added b, l.fork.push b)) ∧
      ∀ q, l.fork.perform (.ask q) = (.answered q (.error (.notFrozen index)), l.fork)
  behind : .frozen ∈ l.events →
    (∀ b, l.fork.perform (.add b) = (.refused b (.frozen index b.pattern), l.fork)) ∧
      l.fork.perform .freeze = (.frozen, l.fork) ∧
      (∀ q, l.fork.perform (.ask q) = (.answered q (.ok (q.about l.taken)), l.fork)) ∧
      l.fork.Parted

/-! ### One call -/

variable {f : Fork}

/-- An answer counts only if the fork is frozen. -/
theorem whenFrozen_congr {α : Type} {a b : α} (h : f.isFrozen = true → a = b) :
    f.whenFrozen a = f.whenFrozen b := by
  unfold whenFrozen
  split_ifs with hfrozen
  · rw [h hfrozen]
  · rfl

theorem answer_eq (f : Fork) (q : Query) : f.answer q = f.whenFrozen (q.about f.buckets) := by
  cases q with
  | tasks => exact whenFrozen_congr fun h => taskList_eq h
  | bucketsFor t => exact whenFrozen_congr fun h => bucketsOf_eq h t
  | testsFor t => exact whenFrozen_congr fun h => patternsOf_eq h t

theorem whenFrozen_of_accumulating (h : f.phase = .accumulating) {α : Type} (a : α) :
    f.whenFrozen a = .error (.notFrozen f.index) := by
  have hfrozen : f.isFrozen = false := by rw [isFrozen, h]; rfl
  rw [whenFrozen, hfrozen]
  rfl

theorem whenFrozen_of_frozen (h : f.phase = .frozen) {α : Type} (a : α) : f.whenFrozen a = .ok a := by
  have hfrozen : f.isFrozen = true := by rw [isFrozen, h]; rfl
  rw [whenFrozen, if_pos hfrozen]

theorem perform_add (f : Fork) (b : Bucket) :
    f.perform (.add b) = match f.phase with
      | .frozen => (.refused b (.frozen f.index b.pattern), f)
      | .accumulating => (.added b, f.push b) := by
  rw [perform, add_eq]
  cases f.phase with
  | frozen => rfl
  | accumulating => rfl

theorem call_perform (f : Fork) (call : Call) : (f.perform call).1.call = call := by
  cases call with
  | add b =>
      rw [perform_add]
      cases f.phase with
      | frozen => rfl
      | accumulating => rfl
  | freeze => rfl
  | ask q => rfl

theorem freeze_of_frozen (h : f.phase = .frozen) : f.freeze = f :=
  eq_of_parts rfl h.symm rfl

/-- **All that a call can do**: the index stays, the buckets grow by one that is taken, and the fork
is frozen if it has been frozen. -/
theorem perform_effect (f : Fork) (call : Call) :
    (f.perform call).2.index = f.index ∧
      (f.perform call).2.buckets = f.buckets ++ (f.perform call).1.taken ∧
      ((f.perform call).2.phase = .frozen ↔ f.phase = .frozen ∨ .frozen = (f.perform call).1) := by
  cases call with
  | add b =>
      rw [perform_add]
      cases hphase : f.phase with
      | frozen => exact ⟨rfl, (List.append_nil _).symm, by simp [hphase]⟩
      | accumulating => exact ⟨rfl, rfl, by simp [push, hphase]⟩
  | freeze => exact ⟨rfl, (List.append_nil _).symm, by simp [perform, freeze]⟩
  | ask q => exact ⟨rfl, (List.append_nil _).symm, by simp [perform]⟩

/-- A frozen fork parts its buckets by their tasks. -/
theorem parted_of_frozen (h : f.phase = .frozen) : f.Parted := by
  have hgroups : f.bucketsFor = fun t => pure (f.bucketsOf t) :=
    funext fun t => whenFrozen_of_frozen h (f.bucketsOf t)
  have hfrozen : f.isFrozen = true := beq_iff_eq.mpr h
  refine ⟨f.taskList, f.taskList.map f.bucketsOf, whenFrozen_of_frozen h _, ?_, ?_, ?_, ?_⟩
  · rw [taskList_eq hfrozen]
    exact nodup_eraseDups _
  · rw [hgroups]
    exact List.mapM_pure
  · intro group hgroup
    obtain ⟨t, ht, rfl⟩ := List.mem_map.mp hgroup
    obtain ⟨b, hb, hbt⟩ := (mem_taskList hfrozen).mp ht
    rw [bucketsOf_eq hfrozen]
    exact List.ne_nil_of_mem (List.mem_filter.mpr ⟨hb, decide_eq_true hbt⟩)
  · rw [← List.flatMap_def]
    exact perm_bucketsOf hfrozen

/-! ### The invariant -/

namespace Life

/-- A fork keeps its index, holds the buckets that it took, and is frozen once it has been frozen. -/
structure Invariant (index : ℕ) (l : Life) : Prop where
  index_eq : l.fork.index = index
  buckets_eq : l.fork.buckets = l.taken
  phase_iff : l.fork.phase = .frozen ↔ .frozen ∈ l.events

variable {index : ℕ} {l : Life}

/-- What a fork shows follows from the invariant. -/
theorem Invariant.lawful (h : l.Invariant index) : l.Lawful index where
  index_eq := h.index_eq
  buckets_eq := h.buckets_eq
  load_eq := by
    rw [← h.buckets_eq]
    exact l.fork.load_eq
  before hevents := by
    have hphase : l.fork.phase = .accumulating := by
      cases hphase : l.fork.phase with
      | accumulating => rfl
      | frozen => exact absurd (h.phase_iff.mp hphase) hevents
    refine ⟨fun b => ?_, fun q => ?_⟩
    · rw [perform_add, hphase]
    · rw [Fork.perform, answer_eq, whenFrozen_of_accumulating hphase, h.index_eq]
  behind hevents := by
    have hphase := h.phase_iff.mpr hevents
    refine ⟨fun b => ?_, ?_, fun q => ?_, parted_of_frozen hphase⟩
    · rw [perform_add, hphase, h.index_eq]
    · rw [Fork.perform, freeze_of_frozen hphase]
    · rw [Fork.perform, answer_eq, whenFrozen_of_frozen hphase, h.buckets_eq]

/-- **Each call keeps the invariant.** -/
theorem Invariant.perform (h : l.Invariant index) (call : Call) :
    (l.perform call).Invariant index := by
  obtain ⟨hindex, hbuckets, hphase⟩ := l.fork.perform_effect call
  refine ⟨hindex.trans h.index_eq, hbuckets.trans ?_, hphase.trans ?_⟩
  · rw [h.buckets_eq, taken, taken, Life.perform, List.flatMap_append, List.flatMap_singleton]
  · rw [h.phase_iff, Life.perform, List.mem_append, List.mem_singleton]

/-! ### Runs -/

theorem Invariant.run (h : l.Invariant index) (calls : List Call) : (l.run calls).Invariant index := by
  induction calls generalizing l with
  | nil => exact h
  | cons call rest ih => exact ih (h.perform call)

/-- A life has one event for each call. -/
theorem map_call_run (l : Life) (calls : List Call) :
    (l.run calls).events.map Event.call = l.events.map Event.call ++ calls := by
  induction calls generalizing l with
  | nil => exact (List.append_nil _).symm
  | cons call rest ih =>
      have hrun : l.run (call :: rest) = (l.perform call).run rest := rfl
      rw [hrun, ih, perform, List.map_append, List.map_singleton, call_perform, List.append_assoc]
      rfl

end Life

/-- **Whatever is done with a new fork, it shows what its events tell**, after each call. -/
theorem lawful_run (index : ℕ) :
    make (index : ℤ) = .ok (empty index) ∧
      ∀ calls, ((Life.mk (empty index) []).run calls).events.map Event.call = calls ∧
        ((Life.mk (empty index) []).run calls).Lawful index := by
  have hinit : (Life.mk (empty index) []).Invariant index :=
    ⟨rfl, rfl, fun h => (by cases h), fun h => absurd h List.not_mem_nil⟩
  exact ⟨if_pos (Int.natCast_nonneg index), fun calls =>
    ⟨Life.map_call_run _ calls, (hinit.run calls).lawful⟩⟩

-- the number 7 and the name 7 are different tasks
example : (Query.testsFor (.number 7)).about
    [Bucket.ofMatched ⟨"fast*", .name "7", by decide⟩ [],
      Bucket.ofMatched ⟨"slow*", .number 7, by decide⟩ []] = ["slow*"] := rfl

end Fork

end SuiteBalance
