import SuiteBalance.Fork

/-!
# Plans

A **`Plan`** is a list of frozen forks.  It answers which patterns a task runs on which fork, and
how long the slowest fork will take.
-/

namespace SuiteBalance

/-- Frozen forks, by position. -/
structure Plan where
  forks : List Fork
  frozen : ∀ f ∈ forks, f.isFrozen = true

/-- Why a plan cannot be made or cannot answer. -/
inductive PlanError where
  | unfrozen (indices : List Nat)
  | noWorker (index : Int) (count : Nat)
  | noForks
  | unwritable
  deriving DecidableEq, Repr

/-- The words for a plan that cannot be made or cannot answer. -/
def PlanError.message : PlanError → String
  | .unfrozen indices =>
    "containers [" ++ ", ".intercalate (indices.map toString) ++
      "] must be frozen before building a plan"
  | .noWorker index count => s!"worker_index must be in [0, {count}), got {index}"
  | .noForks => "max() arg is an empty sequence"
  | .unwritable => Number.unwritableMessage

/-- The element at an index that may be out of range on either side. -/
def atWorker {α : Type} (workers : List α) (index : Int) : Except PlanError α :=
  match if index < 0 then none else workers[index.toNat]? with
  | some worker => .ok worker
  | none => .error (.noWorker index workers.length)

/-- The greatest of some loads, the first of several; none without loads. -/
def greatest? : List Float → Option Float
  | [] => none
  | x :: rest => some (rest.foldl (fun best y => if best < y then y else best) x)

namespace Plan

/-- The plan of forks that are all frozen. -/
def ofForks (forks : List Fork) : Except PlanError Plan :=
  if h : ∀ f ∈ forks, f.isFrozen = true then .ok ⟨forks, h⟩
  else .error (.unfrozen ((forks.filter (!·.isFrozen)).map Fork.index))

/-- The number of forks. -/
def forkCount (p : Plan) : Nat := p.forks.length

/-- The fork at an index. -/
def worker (p : Plan) (index : Int) : Except PlanError Fork := atWorker p.forks index

/-- The patterns that a task runs on a fork. -/
def testsFor (p : Plan) (index : Int) (t : Task) : Except PlanError (List String) :=
  (p.worker index).map (·.patternsOf t)

/-- The load of each fork. -/
def loads (p : Plan) : List Float := p.forks.map Fork.load

/-- The load of the slowest fork. -/
def makespan (p : Plan) : Except PlanError Float :=
  match greatest? p.loads with
  | some load => .ok load
  | none => .error .noForks

/-- The tasks with a bucket on some fork, in the order in which the forks name them. -/
def tasks (p : Plan) : List Task := (p.forks.flatMap Fork.taskList).eraseDups

/-- Whether all of these tasks can be written. -/
def isWritable (p : Plan) : Bool := p.tasks.all Task.isWritable

end Plan

end SuiteBalance
