import SuiteBalance.Bucket
import SuiteBalance.Entries

/-!
# Forks

A **`Fork`** is one of the processes that run tests in parallel.  It accumulates buckets until it
is frozen; from then on it takes no more and can be asked which buckets, and so which patterns, a
task runs on it.
-/

namespace SuiteBalance

/-- Whether a fork still takes buckets. -/
inductive Phase where
  | accumulating
  | frozen
  deriving DecidableEq, Repr

/-- The name of a phase. -/
def Phase.name : Phase → String
  | .accumulating => "accumulating"
  | .frozen => "frozen"

/-- Buckets by their tasks, tasks in the order of their first buckets. -/
def groupByTask (buckets : List Bucket) : Entries Task (List Bucket) :=
  buckets.foldl (fun groups b => groups.put b.task ((groups.get? b.task).getD [] ++ [b])) []

/-- What a fork holds ready for questions about its tasks: nothing while it accumulates, and its
buckets by their tasks from the freezing on. -/
def Phase.byTask (phase : Phase) (buckets : List Bucket) : Entries Task (List Bucket) :=
  match phase with
  | .accumulating => []
  | .frozen => groupByTask buckets

/-- A fork: its index, its buckets in the order in which they came, their cost, and, once it is
frozen, its buckets by their tasks. -/
structure Fork where
  index : Nat
  phase : Phase := .accumulating
  buckets : List Bucket := []
  load : Float := Bucket.total buckets
  load_eq : load = Bucket.total buckets := by rfl
  byTask : Entries Task (List Bucket) := phase.byTask buckets
  byTask_eq : byTask = phase.byTask buckets := by rfl

/-- Why a fork refuses. -/
inductive ForkError where
  | negativeIndex (index : Int)
  | frozen (index : Nat) (pattern : String)
  | notFrozen (index : Nat)
  deriving DecidableEq, Repr

/-- The words for a fork's refusal. -/
def ForkError.message : ForkError → String
  | .negativeIndex index => s!"index must be >= 0, got {index}"
  | .frozen index pattern => s!"container {index} is frozen; cannot add {Text.quote pattern}"
  | .notFrozen index => s!"container {index} has not been frozen yet"

namespace Fork

/-- A fork without buckets. -/
def empty (index : Nat) : Fork := { index }

/-- A fork without buckets, whose index has yet to be checked. -/
def make (index : Int) : Except ForkError Fork :=
  if 0 ≤ index then .ok (empty index.toNat) else .error (.negativeIndex index)

/-- Whether the fork takes no more buckets. -/
def isFrozen (f : Fork) : Bool := f.phase == .frozen

/-- Appends a bucket and adds its cost to the load. -/
def add (f : Fork) (b : Bucket) : Except ForkError Fork :=
  match f.phase with
  | .frozen => .error (.frozen f.index b.pattern)
  | .accumulating =>
    .ok {
      index := f.index
      phase := .accumulating
      buckets := f.buckets ++ [b]
      load := f.load + b.cost
      load_eq := by rw [f.load_eq]; simp [Bucket.total, List.foldl_append] }

/-- Ends the accumulation and groups the buckets by their tasks; a frozen fork stays as it is. -/
def freeze (f : Fork) : Fork :=
  { f with phase := .frozen, byTask := groupByTask f.buckets, byTask_eq := rfl }

/-- A frozen fork holds its buckets by their tasks. -/
theorem byTask_of_frozen {f : Fork} (h : f.isFrozen = true) :
    f.byTask = groupByTask f.buckets := by
  rw [f.byTask_eq, beq_iff_eq.mp h]
  rfl

/-- How many tests of earlier runs the fork's buckets cover. -/
def testCount (f : Fork) : Nat := (f.buckets.flatMap Bucket.matched).length

/-- The tasks with a bucket here, in the order of their first buckets. -/
def taskList (f : Fork) : List Task := f.byTask.keys

/-- The buckets of a task, in the order in which they came. -/
def bucketsOf (f : Fork) (t : Task) : List Bucket := (f.byTask.get? t).getD []

/-- The patterns that a task runs here. -/
def patternsOf (f : Fork) (t : Task) : List String := (f.bucketsOf t).map Bucket.pattern

/-- Answers from a frozen fork only. -/
def whenFrozen (f : Fork) {α : Type} (answer : α) : Except ForkError α :=
  if f.isFrozen then .ok answer else .error (.notFrozen f.index)

/-- The tasks of a frozen fork. -/
def tasks (f : Fork) : Except ForkError (List Task) := f.whenFrozen f.taskList

/-- The buckets of a task on a frozen fork. -/
def bucketsFor (f : Fork) (t : Task) : Except ForkError (List Bucket) :=
  f.whenFrozen (f.bucketsOf t)

/-- The patterns of a task on a frozen fork. -/
def testsFor (f : Fork) (t : Task) : Except ForkError (List String) :=
  f.whenFrozen (f.patternsOf t)

/-- A fork in one line. -/
def describe (f : Fork) : String :=
  s!"WorkerContainer(index={f.index}, state={f.phase.name}, " ++
    s!"buckets={f.buckets.length}, duration={Number.floatText f.load})"

end Fork

end SuiteBalance
