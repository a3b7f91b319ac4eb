import SuiteBalance.Fork

/-!
# Allocation

Buckets are given out to forks by decreasing cost, buckets of one cost in the order in which they
came, and each goes to the first of the least loaded forks.  An **`Allocation`** is what comes of
it: the forks, the assignments in their order, and the refusal that ended it early, if one did;
what was assigned before a refusal stays assigned.
-/

namespace SuiteBalance

/-- Why an allocation ended early. -/
inductive AllocationError where
  | noForks
  | refused (e : ForkError)
  deriving DecidableEq, Repr

/-- The words for an allocation that ended early. -/
def AllocationError.message : AllocationError → String
  | .noForks => "at least one container is required"
  | .refused e => e.message

/-- A bucket's assignment: the fork it went to, by index, and the fork's load with it. -/
structure Assignment where
  bucket : Bucket
  fork : Nat
  load : Float

/-- The notice of an assignment. -/
def Assignment.notice (a : Assignment) : Notice :=
  .assigned a.bucket.pattern a.bucket.cost a.fork a.load

/-- What comes of giving out buckets. -/
structure Allocation where
  forks : List Fork
  assignments : List Assignment
  ended : Option AllocationError

/-- Buckets by decreasing cost; buckets of one cost keep their order. -/
def Bucket.byCost (buckets : List Bucket) : List Bucket :=
  buckets.mergeSort fun a b => decide (b.cost ≤ a.cost)

/-- The position of the first least load, and that load; none without loads. -/
def firstLeast : List Float → Option (Nat × Float)
  | [] => none
  | x :: rest =>
    match firstLeast rest with
    | none => some (0, x)
    | some (i, y) => if y < x then some (i + 1, y) else some (0, x)

/-- The position of the fork that the next bucket goes to. -/
def leastLoaded (forks : List Fork) : Option Nat :=
  (firstLeast (forks.map Fork.load)).map Prod.fst

namespace Allocation

/-- Gives one bucket to the first of the least loaded forks. -/
def assign (forks : List Fork) (b : Bucket) : Except AllocationError (List Fork × Assignment) :=
  match leastLoaded forks with
  | none => .error .noForks
  | some i =>
    match forks[i]? with
    | none => .error .noForks
    | some f =>
      match f.add b with
      | .error e => .error (.refused e)
      | .ok f' => .ok (forks.set i f', ⟨b, f'.index, f'.load⟩)

/-- Gives out buckets in the order of the list. -/
def run (forks : List Fork) : List Bucket → Allocation
  | [] => ⟨forks, [], none⟩
  | b :: rest =>
    match assign forks b with
    | .error e => ⟨forks, [], some e⟩
    | .ok (forks', a) =>
      let later := run forks' rest
      { later with assignments := a :: later.assignments }

/-- The notices of the assignments. -/
def notices (a : Allocation) : List Notice := a.assignments.map Assignment.notice

end Allocation

/-- Gives out buckets to forks. -/
def allocate (buckets : List Bucket) (forks : List Fork) : Allocation :=
  if forks.isEmpty then ⟨forks, [], some .noForks⟩
  else Allocation.run forks (Bucket.byCost buckets)

end SuiteBalance
