import SuiteBalance.Log
import SuiteBalance.Timing.History

/-!
# Buckets

A **`Bucket`** is what a plan schedules: a test group, the timing records it covers and what they
cost together.  **`Bucket.build`** makes one bucket for each group from a history and reports the
names that more than one bucket counts.
-/

namespace SuiteBalance

/-- A test group with the records it covers and their cost. -/
structure Bucket where
  group : Group
  matched : List TimingRecord
  cost : Float := Timing.estimate matched
  cost_eq : cost = Timing.estimate matched := by rfl

namespace Bucket

/-- The bucket of a group and the records it covers. -/
def ofMatched (group : Group) (matched : List TimingRecord) : Bucket := { group, matched }

/-- The task that runs the bucket. -/
def task (b : Bucket) : Task := b.group.task

/-- The pattern of the bucket's group. -/
def pattern (b : Bucket) : String := b.group.pattern

/-- How many tests of earlier runs the bucket covers. -/
def testCount (b : Bucket) : Nat := b.matched.length

/-- What buckets cost together, summed from left to right. -/
def total (buckets : List Bucket) : Float := buckets.foldl (fun load b => load + b.cost) 0.0

/-- The distinct names in a bucket, given that equal names stand together. -/
def names (b : Bucket) : List String := (b.matched.map TimingRecord.name).foldr adjoin []
where
  /-- Puts a name in front, unless it stands there. -/
  adjoin (name : String) : List String → List String
    | [] => [name]
    | first :: rest => if first == name then first :: rest else name :: first :: rest

/-- The names that occur at least twice in a sorted list, each once. -/
def repeated : List String → List String
  | [] => []
  | name :: rest =>
    let others := repeated rest
    if rest.head? = some name ∧ others.head? ≠ some name then name :: others else others

/-- The names that more than one bucket counts, in their order. -/
def sharedNames (buckets : List Bucket) : List String :=
  repeated ((buckets.flatMap names).mergeSort fun a b => decide (a ≤ b))

/-- The warning about names that more than one bucket counts. -/
def sharedNotice (buckets : List Bucket) : List Notice :=
  match sharedNames buckets with
  | [] => []
  | first :: rest => [.shared (rest.length + 1) first]

/-- One bucket for each group, in the order of the groups. -/
def build (groups : List Group) (records : List TimingRecord) : List Bucket × List Notice :=
  let history := History.ofList records
  let buckets := groups.map fun g => ofMatched g (history.startingWith g.stem)
  (buckets, sharedNotice buckets ++ [.bucketsBuilt buckets.length history.size])

end Bucket

end SuiteBalance
