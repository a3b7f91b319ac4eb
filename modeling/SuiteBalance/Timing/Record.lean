import SuiteBalance.Group
import SuiteBalance.Number.Notation

/-!
# Timing — records

A **`TimingRecord`** says how long a test took in an earlier run: a finite number of seconds that
is not negative.  **`estimate`** says how long a set of tests will take: each test costs at least
ten seconds, and so does the set.  Sums are taken from left to right.
-/

namespace SuiteBalance

/-- How long a test took in an earlier run. -/
structure TimingRecord where
  name : String
  duration : Float
  finite : duration.isFinite = true
  not_negative : ¬ duration < 0.0

/-- Why a name and a duration make no record. -/
inductive TimingError where
  | badDuration (duration : Float) (name : String)

/-- The words for a duration that makes no record. -/
def TimingError.message : TimingError → String
  | .badDuration duration name =>
    s!"duration must be a finite number >= 0, got {Number.floatText duration} " ++
      s!"for {Text.quote name}"

/-- The record of a name and a duration. -/
def TimingRecord.make (name : String) (duration : Float) : Except TimingError TimingRecord :=
  if h : duration.isFinite = true ∧ ¬ duration < 0.0 then .ok ⟨name, duration, h.1, h.2⟩
  else .error (.badDuration duration name)

namespace Timing

/-- The least cost of a test and of a group of tests, in seconds. -/
def leastCost : Float := 10.0

/-- A duration raised to the least cost. -/
def atLeastCost (seconds : Float) : Float := if seconds < leastCost then leastCost else seconds

/-- What the tests of some records cost together. -/
def estimate (records : List TimingRecord) : Float :=
  atLeastCost (records.foldl (fun total r => total + atLeastCost r.duration) 0.0)

end Timing

/-- The records that a group covers, in their order. -/
def Group.covered (g : Group) (records : List TimingRecord) : List TimingRecord :=
  records.filter fun r => startsWith r.name g.stem

end SuiteBalance
