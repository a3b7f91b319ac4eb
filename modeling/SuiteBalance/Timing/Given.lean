import SuiteBalance.Timing.Record
import SuiteBalance.Value.Number

/-!
# Timing — records that are given

Records need not come from a file: they may be given as names with values that stand for their
durations.
-/

namespace SuiteBalance.Timing

/-- Why a name and a value make no record. -/
inductive GivenFault where
  | number (e : NumberFault)
  | record (e : TimingError)

/-- The words for a name and a value that make no record. -/
def GivenFault.message : GivenFault → String
  | .number e => e.message
  | .record e => e.message

/-- The record of a name and the value of its duration. -/
def given (name : String) (duration : Value) : Except GivenFault TimingRecord := do
  let seconds ← duration.toFloat.mapError .number
  (TimingRecord.make name seconds).mapError .record

/-- The records of names and the values of their durations. -/
def ofPairs (pairs : List (String × Value)) : Except GivenFault (List TimingRecord) :=
  pairs.mapM fun (name, duration) => given name duration

end SuiteBalance.Timing
