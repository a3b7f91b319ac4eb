import SuiteBalance.Number.Reading
import SuiteBalance.Text.Basic

/-!
# Tasks

A task runs the tests of the groups it owns.  Its handle is a name or a number, and the number 7
and the name `7` are different tasks; where a task is written, only its text shows.
-/

namespace SuiteBalance

/-- The handle of a task. -/
inductive Task where
  | name (s : Text)
  | number (n : Int)
  deriving DecidableEq, Repr

/-- How a task is written. -/
def Task.text : Task → Text
  | .name s => s
  | .number n => toString n

/-- Whether a task can be written: a number has to have few enough digits. -/
def Task.isWritable : Task → Bool
  | .name _ => true
  | .number n => Number.isWritable n

end SuiteBalance
