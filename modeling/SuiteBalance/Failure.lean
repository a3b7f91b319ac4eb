import SuiteBalance.Disk
import SuiteBalance.Group
import SuiteBalance.Log
import SuiteBalance.Value.Number

/-!
# Failures of collaborators

A planner asks others for timing records and test patterns.  A **`Reply`** is what they answer: a
result or a **`Failure`**, with the notices they gave on the way.
-/

namespace SuiteBalance

/-- The kind of a failure that a collaborator reports in its own words. -/
inductive FailureKind where
  | system
  | runtime
  | value
  | planning
  deriving DecidableEq, Repr

/-- Why a collaborator gives no answer, or none that can be used. -/
inductive Failure where
  /-- A file cannot be accessed. -/
  | file (e : FileError)
  /-- The bytes of a file are no text. -/
  | encoding (fault : Text.Utf8.Fault)
  /-- The timing history cannot be used. -/
  | timing (text : Text)
  /-- A pattern makes no group. -/
  | group (e : GroupError)
  /-- A number cannot be used. -/
  | number (e : NumberFault)
  | other (kind : FailureKind) (text : Text)
  deriving DecidableEq, Repr

namespace Failure

/-- The words for a failure. -/
def message : Failure → Text
  | .file e => e.message
  | .encoding fault => fault.message
  | .timing text => text
  | .group e => e.message
  | .number e => e.message
  | .other _ text => text

/-- Whether a failure is one of planning or of the system, which a command reports in its own
way. -/
def isReported : Failure → Bool
  | .file e => e.isSystem
  | .timing _ | .group _ => true
  | .other .system _ | .other .planning _ => true
  | .encoding _ | .number _ | .other .. => false

/-- Whether a failure is one of the values that were given, and not of the system. -/
def isOfValues : Failure → Bool
  | .file e => !e.isSystem
  | .encoding _ | .number _ => true
  | .timing _ | .group _ => false
  | .other kind _ => kind = .value

end Failure

/-- An answer and the notices given before it. -/
structure Reply (α : Type) where
  outcome : Except Failure α
  notices : List Notice := []

end SuiteBalance
