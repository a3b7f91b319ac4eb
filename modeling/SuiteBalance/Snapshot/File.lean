import SuiteBalance.Disk
import SuiteBalance.Json.Parser
import SuiteBalance.Json.Printer
import SuiteBalance.Snapshot.Document
import SuiteBalance.Text.Lines

/-!
# Snapshots — the plan file

A plan is handed to other jobs as a file that holds its document.
-/

namespace SuiteBalance

/-- Why a plan file cannot be read. -/
inductive PlanFileError where
  | file (e : FileError)
  | encoding (fault : Text.Utf8.Fault)
  | notJson (e : Json.SyntaxError)
  | document (fault : DocumentFault)
  deriving DecidableEq, Repr

namespace PlanFileError

/-- The words for a plan file that cannot be read. -/
def message (path : Path) : PlanFileError → Text
  | .file e => e.message
  | .encoding fault => fault.message
  | .notJson e => e.message
  | .document fault => fault.message path

end PlanFileError

/-- The text of a plan file. -/
def Plan.fileText (p : Plan) : Except PlanError String := p.document.map Json.document

/-- Why a plan file cannot be written. -/
inductive PlanWriteError where
  | plan (e : PlanError)
  | file (e : FileError)
  deriving DecidableEq, Repr

/-- Writes a plan to a file, in a directory that is made if it is missing. -/
def Plan.save {m : Type → Type} [Monad m] [Host m] (p : Plan) (path : Path) :
    m (Except PlanWriteError Unit) := do
  match p.fileText with
  | .error e => return .error (.plan e)
  | .ok text => return (← Host.writeUnder path text.toUTF8.toList).mapError .file

namespace Snapshot

variable [Json.Levels]

/-- The snapshot in a file with the given bytes. -/
def ofBytes (bytes : List UInt8) : Except PlanFileError Snapshot := do
  let text ← (Text.Utf8.decode bytes).mapError .encoding
  let document ← (Json.parse (Text.unifyBreaks text)).mapError .notJson
  (ofDocument document).mapError .document

/-- Reads a plan file. -/
def load {m : Type → Type} [Monad m] [Host m] (path : Path) :
    m (Except PlanFileError Snapshot) := do
  match ← Host.read path with
  | .error e => return .error (.file e)
  | .ok bytes => return ofBytes bytes

end Snapshot

end SuiteBalance
