import SuiteBalance.Path
import SuiteBalance.Snapshot.Basic
import SuiteBalance.Value.Number
import SuiteBalance.Value.Text

/-!
# Snapshots — the document of a plan

**`Plan.document`** writes a plan as a JSON value of a certain version; tasks with one text are
one field, whose place is that of the first and whose value is that of the last.
**`Snapshot.ofDocument`** reads it back, entries in any order, and takes other values for the
numbers and texts it expects as far as they stand for some.
-/

namespace SuiteBalance

/-- The version of the documents that are written and read. -/
def documentVersion : Nat := 1

/-- The patterns on a fork by the texts of their tasks. -/
def Fork.testsByText (f : Fork) : Entries Text (List String) :=
  f.byTask.foldl (fun tests (t, buckets) => tests.put t.text (buckets.map Bucket.pattern)) []

/-- The document of a fork. -/
def Fork.document (f : Fork) : Json :=
  .object [
    ("index", .integer f.index),
    ("duration", .real f.load),
    ("tests", .object (f.testsByText.map fun (task, patterns) =>
      (task, .array (patterns.map fun (name : String) => .text name))))]

/-- The document of a plan. -/
def Plan.document (p : Plan) : Except PlanError Json := do
  let makespan ← p.makespan
  if !p.isWritable then throw .unwritable
  return .object [
    ("version", .integer documentVersion),
    ("fork_count", .integer p.forkCount),
    ("makespan", .real makespan),
    ("workers", .array (p.forks.map Fork.document))]

/-- Why a document is no plan. -/
inductive DocumentFault where
  | wrongVersion
  | notNumbered
  | missingField (name : Text)
  | wrongShape
  | notMapping
  | number (e : NumberFault)
  deriving DecidableEq, Repr

/-- The words for a document that is no plan. -/
def DocumentFault.message (path : Path) : DocumentFault → Text
  | .wrongVersion => path.text ++ s!" is not a version {documentVersion} plan file"
  | .notNumbered => path.text ++ ": worker indices are not contiguous from 0"
  | .missingField name => Text.quote name
  | .wrongShape => "not a list of values"
  | .notMapping => "not a mapping"
  | .number e => e.message

namespace Snapshot

/-- Whether a value equals the version of the documents that are read. -/
def isVersion : Json → Bool
  | .integer n => n == documentVersion
  | .real x => x == Float.ofNat documentVersion
  | .bool b => b.toNat == documentVersion
  | _ => false

/-- What a value yields one after the other: the items of an array, the code points of a text, or
the names of an object. -/
def members : Json → Except DocumentFault (List Json)
  | .array items => .ok items
  | .text s => .ok (s.points.map fun p => .text (.ofPoints [p]))
  | .object fields => .ok (fields.map fun field => .text field.1)
  | _ => .error .wrongShape

/-- A field that has to be there. -/
def required (fields : List (Text × Json)) (name : Text) : Except DocumentFault Json :=
  match Entries.get? fields name with
  | some value => .ok value
  | none => .error (.missingField name)

/-- The texts of what a value yields. -/
def patterns (value : Json) : Except DocumentFault (List Text) :=
  (members value).map fun items => items.map fun item => (Value.ofJson item).plain

/-- The patterns of the tasks of a fork. -/
def tests : Json → Except DocumentFault (Entries Text (List Text))
  | .object tasks => tasks.mapM fun (task, names) => (patterns names).map (task, ·)
  | _ => .error .notMapping

/-- A fork from its document. -/
def fork : Json → Except DocumentFault SnapshotFork
  | .object fields => do
    let index ← (Value.ofJson (← required fields "index")).toInteger.mapError .number
    let load ← match Entries.get? fields "duration" with
      | some value => (Value.ofJson value).toFloat.mapError .number
      | none => .ok 0.0
    let tests ← tests (← required fields "tests")
    return ⟨index, load, tests⟩
  | _ => .error .wrongShape

/-- The snapshot of forks in any order. -/
def ofForks (forks : List SnapshotFork) : Except DocumentFault Snapshot :=
  let forks := forks.mergeSort fun a b => decide (a.index ≤ b.index)
  if h : forks.map SnapshotFork.index = (List.range forks.length).map Int.ofNat then .ok ⟨forks, h⟩
  else .error .notNumbered

/-- A snapshot from the document of a plan. -/
def ofDocument (document : Json) : Except DocumentFault Snapshot := do
  if !(document.field? "version").any isVersion then throw .wrongVersion
  let entries ← members ((document.field? "workers").getD (.array []))
  ofForks (← entries.mapM fork)

end Snapshot

end SuiteBalance
