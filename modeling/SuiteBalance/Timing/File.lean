import SuiteBalance.Csv
import SuiteBalance.Failure
import SuiteBalance.Number.Reading
import SuiteBalance.Text.Blank
import SuiteBalance.Timing.Record

/-!
# Timing — the file of an earlier run

A **`TimingFile`** is a CSV file with a header.  One of its columns holds the names of tests and
one their durations; a row without a name is skipped, and the first row with a duration that makes
no record fails the whole file.  A file that does not exist, or holds nothing, has no records.
-/

namespace SuiteBalance

/-- A file of durations and the headers of the columns that count. -/
structure TimingFile where
  path : Path
  nameColumn : Text := "Test Name"
  durationColumn : Text := "Duration"

/-- Why a file of durations cannot be used. -/
inductive TimingFault where
  | unreadable (fault : Csv.Fault)
  | missingColumns (columns : List Text)
  | badDuration (line : Nat) (duration name : String)
  deriving DecidableEq, Repr

/-- The words for a file that cannot be used. -/
def TimingFault.message (path : Path) : TimingFault → Text
  | .unreadable fault => path.text ++ s!": unreadable timing history: {fault.message}"
  | .missingColumns columns => path.text ++ ": missing column(s) " ++ Text.intercalate ", " columns
  | .badDuration line duration name =>
    path.text ++ s!":{line}: invalid duration {Text.quote duration} for {Text.quote name}"

namespace TimingFile

/-- The position of the last field with the given text. -/
def lastPosition? (header : List Text) (column : Text) : Option Nat :=
  match header with
  | [] => none
  | field :: rest =>
    match lastPosition? rest column with
    | some i => some (i + 1)
    | none => if field = column then some 0 else none

/-- The field of a row in a column, without blanks at either end; a missing field is empty. -/
def value (header : List Text) (fields : List String) (column : Text) : String :=
  match lastPosition? header column with
  | some i => Text.trim (fields.getD i "")
  | none => ""

/-- The record of a name and the text of its duration. -/
def record? (name duration : String) : Option TimingRecord := do
  let seconds ← Number.readFloat? duration
  (TimingRecord.make name seconds).toOption

/-- The records of the rows behind the header. -/
def records (file : TimingFile) (header : List Text) :
    List Csv.Row → Except TimingFault (List TimingRecord)
  | [] => .ok []
  | row :: rest =>
    let name := value header row.fields file.nameColumn
    if name = "" then file.records header rest
    else
      let duration := value header row.fields file.durationColumn
      match record? name duration with
      | none => .error (.badDuration row.line duration name)
      | some r => (file.records header rest).map (r :: ·)

/-- The records of a table, or `none` if it holds nothing at all.  Of two faults the one that
stands first counts. -/
def ofTable (file : TimingFile) (table : Csv.Table) :
    Except TimingFault (Option (List TimingRecord)) :=
  match table.rows with
  | [] =>
    match table.fault with
    | some fault => .error (.unreadable fault)
    | none => .ok none
  | header :: rows =>
    let header := header.fields.map Text.ofString
    let missing := [file.nameColumn, file.durationColumn].filter (!header.contains ·)
    if missing ≠ [] then .error (.missingColumns missing)
    else
      match file.records header rows, table.fault with
      | .error e, _ => .error e
      | .ok _, some fault => .error (.unreadable fault)
      | .ok records, none => .ok (some records)

/-- The records of a file with the given bytes. -/
def ofBytes (file : TimingFile) (bytes : List UInt8) :
    Except TimingFault (Option (List TimingRecord)) :=
  file.ofTable (Csv.read (Text.Utf8.decodeBlocks bytes))

/-- Takes the records of the file. -/
def load {m : Type → Type} [Monad m] [Host m] (file : TimingFile) :
    m (Reply (List TimingRecord)) := do
  match ← Host.isFile file.path with
  | .error e => return ⟨.error (.file e), []⟩
  | .ok false => return ⟨.ok [], [.noHistory file.path.text]⟩
  | .ok true =>
    match ← Host.read file.path with
    | .error e => return ⟨.error (.file e), []⟩
    | .ok bytes =>
      match file.ofBytes bytes with
      | .error fault => return ⟨.error (.timing (fault.message file.path)), []⟩
      | .ok none => return ⟨.ok [], [.emptyHistory file.path.text, .loaded 0 file.path.text]⟩
      | .ok (some records) => return ⟨.ok records, [.loaded records.length file.path.text]⟩

end TimingFile

end SuiteBalance
