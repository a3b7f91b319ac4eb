import SuiteBalance.Number.Notation
import SuiteBalance.Number.Reading
import SuiteBalance.Text.Quoted
import SuiteBalance.Value.Basic

/-!
# Values — how they are written

A value is written in two ways.  Its **`literal`** shows what it is: a text stands between quotes
and a date is named as one.  Its **`plain`** form is the literal, but for texts, dates and times,
which stand as they are; inside a list or a mapping everything is a literal.
-/

namespace SuiteBalance

open Number Text

/-- A byte between quotes of the kind `mark`. -/
def quoteByte (mark : Char) (b : UInt8) : List Char :=
  let c := Char.ofNat b.toNat
  if c == mark || c == '\\' then ['\\', c]
  else if c == '\n' then ['\\', 'n']
  else if c == '\r' then ['\\', 'r']
  else if c == '\t' then ['\\', 't']
  else if 0x20 ≤ b.toNat ∧ b.toNat < 0x7f then [c]
  else '\\' :: 'x' :: hexDigits 2 b.toNat

/-- Bytes between quotes, behind a letter that tells them from a text. -/
def bytesLiteral (content : List UInt8) : String :=
  let mark := quoteMark (content.map fun b => .char (Char.ofNat b.toNat))
  String.ofList ('b' :: mark :: (content.flatMap (quoteByte mark) ++ [mark]))

/-- A date by its numbers. -/
def Date.literal (d : Date) : String := s!"datetime.date({d.year}, {d.month}, {d.day})"

/-- A time zone by its offset. -/
def zoneLiteral (minutes : Int) : String :=
  if minutes = 0 then "datetime.timezone.utc" else s!"datetime.timezone({spanText minutes})"

/-- A moment by its numbers, without zeros for seconds and microseconds at the end. -/
def DateTime.literal (t : DateTime) : String :=
  let last := if t.microsecond ≠ 0 then [t.second, t.microsecond]
    else if t.second ≠ 0 then [t.second] else []
  let numbers := [t.date.year, t.date.month, t.date.day, t.hour, t.minute] ++ last
  let zone := (t.offset?.map fun minutes => s!", tzinfo={zoneLiteral minutes}").getD ""
  "datetime.datetime(" ++ ", ".intercalate (numbers.map toString) ++ zone ++ ")"

/-- The mark for a value that stands inside itself. -/
def Shape.mark : Shape → String
  | .list => "[...]"
  | .mapping => "\x7b...\x7d"
  | .pair => "(...)"

namespace Value

mutual

/-- A value as it stands inside a list. -/
def literal : Value → String
  | .null => "None"
  | .bool b => if b then "True" else "False"
  | .integer n => toString n
  | .real x => floatText x
  | .text s => quote s
  | .bytes content => bytesLiteral content
  | .date d => d.literal
  | .dateTime t => t.literal
  | .list items => "[" ++ ", ".intercalate (literals items) ++ "]"
  | .mapping fields => "\x7b" ++ ", ".intercalate (fieldLiterals fields) ++ "\x7d"
  | .set [] => "set()"
  | .set (first :: rest) =>
    "\x7b" ++ ", ".intercalate (literal first :: literals rest) ++ "\x7d"
  | .pair first second => s!"({literal first}, {literal second})"
  | .again shape => shape.mark

/-- The literals of some values. -/
def literals : List Value → List String
  | [] => []
  | v :: rest => literal v :: literals rest

/-- The literals of some fields. -/
def fieldLiterals : List (Value × Value) → List String
  | [] => []
  | (key, v) :: rest => s!"{literal key}: {literal v}" :: fieldLiterals rest

end

mutual

/-- Whether all integers in a value have few enough digits to be written. -/
def isWritable : Value → Bool
  | .integer n => Number.isWritable n
  | .list items | .set items => areWritable items
  | .mapping fields => haveWritable fields
  | .pair first second => isWritable first && isWritable second
  | _ => true

/-- Whether some values can be written. -/
def areWritable : List Value → Bool
  | [] => true
  | v :: rest => isWritable v && areWritable rest

/-- Whether some fields can be written. -/
def haveWritable : List (Value × Value) → Bool
  | [] => true
  | (key, v) :: rest => isWritable key && isWritable v && haveWritable rest

end

/-- A value as it stands on its own. -/
def plain : Value → Text
  | .text s => s
  | .date d => d.text
  | .dateTime t => t.text
  | v => v.literal

end Value

end SuiteBalance
