import SuiteBalance.Number.Reading
import SuiteBalance.Text.Quoted
import SuiteBalance.Value.Basic

/-!
# Values — numbers

Where a number is expected, other values may stand for one: a truth value for one or zero, a text
for the number that it spells, and a double for its integer part.
-/

namespace SuiteBalance

open Number

/-- Why a value stands for no number. -/
inductive NumberFault where
  | wrongShape
  | notInteger (base : Nat) (s : Text)
  | tooLong (digits : Nat)
  /-- An integer with too many digits to be written. -/
  | unwritable
  | notDecimal (s : Text)
  | unbounded (e : Unbounded)
  | tooLarge
  deriving DecidableEq, Repr

/-- How much of a text is shown that spells no integer. -/
def shownLength : Nat := 200

/-- The words for a value that stands for no number. -/
def NumberFault.message : NumberFault → String
  | .wrongShape => "not a number"
  | .notInteger base s =>
    s!"invalid literal for int() with base {base}: {Text.quoteStart shownLength s}"
  | .tooLong digits => tooLongMessage digits
  | .unwritable => unwritableMessage
  | .notDecimal s => s!"could not convert string to float: {Text.quote s}"
  | .unbounded e => e.message
  | .tooLarge => "int too large to convert to float"

namespace Value

/-- The integer that a text spells in a base; no escape of a surrogate is part of one. -/
def integerOfText (base : Nat) (s : Text) : Except NumberFault Int :=
  match readIntegerIn base s.visible with
  | .ok n => .ok n
  | .error .notNumeral => .error (.notInteger base s)
  | .error (.tooLong digits) => .error (.tooLong digits)

/-- The text that bytes spell for a number, where only ASCII counts. -/
def asciiText (content : List UInt8) : String :=
  String.ofList (content.map fun b => if b < 0x80 then Char.ofNat b.toNat else '?')

/-- The integer that a value stands for. -/
def toInteger : Value → Except NumberFault Int
  | .bool b => .ok b.toInt
  | .integer n => .ok n
  | .real x => (truncate x).mapError .unbounded
  | .text s => integerOfText 10 s
  | .bytes content => integerOfText 10 (asciiText content)
  | _ => .error .wrongShape

/-- The double nearest to an integer. -/
def floatOfInteger (n : Int) : Except NumberFault Float :=
  let x := Float.ofInt n
  if x.isInf then .error .tooLarge else .ok x

/-- The double that a value stands for. -/
def toFloat : Value → Except NumberFault Float
  | .bool b => .ok (if b then 1.0 else 0.0)
  | .integer n => floatOfInteger n
  | .real x => .ok x
  | .text s => match readFloat? s.visible with
    | some x => .ok x
    | none => .error (.notDecimal s)
  | _ => .error .wrongShape

end Value

end SuiteBalance
