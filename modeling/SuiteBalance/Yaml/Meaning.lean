import SuiteBalance.Text.Lower
import SuiteBalance.Yaml.Base64
import SuiteBalance.Yaml.Node
import SuiteBalance.Yaml.Token

/-!
# YAML — what scalars stand for

**`scalarValue`** is the value of the characters of a scalar by its tag.  Low lines in numbers do
not count.  An integer may be written in base two, eight or sixteen, and both kinds of numbers by
sixties: hours, minutes and seconds between colons.
-/

namespace SuiteBalance.Yaml

/-- The code points of a text without low lines. -/
def withoutLowLines (s : Text) : List CodePoint := s.points.filter (· != '_')

/-- A sign and the rest: whether the number is negative, and what follows. -/
def splitSign : List CodePoint → Bool × List CodePoint
  | '-' :: rest => (true, rest)
  | '+' :: rest => (false, rest)
  | s => (false, s)

/-- The integer that code points spell in a base. -/
def integerIn (base : Nat) (s : List CodePoint) : Except Fault Int :=
  (Value.integerOfText base (.ofPoints s)).mapError .number

/-- The integer that code points without sign and low lines spell. -/
def integerBody (s : List CodePoint) : Except Fault Int :=
  match s with
  | [] => .error .emptyNumber
  | ['0'] => .ok 0
  | '0' :: 'b' :: digits => integerIn 2 digits
  | '0' :: 'x' :: digits => integerIn 16 digits
  | '0' :: _ => integerIn 8 s
  | s => do
    let parts ← (Text.stretches (.char ':') s).mapM (integerIn 10)
    return parts.foldl (fun n part => 60 * n + part) 0

/-- The integer that a scalar spells. -/
def integerOf (content : Text) : Except Fault Int := do
  let s := withoutLowLines content
  if s.isEmpty then throw .emptyNumber
  let (negative, body) := splitSign s
  let n ← integerBody body
  return if negative then -n else n

/-- The code points of a double that count: without low lines, in lower case. -/
def realDigits (content : Text) : List CodePoint :=
  (Text.lower (.ofPoints (withoutLowLines content))).points

/-- Adds parts that count sixty times as much as those before, starting with one whose place is
worth `worth`; what a place is worth has to be a double. -/
def sumOfSixties (worth : Nat) (sum : Float) : List Float → Except NumberFault Float
  | [] => .ok sum
  | x :: rest => do
    let factor ← Value.floatOfInteger worth
    sumOfSixties (60 * worth) (sum + x * factor) rest

/-- The double that code points without sign and low lines spell. -/
def realBody (s : List CodePoint) : Except NumberFault Float := do
  if s = (".inf" : Text).points then return 1.0 / 0.0
  else if s = (".nan" : Text).points then return 0.0 / 0.0
  else
    let parts ← (Text.stretches (.char ':') s).mapM fun part => (Value.text (.ofPoints part)).toFloat
    match parts with
    | [x] => return x
    | parts => sumOfSixties 1 0.0 parts.reverse

/-- The double that a scalar spells. -/
def realOf (content : Text) : Except Fault Float := do
  let s := realDigits content
  if s.isEmpty then throw .emptyNumber
  let (negative, body) := splitSign s
  let x ← (realBody body).mapError .number
  return if negative then -x else x

/-- Whether a scalar is the name of what is not a number. -/
def namesNoNumber (tag : Tag) (content : Text) : Bool :=
  tag = .real && (splitSign (realDigits content)).2 == (".nan" : Text).points

/-- The value of a scalar by its tag. -/
def scalarValue (tag : Tag) (content : Text) : Except Fault Value :=
  match tag with
  | .null => .ok .null
  | .text => .ok (.text content)
  | .bool =>
    let word := Text.lower content
    match word.toString?.bind fun s => truthWords.lookup s with
    | some b => .ok (.bool b)
    | none => .error (.truthValue word)
  | .integer => (integerOf content).map .integer
  | .real => (realOf content).map .real
  | .bytes => match content.toString?.bind (base64? ·.toList) with
    | some bytes => .ok (.bytes bytes)
    | none => .error .content
  | .time => match content.toString?.bind (Timestamp.read? ·.toList) with
    | some t => t.value.mapError .calendar
    | none => .error .time
  | _ => .error .content

end SuiteBalance.Yaml
