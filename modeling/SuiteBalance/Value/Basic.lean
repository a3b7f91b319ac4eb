import SuiteBalance.Calendar
import SuiteBalance.Json.Basic
import SuiteBalance.Number.Double
import SuiteBalance.Text.Basic

/-!
# Values

A **`Value`** is what a configuration file can hold: the scalars of its format and lists, mappings
and sets of them.  Numbers that are equal are one key of a mapping, whether they are written as
integers, doubles or truth values, and so are the same moment in two time zones.

A value that stands inside itself is unfolded once: where it stands again, a mark says what kind
of value it is.
-/

namespace SuiteBalance

/-- A kind of value that holds others. -/
inductive Shape where
  | list
  | mapping
  | pair
  deriving DecidableEq, Repr

/-- A value of a configuration file. -/
inductive Value where
  | null
  | bool (b : Bool)
  | integer (n : Int)
  | real (x : Float)
  | text (s : Text)
  | bytes (content : List UInt8)
  | date (d : Date)
  | dateTime (t : DateTime)
  | list (items : List Value)
  | mapping (fields : List (Value × Value))
  | set (items : List Value)
  | pair (first second : Value)
  /-- A value around this place, which it stands inside of again. -/
  | again (shape : Shape)
  deriving Inhabited

namespace Value

/-- The integer that a double equals, if there is one. -/
def integral? (x : Float) : Option Int :=
  match Number.truncate x with
  | .ok n => if Float.ofInt n == x then some n else none
  | .error _ => none

/-- The number that a value equals as a key: an integer, or a double that is none. -/
inductive KeyNumber where
  | integer (n : Int)
  | real (bits : UInt64)
  deriving DecidableEq

/-- The number that a value equals as a key; what is not a number equals none. -/
def keyNumber? : Value → Option KeyNumber
  | .bool b => some (.integer b.toInt)
  | .integer n => some (.integer n)
  | .real x => match integral? x with
    | some n => some (.integer n)
    | none => if x.isNaN then none else some (.real x.toBits)
  | _ => none

/-- Whether two values are one key. -/
def sameKey (a b : Value) : Bool :=
  match a, b with
  | .null, .null => true
  | .text s, .text t => s == t
  | .bytes s, .bytes t => s == t
  | .date d, .date e => d == e
  | .dateTime s, .dateTime t => s.sameMoment t
  | a, b => match a.keyNumber?, b.keyNumber? with
    | some m, some n => m == n
    | _, _ => false

/-- Sets the value of a key, in place or at the end. -/
def put : List (Value × Value) → Value → Value → List (Value × Value)
  | [], key, value => [(key, value)]
  | (k, v) :: rest, key, value =>
    if k.sameKey key then (k, value) :: rest else (k, v) :: put rest key value

/-- The value of a field of a mapping that is named by a text. -/
def field? (fields : List (Value × Value)) (name : Text) : Option Value :=
  (fields.find? fun field => field.1.sameKey (.text name)).map Prod.snd

/-- Whether a value can be a key. -/
def isKey : Value → Bool
  | .list _ | .mapping _ | .set _ | .again _ => false
  | .pair a b => a.isKey && b.isKey
  | _ => true

/-- Whether a value counts as given: not nothing, zero or empty. -/
def isTruthy : Value → Bool
  | .null => false
  | .bool b => b
  | .integer n => n ≠ 0
  | .real x => !(x == 0.0)
  | .text s => s ≠ ""
  | .bytes content => content ≠ []
  | .list items | .set items => !items.isEmpty
  | .mapping fields => !fields.isEmpty
  | .date _ | .dateTime _ | .pair .. | .again _ => true

mutual

/-- The value that a JSON value is. -/
def ofJson : Json → Value
  | .null => .null
  | .bool b => .bool b
  | .integer n => .integer n
  | .real x => .real x
  | .text s => .text s
  | .array items => .list (ofItems items)
  | .object fields => .mapping (ofFields fields)

/-- The values that the items of an array are. -/
def ofItems : List Json → List Value
  | [] => []
  | item :: rest => ofJson item :: ofItems rest

/-- The fields that the fields of an object are. -/
def ofFields : List (Text × Json) → List (Value × Value)
  | [] => []
  | (name, value) :: rest => (.text name, ofJson value) :: ofFields rest

end

end Value

end SuiteBalance
