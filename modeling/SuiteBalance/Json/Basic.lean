import SuiteBalance.Entries
import SuiteBalance.Text.Basic

/-!
# JSON — values

A JSON document as a value.  Numbers are integers of any size or doubles, as they are spelled, and
the doubles may be infinite or not a number.  An object keeps the order of its fields.
-/

namespace SuiteBalance

/-- A JSON value. -/
inductive Json where
  | null
  | bool (b : Bool)
  | integer (n : Int)
  | real (x : Float)
  | text (s : Text)
  | array (items : List Json)
  | object (fields : List (Text × Json))
  deriving Inhabited

namespace Json

/-- The field of an object; other values have no fields. -/
def field? : Json → Text → Option Json
  | .object fields, name => Entries.get? fields name
  | _, _ => none

end Json

end SuiteBalance
