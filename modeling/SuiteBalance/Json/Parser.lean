import SuiteBalance.Json.Token

/-!
# JSON — reading a document

The reader walks over the tokens with the arrays and objects that are not yet closed on a stack,
which holds only so many of them as the reader has **`Levels`**.
Its **`State`** says what may come next, so each token either leads to the next state or is the
first thing wrong with the document.  Of two fields with one name the object keeps the place of
the first and the value of the last.
-/

namespace SuiteBalance.Json

/-- An array or an object around the value that is being read: the items before it, reversed, or
the fields before it and its name. -/
inductive Frame where
  | items (done : List Json)
  | fields (done : List (Text × Json)) (field : Text)

/-- What has been read and what may come next. -/
inductive State where
  /-- A value must come. -/
  | value (stack : List Frame)
  /-- An array was opened: a value or the end of the array must come. -/
  | firstItem (stack : List Frame)
  /-- An item was read: a comma or the end of the array must come. -/
  | afterItem (done : List Json) (stack : List Frame)
  /-- An object was opened: a name or the end of the object must come. -/
  | firstName (stack : List Frame)
  /-- A name must come. -/
  | name (done : List (Text × Json)) (stack : List Frame)
  /-- A colon must come. -/
  | colon (done : List (Text × Json)) (field : Text) (stack : List Frame)
  /-- A field was read: a comma or the end of the object must come. -/
  | afterField (done : List (Text × Json)) (stack : List Frame)
  /-- The document's value was read. -/
  | finished (value : Json)

/-- Puts a value that is complete into what is around it. -/
def State.deliver (v : Json) : List Frame → State
  | [] => .finished v
  | .items done :: stack => .afterItem (v :: done) stack
  | .fields done field :: stack => .afterField (Entries.put done field v) stack

/-- On how many levels arrays and objects may stand inside one another: as many as the machine lets
the reader call itself, which is enough for the documents of plans. -/
class Levels where
  limit : Nat
  room : 5 ≤ limit

variable [Levels]

/-- Opens an array or an object inside of others, unless they are too many. -/
def State.opened (stack : List Frame) (s : State) : Except (Problem × Option Nat) State :=
  if stack.length < Levels.limit then .ok s else .error (.tooDeep, none)

/-- Starts or completes a value. -/
def State.beginValue (stack : List Frame) : Token → Except (Problem × Option Nat) State
  | .openArray => State.opened stack (.firstItem stack)
  | .openObject => State.opened stack (.firstName stack)
  | .scalar v => .ok (.deliver v stack)
  | .text s => .ok (.deliver (.text s) stack)
  | .faulty problem position => .error (problem, some position)
  | _ => .error (.expectedValue, none)

/-- Reads the name of a field. -/
def State.beginField (done : List (Text × Json)) (stack : List Frame) :
    Token → Except (Problem × Option Nat) State
  | .text s => .ok (.colon done s stack)
  | .faulty (.longInteger _) _ => .error (.expectedName, none)
  | .faulty problem position => .error (problem, some position)
  | _ => .error (.expectedName, none)

/-- The state behind a token, or what is wrong and where, if not at the token itself. -/
def State.step : State → Token → Except (Problem × Option Nat) State
  | .value stack, t => State.beginValue stack t
  | .firstItem stack, .closeArray => .ok (.deliver (.array []) stack)
  | .firstItem stack, t => State.beginValue (.items [] :: stack) t
  | .afterItem done stack, .comma => .ok (.value (.items done :: stack))
  | .afterItem done stack, .closeArray => .ok (.deliver (.array done.reverse) stack)
  | .afterItem .., _ => .error (.expectedComma, none)
  | .firstName stack, .closeObject => .ok (.deliver (.object []) stack)
  | .firstName stack, t => State.beginField [] stack t
  | .name done stack, t => State.beginField done stack t
  | .colon done field stack, .colon => .ok (.value (.fields done field :: stack))
  | .colon .., _ => .error (.expectedColon, none)
  | .afterField done stack, .comma => .ok (.name done stack)
  | .afterField done stack, .closeObject => .ok (.deliver (.object done) stack)
  | .afterField .., _ => .error (.expectedComma, none)
  | .finished v, .ended => .ok (.finished v)
  | .finished _, _ => .error (.extraData, none)

/-- Walks over tokens; the problem found is given with its position. -/
def State.run : State → List (Nat × Token) → Except (Problem × Nat) State
  | s, [] => .ok s
  | s, (position, t) :: rest =>
    match s.step t with
    | .ok s' => s'.run rest
    | .error (problem, at?) => .error (problem, at?.getD position)

/-- What is wrong with a document, and where: the character, counted from zero, and its line and
column, counted from one. -/
structure SyntaxError where
  problem : Problem
  position : Nat
  line : Nat
  column : Nat
  deriving DecidableEq, Repr

/-- The line and the column of a position. -/
def lineColumn (document : List Char) (position : Nat) : Nat × Nat :=
  let before := document.take position
  (before.count '\n' + 1, (before.reverse.takeWhile (· ≠ '\n')).length + 1)

/-- The value of a document. -/
def parse (document : List Char) : Except SyntaxError Json :=
  let fail (problem : Problem) (position : Nat) : Except SyntaxError Json :=
    let (line, column) := lineColumn document position
    .error ⟨problem, position, line, column⟩
  if document.head? = some (Char.ofNat 0xfeff) then fail .byteOrderMark 0
  else match (State.value []).run (tokens document) with
    | .ok (.finished v) => .ok v
    | .ok _ => fail .expectedValue document.length
    | .error (problem, position) => fail problem position

/-- What went wrong, in words. -/
def Problem.text : Problem → String
  | .expectedValue => "Expecting value"
  | .expectedName => "Expecting property name enclosed in double quotes"
  | .expectedColon => "Expecting ':' delimiter"
  | .expectedComma => "Expecting ',' delimiter"
  | .unterminatedText => "Unterminated string starting at"
  | .controlCharacter => "Invalid control character at"
  | .badEscape => "Invalid \\escape"
  | .badUnicodeEscape => "Invalid \\uXXXX escape"
  | .extraData => "Extra data"
  | .byteOrderMark => "Unexpected UTF-8 BOM (decode using utf-8-sig)"
  | .longInteger digits => Number.tooLongMessage digits
  | .tooDeep => "maximum recursion depth exceeded while decoding a JSON value"

/-- What is wrong and where, in words. -/
def SyntaxError.message (e : SyntaxError) : String :=
  match e.problem with
  | .longInteger _ | .tooDeep => e.problem.text
  | _ => s!"{e.problem.text}: line {e.line} column {e.column} (char {e.position})"

end SuiteBalance.Json
