import SuiteBalance.Json.Basic
import SuiteBalance.Number.Reading

/-!
# JSON — tokens

**`tokens`** cuts a document into tokens, each with the position of its first character, and ends
with a token for the end of the document.  A text that goes wrong and a number that is too long
are tokens too, since they matter only where a value or a key may stand; nothing is read behind
them.  A character that starts no token is `junk`.

Besides the numbers of the standard, `NaN`, `Infinity` and `-Infinity` are read.
-/

namespace SuiteBalance.Json

open Number

/-- What can be wrong with a document. -/
inductive Problem where
  | expectedValue
  | expectedName
  | expectedColon
  | expectedComma
  | unterminatedText
  | controlCharacter
  | badEscape
  | badUnicodeEscape
  | extraData
  | byteOrderMark
  | longInteger (digits : Nat)
  /-- Arrays and objects stand inside one another on too many levels. -/
  | tooDeep
  deriving DecidableEq, Repr

/-- A token of a document. -/
inductive Token where
  | openArray
  | closeArray
  | openObject
  | closeObject
  | comma
  | colon
  | scalar (value : Json)
  | text (s : Text)
  | faulty (problem : Problem) (position : Nat)
  | junk
  | ended

/-- The value of four hexadecimal digits. -/
def hexUnit? (a b c d : Char) : Option Nat := do
  let a ← Text.hexValue? a
  let b ← Text.hexValue? b
  let c ← Text.hexValue? c
  let d ← Text.hexValue? d
  return ((a * 16 + b) * 16 + c) * 16 + d

/-- The character that a letter behind a backslash stands for. -/
def unescape? : Char → Option Char
  | '"' => some '"'
  | '\\' => some '\\'
  | '/' => some '/'
  | 'b' => some (Char.ofNat 8)
  | 'f' => some (Char.ofNat 12)
  | 'n' => some '\n'
  | 'r' => some '\r'
  | 't' => some '\t'
  | _ => none

/-- The code points before, with the high surrogate that waits for its other half given up. -/
def settle (half : Option Nat) (done : List CodePoint) : List CodePoint :=
  match half with
  | some high => .ofNat high :: done
  | none => done

/-- The code points before and a code unit from an escape, which completes a pair, opens one or
stands for itself. -/
def takeUnit (half : Option Nat) (done : List CodePoint) (unit : Nat) :
    Option Nat × List CodePoint :=
  if 0xdc00 ≤ unit ∧ unit < 0xe000 then
    match half with
    | some high => (none, .ofNat (0x10000 + (high - 0xd800) * 0x400 + (unit - 0xdc00)) :: done)
    | none => (none, .ofNat unit :: done)
  else if 0xd800 ≤ unit ∧ unit < 0xdc00 then (some unit, settle half done)
  else (none, .ofNat unit :: settle half done)

/-- Reads a text behind its opening quote, which stands at `start`.  `half` is a high surrogate
that waits for its other half and `done` holds the code points before, reversed.  The answer is the
token, the position behind it and the rest. -/
def readText (start position : Nat) (half : Option Nat) (done : List CodePoint) :
    List Char → Token × Nat × List Char
  | [] => (.faulty .unterminatedText start, position, [])
  | '"' :: rest => (.text (.ofPoints (settle half done).reverse), position + 1, rest)
  | '\\' :: 'u' :: a :: b :: c :: d :: rest =>
    -- a code unit at the very end of a document is refused before the missing quote is
    match if rest.isEmpty then none else hexUnit? a b c d with
    | none => (.faulty .badUnicodeEscape (position + 1), position, [])
    | some unit =>
      let (half, done) := takeUnit half done unit
      readText start (position + 6) half done rest
  | '\\' :: 'u' :: _ => (.faulty .badUnicodeEscape (position + 1), position, [])
  | '\\' :: e :: rest =>
    match unescape? e with
    | none => (.faulty .badEscape position, position, [])
    | some c => readText start (position + 2) none (c :: settle half done) rest
  | ['\\'] => (.faulty .unterminatedText start, position, [])
  | c :: rest =>
    if c.toNat < 0x20 then (.faulty .controlCharacter position, position, [])
    else readText start (position + 1) none (c :: settle half done) rest

/-- The integer part of a number: a zero alone, or digits that do not start with one. -/
def wholePart : List Char → List Char × List Char
  | '0' :: rest => (['0'], rest)
  | s => (s.takeWhile Char.isDigit, s.dropWhile Char.isDigit)

/-- The digits behind a point, if there are any, and the rest. -/
def fractionPart : List Char → List Char × List Char
  | '.' :: d :: rest =>
    if d.isDigit then ((d :: rest).takeWhile Char.isDigit, (d :: rest).dropWhile Char.isDigit)
    else ([], '.' :: d :: rest)
  | s => ([], s)

/-- The exponent behind an exponent letter, if there is one, with its length, and the rest. -/
def exponentPart (bound : Nat) : List Char → Option (Int × Nat) × List Char
  | e :: rest =>
    let (negative, body) := splitSign rest
    let digits := body.takeWhile Char.isDigit
    if (e == 'e' || e == 'E') && !digits.isEmpty then
      let sign := match rest with
        | '+' :: _ | '-' :: _ => 1
        | _ => 0
      let n : Int := boundedValue bound digits
      (some (if negative then -n else n, 1 + sign + digits.length), body.dropWhile Char.isDigit)
    else (none, e :: rest)
  | [] => (none, [])

/-- A token, how many characters it takes, and the rest. -/
structure Lexeme where
  token : Token
  length : Nat
  rest : List Char

/-- Reads a number at `position`, if one stands there. -/
def readNumber? (position : Nat) (s : List Char) : Option Lexeme :=
  let (negative, body) := match s with
    | '-' :: rest => (true, rest)
    | s => (false, s)
  let (whole, rest) := wholePart body
  let length := (if negative then 1 else 0) + whole.length
  if whole.isEmpty then none
  else
    let (fraction, rest) := fractionPart rest
    let digits := whole ++ fraction
    let (exponent, rest) := exponentPart (exponentBound digits.length) rest
    if fraction.isEmpty && exponent.isNone then
      if digitLimit < whole.length then
        some ⟨.faulty (.longInteger whole.length) position, length, []⟩
      else
        let n : Int := digitsValue whole
        some ⟨.scalar (.integer (if negative then -n else n)), length, rest⟩
    else
      let (power, exponentLength) := exponent.getD (0, 0)
      let x := roundDecimal digits (power - fraction.length)
      let point := if fraction.isEmpty then 0 else 1
      some ⟨.scalar (.real (if negative then -x else x)),
        length + point + fraction.length + exponentLength, rest⟩

/-- The words that stand for values. -/
def words : List (List Char × Json) := [
  ("null".toList, .null), ("true".toList, .bool true), ("false".toList, .bool false),
  ("NaN".toList, .real (0.0 / 0.0)), ("Infinity".toList, .real (1.0 / 0.0)),
  ("-Infinity".toList, .real (-1.0 / 0.0))]

/-- Reads a word that stands for a value, if one stands here. -/
def readWord? (s : List Char) : Option Lexeme :=
  (words.find? fun w => w.1.isPrefixOf s).map fun w =>
    ⟨.scalar w.2, w.1.length, s.drop w.1.length⟩

/-- The blanks that may stand between tokens. -/
def isSpace (c : Char) : Bool := c == ' ' || c == '\t' || c == '\n' || c == '\r'

/-- The token that starts with the given character, the position behind it and the rest. -/
def readToken (position : Nat) (c : Char) (rest : List Char) : Token × Nat × List Char :=
  match c with
  | '[' => (.openArray, position + 1, rest)
  | ']' => (.closeArray, position + 1, rest)
  | '{' => (.openObject, position + 1, rest)
  | '}' => (.closeObject, position + 1, rest)
  | ',' => (.comma, position + 1, rest)
  | ':' => (.colon, position + 1, rest)
  | '"' => readText position (position + 1) none [] rest
  | c =>
    match (readWord? (c :: rest)).or (readNumber? position (c :: rest)) with
    | some l => (l.token, position + l.length, l.rest)
    | none => (.junk, position, [])

/-- The tokens from a position on, reversed onto `done`; the fuel bounds their number. -/
def tokensFrom : Nat → Nat → List (Nat × Token) → List Char → List (Nat × Token)
  | 0, _, done, _ => done.reverse
  | _ + 1, position, done, [] => ((position, .ended) :: done).reverse
  | fuel + 1, position, done, c :: rest =>
    if isSpace c then tokensFrom fuel (position + 1) done rest
    else
      let (token, behind, rest') := readToken position c rest
      match token with
      | .faulty .. | .junk => ((position, token) :: done).reverse
      | _ => tokensFrom fuel behind ((position, token) :: done) rest'

/-- The tokens of a document with their positions. -/
def tokens (document : List Char) : List (Nat × Token) :=
  tokensFrom (document.length + 1) 0 [] document

end SuiteBalance.Json
