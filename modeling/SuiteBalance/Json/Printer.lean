import SuiteBalance.Json.Basic
import SuiteBalance.Number.Notation
import SuiteBalance.Text.Quoted

/-!
# JSON — writing a document

A document is written in ASCII, with two blanks of indentation for each level, one item or field a
line, and empty arrays and objects on one line.  A code point beyond ASCII is written by its UTF-16
code units, of which a surrogate is one.
-/

namespace SuiteBalance.Json

open Number Text

/-- The escape of one UTF-16 code unit. -/
def unitEscape (n : Nat) : List Char := '\\' :: 'u' :: hexDigits 4 n

/-- How a character stands in a quoted text. -/
def escapeChar (c : Char) : List Char :=
  let n := c.toNat
  if c == '"' then ['\\', '"']
  else if c == '\\' then ['\\', '\\']
  else if c == '\n' then ['\\', 'n']
  else if c == '\r' then ['\\', 'r']
  else if c == '\t' then ['\\', 't']
  else if n = 8 then ['\\', 'b']
  else if n = 12 then ['\\', 'f']
  else if 0x20 ≤ n ∧ n < 0x7f then [c]
  else if n < 0x10000 then unitEscape n
  else
    let offset := n - 0x10000
    unitEscape (0xd800 + offset / 0x400) ++ unitEscape (0xdc00 + offset % 0x400)

/-- How a code point stands in a quoted text. -/
def escapePoint : CodePoint → List Char
  | .char c => escapeChar c
  | p => unitEscape p.value

/-- A text between quotes. -/
def quoted (s : Text) : List Char := '"' :: (s.points.flatMap escapePoint ++ ['"'])

/-- A line break and the indentation of a level. -/
def newLine (level : Nat) : List Char := '\n' :: List.replicate (2 * level) ' '

mutual

/-- A value as it stands in a container of the given level. -/
def write (level : Nat) : Json → List Char
  | .null => "null".toList
  | .bool b => (if b then "true" else "false").toList
  | .integer n => (toString n).toList
  | .real x => (documentFormat.text x).toList
  | .text s => quoted s
  | .array [] => "[]".toList
  | .array (v :: rest) =>
    '[' :: (newLine (level + 1) ++ write (level + 1) v ++ writeItems level rest)
  | .object [] => "{}".toList
  | .object ((name, v) :: rest) =>
    '{' :: (newLine (level + 1) ++ quoted name ++ ": ".toList ++ write (level + 1) v ++
      writeFields level rest)

/-- The items behind the first, and the end of the array. -/
def writeItems (level : Nat) : List Json → List Char
  | [] => newLine level ++ [']']
  | v :: rest => ',' :: (newLine (level + 1) ++ write (level + 1) v ++ writeItems level rest)

/-- The fields behind the first, and the end of the object. -/
def writeFields (level : Nat) : List (Text × Json) → List Char
  | [] => newLine level ++ ['}']
  | (name, v) :: rest =>
    ',' :: (newLine (level + 1) ++ quoted name ++ ": ".toList ++ write (level + 1) v ++
      writeFields level rest)

end

/-- The text of a document. -/
def document (v : Json) : String := String.ofList (write 0 v)

end SuiteBalance.Json
