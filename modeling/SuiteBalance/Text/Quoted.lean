import SuiteBalance.Text.Basic
import SuiteBalance.Text.Printable

/-!
# Text — quoted texts

Messages show a text between quotes and on one line.  The quotes are single, unless the text has
a single quote and no double quote.  A backslash and the quote in use are written behind a
backslash, the common control characters by a letter, and any other code point that is no printable
character by its number in two, four or eight hexadecimal digits.

* **`quote`** is the text between quotes.
* **`visible`** is the text with its surrogates written as they are between quotes, for those who
  can do without them.
-/

namespace SuiteBalance.Text

/-- The hexadecimal digits of `n`, padded with zeros to at least `width` digits. -/
def hexDigits (width n : Nat) : List Char :=
  let digits := Nat.toDigits 16 n
  List.replicate (width - digits.length) '0' ++ digits

/-- The escape of a code point by its number, in the shortest of the three forms. -/
def escapeCodePoint (p : CodePoint) : List Char :=
  let n := p.value
  if n < 0x100 then '\\' :: 'x' :: hexDigits 2 n
  else if n < 0x10000 then '\\' :: 'u' :: hexDigits 4 n
  else '\\' :: 'U' :: hexDigits 8 n

/-- How one code point stands between quotes of the kind `mark`. -/
def quotePoint (mark : Char) : CodePoint → List Char
  | .char c =>
    if c == mark || c == '\\' then ['\\', c]
    else if c == '\n' then ['\\', 'n']
    else if c == '\r' then ['\\', 'r']
    else if c == '\t' then ['\\', 't']
    else if isPrintable c then [c]
    else escapeCodePoint c
  | p => escapeCodePoint p

/-- The quote for a text: the single one, unless only that one occurs in it. -/
def quoteMark (s : List CodePoint) : Char :=
  if s.contains '\'' && !s.contains '"' then '"' else '\''

/-- The text between quotes. -/
def quote (s : Text) : String :=
  let mark := quoteMark s.points
  String.ofList (mark :: (s.points.flatMap (quotePoint mark) ++ [mark]))

/-- The text between quotes, cut off behind `limit` characters. -/
def quoteStart (limit : Nat) (s : Text) : String := String.ofList ((quote s).toList.take limit)

/-- A code point where surrogates are written as escapes. -/
def visiblePoint : CodePoint → List Char
  | .char c => [c]
  | p => escapeCodePoint p

/-- A text with its surrogates written as escapes. -/
def visible : Text → String
  | .ofString s => s
  | t => String.ofList (t.points.flatMap visiblePoint)

end SuiteBalance.Text
