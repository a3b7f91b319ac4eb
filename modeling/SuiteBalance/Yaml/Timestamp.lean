import SuiteBalance.Number.Reading
import SuiteBalance.Value.Basic

/-!
# YAML — dates and times

A date is written as year, month and day between hyphens; a time may follow it behind a `T` or
blanks, with a fraction of the second and a time zone.  **`Timestamp.read?`** takes the numbers
out of the text, and **`Timestamp.value`** makes a date or a time of them.  A line end may stand
behind the text, as behind any spelling of a scalar.
-/

namespace SuiteBalance.Yaml

/-- The digits of a time of the day, and the sign and the digits of its offset; a time zone
without digits has the offset zero. -/
structure TimeOfDay where
  hour : List Char
  minute : List Char
  second : List Char
  fraction : List Char
  zone : Option (Bool × List Char × List Char)

/-- The digits of a date and of a time of the day. -/
structure Timestamp where
  year : List Char
  month : List Char
  day : List Char
  time : Option TimeOfDay

/-- A text without the line end behind it, if there is one. -/
def withoutLineEnd (s : List Char) : List Char :=
  if s.getLast? = some '\n' then s.dropLast else s

/-- Takes one or two digits. -/
def shortDigits? (s : List Char) : Option (List Char × List Char) :=
  match s with
  | a :: b :: rest =>
    if a.isDigit && b.isDigit then some ([a, b], rest)
    else if a.isDigit then some ([a], b :: rest) else none
  | [a] => if a.isDigit then some ([a], []) else none
  | [] => none

/-- Takes two digits. -/
def twoDigits? (s : List Char) : Option (List Char × List Char) :=
  match s with
  | a :: b :: rest => if a.isDigit && b.isDigit then some ([a, b], rest) else none
  | _ => none

/-- Takes a character. -/
def only? (c : Char) : List Char → Option (List Char)
  | [] => none
  | d :: rest => if c == d then some rest else none

/-- Whether a character is a blank or a tabulation. -/
def isSpaceOrTab (c : Char) : Bool := c == ' ' || c == '\t'

/-- Reads a fraction of a second, if a point follows. -/
def readFraction (s : List Char) : List Char × List Char :=
  match s with
  | '.' :: rest => (rest.takeWhile Char.isDigit, rest.dropWhile Char.isDigit)
  | s => ([], s)

/-- Reads a time zone up to the end of the text; `none` if something else stands there. -/
def readZone? (s : List Char) : Option (Option (Bool × List Char × List Char)) := do
  if s.isEmpty then return none
  match s.dropWhile isSpaceOrTab with
  | ['Z'] => return some (false, [], [])
  | sign :: rest =>
    if sign == '+' || sign == '-' then
      let (hours, rest) ← shortDigits? rest
      let minutes ← match rest with
        | [] => some []
        | ':' :: rest =>
          match twoDigits? rest with
          | some (digits, []) => some digits
          | _ => none
        | _ => none
      return some (sign == '-', hours, minutes)
    else none
  | [] => none

/-- Reads a time of the day up to the end of the text. -/
def readTime? (s : List Char) : Option TimeOfDay := do
  let (hour, s) ← shortDigits? s
  let (minute, s) ← twoDigits? (← only? ':' s)
  let (second, s) ← twoDigits? (← only? ':' s)
  let (fraction, s) := readFraction s
  return ⟨hour, minute, second, fraction, ← readZone? s⟩

/-- Moves over what separates a date from a time. -/
def afterDate? (s : List Char) : Option (List Char) :=
  match s with
  | c :: rest =>
    if c == 'T' || c == 't' then some rest
    else if isSpaceOrTab c then some (rest.dropWhile isSpaceOrTab) else none
  | [] => none

namespace Timestamp

/-- Reads a date, or a date and a time. -/
def read? (s : List Char) : Option Timestamp := do
  let (century, s) ← twoDigits? (withoutLineEnd s)
  let (rest, s) ← twoDigits? s
  let (month, s) ← shortDigits? (← only? '-' s)
  let (day, s) ← shortDigits? (← only? '-' s)
  if s.isEmpty then return ⟨century ++ rest, month, day, none⟩
  else return ⟨century ++ rest, month, day, some (← readTime? (← afterDate? s))⟩

/-- Whether the text is taken for a date or a time where no tag asks for one: a date alone has to
have two digits for the month and the day. -/
def isPlain (t : Timestamp) : Bool :=
  t.time.isSome || (t.month.length == 2 && t.day.length == 2)

/-- The microseconds of a fraction, of which six digits count. -/
def microseconds (fraction : List Char) : Nat :=
  let digits := fraction.take 6
  Number.digitsValue (digits ++ List.replicate (6 - digits.length) '0')

/-- The minutes of an offset. -/
def offset : Bool × List Char × List Char → Int
  | (negative, hours, minutes) =>
    let n : Int := 60 * Number.digitsValue hours + Number.digitsValue minutes
    if negative then -n else n

/-- The date or the time that the digits stand for. -/
def value (t : Timestamp) : Except CalendarError Value :=
  let number := Number.digitsValue
  match t.time with
  | none => (Date.make (number t.year) (number t.month) (number t.day)).map .date
  | some time =>
    (DateTime.make (number t.year) (number t.month) (number t.day) (number time.hour)
      (number time.minute) (number time.second) (microseconds time.fraction)
      (time.zone.map offset)).map .dateTime

end Timestamp

end SuiteBalance.Yaml
