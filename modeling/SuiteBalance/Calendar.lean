/-!
# Dates and times

A **`Date`** is a day of the Gregorian calendar in the years 1 to 9999, and a **`DateTime`** is a
moment of a day, with the offset of its time zone if that is known.  Both are made from numbers
that are checked from the greatest unit to the least.
-/

namespace SuiteBalance

/-- Why numbers make no date or no time. -/
inductive CalendarError where
  | year (n : Nat)
  | month
  | day
  | hour
  | minute
  | second
  | offset (minutes : Int)
  deriving DecidableEq, Repr

/-- Whether a year has a 29th of February. -/
def isLeapYear (year : Nat) : Bool := year % 4 = 0 ∧ (year % 100 ≠ 0 ∨ year % 400 = 0)

/-- The number of days of a month. -/
def daysIn (year month : Nat) : Nat :=
  if month = 2 then (if isLeapYear year then 29 else 28)
  else if month ∈ [4, 6, 9, 11] then 30 else 31

/-- A day. -/
structure Date where
  year : Nat
  month : Nat
  day : Nat
  deriving DecidableEq, Repr

/-- A moment of a day; the offset is in minutes east of Greenwich. -/
structure DateTime where
  date : Date
  hour : Nat
  minute : Nat
  second : Nat
  microsecond : Nat
  offset? : Option Int
  deriving DecidableEq, Repr

/-- A number in decimal with at least the given number of digits. -/
def paddedText (width n : Nat) : String :=
  let digits := Nat.toDigits 10 n
  String.ofList (List.replicate (width - digits.length) '0' ++ digits)

/-- The day with the given numbers. -/
def Date.make (year month day : Nat) : Except CalendarError Date :=
  if year = 0 ∨ 9999 < year then .error (.year year)
  else if month = 0 ∨ 12 < month then .error .month
  else if day = 0 ∨ daysIn year month < day then .error .day
  else .ok ⟨year, month, day⟩

/-- The days of a year before a month. -/
def daysBefore (year month : Nat) : Nat :=
  ((List.range (month - 1)).map fun m => daysIn year (m + 1)).foldl (· + ·) 0

/-- The days from the first day of the calendar to a day. -/
def Date.dayCount (d : Date) : Nat :=
  let y := d.year - 1
  365 * y + y / 4 - y / 100 + y / 400 + daysBefore d.year d.month + (d.day - 1)

/-- A day in its standard form. -/
def Date.text (d : Date) : String :=
  s!"{paddedText 4 d.year}-{paddedText 2 d.month}-{paddedText 2 d.day}"

/-- The minutes of a day. -/
def minutesOfDay : Int := 1440

/-- A difference of times in whole days and the seconds of the day that begins then. -/
def spanText (minutes : Int) : String :=
  let days := Int.fdiv minutes minutesOfDay
  let seconds := Int.fmod minutes minutesOfDay * 60
  let parts := (if days = 0 then [] else [s!"days={days}"]) ++
    (if seconds = 0 then [] else [s!"seconds={seconds}"])
  "datetime.timedelta(" ++ (if parts.isEmpty then "0" else ", ".intercalate parts) ++ ")"

/-- The words for numbers that make no date or no time. -/
def CalendarError.message : CalendarError → String
  | .year n => s!"year {n} is out of range"
  | .month => "month must be in 1..12"
  | .day => "day is out of range for month"
  | .hour => "hour must be in 0..23"
  | .minute => "minute must be in 0..59"
  | .second => "second must be in 0..59"
  | .offset minutes =>
    "offset must be a timedelta strictly between -timedelta(hours=24) and timedelta(hours=24), " ++
      s!"not {spanText minutes}."

namespace DateTime

/-- The moment with the given numbers; an offset has to be less than a day. -/
def make (year month day hour minute second microsecond : Nat) (offset? : Option Int) :
    Except CalendarError DateTime :=
  match offset?.filter fun minutes => minutesOfDay.natAbs ≤ minutes.natAbs with
  | some minutes => .error (.offset minutes)
  | none => do
    let date ← Date.make year month day
    if 23 < hour then .error .hour
    else if 59 < minute then .error .minute
    else if 59 < second then .error .second
    else .ok ⟨date, hour, minute, second, microsecond, offset?⟩

/-- The minutes from the first day of the calendar to a moment, as its own clock shows it. -/
def minuteCount (t : DateTime) : Int := t.date.dayCount * minutesOfDay + t.hour * 60 + t.minute

/-- Whether two moments are the same: of two with known time zones the offsets are taken into
account, and one with a known time zone is never the same as one without. -/
def sameMoment (t u : DateTime) : Bool :=
  let minutes? := match t.offset?, u.offset? with
    | none, none => some (t.minuteCount, u.minuteCount)
    | some o, some p => some (t.minuteCount - o, u.minuteCount - p)
    | _, _ => none
  match minutes? with
  | some (m, n) => m == n && t.second == u.second && t.microsecond == u.microsecond
  | none => false

/-- An offset as a sign, hours and minutes. -/
def offsetText (minutes : Int) : String :=
  let sign := if minutes < 0 then "-" else "+"
  s!"{sign}{paddedText 2 (minutes.natAbs / 60)}:{paddedText 2 (minutes.natAbs % 60)}"

/-- A moment in its standard form. -/
def text (t : DateTime) : String :=
  let fraction := if t.microsecond = 0 then "" else "." ++ paddedText 6 t.microsecond
  s!"{t.date.text} {paddedText 2 t.hour}:{paddedText 2 t.minute}:{paddedText 2 t.second}" ++
    fraction ++ (t.offset?.map offsetText).getD ""

end DateTime

end SuiteBalance
