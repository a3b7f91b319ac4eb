import SuiteBalance.Text.Blank
import SuiteBalance.Text.Digit

/-!
# Number — reading numbers

Numbers in text may stand between white characters, may use the decimal digits of any script, and
may have single low lines between digits.

* **`readInteger`** reads an integer of at most `digitLimit` digits, and **`readIntegerIn`** one in
  another base, which may be announced by a zero and a letter.
* **`readFloat?`** reads a decimal, an infinity or the name of no number, and rounds a decimal to
  the nearest double.
-/

namespace SuiteBalance.Number

open Text

/-- The characters with every decimal digit written in ASCII. -/
def asciiDigits (s : List Char) : List Char :=
  s.map fun c => match digitValue? c with
    | some n => Nat.digitChar n
    | none => c

/-- The number that a run of ASCII digits stands for. -/
def digitsValue (s : List Char) : Nat := s.foldl (fun n c => 10 * n + (c.toNat - '0'.toNat)) 0

/-- The lesser of a bound and the number that a run of ASCII digits stands for, found without a
number that is much greater than the bound. -/
def boundedValue (bound : Nat) (s : List Char) : Nat :=
  s.foldl (fun n c => min bound (10 * n + (c.toNat - '0'.toNat))) 0

theorem foldl_min_eq (bound : Nat) (s : List Char) (m n : Nat) (h : m = min bound n) :
    s.foldl (fun n c => min bound (10 * n + (c.toNat - '0'.toNat))) m =
      min bound (s.foldl (fun n c => 10 * n + (c.toNat - '0'.toNat)) n) := by
  induction s generalizing m n with
  | nil => exact h
  | cons c rest ih =>
    simp only [List.foldl_cons]
    apply ih
    omega

theorem boundedValue_eq_min (bound : Nat) (s : List Char) :
    boundedValue bound s = min bound (digitsValue s) :=
  foldl_min_eq bound s 0 0 (by omega)

/-- Removes the low lines that stand between two digits, `none` if one stands elsewhere; `before`
is the character in front. -/
def dropLowLines (isDigit : Char → Bool) (before : Char) : List Char → Option (List Char)
  | [] => some []
  | c :: rest =>
    if c == '_' then
      if isDigit before && rest.head?.any isDigit then dropLowLines isDigit c rest else none
    else (dropLowLines isDigit c rest).map (c :: ·)

/-- A sign and the rest: whether the number is negative, and what follows. -/
def splitSign : List Char → Bool × List Char
  | '-' :: rest => (true, rest)
  | '+' :: rest => (false, rest)
  | s => (false, s)

/-- Why a text is no integer. -/
inductive IntegerFault where
  | notNumeral
  | tooLong (digits : Nat)
  deriving DecidableEq, Repr

/-- The greatest number of digits of an integer in text. -/
def digitLimit : Nat := 4300

/-- The words for a number with too many digits. -/
def tooLongMessage (digits : Nat) : String :=
  s!"Exceeds the limit ({digitLimit} digits) for integer string conversion: " ++
    s!"value has {digits} digits; use sys.set_int_max_str_digits() to increase the limit"

/-- The value of a digit in a base of at most sixteen. -/
def digitIn? (base : Nat) (c : Char) : Option Nat := (hexValue? c).filter (· < base)

/-- The number that digits in a base stand for. -/
def valueIn (base : Nat) (s : List Char) : Nat :=
  s.foldl (fun n c => base * n + (digitIn? base c).getD 0) 0

/-- The letter behind a zero that announces a base. -/
def baseLetter? : Nat → Option Char
  | 2 => some 'b'
  | 8 => some 'o'
  | 16 => some 'x'
  | _ => none

/-- The characters behind the announcement of a base, if there is one, and behind a low line after
it. -/
def afterBase (base : Nat) (s : List Char) : List Char :=
  match s with
  | '0' :: letter :: rest =>
    if baseLetter? base = some letter.toLower then
      match rest with
      | '_' :: behind => behind
      | rest => rest
    else s
  | s => s

/-- The integer that a text stands for in a base.  The number of digits is bounded in base ten,
where it takes the most work to find the value. -/
def readIntegerIn (base : Nat) (s : String) : Except IntegerFault Int :=
  let isDigit (c : Char) := (digitIn? base c).isSome
  let (negative, body) := splitSign (asciiDigits (stripChars isWhite s.toList))
  let body := afterBase base body
  let run := body.takeWhile fun c => isDigit c || c == '_'
  match dropLowLines isDigit ' ' run with
  | none => .error .notNumeral
  | some digits =>
    if digits.isEmpty then .error .notNumeral
    else if base = 10 ∧ digitLimit < digits.length then .error (.tooLong digits.length)
    else if run.length < body.length then .error .notNumeral
    else .ok (if negative then -(valueIn base digits : Int) else valueIn base digits)

/-- The integer that a text stands for. -/
def readInteger (s : String) : Except IntegerFault Int := readIntegerIn 10 s

/-- Whether an integer has few enough digits to be written. -/
def isWritable (n : Int) : Bool := n.natAbs < Nat.pow 10 digitLimit

/-- The words for an integer with too many digits to be written. -/
def unwritableMessage : String :=
  s!"Exceeds the limit ({digitLimit} digits) for integer string conversion; " ++
    "use sys.set_int_max_str_digits() to increase the limit"

/-- The double nearest to `m · 10 ^ e`. -/
def scaled (m : Nat) (e : Int) : Float :=
  if 0 ≤ e then Float.ofScientific m false e.toNat else Float.ofScientific m true (-e).toNat

/-- A number of digits that settles how a decimal is rounded, together with whether anything but
zeros follows them: the middle between two neighbouring doubles has at most 768. -/
def decisiveDigits : Nat := 800

/-- The double nearest to `digits · 10 ^ e`.  Digits behind the decisive ones only say whether the
decimal is greater than the decisive ones alone, and a one in their place says as much. -/
def roundDecimal (digits : List Char) (e : Int) : Float :=
  let significant := digits.dropWhile (· == '0')
  let rest := significant.drop decisiveDigits
  let kept := significant.take decisiveDigits ++ if rest.all (· == '0') then [] else ['1']
  scaled (digitsValue kept) (e + significant.length - kept.length)

/-- The greatest size of an exponent behind a number of digits that is told from a greater one: from
there on the decimal is an infinity or zero, wherever its point stands. -/
def exponentBound (digits : Nat) : Nat := digits + 400

/-- The exponent behind a decimal's digits: nothing, or a letter, an optional sign and digits. -/
def readExponent? (bound : Nat) : List Char → Option Int
  | [] => some 0
  | e :: rest =>
    let (negative, digits) := splitSign rest
    if (e == 'e' || e == 'E') && !digits.isEmpty && digits.all Char.isDigit then
      let n : Int := boundedValue bound digits
      some (if negative then -n else n)
    else none

/-- The double nearest to an unsigned decimal in ASCII. -/
def readDecimal? (s : List Char) : Option Float :=
  let whole := s.takeWhile Char.isDigit
  let rest := s.dropWhile Char.isDigit
  let (fraction, rest) := match rest with
    | '.' :: rest => (rest.takeWhile Char.isDigit, rest.dropWhile Char.isDigit)
    | rest => ([], rest)
  if whole.isEmpty && fraction.isEmpty then none
  else
    let digits := whole ++ fraction
    (readExponent? (exponentBound digits.length) rest).map fun e =>
      roundDecimal digits (e - fraction.length)

/-- The number that a text stands for, rounded to the nearest double. -/
def readFloat? (s : String) : Option Float := do
  let body ← dropLowLines Char.isDigit ' ' (asciiDigits (stripChars isWhite s.toList))
  let (negative, body) := splitSign body
  let name := String.ofList (body.map Char.toLower)
  let magnitude ←
    if name == "inf" || name == "infinity" then some (1.0 / 0.0)
    else if name == "nan" then some (0.0 / 0.0)
    else readDecimal? body
  return if negative then -magnitude else magnitude

end SuiteBalance.Number
