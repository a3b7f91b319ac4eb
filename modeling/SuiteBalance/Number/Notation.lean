import SuiteBalance.Number.Shortest

/-!
# Number — the text of a double

A double is written with the digits of its shortest decimal, so that reading the text gives the
double back.  What a format decides is kept in a **`FloatFormat`**: which decimal exponents are
written out with a point, and the names of the values that are no numbers.
-/

namespace SuiteBalance.Number

/-- The decisions of a format for doubles. -/
structure FloatFormat where
  /-- The least decimal exponent that is written with a point alone. -/
  lowest : Int
  /-- The greatest decimal exponent that is written with a point alone. -/
  highest : Int
  infinity : String
  notANumber : String

/-- The format of messages: exponents from -4 to 15 are written out. -/
def plainFormat : FloatFormat := ⟨-4, 15, "inf", "nan"⟩

/-- The format of documents, which differs from that of messages in its names. -/
def documentFormat : FloatFormat := ⟨-4, 15, "Infinity", "NaN"⟩

/-- The exponent of scientific notation: a sign and at least two digits. -/
def exponentText (e : Int) : String :=
  let digits := toString e.natAbs
  (if e < 0 then "e-" else "e+") ++ (if digits.length < 2 then "0" else "") ++ digits

/-- Digits with the point behind the first `point` of them, zeros filled in on either side. -/
def positional (digits : List Char) (point : Int) : String :=
  if point ≤ 0 then
    "0." ++ String.ofList (List.replicate (-point).toNat '0' ++ digits)
  else
    let whole := digits.take point.toNat
    let fraction := digits.drop point.toNat
    String.ofList (whole ++ List.replicate (point.toNat - whole.length) '0') ++ "." ++
      if fraction.isEmpty then "0" else String.ofList fraction

/-- Digits in scientific notation; a single digit stands without a point. -/
def scientific (digits : List Char) (exponent : Int) : String :=
  String.ofList (digits.take 1) ++
    (if digits.length ≤ 1 then "" else "." ++ String.ofList (digits.drop 1)) ++
    exponentText exponent

/-- The text of a positive decimal. -/
def Decimal.text (format : FloatFormat) (x : Decimal) : String :=
  let digits := Nat.toDigits 10 x.digits
  let point := x.exponent + digits.length
  if format.lowest ≤ point - 1 ∧ point - 1 ≤ format.highest then positional digits point
  else scientific digits (point - 1)

/-- The text of a double in a format. -/
def FloatFormat.text (format : FloatFormat) (x : Float) : String :=
  match Double.ofFloat x with
  | .notANumber => format.notANumber
  | .infinite negative => (if negative then "-" else "") ++ format.infinity
  | .finite negative m q =>
    (if negative then "-" else "") ++ if m = 0 then "0.0" else (shortest m q).text format

/-- The text of a double in messages. -/
def floatText (x : Float) : String := plainFormat.text x

end SuiteBalance.Number
