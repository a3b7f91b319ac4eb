import SuiteBalance.Number.Double

/-!
# Number — fixed notation

Durations in messages and tables have one digit after the point.  The digit is rounded from the
exact value of the double, a tie goes to the even digit, and the sign is kept even where the
digits are all zero.
-/

namespace SuiteBalance.Number

/-- A double with one digit after the point. -/
def oneDecimal (x : Float) : String :=
  match Double.ofFloat x with
  | .notANumber => "nan"
  | .infinite negative => if negative then "-inf" else "inf"
  | .finite negative m q =>
    let (n, d) := ratio m q
    let tenths := roundQuotient (10 * n) d
    (if negative then "-" else "") ++ s!"{tenths / 10}.{tenths % 10}"

end SuiteBalance.Number
