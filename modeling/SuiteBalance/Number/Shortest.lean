import SuiteBalance.Number.Double

/-!
# Number — the shortest decimal of a double

The reals that round to a double form an interval around it.  **`shortest`** gives the decimal
with the fewest digits in that interval and, among those, the one nearest to the double.  It
tests the decimals of one digit, of two, and so on up to seventeen, of which there is always one
in the interval: of each length only the two neighbours of the double can be the nearest.
-/

namespace SuiteBalance.Number

/-- The decimal `digits · 10 ^ exponent`. -/
structure Decimal where
  digits : Nat
  exponent : Int
  deriving DecidableEq, Repr

/-- How many decimal digits a number has; zero has one. -/
def digitCount (n : Nat) : Nat := (Nat.toDigits 10 n).length

/-- The interval of a double, as numerators over one denominator: the double, how far the interval
reaches below and above it, and whether it holds its ends. -/
structure Interval where
  value : Nat
  below : Nat
  above : Nat
  denominator : Nat
  closed : Bool

/-- The interval of `m · 2 ^ q`.  Below the least significand of an exponent the doubles lie twice
as close, unless the exponent is the least. -/
def Interval.of (m : Nat) (q : Int) : Interval :=
  let (scale, denominator) := ratio 1 q
  let below := if m = Nat.pow 2 52 ∧ q ≠ -1074 then 1 else 2
  ⟨4 * m * scale, below * scale, 2 * scale, 4 * denominator, m % 2 = 0⟩

/-- Whether `n / d`, given over the interval's own denominator times `d`, lies in the interval. -/
def Interval.contains (i : Interval) (n : Nat) : Bool :=
  if i.closed then i.value ≤ n + i.below && n ≤ i.value + i.above
  else i.value < n + i.below && n < i.value + i.above

/-- The interval in units of `10 ^ exponent`. -/
def Interval.inUnits (i : Interval) (exponent : Int) : Interval :=
  if 0 ≤ exponent then { i with denominator := i.denominator * Nat.pow 10 exponent.toNat }
  else
    let scale := Nat.pow 10 (-exponent).toNat
    { i with value := i.value * scale, below := i.below * scale, above := i.above * scale }

/-- The nearest multiple of a unit in the interval, if one of the double's two neighbours among
the multiples lies in it; of two equally near ones the even one. -/
def Interval.nearestUnit? (i : Interval) : Option Nat :=
  let low := i.value / i.denominator
  let rest := i.value % i.denominator
  match i.contains (low * i.denominator), i.contains ((low + 1) * i.denominator) with
  | true, true =>
    if 2 * rest < i.denominator ∨ (2 * rest = i.denominator ∧ low % 2 = 0) then some low
    else some (low + 1)
  | true, false => some low
  | false, true => some (low + 1)
  | false, false => none

/-- The number of digits before the point of a positive quotient, zero or negative for a quotient
below one. -/
def magnitude (n d : Nat) : Int :=
  let p : Int := (digitCount n : Int) - digitCount d
  let fits := if 0 ≤ p then n < d * Nat.pow 10 p.toNat else n * Nat.pow 10 (-p).toNat < d
  if fits then p else p + 1

/-- The decimal without the zeros at the end of its digits; the fuel bounds their number. -/
def Decimal.dropZeros : Nat → Decimal → Decimal
  | 0, x => x
  | fuel + 1, x =>
    if x.digits ≠ 0 ∧ x.digits % 10 = 0 then dropZeros fuel ⟨x.digits / 10, x.exponent + 1⟩ else x

/-- The shortest decimal of the positive double `m · 2 ^ q`. -/
def shortest (m : Nat) (q : Int) : Decimal :=
  let interval := Interval.of m q
  let point := magnitude interval.value interval.denominator
  let ofLength (length : Nat) : Option Decimal :=
    let exponent := point - length
    ((interval.inUnits exponent).nearestUnit?).map fun digits => ⟨digits, exponent⟩
  let found := (List.range 17).findSome? fun n => ofLength (n + 1)
  (found.getD ⟨0, 0⟩).dropZeros 20

end SuiteBalance.Number
