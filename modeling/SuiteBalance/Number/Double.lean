/-!
# Number — doubles taken apart

A finite double is a sign, a significand and a power of two, and every exact computation on
doubles, for printing them and for rounding them to integers, works on these three.

* **`Double.ofFloat`** takes a `Float` apart by its bit pattern.
* **`roundQuotient`** is the integer nearest to a quotient, the even one of two.
* **`truncate`** and **`nearest`** turn a double into an integer, or say why there is none.
-/

namespace SuiteBalance.Number

/-- A double: not a number, an infinity, or `± significand · 2 ^ exponent`. -/
inductive Double where
  | notANumber
  | infinite (negative : Bool)
  | finite (negative : Bool) (significand : Nat) (exponent : Int)
  deriving DecidableEq, Repr

/-- The double that a bit pattern stands for. -/
def Double.ofFloat (x : Float) : Double :=
  let bits : Nat := x.toBits.toNat
  let negative := bits / Nat.pow 2 63 % 2 == 1
  let field : Nat := bits / Nat.pow 2 52 % 2048
  let fraction : Nat := bits % Nat.pow 2 52
  if field = 2047 then
    if fraction = 0 then .infinite negative else .notANumber
  else if field = 0 then .finite negative fraction (-1074)
  else .finite negative (Nat.pow 2 52 + fraction) ((field : Int) - 1075)

/-- The numerator and the denominator of `m · 2 ^ q`. -/
def ratio (m : Nat) (q : Int) : Nat × Nat :=
  if 0 ≤ q then (m * Nat.pow 2 q.toNat, 1) else (m, Nat.pow 2 (-q).toNat)

/-- The integer nearest to `n / d`; halfway between two, the even one. -/
def roundQuotient (n d : Nat) : Nat :=
  let q := n / d
  let r := n % d
  if 2 * r < d then q else if 2 * r = d ∧ q % 2 = 0 then q else q + 1

/-- Why a double has no integer near it. -/
inductive Unbounded where
  | infinite
  | notANumber
  deriving DecidableEq, Repr

/-- The words for a double without an integer. -/
def Unbounded.message : Unbounded → String
  | .infinite => "cannot convert float infinity to integer"
  | .notANumber => "cannot convert float NaN to integer"

/-- The integer with the given sign and magnitude. -/
def signed (negative : Bool) (n : Nat) : Int := if negative then -(n : Int) else n

/-- Turns a finite double into an integer by a rule for the magnitude, given as a quotient. -/
def toInteger (rule : Nat → Nat → Nat) (x : Float) : Except Unbounded Int :=
  match Double.ofFloat x with
  | .notANumber => .error .notANumber
  | .infinite _ => .error .infinite
  | .finite negative m q =>
    let (n, d) := ratio m q
    .ok (signed negative (rule n d))

/-- The integer part of a double. -/
def truncate (x : Float) : Except Unbounded Int := toInteger (· / ·) x

/-- The integer nearest to a double; halfway between two, the even one. -/
def nearest (x : Float) : Except Unbounded Int := toInteger roundQuotient x

end SuiteBalance.Number
