import SuiteBalance.Value.Basic

/-!
# Values — the order of a set

A set shows its members in an order of its own.  Numbers are spread over a table of places: each
asks for a place by its **`residue`**, goes on to other places where that one is taken, and the
set shows the table from its first place to its last (**`spread`**).  A set that holds anything
but numbers keeps the order in which its members were given.
-/

namespace SuiteBalance.Value

/-- The modulus of residues, a prime that powers of two take sixty-one steps to go round. -/
def residueModulus : Nat := Nat.pow 2 61 - 1

/-- The residue of `± m · 2 ^ q`, of which minus one and minus two have the same. -/
def residueOf (negative : Bool) (m : Nat) (q : Int) : Int :=
  let r := Number.signed negative (m * Nat.pow 2 (q % 61).toNat % residueModulus)
  if r = -1 then -2 else r

/-- The residue of a number, by which it asks for a place. -/
def KeyNumber.residue : KeyNumber → Int
  | .integer n => residueOf (n < 0) n.natAbs 0
  | .real bits =>
    match Number.Double.ofFloat (Float.ofBits bits) with
    | .finite negative m q => residueOf negative m q
    | .infinite negative => Number.signed negative 314159
    | .notANumber => 0

/-- The number of places for the members of a set: a power of two, and more than twice their
number where they are five or more. -/
def placesFor (count : Nat) : Nat := if count < 5 then 8 else Nat.pow 2 (Nat.log2 (2 * count) + 1)

/-- The first free place of those that are looked at together: ten in a row, or one alone where
fewer than ten are left. -/
def freeFrom? (table : Array (Option Value)) (start : Nat) : Option Nat :=
  (List.range' start (if start + 10 ≤ table.size then 10 else 1)).find? fun i =>
    (table.getD i none).isNone

/-- The place that a member takes: where none is free, it goes on to another place that five bits
more of its residue choose, and at last to all places in turn.  The fuel bounds the number of
places that it goes on to. -/
def freePlace (table : Array (Option Value)) : Nat → Nat → Nat → Nat
  | 0, _, start => start
  | fuel + 1, residue, start =>
    match freeFrom? table start with
    | some i => i
    | none =>
      let residue := residue / 32
      freePlace table fuel residue ((5 * start + 1 + residue) % table.size)

/-- Sets a member on the place that it takes. -/
def place (table : Array (Option Value)) (member : KeyNumber × Value) : Array (Option Value) :=
  let residue := (member.1.residue % (Nat.pow 2 64 : Nat)).toNat
  let i := freePlace table (table.size + 14) residue (residue % table.size)
  table.setIfInBounds i (some member.2)

/-- The members of a set in the order in which they show. -/
def spread (members : List Value) : List Value :=
  match members.mapM fun v => v.keyNumber?.map fun n => (n, v) with
  | some numbers =>
    let table := numbers.foldl place (Array.replicate (placesFor members.length) none)
    table.toList.filterMap id
  | none => members

end SuiteBalance.Value
