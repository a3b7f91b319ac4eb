import SuiteBalance.Value.Spread
import SuiteBalance.Yaml.Object

/-!
# YAML — the value of a document

The objects of a document are unfolded into one value.  An object that stands inside itself is
unfolded once on the way down.  A pair is looked at from the pair itself: what stands around it
does not count as met, since a list that is put together anew holds the same pairs.
-/

namespace SuiteBalance.Yaml

/-- A place among objects: the object of a node, or a pair in a list of pairs. -/
inductive Place where
  | whole (n : Nat)
  | pair (n position : Nat)
  deriving DecidableEq, Repr

/-- The places around another, the innermost first, and whether one of them is a pair. -/
structure Surroundings where
  places : List Place := []
  inPair : Bool := false

namespace Surroundings

/-- Whether a place is around. -/
def has (s : Surroundings) (p : Place) : Bool := s.places.contains p

/-- The surroundings of what an object holds. -/
def within (s : Surroundings) (n : Nat) : Surroundings := { s with places := .whole n :: s.places }

/-- The surroundings of what a pair holds. -/
def withinPair (s : Surroundings) (n position : Nat) : Surroundings :=
  ⟨.pair n position :: (if s.inPair then s.places else []), true⟩

end Surroundings

mutual

/-- The value of an object at a place; the fuel bounds the depth. -/
def unfold (objects : Array (Option Object)) : Nat → Surroundings → Nat → Value
  | 0, _, _ => .null
  | fuel + 1, around, n =>
    match (objects.getD n none).getD default with
    | .single v => v.value
    | .set keys => .set (Value.spread (keys.map Single.value))
    | .list items =>
      if around.has (.whole n) then .again .list
      else .list (items.map (unfold objects fuel (around.within n)))
    | .mapping fields =>
      if around.has (.whole n) then .again .mapping
      else .mapping (fields.map fun (k, v) => (k.value, unfold objects fuel (around.within n) v))
    | .pairs items =>
      if around.has (.whole n) then .again .list
      else .list (items.mapIdx fun position (k, v) =>
        unfoldPair objects fuel (around.within n) n position k v)

/-- The value of a pair in a list of pairs. -/
def unfoldPair (objects : Array (Option Object)) :
    Nat → Surroundings → Nat → Nat → Nat → Nat → Value
  | 0, _, _, _, _, _ => .null
  | fuel + 1, around, n, position, k, v =>
    if around.has (.pair n position) then .again .pair
    else
      let around := around.withinPair n position
      .pair (unfold objects fuel around k) (unfold objects fuel around v)

end

/-- The number of places among objects. -/
def placeCount (objects : Array (Option Object)) : Nat :=
  objects.foldl (fun count o =>
    match o with
    | some (.pairs items) => count + 1 + items.length
    | _ => count + 1) 0

/-- The value of a document whose line breaks are unified; a document without content stands for
nothing. -/
def parse (document : List Char) : Except Fault Value := do
  if !document.all isAllowed then throw .unprintable
  match ← graph document with
  | (_, none) => return .null
  | (g, some root) =>
    let objects ← objects g root
    return unfold objects (2 * placeCount objects + 3) {} root

end SuiteBalance.Yaml
