import SuiteBalance.Log
import SuiteBalance.Text.Word
import SuiteBalance.Value.Basic

/-!
# Settings — placeholders

A text may hold placeholders for environment variables: a dollar sign and a name in braces.
**`pieces`** cuts a text into placeholders and the characters between them, and **`Value.expand`**
puts the values of the variables in their places, wherever a value holds a text; keys stay as they
are, and what is put in is not looked at again.  A variable that is not set counts as empty and is
reported, once for each of its places.  The walk over a value that looks for texts calls itself on
each level, for which the machine's **`Stack`** has only so many frames, and comes to no end in a
value that stands inside itself.
-/

namespace SuiteBalance

namespace Placeholder

/-- A code point of a text, or a placeholder. -/
inductive Piece where
  | point (p : CodePoint)
  | variable (name : List Char)
  deriving DecidableEq, Repr

/-- Whether a code point may stand in the name of a variable. -/
def isNamePoint (p : CodePoint) : Bool := p.isOf Text.isWord

/-- The name of the placeholder at the start of a text, and the rest. -/
def read? : List CodePoint → Option (List Char × List CodePoint)
  | '$' :: '{' :: rest =>
    let name := (rest.takeWhile isNamePoint).filterMap CodePoint.char?
    match rest.dropWhile isNamePoint with
    | '}' :: behind => if name.isEmpty then none else some (name, behind)
    | _ => none
  | _ => none

theorem length_dropWhile_le {α : Type} (p : α → Bool) (l : List α) :
    (l.dropWhile p).length ≤ l.length := by
  induction l with
  | nil => simp
  | cons a l ih => grind [List.dropWhile]

theorem length_of_read? {s behind : List CodePoint} {name : List Char}
    (h : read? s = some (name, behind)) :
    behind.length < s.length := by
  unfold read? at h
  split at h
  · rename_i rest
    split at h
    · rename_i _ tail heq
      have := length_dropWhile_le isNamePoint rest
      grind
    · exact absurd h (by simp)
  · exact absurd h (by simp)

/-- The pieces of a text. -/
def pieces (s : List CodePoint) : List Piece :=
  match s with
  | [] => []
  | p :: rest =>
    match h : read? (p :: rest) with
    | some (name, behind) =>
      have := length_of_read? h
      .variable name :: pieces behind
    | none => .point p :: pieces rest
termination_by s.length
decreasing_by
  · exact this
  · exact Nat.lt_succ_self rest.length

/-- How a piece is written. -/
def Piece.written : Piece → List CodePoint
  | .point p => [p]
  | .variable name => '$' :: '{' :: (name.map CodePoint.char ++ [.char '}'])

theorem not_isSurrogate_of_isNamePoint {p : CodePoint} (h : isNamePoint p = true) :
    ¬p.isSurrogate = true := by
  cases p <;> simp_all [isNamePoint, CodePoint.isOf, CodePoint.isSurrogate]

theorem map_char_name (s : List CodePoint) :
    ((s.takeWhile isNamePoint).filterMap CodePoint.char?).map .char = s.takeWhile isNamePoint := by
  refine Text.map_char_filterMap_char? fun h => ?_
  obtain ⟨p, hp, hs⟩ := List.any_eq_true.1 h
  have all := List.all_eq_true.1 (List.all_takeWhile (p := isNamePoint) (l := s))
  exact not_isSurrogate_of_isNamePoint (all p hp) hs

theorem eq_of_read? {s behind : List CodePoint} {name : List Char}
    (h : read? s = some (name, behind)) :
    s = (Piece.variable name).written ++ behind := by
  unfold read? at h
  split at h
  · rename_i rest
    split at h
    · rename_i tail heq
      have whole := List.takeWhile_append_dropWhile (p := isNamePoint) (l := rest)
      have name := map_char_name rest
      rw [heq] at whole
      simp only at h
      split at h
      · exact absurd h (by simp)
      · obtain ⟨rfl, rfl⟩ := Prod.mk.inj (Option.some.inj h)
        simp [Piece.written, name, whole]
    · exact absurd h (by simp)
  · exact absurd h (by simp)

/-- The pieces make up the text. -/
theorem flatMap_written_pieces (s : List CodePoint) :
    (pieces s).flatMap Piece.written = s := by
  fun_induction pieces s with
  | case1 => rfl
  | case2 p rest name behind h _ ih => simp [ih, ← eq_of_read? h]
  | case3 p rest h ih => simp [ih, Piece.written]

/-- What a piece stands for, given the values of the variables. -/
def Piece.expand (lookup : String → Option String) : Piece → List CodePoint
  | .point p => [p]
  | .variable name => ((lookup (String.ofList name)).getD "" : Text).points

/-- The name of the variable of a piece. -/
def Piece.name? : Piece → Option String
  | .point _ => none
  | .variable name => some (String.ofList name)

/-- The names of the variables of a text, in the order of their places. -/
def names (s : Text) : List String := (pieces s.points).filterMap Piece.name?

/-- A text with the values of the variables in the places of the placeholders. -/
def expand (lookup : String → Option String) (s : Text) : Text :=
  .ofPoints ((pieces s.points).flatMap (Piece.expand lookup))

end Placeholder

namespace Value

mutual

/-- A value with the variables of its texts put in. -/
def expand (lookup : String → Option String) : Value → Value
  | .text s => .text (Placeholder.expand lookup s)
  | .list items => .list (expandItems lookup items)
  | .mapping fields => .mapping (expandFields lookup fields)
  | v => v

/-- Values with the variables of their texts put in. -/
def expandItems (lookup : String → Option String) : List Value → List Value
  | [] => []
  | v :: rest => expand lookup v :: expandItems lookup rest

/-- Fields with the variables of their texts put in. -/
def expandFields (lookup : String → Option String) :
    List (Value × Value) → List (Value × Value)
  | [] => []
  | (key, v) :: rest => (key, expand lookup v) :: expandFields lookup rest

end

mutual

/-- The names of the variables in a value, in the order of their places. -/
def variableNames : Value → List String
  | .text s => Placeholder.names s
  | .list items => variableNamesIn items
  | .mapping fields => variableNamesOf fields
  | _ => []

/-- The names of the variables in some values. -/
def variableNamesIn : List Value → List String
  | [] => []
  | v :: rest => variableNames v ++ variableNamesIn rest

/-- The names of the variables in some fields. -/
def variableNamesOf : List (Value × Value) → List String
  | [] => []
  | (_, v) :: rest => variableNames v ++ variableNamesOf rest

end

/-- The frames that a machine's stack has for calls, and how many of them they take.  It depends on
the machine, and on where it is called from. -/
class Stack where
  /-- How many frames are left where the walk over a value begins. -/
  frames : Nat
  /-- How many are taken around the walk over the items of a list. -/
  list : Nat
  /-- How many are taken around the walk over the values of a mapping. -/
  mapping : Nat
  /-- How many the walk takes for a value that it does not go into, at most. -/
  leaf : Value → Nat
  /-- How many it takes to look up a variable, by its name and its value, at most. -/
  lookup : String → Option String → Nat
  /-- Whether there are frames enough to write a value that holds others as a text. -/
  writes : Value → Bool
  list_pos : 0 < list

variable [Stack]

/-- What a walk over the texts of a value meets: the names of their variables, in the order of
their places, and whether the walk gets through. -/
structure Walk where
  names : List String := []
  through : Bool := true
  deriving DecidableEq, Repr

/-- A walk, and a further one if it gets through. -/
def Walk.andThen (first : Walk) (next : Unit → Walk) : Walk :=
  if first.through then
    let second := next ()
    ⟨first.names ++ second.names, second.through⟩
  else first

/-- The walk over variables that are looked up, with `depth` frames left. -/
def walkNames (lookup : String → Option String) (depth : Nat) : List String → Walk
  | [] => {}
  | name :: rest =>
    if depth < Stack.lookup name (lookup name) then ⟨[], false⟩
    else (⟨[name], true⟩ : Walk).andThen fun _ => walkNames lookup depth rest

mutual

/-- The walk over a value, with `depth` frames left. -/
def walk (lookup : String → Option String) (depth : Nat) : Value → Walk
  | .text s =>
    if depth < Stack.leaf (.text s) then ⟨[], false⟩
    else walkNames lookup depth (Placeholder.names s)
  | .list items =>
    if depth < Stack.list then ⟨[], false⟩ else walkItems lookup (depth - Stack.list) items
  | .mapping fields =>
    if depth < Stack.mapping then ⟨[], false⟩ else walkFields lookup (depth - Stack.mapping) fields
  | .again _ => ⟨[], false⟩
  | v => if depth < Stack.leaf v then ⟨[], false⟩ else {}

/-- The walk over some values. -/
def walkItems (lookup : String → Option String) (depth : Nat) : List Value → Walk
  | [] => {}
  | v :: rest => (walk lookup depth v).andThen fun _ => walkItems lookup depth rest

/-- The walk over some fields. -/
def walkFields (lookup : String → Option String) (depth : Nat) : List (Value × Value) → Walk
  | [] => {}
  | (_, v) :: rest => (walk lookup depth v).andThen fun _ => walkFields lookup depth rest

end

/-- The walk over a value with all frames that are left. -/
def wholeWalk (v : Value) (lookup : String → Option String) : Walk := v.walk lookup Stack.frames

/-- The notices about the variables in a value that are not set. -/
def unsetNotices (v : Value) (lookup : String → Option String) : List Notice :=
  ((v.wholeWalk lookup).names.filter fun name => (lookup name).isNone).map .unsetVariable

/-- A value with the variables of its texts put in, unless it is nested too deeply or stands inside
itself. -/
def expand? (v : Value) (lookup : String → Option String) : Option Value :=
  if (v.wholeWalk lookup).through then some (expand lookup v) else none

/-- Whether there are frames enough to write a value as a text, which takes none for one that holds
no others. -/
def fits (v : Value) : Bool :=
  match v with
  | .list _ | .mapping _ | .set _ | .pair .. => Stack.writes v
  | _ => true

end Value

end SuiteBalance
