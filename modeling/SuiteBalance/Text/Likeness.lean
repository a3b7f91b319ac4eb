/-!
# Text — likeness

How alike two texts are: their longest common stretch is matched, then what stands before it and
what stands behind it in the same way, and the characters that are matched count against all
characters of both.  **`closest`** picks the names that are like a word.
-/

namespace SuiteBalance.Text

/-- The length of the common start of two texts. -/
def commonStart : List Char → List Char → Nat
  | a :: as, b :: bs => if a == b then commonStart as bs + 1 else 0
  | _, _ => 0

/-- A common stretch of two texts: where it starts in each, and its length. -/
structure Stretch where
  left : Nat
  right : Nat
  length : Nat
  deriving DecidableEq, Repr

/-- The longer of two stretches, the first of two that are as long as each other. -/
def Stretch.longer (s t : Stretch) : Stretch := if s.length < t.length then t else s

/-- The longest common stretch of two texts: of several the one that starts first in the left
text, then the one that starts first in the right text. -/
def longestStretch (a b : List Char) : Stretch :=
  let starts := (List.range a.length).flatMap fun i => (List.range b.length).map fun j => (i, j)
  (starts.map fun (i, j) => ⟨i, j, commonStart (a.drop i) (b.drop j)⟩).foldl Stretch.longer ⟨0, 0, 0⟩

/-- How many characters of two texts are matched. -/
def matchedLength (a b : List Char) : Nat :=
  let s := longestStretch a b
  if _h : 0 < s.length ∧ s.left < a.length then
    matchedLength (a.take s.left) (b.take s.right) + s.length +
      matchedLength (a.drop (s.left + s.length)) (b.drop (s.right + s.length))
  else 0
termination_by a.length
decreasing_by
  · rw [List.length_take]
    exact Nat.lt_of_le_of_lt (Nat.min_le_left _ _) _h.2
  · rw [List.length_drop]
    exact Nat.sub_lt (Nat.lt_of_le_of_lt (Nat.zero_le _) _h.2) (Nat.add_pos_right _ _h.1)

/-- How alike two texts are: the matched characters and all characters, of which twice the first
is at most the second. -/
structure Likeness where
  matched : Nat
  total : Nat
  deriving DecidableEq, Repr

/-- How alike two texts are. -/
def likeness (a b : String) : Likeness :=
  ⟨matchedLength a.toList b.toList, a.length + b.length⟩

/-- Whether six tenths of the characters are matched. -/
def Likeness.suffices (l : Likeness) : Bool := 6 * l.total ≤ 10 * (2 * l.matched)

/-- Whether two texts have lengths with which six tenths of the characters can be matched: no more
are matched in either text than the shorter one has. -/
def haveLikeLengths (a b : String) : Bool :=
  6 * (a.length + b.length) ≤ 10 * (2 * min a.length b.length)

/-- Whether a likeness is greater than another. -/
def Likeness.exceeds (l k : Likeness) : Bool := k.matched * l.total < l.matched * k.total

/-- Whether a name stands in front of another by its likeness to a word, and by its characters
where they are as alike. -/
def isCloser (word name other : String) : Bool :=
  let l := likeness name word
  let k := likeness other word
  l.exceeds k || (!k.exceeds l && other ≤ name)

/-- How many names are picked. -/
def closestCount : Nat := 3

/-- The names that are like a word, at most `closestCount`, the closest first. -/
def closest (names : List String) (word : String) : List String :=
  let alike := names.filter fun name =>
    haveLikeLengths name word && (likeness name word).suffices
  (alike.mergeSort (isCloser word)).take closestCount

end SuiteBalance.Text
