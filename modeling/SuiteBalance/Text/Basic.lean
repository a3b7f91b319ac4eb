/-!
# Text

A **`Text`** is a sequence of **`CodePoint`**s.  Nearly all of them are characters, but a document
can also name a *surrogate*, half of the code of another character, where its other half is
missing.  Such a text can be compared, put together and quoted like any other; only a writer that
needs bytes cannot take it.  A text without surrogates is a string.

* **`CodePoint.value`** and **`CodePoint.ofNat`** go from code points to their numbers and back.
* **`Text.points`** and **`Text.ofPoints`** go from texts to their code points and back.
-/

namespace SuiteBalance

/-- The first surrogate. -/
def firstSurrogate : Nat := 0xd800

/-- A code point: a character, or a surrogate by its distance from the first. -/
inductive CodePoint where
  | char (c : Char)
  | surrogate (offset : Fin 0x800)
  deriving DecidableEq, Repr

namespace CodePoint

instance : Coe Char CodePoint := ⟨.char⟩

/-- The number of a code point. -/
def value : CodePoint → Nat
  | .char c => c.toNat
  | .surrogate offset => firstSurrogate + offset

/-- The code point with a number. -/
def ofNat (n : Nat) : CodePoint :=
  if h : firstSurrogate ≤ n ∧ n - firstSurrogate < 0x800 then .surrogate ⟨n - firstSurrogate, h.2⟩
  else .char (Char.ofNat n)

/-- The character that a code point is, if it is one. -/
def char? : CodePoint → Option Char
  | .char c => some c
  | .surrogate _ => none

/-- Whether a code point is a surrogate. -/
def isSurrogate : CodePoint → Bool
  | .char _ => false
  | .surrogate _ => true

/-- Whether a code point is a character of a kind. -/
def isOf (kind : Char → Bool) : CodePoint → Bool
  | .char c => kind c
  | .surrogate _ => false

theorem ofNat_value (p : CodePoint) : ofNat p.value = p := by
  cases p with
  | char c =>
    have hs : ¬(firstSurrogate ≤ c.toNat ∧ c.toNat - firstSurrogate < 0x800) := by
      have hc : c.toNat < 0xd800 ∨ 0xdfff < c.toNat ∧ c.toNat < 0x110000 := c.valid
      simp only [firstSurrogate]
      omega
    rw [value, ofNat, dif_neg hs, Char.ofNat_toNat]
  | surrogate offset =>
    have hs : firstSurrogate ≤ firstSurrogate + offset.val ∧
        firstSurrogate + offset.val - firstSurrogate < 0x800 := by
      have := offset.isLt
      omega
    rw [value, ofNat, dif_pos hs]
    simp

end CodePoint

/-- A text: a string, or code points of which one at least is a surrogate. -/
inductive Text where
  | ofString (s : String)
  | withSurrogate (points : List CodePoint) (present : points.any CodePoint.isSurrogate = true)
  deriving DecidableEq, Repr

namespace Text

instance : Coe String Text := ⟨.ofString⟩

instance : Inhabited Text := ⟨""⟩

/-- The code points of a text. -/
def points : Text → List CodePoint
  | .ofString s => s.toList.map .char
  | .withSurrogate points _ => points

/-- The text of some code points. -/
def ofPoints (points : List CodePoint) : Text :=
  if h : points.any CodePoint.isSurrogate = true then .withSurrogate points h
  else .ofString (String.ofList (points.filterMap CodePoint.char?))

theorem map_char_filterMap_char? {points : List CodePoint}
    (h : ¬points.any CodePoint.isSurrogate = true) :
    (points.filterMap CodePoint.char?).map .char = points := by
  induction points with
  | nil => rfl
  | cons p rest ih => cases p <;> simp_all [CodePoint.isSurrogate, CodePoint.char?]

theorem filterMap_char?_map_char (s : List Char) :
    (s.map CodePoint.char).filterMap CodePoint.char? = s := by
  induction s with
  | nil => rfl
  | cons c rest ih => exact congrArg (c :: ·) ih

theorem any_isSurrogate_map_char (s : List Char) :
    (s.map CodePoint.char).any CodePoint.isSurrogate = false := by
  simp [CodePoint.isSurrogate]

/-- A text of code points has these code points. -/
theorem points_ofPoints (points : List CodePoint) : (ofPoints points).points = points := by
  unfold ofPoints
  split
  · rfl
  · next h => rw [Text.points, String.toList_ofList, map_char_filterMap_char? h]

/-- A text is determined by its code points. -/
theorem ofPoints_points (t : Text) : ofPoints t.points = t := by
  cases t with
  | ofString s =>
    rw [points, ofPoints, dif_neg (by rw [any_isSurrogate_map_char]; exact Bool.false_ne_true),
      filterMap_char?_map_char, String.ofList_toList]
  | withSurrogate points present => rw [Text.points, ofPoints, dif_pos present]

/-- The string that a text is, if it has no surrogates. -/
def toString? : Text → Option String
  | .ofString s => some s
  | .withSurrogate .. => none

/-- Puts one text behind another. -/
def append : Text → Text → Text
  | .ofString s, .ofString t => .ofString (s ++ t)
  | s, t => ofPoints (s.points ++ t.points)

instance : Append Text := ⟨append⟩

theorem points_append (s t : Text) : (s ++ t).points = s.points ++ t.points := by
  change (append s t).points = _
  unfold append
  split
  · simp [points]
  · exact points_ofPoints _

/-- Puts texts one behind the other, with a separator between. -/
def intercalate (separator : Text) : List Text → Text
  | [] => ""
  | t :: rest => rest.foldl (fun done t => done ++ separator ++ t) t

/-- The number of code points. -/
def length (t : Text) : Nat := t.points.length

/-- The stretches of a list between the members that equal `mark`; `part` holds the one begun,
reversed. -/
def stretchesFrom {α : Type} [BEq α] (mark : α) (part : List α) : List α → List (List α)
  | [] => [part.reverse]
  | a :: rest =>
    if a == mark then part.reverse :: stretchesFrom mark [] rest
    else stretchesFrom mark (a :: part) rest

/-- The stretches of a list between the members that equal `mark`. -/
def stretches {α : Type} [BEq α] (mark : α) (s : List α) : List (List α) := stretchesFrom mark [] s

end Text

end SuiteBalance
