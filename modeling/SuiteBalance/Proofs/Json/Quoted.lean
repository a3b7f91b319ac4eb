import Mathlib
import SuiteBalance.Json.Printer
import SuiteBalance.Json.Token

/-!
# Proofs — JSON — quoted texts

Escapes are undone one code point at a time: behind the escape of a code point the reader stands
where it stood before, with the code point taken.  A high surrogate stays pending, and a low one
directly behind it would complete a pair, so what is read back is a text without such pairs.

* **`Text.Unpaired`**: no two surrogates in a text make a pair; all strings are such texts.
* `hexUnit?_hexDigits`: four hexadecimal digits are read as their code unit.
* `escape_char`: the forms in which a character is written.
* `readText_escapePoint`: one code point.
* **`readText_quoted`**: an unpaired text between quotes.
-/

namespace SuiteBalance

/-! ### Pairs of surrogates -/

namespace CodePoint

/-- Whether a code point is a surrogate that opens a pair. -/
def isHigh : CodePoint → Bool
  | .char _ => false
  | .surrogate offset => decide (offset.val < 0x400)

/-- Whether a code point is a surrogate that completes a pair. -/
def isLow : CodePoint → Bool
  | .char _ => false
  | .surrogate offset => decide (0x400 ≤ offset.val)

end CodePoint

/-- No two surrogates in a text make a pair. -/
def Text.Unpaired (t : Text) : Prop :=
  t.points.IsChain fun p q => p.isHigh = true → q.isLow = false

instance (t : Text) : Decidable t.Unpaired := inferInstanceAs (Decidable (List.IsChain _ _))

theorem Text.unpaired_ofString (s : String) : Text.Unpaired s := by
  rw [Text.Unpaired, Text.points, List.isChain_map]
  exact (List.pairwise_of_forall fun _ _ hhigh => absurd hhigh Bool.false_ne_true).isChain

namespace Json

open Text

/-! ### Code units -/

theorem hexValue?_digitChar : ∀ d < 16, hexValue? (Nat.digitChar d) = some d := by decide

/-- The last digit stands behind the digits of what is left. -/
theorem hexDigits_succ {width : ℕ} (hwidth : 0 < width) (n : ℕ) :
    hexDigits (width + 1) n = hexDigits width (n / 16) ++ [Nat.digitChar (n % 16)] := by
  unfold hexDigits
  by_cases h : n < 16
  · -- what is left is zero, whose digit stands for one of the padding
    cases width with
    | zero => exact absurd hwidth (lt_irrefl 0)
    | succ width =>
        rw [Nat.toDigits_of_lt_base h, Nat.div_eq_of_lt h, Nat.mod_eq_of_lt h, Nat.toDigits_zero]
        exact congrArg (· ++ [Nat.digitChar n]) List.replicate_succ'
  · dsimp only
    rw [Nat.toDigits_of_base_le (by norm_num) (not_lt.mp h), List.length_append,
      List.length_singleton, Nat.add_sub_add_right, List.append_assoc]

/-- The four hexadecimal digits of a code unit. -/
theorem hexDigits_four {n : ℕ} (h : n < 0x10000) :
    hexDigits 4 n = [n / 16 / 16 / 16, n / 16 / 16 % 16, n / 16 % 16, n % 16].map Nat.digitChar := by
  have hlead : n / 16 / 16 / 16 < 16 := by omega
  rw [hexDigits_succ (by norm_num), hexDigits_succ (by norm_num), hexDigits_succ one_pos, hexDigits,
    Nat.toDigits_of_lt_base hlead]
  rfl

/-- **Four hexadecimal digits are read as their code unit.** -/
theorem hexUnit?_hexDigits {n : ℕ} (h : n < 0x10000) : ∃ a b c d,
    hexDigits 4 n = [a, b, c, d] ∧ hexUnit? a b c d = some n := by
  refine ⟨_, _, _, _, hexDigits_four h, ?_⟩
  have hlead : n / 16 / 16 / 16 < 16 := by omega
  have hdigit (k : ℕ) : hexValue? (Nat.digitChar (k % 16)) = some (k % 16) :=
    hexValue?_digitChar _ (Nat.mod_lt _ (by norm_num))
  have hvalue :
      ((n / 16 / 16 / 16 * 16 + n / 16 / 16 % 16) * 16 + n / 16 % 16) * 16 + n % 16 = n := by omega
  simp only [hexUnit?, hexValue?_digitChar _ hlead, hdigit]
  exact congrArg some hvalue

variable {start position : ℕ} {half : Option ℕ} {done : List CodePoint} {rest : List Char}

/-- The reader takes the escape of a code unit at a time. -/
theorem readText_unitEscape {n : ℕ} (h : n < 0x10000) (hrest : rest ≠ []) :
    readText start position half done (unitEscape n ++ rest) =
      readText start (position + 6) (takeUnit half done n).1 (takeUnit half done n).2 rest := by
  obtain ⟨a, b, c, d, hdigits, hunit⟩ := hexUnit?_hexDigits h
  have hbehind : ¬rest.isEmpty = true := mt List.isEmpty_iff.mp hrest
  simp only [unitEscape, hdigits, List.cons_append, List.nil_append, readText, hunit,
    if_neg hbehind]

/-! ### Characters -/

/-- The forms in which a character is written: by a letter behind a backslash, as itself, or by one
or two code units. -/
inductive Escape (c : Char) : List Char → Prop where
  | letter {l : Char} (h : unescape? l = some c) : Escape c ['\\', l]
  | itself (h : 0x20 ≤ c.toNat ∧ c.toNat < 0x7f) (hquote : c ≠ '"') (hslash : c ≠ '\\') :
      Escape c [c]
  | unit (h : c.toNat < 0x10000) (hvalid : c.toNat < 0xd800 ∨ 0xdfff < c.toNat) :
      Escape c (unitEscape c.toNat)
  | pair {offset : ℕ} (h : c.toNat = 0x10000 + offset) (hoffset : offset < 0x100000) :
      Escape c (unitEscape (0xd800 + offset / 0x400) ++ unitEscape (0xdc00 + offset % 0x400))

theorem escape_char (c : Char) : Escape c (escapeChar c) := by
  have hletter {d l : Char} (h : (c == d) = true) (hl : unescape? l = some d) :
      Escape c ['\\', l] := .letter (hl.trans (congrArg some (beq_iff_eq.mp h).symm))
  have hcode {n : ℕ} {l : Char} (h : c.toNat = n) (hl : unescape? l = some (Char.ofNat n)) :
      Escape c ['\\', l] := by
    rw [← h, Char.ofNat_toNat] at hl
    exact .letter hl
  unfold escapeChar
  by_cases hquote : (c == '"') = true
  · rw [if_pos hquote]
    exact hletter hquote rfl
  by_cases hslash : (c == '\\') = true
  · rw [if_neg hquote, if_pos hslash]
    exact hletter hslash rfl
  rw [if_neg hquote, if_neg hslash]
  by_cases hbreak : (c == '\n') = true
  · rw [if_pos hbreak]
    exact hletter hbreak rfl
  by_cases hreturn : (c == '\r') = true
  · rw [if_neg hbreak, if_pos hreturn]
    exact hletter hreturn rfl
  by_cases htab : (c == '\t') = true
  · rw [if_neg hbreak, if_neg hreturn, if_pos htab]
    exact hletter htab rfl
  rw [if_neg hbreak, if_neg hreturn, if_neg htab]
  by_cases hback : c.toNat = 8
  · rw [if_pos hback]
    exact hcode hback rfl
  by_cases hfeed : c.toNat = 12
  · rw [if_neg hback, if_pos hfeed]
    exact hcode hfeed rfl
  rw [if_neg hback, if_neg hfeed]
  by_cases hplain : 0x20 ≤ c.toNat ∧ c.toNat < 0x7f
  · rw [if_pos hplain]
    exact .itself hplain (mt beq_iff_eq.mpr hquote) (mt beq_iff_eq.mpr hslash)
  rw [if_neg hplain]
  obtain hvalid | ⟨hvalid, hlimit⟩ : c.toNat < 0xd800 ∨ 0xdfff < c.toNat ∧ c.toNat < 0x110000 :=
    c.valid
  · rw [if_pos (by omega)]
    exact .unit (by omega) (.inl hvalid)
  by_cases hshort : c.toNat < 0x10000
  · rw [if_pos hshort]
    exact .unit hshort (.inr hvalid)
  · rw [if_neg hshort]
    exact .pair (Nat.add_sub_cancel' (not_lt.mp hshort)).symm (by omega)

/-- A letter behind a backslash. -/
theorem readText_letter {l c : Char} (h : unescape? l = some c) :
    readText start position half done ('\\' :: l :: rest) =
      readText start (position + 2) none (.char c :: settle half done) rest := by
  have hu : l ≠ 'u' := by
    rintro rfl
    cases h
  simp [readText, hu, h]

/-- A character that stands for itself. -/
theorem readText_plain {c : Char} (hquote : c ≠ '"') (hslash : c ≠ '\\')
    (hcontrol : 0x20 ≤ c.toNat) :
    readText start position half done (c :: rest) =
      readText start (position + 1) none (.char c :: settle half done) rest := by
  have hnot : ¬ c.toNat < 0x20 := by omega
  simp [readText, hslash, hnot]

/-- A code unit that is no surrogate is taken as its code point. -/
theorem takeUnit_single {n : ℕ} (h : n < 0xd800 ∨ 0xdfff < n) :
    takeUnit half done n = (none, .ofNat n :: settle half done) := by
  unfold takeUnit
  rw [if_neg (by omega), if_neg (by omega)]

/-- A high surrogate waits for its other half. -/
theorem takeUnit_high {n : ℕ} (hle : 0xd800 ≤ n) (hlt : n < 0xdc00) :
    takeUnit half done n = (some n, settle half done) := by
  unfold takeUnit
  rw [if_neg (by omega), if_pos ⟨hle, hlt⟩]

/-- A low surrogate that completes no pair stands for itself. -/
theorem takeUnit_low {n : ℕ} (hle : 0xdc00 ≤ n) (hlt : n < 0xe000) :
    takeUnit none done n = (none, .ofNat n :: done) := by
  unfold takeUnit
  rw [if_pos ⟨hle, hlt⟩]

/-- The two halves of a pair are taken as its code point. -/
theorem takeUnit_pair {offset : ℕ} (h : offset < 0x100000) :
    takeUnit (takeUnit half done (0xd800 + offset / 0x400)).1
        (takeUnit half done (0xd800 + offset / 0x400)).2 (0xdc00 + offset % 0x400) =
      (none, .ofNat (0x10000 + offset) :: settle half done) := by
  have hvalue : 0x10000 + (0xd800 + offset / 0x400 - 0xd800) * 0x400 +
      (0xdc00 + offset % 0x400 - 0xdc00) = 0x10000 + offset := by omega
  have hhigh : takeUnit half done (0xd800 + offset / 0x400) =
      (some (0xd800 + offset / 0x400), settle half done) :=
    takeUnit_high (by omega) (by omega)
  rw [hhigh]
  unfold takeUnit
  rw [if_pos (by omega), ← hvalue]

/-- **The escape of a character is undone**, where something stands behind it. -/
theorem readText_escapeChar (c : Char) (start position : ℕ) (half : Option ℕ)
    (done : List CodePoint) (hrest : rest ≠ []) : ∃ behind,
      readText start position half done (escapeChar c ++ rest) =
        readText start behind none (.char c :: settle half done) rest := by
  have hvalue : CodePoint.ofNat c.toNat = .char c := CodePoint.ofNat_value (.char c)
  have hescape := escape_char c
  generalize escapeChar c = written at hescape ⊢
  cases hescape with
  | letter h => exact ⟨_, readText_letter h⟩
  | itself h hquote hslash => exact ⟨_, readText_plain hquote hslash h.1⟩
  | unit h hvalid =>
      refine ⟨position + 6, ?_⟩
      rw [readText_unitEscape h hrest, takeUnit_single hvalid, hvalue]
  | @pair offset h hoffset =>
      refine ⟨position + 6 + 6, ?_⟩
      have hlow : unitEscape (0xdc00 + offset % 0x400) ++ rest ≠ [] :=
        List.append_ne_nil_of_right_ne_nil _ hrest
      rw [List.append_assoc, readText_unitEscape (by omega) hlow,
        readText_unitEscape (by omega) hrest, takeUnit_pair hoffset, ← h, hvalue]

/-! ### Texts -/

/-- **The escape of a code point is undone**, unless it completes a pair.  Only a high surrogate is
pending behind it. -/
theorem readText_escapePoint (p : CodePoint) (start position : ℕ) (half : Option ℕ)
    (done : List CodePoint) (hrest : rest ≠ []) (h : half.isSome = true → p.isLow = false) :
    ∃ behind half' done',
      readText start position half done (escapePoint p ++ rest) =
        readText start behind half' done' rest ∧
      settle half' done' = p :: settle half done ∧ (half'.isSome = true → p.isHigh = true) := by
  cases p with
  | char c =>
      obtain ⟨behind, hread⟩ := readText_escapeChar c start position half done hrest
      exact ⟨behind, none, _, hread, rfl, fun hsome => absurd hsome Bool.false_ne_true⟩
  | surrogate offset =>
      have hoffset := offset.isLt
      have hvalue := CodePoint.ofNat_value (.surrogate offset)
      rw [CodePoint.value, firstSurrogate] at hvalue
      have hunit : (CodePoint.surrogate offset).value < 0x10000 := by
        rw [CodePoint.value, firstSurrogate]
        omega
      refine ⟨position + 6, _, _, readText_unitEscape hunit hrest, ?_⟩
      rw [CodePoint.value, firstSurrogate]
      by_cases hhigh : offset.val < 0x400
      · rw [takeUnit_high (by omega) (by omega)]
        exact ⟨congrArg (· :: settle half done) hvalue, fun _ => decide_eq_true hhigh⟩
      · -- a low surrogate stands for itself, as nothing is pending
        cases half with
        | some high => exact absurd (of_decide_eq_false (h rfl)) (by omega)
        | none =>
            rw [takeUnit_low (by omega) (by omega)]
            exact ⟨congrArg (· :: done) hvalue, fun hsome => absurd hsome Bool.false_ne_true⟩

/-- The escapes of code points are undone, unless two of them make a pair. -/
theorem readText_flatMap {points : List CodePoint}
    (hpoints : points.IsChain fun p q => p.isHigh = true → q.isLow = false) (start position : ℕ)
    (half : Option ℕ) (done : List CodePoint) (hrest : rest ≠ [])
    (h : half.isSome = true → ∀ p ∈ points.head?, p.isLow = false) :
    ∃ behind half' done',
      readText start position half done (points.flatMap escapePoint ++ rest) =
        readText start behind half' done' rest ∧
      settle half' done' = points.reverse ++ settle half done := by
  -- what is pending is the code point before, so the chain says that no pair is completed
  induction points generalizing position half done with
  | nil => exact ⟨position, half, done, rfl, rfl⟩
  | cons p points ih =>
      rw [List.isChain_cons] at hpoints
      rw [List.flatMap_cons, List.append_assoc]
      have hbehind : points.flatMap escapePoint ++ rest ≠ [] :=
        List.append_ne_nil_of_right_ne_nil _ hrest
      obtain ⟨next, half', done', hnext, hsettle, hpending⟩ :=
        readText_escapePoint p start position half done hbehind fun hsome => h hsome p rfl
      obtain ⟨behind, last, taken, hbehind, htaken⟩ :=
        ih hpoints.2 next half' done' fun hsome q hq => hpoints.1 q hq (hpending hsome)
      refine ⟨behind, last, taken, hnext.trans hbehind, ?_⟩
      rw [htaken, hsettle, List.reverse_cons, List.append_assoc]
      rfl

/-- **An unpaired text between quotes is read as itself.** -/
theorem readText_quoted {t : Text} (h : t.Unpaired) (start position : ℕ) : ∃ behind,
    readText start position none [] (t.points.flatMap escapePoint ++ '"' :: rest) =
      (.text t, behind, rest) := by
  obtain ⟨behind, half, done, hread, hsettle⟩ :=
    readText_flatMap h start position none [] (List.cons_ne_nil '"' rest) nofun
  refine ⟨behind + 1, ?_⟩
  rw [hread, readText, hsettle, settle, List.append_nil, List.reverse_reverse,
    Text.ofPoints_points]

end Json

end SuiteBalance
