import Mathlib
import SuiteBalance.Json.Printer
import SuiteBalance.Json.Token
import SuiteBalance.Proofs.Number.Notation

/-!
# Proofs — JSON — numbers

What is written for a number is read as the number, in front of anything that does not go on with
it.

* `readNumber?_spelling`: **`readNumber?`** takes a spelling as a whole and rounds its decimal.
* `readNumber?_integer`: it takes the digits of an integer as the integer.
-/

namespace SuiteBalance.Json

open Number

/-! ### Runs of digits -/

/-- What follows does not go on with a number. -/
def EndsNumber (rest : List Char) : Prop :=
  ∀ c ∈ rest.head?, c.isDigit = false ∧ c ≠ '.' ∧ c ≠ 'e' ∧ c ≠ 'E'

/-- No digit follows. -/
def EndsDigits (rest : List Char) : Prop := ∀ c ∈ rest.head?, c.isDigit = false

variable {rest : List Char}

theorem EndsNumber.digits (h : EndsNumber rest) : EndsDigits rest := fun c hc => (h c hc).1

/-- A run of digits is taken as a whole. -/
theorem span_digits {s : List Char} (hs : ∀ c ∈ s, c.isDigit = true) (hrest : EndsDigits rest) :
    (s ++ rest).takeWhile Char.isDigit = s ∧ (s ++ rest).dropWhile Char.isDigit = rest := by
  have hstop : rest.takeWhile Char.isDigit = [] ∧ rest.dropWhile Char.isDigit = rest := by
    cases rest with
    | nil => exact ⟨rfl, rfl⟩
    | cons c rest =>
        have hc : c.isDigit = false := hrest c rfl
        simp [hc]
  rw [List.takeWhile_append_of_pos hs, List.dropWhile_append_of_pos hs, hstop.1, hstop.2,
    List.append_nil]
  exact ⟨rfl, rfl⟩

theorem wholePart_eq {whole : List Char} (hdigit : ∀ c ∈ whole, c.isDigit = true)
    (hlead : whole = ['0'] ∨ whole.head? ≠ some '0') (hne : whole ≠ []) (hrest : EndsDigits rest) :
    wholePart (whole ++ rest) = (whole, rest) := by
  rcases hlead with rfl | hlead
  · rfl
  · obtain ⟨htake, hdrop⟩ := span_digits hdigit hrest
    unfold wholePart
    split
    case h_1 tail heq =>
        cases whole with
        | nil => exact absurd rfl hne
        | cons c s =>
            obtain ⟨rfl, -⟩ := List.cons.inj heq
            exact absurd rfl hlead
    case h_2 => rw [htake, hdrop]

theorem fractionPart_eq {fraction : List Char} (hdigit : ∀ c ∈ fraction, c.isDigit = true)
    (hne : fraction ≠ []) (hrest : EndsDigits rest) :
    fractionPart ('.' :: fraction ++ rest) = (fraction, rest) := by
  obtain ⟨htake, hdrop⟩ := span_digits hdigit hrest
  cases fraction with
  | nil => exact absurd rfl hne
  | cons d s =>
      have hd : d.isDigit = true := hdigit d (List.mem_cons_self ..)
      rw [List.cons_append] at htake hdrop
      simp only [fractionPart, List.cons_append, hd, if_true, htake, hdrop]

theorem fractionPart_none (h : ∀ c ∈ rest.head?, c ≠ '.') : fractionPart rest = ([], rest) := by
  unfold fractionPart
  split
  · exact absurd rfl (h '.' rfl)
  · rfl

/-! ### Exponents -/

/-- The digits of an exponent in text, of which there are at least two. -/
def exponentDigits (e : ℤ) : List Char :=
  (if (toString e.natAbs).length < 2 then ['0'] else []) ++ Nat.toDigits 10 e.natAbs

theorem toList_exponentText (e : ℤ) :
    (exponentText e).toList = 'e' :: (if e < 0 then '-' else '+') :: exponentDigits e := by
  unfold exponentText exponentDigits
  dsimp only
  split_ifs
  all_goals
    rw [String.toList_append, String.toList_append, Nat.toString_eq_repr, Nat.toList_repr]
    rfl

theorem isDigit_exponentDigits (e : ℤ) : ∀ c ∈ exponentDigits e, c.isDigit = true := by
  intro c hc
  rcases List.mem_append.mp hc with hc | hc
  · split_ifs at hc
    · rw [List.mem_singleton.mp hc]
      rfl
    · cases hc
  · exact isDigit_toDigits _ c hc

theorem digitsValue_exponentDigits (e : ℤ) : digitsValue (exponentDigits e) = e.natAbs := by
  unfold exponentDigits
  split_ifs <;> simp

theorem exponentPart_text {bound : ℕ} {e : ℤ} (he : e.natAbs ≤ bound) (hrest : EndsDigits rest) :
    exponentPart bound ((exponentText e).toList ++ rest) =
      (some (e, 2 + (exponentDigits e).length), rest) := by
  obtain ⟨htake, hdrop⟩ := span_digits (isDigit_exponentDigits e) hrest
  have hvalue : boundedValue bound (exponentDigits e) = e.natAbs := by
    rw [boundedValue_eq_min, digitsValue_exponentDigits, min_eq_right he]
  have hne : exponentDigits e ≠ [] := List.append_ne_nil_of_right_ne_nil _ Nat.toDigits_ne_nil
  rw [toList_exponentText]
  by_cases hneg : e < 0
  · simp [exponentPart, splitSign, hneg, htake, hdrop, hvalue, hne, abs_of_neg hneg]
  · simp [exponentPart, splitSign, hneg, htake, hdrop, hvalue, hne, abs_of_nonneg (not_lt.mp hneg)]

theorem exponentPart_none (bound : ℕ) (h : ∀ c ∈ rest.head?, c ≠ 'e' ∧ c ≠ 'E') :
    exponentPart bound rest = (none, rest) := by
  cases rest with
  | nil => rfl
  | cons c rest =>
      obtain ⟨hlower, hupper⟩ := h c rfl
      simp [exponentPart, hlower, hupper]

/-! ### Numbers -/

theorem endsDigits_cons {c : Char} (h : c.isDigit = false) (s : List Char) :
    EndsDigits (c :: s) := by
  intro d hd
  obtain rfl := Option.some_inj.mp hd
  exact h

/-- What stands behind the exponent's place does not go on with digits. -/
theorem endsDigits_exponent (e : Option ℤ) (hrest : EndsDigits rest) :
    EndsDigits ((e.elim [] fun e => (exponentText e).toList) ++ rest) := by
  cases e with
  | none => exact hrest
  | some e =>
      rw [Option.elim_some, toList_exponentText]
      exact endsDigits_cons rfl _

/-- A minus sign, or nothing. -/
def sign (negative : Bool) : List Char := if negative then ['-'] else []

/-- An integer or a double with a sign. -/
def signedInteger (negative : Bool) (n : ℕ) : Json := .integer (if negative then -n else n)

@[inherit_doc signedInteger]
def signedReal (negative : Bool) (x : Float) : Json := .real (if negative then -x else x)

/-- A number without a sign is cut into a whole part, a fraction and an exponent. -/
structure Cut (body whole fraction : List Char) (exponent : Option (ℤ × ℕ))
    (rest : List Char) : Prop where
  head : body.head? ≠ some '-'
  whole_ne : whole ≠ []
  parts : ∃ s t, wholePart body = (whole, s) ∧ fractionPart s = (fraction, t) ∧
    exponentPart (exponentBound (whole ++ fraction).length) t = (exponent, rest)

variable {body whole fraction : List Char} {exponent : Option (ℤ × ℕ)}

/-- **What a number that is cut into parts is read as.** -/
theorem Cut.readNumber? (h : Cut body whole fraction exponent rest) (position : ℕ)
    (negative : Bool) :
    (fraction = [] ∧ exponent = none → whole.length ≤ digitLimit → ∃ length,
      Json.readNumber? position (sign negative ++ body) =
        some ⟨.scalar (signedInteger negative (digitsValue whole)), length, rest⟩) ∧
    (fraction ≠ [] ∨ exponent.isSome = true → ∃ length,
      Json.readNumber? position (sign negative ++ body) =
        some ⟨.scalar (signedReal negative (roundDecimal (whole ++ fraction)
          ((exponent.getD (0, 0)).1 - fraction.length))), length, rest⟩) := by
  obtain ⟨hhead, hne, s, t, hwhole, hfraction, hexponent⟩ := h
  have hempty : whole.isEmpty = false := List.isEmpty_eq_false_iff.mpr hne
  unfold Json.readNumber?
  split
  next minus unsigned heq =>
    -- the sign is told by the first character, which in `body` is no minus
    have hsplit : minus = negative ∧ unsigned = body := by
      cases negative with
      | true =>
          obtain ⟨rfl, rfl⟩ := Prod.mk.inj heq
          exact ⟨rfl, rfl⟩
      | false =>
          rw [show sign false ++ body = body from rfl] at heq
          split at heq
          · exact absurd rfl hhead
          · obtain ⟨rfl, rfl⟩ := Prod.mk.inj heq
            exact ⟨rfl, rfl⟩
    obtain ⟨rfl, rfl⟩ := hsplit
    simp only [hwhole, hfraction, hexponent, hempty, Bool.false_eq_true, if_false]
    refine ⟨?_, ?_⟩
    · rintro ⟨rfl, rfl⟩ hlimit
      rw [if_neg (not_lt.mpr hlimit)]
      exact ⟨_, rfl⟩
    · intro hreal
      have hnot : (fraction.isEmpty && exponent.isNone) = false := by
        rcases hreal with h | h <;> simp [h]
      rw [hnot]
      exact ⟨_, rfl⟩

/-- A digit is no minus sign. -/
theorem head?_ne_minus (hne : whole ≠ []) (hdigit : ∀ c ∈ whole, c.isDigit = true)
    (s : List Char) : (whole ++ s).head? ≠ some '-' := by
  cases whole with
  | nil => exact absurd rfl hne
  | cons c cs =>
      intro h
      obtain rfl := Option.some_inj.mp h
      exact absurd (hdigit '-' (List.mem_cons_self ..)) (by decide)

/-- What may stand behind the fraction. -/
theorem exponentPart_elim {bound : ℕ} {e : Option ℤ} (he : ∀ n ∈ e, n.natAbs ≤ bound)
    (hrest : EndsNumber rest) :
    exponentPart bound ((e.elim [] fun n => (exponentText n).toList) ++ rest) =
      (e.map fun n => (n, 2 + (exponentDigits n).length), rest) := by
  cases e with
  | none => exact exponentPart_none bound fun c hc => (hrest c hc).2.2
  | some n => exact exponentPart_text (he n rfl) hrest.digits

theorem fractionPart_elim (e : Option ℤ) (hrest : EndsNumber rest) :
    fractionPart ((e.elim [] fun n => (exponentText n).toList) ++ rest) =
      ([], (e.elim [] fun n => (exponentText n).toList) ++ rest) := by
  cases e with
  | none => exact fractionPart_none fun c hc => (hrest c hc).2.1
  | some n =>
      rw [Option.elim_some, toList_exponentText]
      rfl

/-- A spelling is cut into its parts. -/
theorem cut_spelling {s : Spelling} (h : s.Proper) (hrest : EndsNumber rest) :
    Cut (s.text ++ rest) s.whole s.fraction
      (s.exponent.map fun n => (n, 2 + (exponentDigits n).length)) rest := by
  have hdigit : (∀ c ∈ s.whole, c.isDigit = true) ∧ ∀ c ∈ s.fraction, c.isDigit = true :=
    List.forall_mem_append.mp h.digit
  have hends := endsDigits_exponent s.exponent hrest.digits
  unfold Spelling.text
  rw [List.append_assoc, List.append_assoc]
  refine ⟨head?_ne_minus h.whole_ne hdigit.1 _, h.whole_ne, _,
    (s.exponent.elim [] fun n => (exponentText n).toList) ++ rest, wholePart_eq hdigit.1 h.lead
    h.whole_ne ?_, ?_, exponentPart_elim h.bound hrest⟩
  · split_ifs with hfraction
    · exact hends
    · exact endsDigits_cons rfl _
  · split_ifs with hfraction
    · rw [hfraction]
      exact fractionPart_elim s.exponent hrest
    · exact fractionPart_eq hdigit.2 hfraction hends

/-- **A spelling is read as its decimal, rounded.** -/
theorem readNumber?_spelling {s : Spelling} (h : s.Proper) (hrest : EndsNumber rest)
    (position : ℕ) (negative : Bool) : ∃ length,
      readNumber? position (sign negative ++ (s.text ++ rest)) =
        some ⟨.scalar (signedReal negative (roundDecimal s.digits s.power)), length, rest⟩ := by
  obtain ⟨-, hread⟩ := (cut_spelling h hrest).readNumber? position negative
  have hpower : ((s.exponent.map fun n => (n, 2 + (exponentDigits n).length)).getD (0, 0)).1 =
      s.exponent.getD 0 := by
    cases s.exponent <;> rfl
  rw [hpower] at hread
  exact hread (h.real.imp_right fun h => by rwa [Option.isSome_map])

theorem isWritable_iff (n : ℤ) : isWritable n = true ↔ n.natAbs < 10 ^ digitLimit := by
  unfold isWritable
  generalize digitLimit = limit
  exact decide_eq_true_iff

/-- The digits of a greater number suffice for a smaller one. -/
theorem isWritable_mono {m n : ℕ} (h : m ≤ n) (hn : isWritable n = true) : isWritable m = true := by
  rw [isWritable_iff, Int.natAbs_natCast] at *
  exact h.trans_lt hn

/-- A number that fits in a machine word can be written. -/
theorem isWritable_of_lt {n : ℕ} (h : n < 2 ^ 64) : isWritable n = true := by
  rw [isWritable_iff, Int.natAbs_natCast]
  calc n < 2 ^ 64 := h
    _ ≤ 10 ^ 64 := Nat.pow_le_pow_left (by norm_num) 64
    _ ≤ 10 ^ digitLimit := Nat.pow_le_pow_right (by norm_num) (by decide)

/-- An integer is written by a sign and its digits. -/
theorem toList_toString (n : ℤ) :
    (toString n).toList = sign (decide (n < 0)) ++ Nat.toDigits 10 n.natAbs := by
  cases n with
  | ofNat k => exact Nat.toList_repr
  | negSucc k =>
      rw [decide_eq_true (Int.negSucc_lt_zero k), Int.toString_eq_repr, Int.repr,
        String.toList_append, Nat.toList_repr]
      rfl

/-- **The digits of an integer are read as the integer.** -/
theorem readNumber?_integer {n : ℤ} (h : isWritable n = true) (hrest : EndsNumber rest)
    (position : ℕ) : ∃ length,
      readNumber? position (sign (decide (n < 0)) ++ (Nat.toDigits 10 n.natAbs ++ rest)) =
        some ⟨.scalar (.integer n), length, rest⟩ := by
  have hlength : (Nat.toDigits 10 n.natAbs).length ≤ digitLimit := by
    rw [Nat.length_toDigits_le_iff (by norm_num) (by decide : 0 < digitLimit)]
    exact (isWritable_iff n).mp h
  have hlead : Nat.toDigits 10 n.natAbs = ['0'] ∨ (Nat.toDigits 10 n.natAbs).head? ≠ some '0' := by
    rcases n.natAbs.eq_zero_or_pos with hzero | hpos
    · rw [hzero]
      exact .inl rfl
    · exact .inr (head?_toDigits hpos)
  have hcut : Cut (Nat.toDigits 10 n.natAbs ++ rest) (Nat.toDigits 10 n.natAbs) [] none rest :=
    ⟨head?_ne_minus Nat.toDigits_ne_nil (isDigit_toDigits _) _, Nat.toDigits_ne_nil, rest, rest,
      wholePart_eq (isDigit_toDigits _) hlead Nat.toDigits_ne_nil hrest.digits,
      fractionPart_none fun c hc => (hrest c hc).2.1,
      exponentPart_none _ fun c hc => (hrest c hc).2.2⟩
  have hsigned : signedInteger (decide (n < 0)) n.natAbs = .integer n := by
    unfold signedInteger
    by_cases hneg : n < 0
    · rw [decide_eq_true hneg, if_pos rfl, Int.ofNat_natAbs_of_nonpos hneg.le, neg_neg]
    · rw [decide_eq_false hneg, if_neg Bool.false_ne_true, Int.natAbs_of_nonneg (not_lt.mp hneg)]
  obtain ⟨length, hread⟩ := (hcut.readNumber? position (decide (n < 0))).1 ⟨rfl, rfl⟩ hlength
  exact ⟨length, by rw [hread, digitsValue_toDigits, hsigned]⟩

end SuiteBalance.Json
