import Mathlib
import SuiteBalance.Number.Notation
import SuiteBalance.Proofs.Number.Decimal

/-!
# Proofs — Number — the text of a double

The text of a decimal has a whole part, a fraction and an exponent, the latter two optional.  A
**`Spelling`** keeps these apart; it is `Proper` if its digits are such as a document may hold.

* `text_spelling`: a decimal is written by its spelling, in any format.
* **`spells_spelling`**: the spelling has the decimal's value.
* `ofFloat_roundDecimal`: rounding what is spelled gives the double that the decimal stands for.
-/

namespace SuiteBalance.Number

/-! ### Digits -/

@[simp] theorem digitsValue_toDigits (n : ℕ) : digitsValue (Nat.toDigits 10 n) = n :=
  Nat.ofDigitChars_ten_toDigits

theorem digitsValue_append (s t : List Char) :
    digitsValue (s ++ t) = 10 ^ t.length * digitsValue s + digitsValue t :=
  (Nat.ofDigitChars_append 0).trans Nat.ofDigitChars_eq_ofDigitChars_zero

@[simp] theorem digitsValue_zeros (k : ℕ) : digitsValue (List.replicate k '0') = 0 :=
  Nat.ofDigitChars_replicate_zero.trans (Nat.mul_zero _)

/-- Zeros in front of a number do not count. -/
@[simp] theorem digitsValue_cons_zero (s : List Char) : digitsValue ('0' :: s) = digitsValue s := rfl

theorem digitsValue_dropWhile (s : List Char) :
    digitsValue (s.dropWhile (· == '0')) = digitsValue s := by
  induction s with
  | nil => rfl
  | cons c s ih =>
      rw [List.dropWhile_cons]
      split_ifs with h
      · rw [ih, eq_of_beq h, digitsValue_cons_zero]
      · rfl

/-- With no more digits than the decisive ones, all of them count. -/
theorem roundDecimal_eq {s : List Char} (h : s.length ≤ decisiveDigits) (e : ℤ) :
    roundDecimal s e = scaled (digitsValue s) e := by
  have hlength : (s.dropWhile (· == '0')).length ≤ decisiveDigits :=
    (List.length_dropWhile_le _ _).trans h
  simp only [roundDecimal, List.drop_eq_nil_of_le hlength, List.take_of_length_le hlength,
    List.all_nil, if_pos, List.append_nil, digitsValue_dropWhile, add_sub_cancel_right]

/-- A positive number does not start with a zero. -/
theorem head?_toDigits {n : ℕ} (hn : 0 < n) : (Nat.toDigits 10 n).head? ≠ some '0' := by
  induction n using Nat.strong_induction_on with
  | _ n ih =>
      rw [Nat.toDigits_eq_if (by norm_num)]
      split_ifs with hlt
      · intro hzero
        have : n.digitChar = '0' := by simpa using hzero
        interval_cases n <;> cases this
      · rw [List.head?_append_of_ne_nil _ Nat.toDigits_ne_nil]
        exact ih (n / 10) (by omega) (by omega)

theorem isDigit_toDigits (n : ℕ) : ∀ c ∈ Nat.toDigits 10 n, c.isDigit = true :=
  fun _ => Nat.isDigit_of_mem_toDigits (by norm_num) (by norm_num)

theorem isDigit_zeros (k : ℕ) : ∀ c ∈ List.replicate k '0', c.isDigit = true := by
  intro c hc
  rw [List.eq_of_mem_replicate hc]
  rfl

/-! ### Spellings -/

/-- The parts of a decimal in text. -/
structure Spelling where
  whole : List Char
  fraction : List Char
  exponent : Option ℤ

namespace Spelling

/-- The text of the parts. -/
def text (s : Spelling) : List Char :=
  s.whole ++ (if s.fraction = [] then [] else '.' :: s.fraction) ++
    s.exponent.elim [] fun e => (exponentText e).toList

/-- The digits before and behind the point. -/
def digits (s : Spelling) : List Char := s.whole ++ s.fraction

/-- The power of ten of the last digit. -/
def power (s : Spelling) : ℤ := s.exponent.getD 0 - s.fraction.length

/-- The parts are digits, with no zero in front of others, and they do not spell an integer. -/
structure Proper (s : Spelling) : Prop where
  whole_ne : s.whole ≠ []
  digit : ∀ c ∈ s.digits, c.isDigit = true
  lead : s.whole = ['0'] ∨ s.whole.head? ≠ some '0'
  real : s.fraction ≠ [] ∨ s.exponent.isSome = true
  bound : ∀ e ∈ s.exponent, e.natAbs ≤ exponentBound s.digits.length

/-- The parts spell a decimal. -/
structure Spells (s : Spelling) (x : Decimal) : Prop extends s.Proper where
  length_le : s.digits.length ≤ decisiveDigits
  low : -2048 ≤ s.power
  high : s.power ≤ 2048
  value : digitsValue s.digits * 10 ^ s.power = x.value

/-- The parts of digits with a point behind some of them. -/
def positional (digits : List Char) (point : ℤ) : Spelling :=
  if point ≤ 0 then ⟨['0'], List.replicate (-point).toNat '0' ++ digits, none⟩
  else
    ⟨digits.take point.toNat ++
        List.replicate (point.toNat - (digits.take point.toNat).length) '0',
      if digits.drop point.toNat = [] then ['0'] else digits.drop point.toNat, none⟩

/-- The parts of digits in scientific notation. -/
def scientific (digits : List Char) (exponent : ℤ) : Spelling :=
  ⟨digits.take 1, digits.drop 1, some exponent⟩

theorem toList_positional {digits : List Char} (hdigits : digits ≠ []) (point : ℤ) :
    (Number.positional digits point).toList = (positional digits point).text := by
  unfold Number.positional positional text
  by_cases hpoint : point ≤ 0
  · simp [hpoint, hdigits, String.toList_append]
  · by_cases hfraction : digits.length ≤ point.toNat
    · simp [hpoint, hfraction, String.toList_append]
    · simp [hpoint, hfraction, String.toList_append]

theorem toList_scientific (digits : List Char) (exponent : ℤ) :
    (Number.scientific digits exponent).toList = (scientific digits exponent).text := by
  unfold Number.scientific scientific text
  by_cases hlength : digits.length ≤ 1
  · have htail : digits.tail = [] := by rwa [← List.drop_one, List.drop_eq_nil_iff]
    simp [hlength, htail, String.toList_append]
  · have htail : digits.tail ≠ [] := by rwa [← List.drop_one, ne_eq, List.drop_eq_nil_iff]
    simp [hlength, htail, String.toList_append]

variable {digits : List Char} {point : ℤ}

/-- The digits of a text with a point are those of the number and zeros around them. -/
theorem digits_positional (digits : List Char) (point : ℤ) : ∃ before behind : ℕ,
    (positional digits point).digits =
      List.replicate before '0' ++ digits ++ List.replicate behind '0' ∧
      (positional digits point).power = point - digits.length - behind ∧
      before + behind ≤ point.natAbs + 2 := by
  unfold positional
  split_ifs with hpoint hfraction
  · refine ⟨(-point).toNat + 1, 0, ?_, ?_, by omega⟩
    · simp [Spelling.digits, List.replicate_succ]
    · simp only [power, Option.getD_none, List.length_append, List.length_replicate]
      push_cast
      omega
  · rw [List.drop_eq_nil_iff] at hfraction
    refine ⟨0, point.toNat - digits.length + 1, ?_, ?_, by omega⟩
    · simp [Spelling.digits, List.take_of_length_le hfraction, List.replicate_succ']
    · simp only [power, Option.getD_none, List.length_singleton]
      push_cast
      omega
  · rw [List.drop_eq_nil_iff, not_le] at hfraction
    refine ⟨0, 0, ?_, ?_, by omega⟩
    · simp [Spelling.digits, hfraction.le]
    · simp only [power, Option.getD_none, List.length_drop]
      push_cast
      omega

theorem proper_positional (hne : digits ≠ []) (hdigits : ∀ c ∈ digits, c.isDigit = true)
    (hlead : digits.head? ≠ some '0') (point : ℤ) : (positional digits point).Proper := by
  -- the digits are the number's own and zeros; only the places around the point need cases
  obtain ⟨before, behind, heq, -⟩ := digits_positional digits point
  refine ⟨?_, ?_, ?_, ?_, ?_⟩
  · unfold positional
    split_ifs with hpoint
    · exact List.cons_ne_nil _ _
    all_goals
      have htake : digits.take point.toNat ≠ [] := by
        rw [ne_eq, List.take_eq_nil_iff]
        rintro (hzero | hnil)
        · omega
        · exact hne hnil
      exact List.append_ne_nil_of_left_ne_nil htake _
  · rw [heq]
    intro c hc
    rcases List.mem_append.mp hc with hc | hc
    · rcases List.mem_append.mp hc with hc | hc
      · exact isDigit_zeros _ c hc
      · exact hdigits c hc
    · exact isDigit_zeros _ c hc
  · unfold positional
    split_ifs with hpoint
    · exact .inl rfl
    all_goals
      refine .inr ?_
      obtain ⟨k, hk⟩ : ∃ k, point.toNat = k + 1 := ⟨point.toNat - 1, by omega⟩
      cases digits with
      | nil => exact absurd rfl hne
      | cons d ds => simpa [hk] using hlead
  · unfold positional
    split_ifs with hpoint hfraction <;> simp_all
  · unfold positional
    split_ifs <;> simp

theorem digits_scientific (digits : List Char) (exponent : ℤ) :
    (scientific digits exponent).digits = digits := List.take_append_drop 1 digits

theorem power_scientific (hne : digits ≠ []) (exponent : ℤ) :
    (scientific digits exponent).power = exponent + 1 - digits.length := by
  have hpos := List.length_pos_iff.mpr hne
  simp only [scientific, power, Option.getD_some, List.length_drop]
  push_cast [Nat.succ_le_of_lt hpos]
  ring

theorem proper_scientific (hne : digits ≠ []) (hdigits : ∀ c ∈ digits, c.isDigit = true)
    (hlead : digits.head? ≠ some '0') {exponent : ℤ}
    (hbound : exponent.natAbs ≤ exponentBound digits.length) :
    (scientific digits exponent).Proper := by
  refine ⟨?_, ?_, ?_, .inr rfl, ?_⟩
  · simp [scientific, hne]
  · rwa [digits_scientific]
  · cases digits with
    | nil => exact absurd rfl hne
    | cons d ds => exact .inr hlead
  · intro e he
    obtain rfl := Option.some_inj.mp he
    rwa [digits_scientific]

end Spelling

/-- The parts of a decimal's text. -/
def Decimal.spelling (format : FloatFormat) (x : Decimal) : Spelling :=
  let digits := Nat.toDigits 10 x.digits
  let point := x.exponent + digits.length
  if format.lowest ≤ point - 1 ∧ point - 1 ≤ format.highest then .positional digits point
  else .scientific digits (point - 1)

/-- A decimal is written by its spelling. -/
theorem toList_text (format : FloatFormat) (x : Decimal) :
    (x.text format).toList = (x.spelling format).text := by
  unfold Decimal.text Decimal.spelling
  dsimp only
  split_ifs
  · exact Spelling.toList_positional Nat.toDigits_ne_nil _
  · exact Spelling.toList_scientific _ _

variable {m : ℕ} {q : ℤ} {x : Decimal}

/-- **The spelling of a decimal has its value.** -/
theorem spells_spelling (h : x.StandsFor m q) : (x.spelling documentFormat).Spells x := by
  obtain ⟨digits, hdigits⟩ : ∃ digits, digits = Nat.toDigits 10 x.digits := ⟨_, rfl⟩
  have hne : digits ≠ [] := hdigits ▸ Nat.toDigits_ne_nil
  have hdigit : ∀ c ∈ digits, c.isDigit = true := hdigits ▸ isDigit_toDigits x.digits
  have hlead : digits.head? ≠ some '0' := hdigits ▸ head?_toDigits h.pos
  have hvalue : digitsValue digits = x.digits := hdigits ▸ digitsValue_toDigits x.digits
  have hlength : digits.length ≤ 18 := by
    rw [hdigits, Nat.length_toDigits_le_iff (by norm_num) (by norm_num)]
    exact h.le.trans_lt (by norm_num)
  have hlow := h.low
  have hhigh := h.high
  unfold Decimal.spelling
  rw [← hdigits]
  dsimp only
  split_ifs with hpoint
  · change -4 ≤ _ ∧ _ ≤ 15 at hpoint
    obtain ⟨before, behind, heq, hpower, hzeros⟩ :=
      Spelling.digits_positional digits (x.exponent + digits.length)
    refine ⟨Spelling.proper_positional hne hdigit hlead _, ?_, ?_, ?_, ?_⟩
    · rw [heq]
      simp only [List.length_append, List.length_replicate, decisiveDigits]
      omega
    · rw [hpower]
      omega
    · rw [hpower]
      omega
    · rw [heq, hpower, add_sub_cancel_right, digitsValue_append, digitsValue_append,
        digitsValue_zeros, digitsValue_zeros, hvalue, List.length_replicate, Decimal.value,
        zpow_sub₀ (by norm_num), zpow_natCast]
      push_cast
      field_simp
      ring
  · refine ⟨Spelling.proper_scientific hne hdigit hlead ?_, ?_, ?_, ?_, ?_⟩
    · unfold exponentBound
      omega
    · rw [Spelling.digits_scientific, decisiveDigits]
      omega
    · rw [Spelling.power_scientific hne]
      omega
    · rw [Spelling.power_scientific hne]
      omega
    · rw [Spelling.digits_scientific, Spelling.power_scientific hne, hvalue, Decimal.value]
      congr 2
      ring

/-- **Rounding what is spelled gives the double that the decimal stands for.** -/
theorem ofFloat_roundDecimal {s : Spelling} (hs : s.Spells x) (hx : x.StandsFor m q) (hm : 0 < m)
    (hc : Canonical m q) (hq : q ≤ greatestExponent) :
    Double.ofFloat (roundDecimal s.digits s.power) = .finite false m q := by
  have hpos : 0 < digitsValue s.digits := by
    have hxpos : 0 < x.value := by
      have := hx.pos
      unfold Decimal.value
      positivity
    rw [← hs.value] at hxpos
    exact_mod_cast pos_of_mul_pos_left hxpos (by positivity)
  rw [roundDecimal_eq hs.length_le]
  refine ofFloat_scaled hpos hs.low hs.high hm hc hq ?_
  rw [hs.value]
  exact hx.near

end SuiteBalance.Number
