import Mathlib
import SuiteBalance.Proofs.Number.Rounding

/-!
# Proofs — Number — the arithmetic of doubles taken apart

The arithmetic of `Float` is defined on floats that are taken apart into a sign, a mantissa and an
exponent.  It computes exactly, keeps of the digits that do not fit a round bit and a sticky bit,
and rounds by these.  Here the result is found to be `rounded`.

* `StandsFor em x`: a mantissa with its two bits stands for the rational `x`.
* `roundWithAccuracy_eq`: what is rounded by its bits is the rounding of the rational that it
  stands for.
* `round_eq`: the same of an exact mantissa of any length.
-/

namespace SuiteBalance.Number

open Float.Model Float.Model.UnpackedFloat

/-! ### Mantissas with residual bits -/

/-- The mantissa and the round bit are the integer part of the double of `x`, and the sticky bit
says whether anything follows. -/
structure StandsFor (em : ExtendedMantissa) (x : ℚ) : Prop where
  low : 2 * em.mantissa + em.roundBit.toNat ≤ 2 * x
  high : 2 * x < 2 * em.mantissa + em.roundBit.toNat + 1
  sticky : em.stickyBit = true ↔ 2 * em.mantissa + em.roundBit.toNat ≠ 2 * x

namespace StandsFor

variable {em : ExtendedMantissa} {x : ℚ}

theorem mantissa_le (h : StandsFor em x) : em.mantissa ≤ x := by
  linarith [h.low, (Nat.cast_nonneg em.roundBit.toNat : (0 : ℚ) ≤ _)]

theorem lt_mantissa (h : StandsFor em x) : x < em.mantissa + 1 := by
  have : (em.roundBit.toNat : ℚ) ≤ 1 := by exact_mod_cast Bool.toNat_le em.roundBit
  linarith [h.high]

/-- Shifting the mantissa by one halves what it stands for. -/
theorem shiftRightOne (h : StandsFor em x) : StandsFor em.shiftRightOne (x / 2) := by
  have hsplit : 2 * (em.mantissa / 2) + (em.mantissa % 2 != 0).toNat = em.mantissa := by
    rcases Nat.mod_two_eq_zero_or_one em.mantissa with hm | hm <;> simp [hm] <;> omega
  have hsplit : (2 * (em.mantissa / 2 : ℕ) + (em.mantissa % 2 != 0).toNat : ℚ) = em.mantissa := by
    exact_mod_cast hsplit
  have hhalf : 2 * (x / 2) = x := by ring
  refine ⟨?_, ?_, ?_⟩ <;> rw [ExtendedMantissa.shiftRightOne, hhalf, hsplit]
  · exact h.mantissa_le
  · exact h.lt_mantissa
  · rw [Bool.or_eq_true, h.sticky]
    have low := h.low
    cases hb : em.roundBit with
    | false =>
        simp only [Bool.toNat_false, Bool.false_eq_true, false_or, Nat.cast_zero, add_zero]
        rw [not_iff_not]
        constructor <;> intro _ <;> linarith
    | true =>
        simp only [true_or, true_iff]
        intro heq
        rw [hb, ← heq] at low
        norm_num at low

/-- Shifting the mantissa divides what it stands for by a power of two. -/
theorem shiftRight (h : StandsFor em x) (n : ℕ) : StandsFor (em >>> n) (x / 2 ^ n) := by
  change StandsFor (n.repeat ExtendedMantissa.shiftRightOne em) _
  induction n with
  | zero => simpa [Nat.repeat] using h
  | succ n ih =>
      rw [pow_succ, ← div_div]
      exact ih.shiftRightOne

/-- Rounding by the two bits gives the nearest integer. -/
theorem roundedMantissa (h : StandsFor em x) : (em.roundedMantissa : ℤ) = nearestEven x := by
  obtain ⟨low, high, sticky⟩ := h
  obtain ⟨m, roundBit, stickyBit⟩ := em
  symm
  -- the two bits tell on which side of the half way the rational lies, or that it lies on it
  cases roundBit <;> cases stickyBit <;>
    simp only [Bool.toNat_false, Bool.toNat_true, Bool.false_eq_true, false_iff, not_not,
      true_iff, Nat.cast_zero, Nat.cast_one, add_zero] at low high sticky
  case false.false =>
    obtain rfl : x = (m : ℤ) := by push_cast; linarith
    exact nearestEven_intCast m
  case false.true =>
    have hlt : |x - (m : ℤ)| < 1 / 2 := by
      rw [abs_lt]
      push_cast
      constructor <;> linarith
    exact nearestEven_eq hlt.le fun tie => absurd tie hlt.ne
  case true.false =>
    obtain rfl : x = m + 1 / 2 := by linarith
    change nearestEven _ = ((m + m % 2 : ℕ) : ℤ)
    rcases Nat.mod_two_eq_zero_or_one m with hm | hm
    · exact nearestEven_eq (by simp [hm]) fun _ => by omega
    · refine nearestEven_eq ?_ fun _ => by omega
      rw [hm, abs_sub_comm, abs_of_nonneg] <;> push_cast <;> linarith
  case true.true =>
    have above : (2 * m + 1 : ℚ) < 2 * x := lt_of_le_of_ne low sticky
    have hlt : |x - ((m + 1 : ℕ) : ℤ)| < 1 / 2 := by
      rw [abs_lt]
      push_cast
      constructor <;> linarith
    exact nearestEven_eq hlt.le fun tie => absurd tie hlt.ne

end StandsFor

theorem standsFor_exact (m : ℕ) : StandsFor (.ofMantissaAndAccuracy m .exact) m := by
  refine ⟨?_, ?_, ?_⟩ <;> simp [ExtendedMantissa.ofMantissaAndAccuracy]

/-- The accuracy of a division leaves the mantissa and the fraction behind it. -/
theorem standsFor_fraction (m : ℕ) {a d : ℕ} (h : a < d) :
    StandsFor (.ofMantissaAndAccuracy m (accuracyOfFraction a d)) (m + a / d) := by
  have hd : (0 : ℚ) < d := by exact_mod_cast (Nat.zero_le a).trans_lt h
  have hlt : (a : ℚ) / d < 1 := by rw [div_lt_one hd]; exact_mod_cast h
  obtain rfl | ha := Nat.eq_zero_or_pos a
  · simpa [accuracyOfFraction] using standsFor_exact m
  have hpos : 0 < (a : ℚ) / d := by positivity
  rw [accuracyOfFraction, if_neg ha.ne']
  -- the round bit tells whether the fraction reaches one half, the sticky bit whether more follows
  rcases lt_trichotomy (2 * a) d with hhalf | hhalf | hhalf
  · have : (a : ℚ) / d < 1 / 2 := by
      rw [div_lt_div_iff₀ hd two_pos]
      exact_mod_cast (by omega)
    rw [Nat.compare_eq_lt.mpr hhalf]
    refine ⟨?_, ?_, ?_⟩ <;> simp [ExtendedMantissa.ofMantissaAndAccuracy]
    · linarith
    · linarith
    · exact ⟨ha.ne', by omega⟩
  · have : (a : ℚ) / d = 1 / 2 := by
      rw [div_eq_div_iff hd.ne' two_ne_zero]
      exact_mod_cast (by omega)
    rw [Nat.compare_eq_eq.mpr hhalf]
    refine ⟨?_, ?_, ?_⟩ <;> simp [ExtendedMantissa.ofMantissaAndAccuracy] <;> linarith
  · have : 1 / 2 < (a : ℚ) / d := by
      rw [div_lt_div_iff₀ two_pos hd]
      exact_mod_cast (by omega)
    rw [Nat.compare_eq_gt.mpr hhalf]
    refine ⟨?_, ?_, ?_⟩ <;> simp [ExtendedMantissa.ofMantissaAndAccuracy]
    · linarith
    · linarith
    · intro h
      linarith

/-! ### Rounding by the bits -/

/-- The float with the given parts, where no mantissa means zero. -/
def ofParts (s : Sign) (m : ℕ) (q : ℤ) : UnpackedFloat :=
  if h : m = 0 then .zero s else .finite s m q (Nat.pos_of_ne_zero h)

/-- The target of a shift is the grid of the rational that a mantissa begins. -/
theorem targetExponent_eq {m : ℕ} {e : ℤ} {r : ℚ} (hr : 0 < r) (hm : 0 < m ∨ e ≤ leastExponent)
    (low : m ≤ r / 2 ^ e) (high : r / 2 ^ e < m + 1) :
    Format.binary64.targetExponent (totalExponent m e) = gridExponent r := by
  have he : (0 : ℚ) < 2 ^ e := by positivity
  have hhigh : r < (2 : ℚ) ^ (m.log2 + 1 + e) := by
    rw [zpow_add₀ two_ne_zero, ← Nat.cast_succ, zpow_natCast, ← div_lt_iff₀ he]
    refine high.trans_le ?_
    exact_mod_cast Nat.lt_log2_self
  have hlt := (Int.lt_zpow_iff_log_lt one_lt_two hr).mp (by exact_mod_cast hhigh)
  simp only [Format.targetExponent, totalExponent, Format.mantissaBits, Format.minExponent,
    gridExponent, leastExponent] at hm ⊢
  obtain rfl | hm := m.eq_zero_or_pos
  · rw [Nat.log2_zero] at hlt ⊢
    omega
  · have hlow : (2 : ℚ) ^ (m.log2 + e) ≤ r := by
      rw [zpow_add₀ two_ne_zero, zpow_natCast, ← le_div_iff₀ he]
      refine le_trans ?_ low
      exact_mod_cast Nat.log2_self_le hm.ne'
    have hle := (Int.zpow_le_iff_le_log one_lt_two hr).mp (by exact_mod_cast hlow)
    omega

/-- A mantissa of fifty-three digits stays where it is. -/
theorem shiftToTargetExponent_of_lt {n : ℕ} {t : ℤ} (hn : n < 2 ^ 53) (ht : leastExponent ≤ t) :
    shiftToTargetExponent .binary64 n t .exact = (.ofMantissaAndAccuracy n .exact, t) := by
  have hlog : n.log2 ≤ 52 := by
    obtain rfl | hpos := n.eq_zero_or_pos
    · simp
    · exact Nat.le_of_lt_succ ((Nat.log2_lt hpos.ne').mpr hn)
  have hshift : (Format.binary64.targetExponent (totalExponent n t) - t).toNat = 0 := by
    simp only [Format.targetExponent, totalExponent, Format.mantissaBits, Format.minExponent]
    unfold leastExponent at ht
    omega
  simp only [shiftToTargetExponent, shiftToExponent, hshift]
  simp [HShiftRight.hShiftRight, Nat.repeat]

/-- A mantissa that rounding has carried to the fifty-fourth digit is shifted once. -/
theorem shiftToTargetExponent_carry {t : ℤ} (ht : leastExponent ≤ t) :
    shiftToTargetExponent .binary64 (2 ^ 53) t .exact =
      (.ofMantissaAndAccuracy (2 ^ 52) .exact, t + 1) := by
  have hshift : Format.binary64.targetExponent (totalExponent (2 ^ 53) t) - t = 1 := by
    simp only [Format.targetExponent, totalExponent, Format.mantissaBits, Format.minExponent,
      Nat.log2_two_pow]
    unfold leastExponent at ht
    omega
  simp only [shiftToTargetExponent, shiftToExponent, hshift]
  rfl

/-- **Rounding by the bits is rounding to the grid.**  What a mantissa and its accuracy stand for
at an exponent that is fine enough is rounded to a float in canonical form; nothing may be left of
the mantissa only at an exponent that is not above the least. -/
theorem roundWithAccuracy_eq (s : Sign) {m : ℕ} {e : ℤ} {acc : Accuracy} {r : ℚ} (hr : 0 < r)
    (hm : 0 < m ∨ e ≤ leastExponent)
    (h : StandsFor (.ofMantissaAndAccuracy m acc) (r / 2 ^ e)) (he : e ≤ gridExponent r) :
    ∃ M E, roundWithAccuracy .binary64 s m e acc = ofParts s M E ∧ Canonical M E ∧
      M * 2 ^ E = rounded r := by
  have hmantissa : (ExtendedMantissa.ofMantissaAndAccuracy m acc).mantissa = m := by
    cases acc with
    | exact => rfl
    | inexact o => cases o <;> rfl
  have low := h.mantissa_le
  have high := h.lt_mantissa
  rw [hmantissa] at low high
  -- the first shift brings the mantissa to the grid
  obtain ⟨d, hd⟩ : ∃ d : ℕ, gridExponent r = e + d :=
    ⟨(gridExponent r - e).toNat, by omega⟩
  have hfirst : shiftToTargetExponent .binary64 m e acc =
      (ExtendedMantissa.ofMantissaAndAccuracy m acc >>> d, gridExponent r) := by
    rw [shiftToTargetExponent, targetExponent_eq hr hm low high, hd]
    simp [shiftToExponent]
  obtain ⟨n, hn⟩ : ∃ n, (ExtendedMantissa.ofMantissaAndAccuracy m acc >>> d).roundedMantissa = n :=
    ⟨_, rfl⟩
  have hround : (n : ℤ) = nearestEven (r / 2 ^ gridExponent r) := by
    rw [← hn, (h.shiftRight d).roundedMantissa, hd, zpow_add₀ two_ne_zero, zpow_natCast, div_div]
  have hvalue : (n : ℚ) * 2 ^ gridExponent r = rounded r := by
    rw [rounded, ← hround]
    norm_cast
  have hle : n ≤ 2 ^ 53 := by
    have := nearestEven_le (x := r / 2 ^ gridExponent r) (n := 2 ^ 53)
      (by exact_mod_cast div_gridExponent_lt.le)
    omega
  have hleast : leastExponent ≤ gridExponent r := le_max_right _ _
  have hresult : roundWithAccuracy .binary64 s m e acc =
      ofParts s (shiftToTargetExponent .binary64 n (gridExponent r) .exact).1.mantissa
        (shiftToTargetExponent .binary64 n (gridExponent r) .exact).2 := by
    simp only [roundWithAccuracy, hfirst, hn, ofParts]
  -- the second shift moves only a mantissa that rounding has carried to one digit more
  obtain hlt | rfl := hle.lt_or_eq
  · refine ⟨n, gridExponent r, ?_, ⟨hlt, hleast, ?_⟩, hvalue⟩
    · rw [hresult, shiftToTargetExponent_of_lt hlt hleast]
      rfl
    · by_cases hgrid : gridExponent r = leastExponent
      · exact .inr hgrid
      · have := le_nearestEven (x := r / 2 ^ gridExponent r) (n := 2 ^ 52)
          (by exact_mod_cast le_div_gridExponent hr hgrid)
        exact .inl (by omega)
  · refine ⟨2 ^ 52, gridExponent r + 1, ?_, ⟨by norm_num, by omega, .inl le_rfl⟩, ?_⟩
    · rw [hresult, shiftToTargetExponent_carry hleast]
      rfl
    · rw [← hvalue, zpow_add_one₀ two_ne_zero]
      push_cast
      ring

/-- Decreasing the exponent of a mantissa keeps what the two stand for. -/
theorem decreaseExponent_eq (m : ℕ) (e t : ℤ) :
    ∃ d : ℕ, decreaseExponent m e t = (m * 2 ^ d, e - d) ∧ e - d ≤ t ∧ (t ≤ e → e - d = t) :=
  ⟨(e - t).toNat, by simp [decreaseExponent, Nat.shiftLeft_eq], by omega, by omega⟩

/-- **Rounding an exact mantissa of any length is rounding to the grid.** -/
theorem round_eq (s : Sign) {m : ℕ} (e : ℤ) (hm : 0 < m) :
    ∃ M E, UnpackedFloat.round .binary64 s m e = ofParts s M E ∧ Canonical M E ∧
      M * 2 ^ E = rounded (m * 2 ^ e) := by
  have hself : (m * 2 ^ e : ℚ) / 2 ^ e = m := by field_simp
  have hr : (0 : ℚ) < m * 2 ^ e := by positivity
  have htarget := targetExponent_eq hr (.inl hm) hself.ge (by rw [hself]; linarith)
  obtain ⟨d, hd, hle, -⟩ := decreaseExponent_eq m e (gridExponent (m * 2 ^ e))
  have hshifted : (m * 2 ^ e : ℚ) / 2 ^ (e - d) = (m * 2 ^ d : ℕ) := by
    rw [mul_div_assoc, ← zpow_sub₀ two_ne_zero, sub_sub_cancel]
    push_cast
    rw [zpow_natCast]
  have hstands : StandsFor (.ofMantissaAndAccuracy (m * 2 ^ d) .exact)
      ((m * 2 ^ e : ℚ) / 2 ^ (e - d)) := by
    rw [hshifted]
    exact standsFor_exact _
  rw [UnpackedFloat.round, htarget, hd]
  exact roundWithAccuracy_eq s hr (.inl (by positivity)) hstands hle

end SuiteBalance.Number
