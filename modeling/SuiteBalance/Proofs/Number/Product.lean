import Mathlib
import SuiteBalance.Number.Reading
import SuiteBalance.Proofs.Number.Arithmetic

/-!
# Proofs — Number — products, quotients and decimals

A decimal is turned into a double by one product or one quotient with a power of ten, in doubles
where both are exact and else on floats that are taken apart.

* `mul_eq`, `div_eq`: products and quotients are rounded exact ones.
* `exact_scaled`: **`scaled`** is the decimal, fitted to the format.
-/

namespace SuiteBalance.Number

open Float.Model Float.Model.UnpackedFloat

/-! ### Products and quotients -/

/-- A float taken apart stands for the rounding of a rational. -/
def RoundsTo (u : UnpackedFloat) (r : ℚ) : Prop :=
  ∃ M E, u = ofParts .positive M E ∧ Canonical M E ∧ M * 2 ^ E = rounded r

/-- **A product is the exact one, rounded**, if its mantissa has enough digits. -/
theorem mul_eq {m n : ℕ} {p q : ℤ} (hm : 0 < m) (hn : 0 < n) (h : 2 ^ 52 ≤ m * n) :
    RoundsTo (.mul .binary64 (.finite .positive m p hm) (.finite .positive n q hn))
      (m * 2 ^ p * (n * 2 ^ q)) := by
  have hr : (0 : ℚ) < m * 2 ^ p * (n * 2 ^ q) := by positivity
  have hproduct : (m * 2 ^ p * (n * 2 ^ q) : ℚ) = (m * n : ℕ) * 2 ^ (p + q) := by
    rw [zpow_add₀ two_ne_zero]
    push_cast
    ring
  have hself : (m * 2 ^ p * (n * 2 ^ q) : ℚ) / 2 ^ (p + q) = (m * n : ℕ) := by
    rw [hproduct]
    field_simp
  have hstands : StandsFor (.ofMantissaAndAccuracy (m * n) .exact)
      ((m * 2 ^ p * (n * 2 ^ q) : ℚ) / 2 ^ (p + q)) := by
    rw [hself]
    exact standsFor_exact _
  have hlow : (2 : ℚ) ^ (52 + (p + q)) ≤ m * 2 ^ p * (n * 2 ^ q) := by
    rw [hproduct, zpow_add₀ two_ne_zero]
    gcongr
    exact_mod_cast h
  have hlog := (Int.zpow_le_iff_le_log one_lt_two hr).mp (by exact_mod_cast hlow)
  refine roundWithAccuracy_eq .positive hr (.inl (by positivity)) hstands ?_
  unfold gridExponent
  omega

/-- The digits of two floats tell the exponent of their quotient but for one. -/
theorem totalExponent_sub_le {m n : ℕ} (hm : 0 < m) (hn : 0 < n) (p q : ℤ) :
    totalExponent m p - totalExponent n q - 1 ≤ Int.log 2 (m * 2 ^ p / (n * 2 ^ q) : ℚ) := by
  have hnum : (2 : ℚ) ^ (m.log2 + p) ≤ m * 2 ^ p := by
    rw [zpow_add₀ two_ne_zero, zpow_natCast]
    gcongr
    exact_mod_cast Nat.log2_self_le hm.ne'
  have hden : (n * 2 ^ q : ℚ) ≤ 2 ^ (n.log2 + 1 + q) := by
    rw [zpow_add₀ two_ne_zero, ← Nat.cast_succ, zpow_natCast]
    gcongr
    exact_mod_cast Nat.lt_log2_self.le
  have hexponent : totalExponent m p - totalExponent n q - 1 =
      (m.log2 + p) - (n.log2 + 1 + q) := by
    unfold totalExponent
    omega
  refine (Int.zpow_le_iff_le_log one_lt_two (by positivity)).mp ?_
  rw [hexponent, Nat.cast_ofNat, zpow_sub₀ two_ne_zero]
  gcongr

/-- **A quotient is the exact one, rounded.** -/
theorem div_eq {m n : ℕ} {p q : ℤ} (hm : 0 < m) (hn : 0 < n) :
    RoundsTo (.div .binary64 (.finite .positive m p hm) (.finite .positive n q hn))
      (m * 2 ^ p / (n * 2 ^ q)) := by
  obtain ⟨r, hr⟩ : ∃ r : ℚ, r = m * 2 ^ p / (n * 2 ^ q) := ⟨_, rfl⟩
  have hpos : 0 < r := by rw [hr]; positivity
  have hn' : (0 : ℚ) < n := by exact_mod_cast hn
  obtain ⟨t, ht⟩ : ∃ t : ℤ, t = min (p - q)
    (Format.binary64.targetExponent (totalExponent m p - totalExponent n q)) := ⟨_, rfl⟩
  obtain ⟨d, hd⟩ : ∃ d : ℕ, p - q - t = d := ⟨(p - q - t).toNat, by omega⟩
  have hquotient : r / 2 ^ t = (m * 2 ^ d : ℕ) / n := by
    have hexponent : (2 : ℚ) ^ d * 2 ^ t = 2 ^ p / 2 ^ q := by
      rw [← zpow_natCast, ← hd, ← zpow_add₀ two_ne_zero, sub_add_cancel, zpow_sub₀ two_ne_zero]
    rw [hr, div_eq_div_iff (by positivity) hn'.ne', Nat.cast_mul, Nat.cast_pow, Nat.cast_ofNat,
      mul_assoc, hexponent]
    field_simp
  have hdiv : UnpackedFloat.div .binary64 (.finite .positive m p hm) (.finite .positive n q hn) =
      roundWithAccuracy .binary64 .positive (m * 2 ^ d / n) t
        (accuracyOfFraction (m * 2 ^ d % n) n) := by
    simp only [UnpackedFloat.div, divCore, ← ht, hd, Int.toNat_natCast, Nat.shiftLeft_eq]
    rfl
  have hstands : StandsFor (.ofMantissaAndAccuracy (m * 2 ^ d / n)
      (accuracyOfFraction (m * 2 ^ d % n) n)) (r / 2 ^ t) := by
    have hsplit : r / 2 ^ t = (m * 2 ^ d / n : ℕ) + (m * 2 ^ d % n : ℕ) / n := by
      rw [hquotient, div_eq_iff hn'.ne', add_mul, div_mul_cancel₀ _ hn'.ne']
      exact_mod_cast (Nat.div_add_mod' (m * 2 ^ d) n).symm
    rw [hsplit]
    exact standsFor_fraction _ (Nat.mod_lt _ hn)
  have hlog : totalExponent m p - totalExponent n q - 1 ≤ Int.log 2 r :=
    hr ▸ totalExponent_sub_le hm hn p q
  have hle : t ≤ gridExponent r := by
    simp only [Format.targetExponent, Format.mantissaBits, Format.minExponent] at ht
    unfold gridExponent leastExponent
    omega
  refine hr ▸ hdiv ▸ roundWithAccuracy_eq .positive hpos ?_ hstands hle
  by_cases hleast : t ≤ leastExponent
  · exact .inr hleast
  · refine .inl (Nat.div_pos ?_ hn)
    have hone : 1 ≤ r / 2 ^ t := by
      rw [le_div_iff₀ (by positivity), one_mul]
      refine le_trans (zpow_le_zpow_right₀ one_le_two ?_) (zpow_log_le hpos)
      unfold gridExponent at hle
      omega
    rw [hquotient, one_le_div hn'] at hone
    exact_mod_cast hone

/-! ### Decimals -/

/-- What stands for the rounding of a rational is packed to the rational, fitted to the format. -/
theorem RoundsTo.pack {u : UnpackedFloat} {r : ℚ} (h : RoundsTo u r) :
    0.0 ≤ Float.ofModel (.pack u) ∧ exact (.ofModel (.pack u)) = fitted r := by
  obtain ⟨M, E, rfl, hc, hvalue⟩ := h
  exact pack_of_rounded hc hvalue

/-- The decimals that are found on floats taken apart. -/
theorem exact_ofModel_ofScientific {n : ℕ} {e : ℤ} (hn : 0 < n) (low : -2048 ≤ e)
    (high : e ≤ 2048) :
    0.0 ≤ Float.ofModel (.ofScientific n e) ∧
      exact (.ofModel (.ofScientific n e)) = fitted (n * 10 ^ e : ℚ) := by
  have hhigh : ¬ e > 2 ^ Format.binary64.exponentBits := by
    change ¬ e > 2048
    omega
  have hlow : ¬ e < -((2 ^ Format.binary64.exponentBits : ℤ) + n.log2) := by
    change ¬ e < -(2048 + (n.log2 : ℤ))
    omega
  refine RoundsTo.pack ?_
  rw [UnpackedFloat.ofScientific, dif_neg hn.ne', if_neg hhigh, if_neg hlow]
  split
  case isTrue he =>
      have hmul := mul_eq (m := n <<< 53) (n := 10 ^ e.toNat) (p := -53) (q := 0)
        (by rw [Nat.shiftLeft_eq]; positivity) (by positivity) ?_
      · have hvalue : ((n <<< 53 : ℕ) * 2 ^ (-53 : ℤ) * ((10 ^ e.toNat : ℕ) * 2 ^ (0 : ℤ)) : ℚ) =
            n * 10 ^ e := by
          obtain ⟨k, rfl⟩ := Int.eq_ofNat_of_zero_le he
          rw [Nat.shiftLeft_eq, Int.toNat_natCast, zpow_natCast, zpow_zero, zpow_neg]
          push_cast
          field_simp
        rwa [hvalue] at hmul
      · rw [Nat.shiftLeft_eq]
        have : 0 < n * 10 ^ e.toNat := by positivity
        nlinarith
  case isFalse he =>
      have hdiv := div_eq (m := n) (n := 10 ^ (-e).toNat) (p := 0) (q := 0) hn (by positivity)
      have hvalue : (n * 2 ^ (0 : ℤ) / ((10 ^ (-e).toNat : ℕ) * 2 ^ (0 : ℤ)) : ℚ) = n * 10 ^ e := by
        obtain ⟨k, rfl⟩ := Int.exists_eq_neg_ofNat (not_le.mp he).le
        rw [neg_neg, Int.toNat_natCast, zpow_zero, mul_one, mul_one, zpow_neg, zpow_natCast]
        push_cast
        rfl
      rwa [hvalue] at hdiv

/-- A float with a positive double is taken apart into its parts. -/
theorem unpack_of_ofFloat {x : Float} {m : ℕ} {q : ℤ} (h : Double.ofFloat x = .finite false m q)
    (hm : 0 < m) : x.toModel.unpack = .finite .positive m q hm := by
  rw [ofFloat_eq] at h
  cases hu : x.toModel.unpack with
  | infinity => simp [hu, Double.ofUnpacked] at h
  | notANumber => simp [hu, Double.ofUnpacked] at h
  | zero =>
      obtain ⟨-, rfl, -⟩ := by simpa [hu, Double.ofUnpacked] using h
      exact absurd hm (lt_irrefl 0)
  | finite s n p hn =>
      rw [hu, Double.ofUnpacked, Double.finite.injEq] at h
      obtain ⟨hs, rfl, rfl⟩ := h
      cases s with
      | negative => cases hs
      | positive => rfl

/-- A positive double with fifty-three digits that stands for a rational. -/
def IsNormal (x : Float) (r : ℚ) : Prop :=
  ∃ m q, Double.ofFloat x = .finite false m q ∧ 2 ^ 52 ≤ m ∧ (m * 2 ^ q : ℚ) = r

/-- A whole number below `2 ^ 53` is a double. -/
theorem isNormal_toFloat {n : ℕ} (hn : 0 < n) (hlt : n < 2 ^ 53) :
    IsNormal n.toUInt64.toFloat n := by
  obtain ⟨m, q, hround, hc, hvalue⟩ := round_eq .positive 0 hn
  have hself : rounded (n * 2 ^ (0 : ℤ)) = n := by
    rw [rounded_of_grid hlt (by norm_num [leastExponent]), zpow_zero, mul_one]
  rw [hself] at hvalue
  have hq : q ≤ greatestExponent := by
    rw [← hc.lt_iff, hvalue]
    calc (n : ℚ) < 2 ^ (53 : ℤ) := by exact_mod_cast hlt
      _ ≤ 2 ^ (1024 : ℤ) := zpow_le_zpow_right₀ one_le_two (by norm_num)
  have hnormal : 2 ^ 52 ≤ m := by
    refine hc.normal.resolve_right fun hleast => ?_
    have hm : (m : ℚ) < 2 ^ (53 : ℤ) := by exact_mod_cast hc.lt
    have hone : (1 : ℚ) ≤ n := by exact_mod_cast hn
    have : (n : ℚ) < 1 := by
      calc (n : ℚ) = m * 2 ^ q := hvalue.symm
        _ < 2 ^ (53 : ℤ) * 2 ^ q := by gcongr
        _ = 2 ^ (53 + q) := (zpow_add₀ two_ne_zero _ _).symm
        _ ≤ 1 := zpow_le_one_of_nonpos₀ one_le_two (by rw [hleast]; norm_num [leastExponent])
    linarith
  refine ⟨m, q, ?_, hnormal, hvalue⟩
  have htoNat : n.toUInt64.toNat = n :=
    Nat.mod_eq_of_lt (hlt.trans (by norm_num : 2 ^ 53 < 2 ^ 64))
  have hfloat : n.toUInt64.toFloat = .ofModel (.pack (ofParts .positive m q)) := by
    rw [← hround, ← normalize_natCast hn 0 .positive]
    change Float.ofModel (.pack (UnpackedFloat.normalize .binary64 n.toUInt64.toNat 0 .positive)) = _
    rw [htoNat]
  rw [hfloat, ofFloat_pack _ hc, if_pos hq]
  rfl

/-- A double is the quotient of its numerator and its denominator. -/
theorem ratio_spec (m : ℕ) (q : ℤ) :
    0 < (ratio m q).2 ∧ ((ratio m q).1 : ℚ) = m * 2 ^ q * (ratio m q).2 := by
  unfold ratio
  split_ifs with hq
  · obtain ⟨k, rfl⟩ := Int.eq_ofNat_of_zero_le hq
    exact ⟨one_pos, by simp⟩
  · obtain ⟨k, rfl⟩ := Int.exists_eq_neg_ofNat (not_le.mp hq).le
    refine ⟨Nat.pow_pos two_pos, ?_⟩
    rw [neg_neg, Int.toNat_natCast, zpow_neg, zpow_natCast]
    push_cast [Nat.pow_eq]
    field_simp

/-- Whether a double is the given power of ten and has fifty-three digits. -/
def isPowerOfTen (e : ℕ) : Double → Bool
  | .finite false m q => 2 ^ 52 ≤ m && (ratio m q).1 == 10 ^ e * (ratio m q).2
  | _ => false

theorem isPowerOfTen_table : ∀ e : Fin Float.exactlyRepresentablePowersOfTen.size,
    isPowerOfTen e (Double.ofFloat Float.exactlyRepresentablePowersOfTen[e]) = true := by
  decide +kernel

/-- The powers of ten in the table are exact. -/
theorem isNormal_powerOfTen (e : ℕ) (h : e < Float.exactlyRepresentablePowersOfTen.size) :
    IsNormal Float.exactlyRepresentablePowersOfTen[e] (10 ^ e) := by
  have hpower : isPowerOfTen e (Double.ofFloat Float.exactlyRepresentablePowersOfTen[e]) = true :=
    isPowerOfTen_table ⟨e, h⟩
  unfold isPowerOfTen at hpower
  split at hpower
  case h_1 m q hx =>
      rw [Bool.and_eq_true, decide_eq_true_iff, beq_iff_eq] at hpower
      obtain ⟨hpos, hratio⟩ := ratio_spec m q
      have hd : ((ratio m q).2 : ℚ) ≠ 0 := by exact_mod_cast hpos.ne'
      refine ⟨m, q, hx, hpower.1, mul_right_cancel₀ hd ?_⟩
      rw [← hratio, hpower.2]
      push_cast
      rfl
  case h_2 => cases hpower

variable {x y : Float} {r s : ℚ}

/-- The parts of a double with fifty-three digits. -/
theorem IsNormal.unpack (h : IsNormal x r) :
    ∃ m q, ∃ hm : 0 < m, x.toModel.unpack = .finite .positive m q hm ∧ 2 ^ 52 ≤ m ∧
      (m * 2 ^ q : ℚ) = r := by
  obtain ⟨m, q, hx, hm, hr⟩ := h
  have hpos : 0 < m := lt_of_lt_of_le (by norm_num) hm
  exact ⟨m, q, hpos, unpack_of_ofFloat hx hpos, hm, hr⟩

theorem IsNormal.mul (hx : IsNormal x r) (hy : IsNormal y s) :
    0.0 ≤ x * y ∧ exact (x * y) = fitted (r * s : ℚ) := by
  obtain ⟨m, p, hm, hu, hlow, rfl⟩ := hx.unpack
  obtain ⟨n, q, hn, hv, -, rfl⟩ := hy.unpack
  have h := (mul_eq (p := p) (q := q) hm hn (hlow.trans (Nat.le_mul_of_pos_right m hn))).pack
  rwa [← hu, ← hv] at h

theorem IsNormal.div (hx : IsNormal x r) (hy : IsNormal y s) :
    0.0 ≤ x / y ∧ exact (x / y) = fitted (r / s : ℚ) := by
  obtain ⟨m, p, hm, hu, -, rfl⟩ := hx.unpack
  obtain ⟨n, q, hn, hv, -, rfl⟩ := hy.unpack
  have h := (div_eq (p := p) (q := q) hm hn).pack
  rwa [← hu, ← hv] at h

/-- The powers of ten up to `10 ^ 22` are in the table. -/
theorem lt_size_powersOfTen {e : ℕ} (h : e ≤ 22) :
    e < Float.exactlyRepresentablePowersOfTen.size := Nat.lt_succ_of_le h

theorem ofScientific_eq_mul {n k : ℕ} (h : n < 2 ^ 53 ∧ k ≤ 22)
    (hk : k < Float.exactlyRepresentablePowersOfTen.size) :
    Float.ofScientific n false k =
      n.toUInt64.toFloat * Float.exactlyRepresentablePowersOfTen[k] := dif_pos h

theorem ofScientific_eq_div {n k : ℕ} (h : n < 2 ^ 53 ∧ k ≤ 22)
    (hk : k < Float.exactlyRepresentablePowersOfTen.size) :
    Float.ofScientific n true k =
      n.toUInt64.toFloat / Float.exactlyRepresentablePowersOfTen[k] := dif_pos h

/-- **A decimal is the nearest double.** -/
theorem exact_scaled {n : ℕ} {e : ℤ} (hn : 0 < n) (low : -2048 ≤ e) (high : e ≤ 2048) :
    0.0 ≤ scaled n e ∧ exact (scaled n e) = fitted (n * 10 ^ e : ℚ) := by
  have hslow := exact_ofModel_ofScientific hn low high
  unfold scaled
  split_ifs with he
  · obtain ⟨k, rfl⟩ := Int.eq_ofNat_of_zero_le he
    rw [Int.toNat_natCast]
    by_cases hfast : n < 2 ^ 53 ∧ k ≤ 22
    · rw [ofScientific_eq_mul hfast (lt_size_powersOfTen hfast.2), zpow_natCast]
      exact (isNormal_toFloat hn hfast.1).mul (isNormal_powerOfTen k _)
    · rw [Float.ofScientific, dif_neg hfast]
      exact hslow
  · obtain ⟨k, rfl⟩ := Int.exists_eq_neg_ofNat (not_le.mp he).le
    rw [neg_neg, Int.toNat_natCast]
    by_cases hfast : n < 2 ^ 53 ∧ k ≤ 22
    · rw [ofScientific_eq_div hfast (lt_size_powersOfTen hfast.2), zpow_neg, zpow_natCast,
        ← div_eq_mul_inv]
      exact (isNormal_toFloat hn hfast.1).div (isNormal_powerOfTen k _)
    · rw [Float.ofScientific, dif_neg hfast, if_pos rfl, Int.negOfNat_eq]
      exact hslow

/-- A float that stands for a positive double has its parts. -/
theorem ofFloat_of_exact {m : ℕ} {q : ℤ} (hx : 0.0 ≤ x) (hm : 0 < m) (hc : Canonical m q)
    (h : exact x = (m * 2 ^ q : ℚ)) : Double.ofFloat x = .finite false m q := by
  have hdenotes := denotes_of_nonneg hx
  rw [ofFloat_eq]
  generalize x.toModel.unpack = u at hdenotes
  rw [h] at hdenotes
  generalize hr : ((m * 2 ^ q : ℚ) : WithTop ℚ) = r at hdenotes
  cases hdenotes with
  | infinity => exact absurd hr (WithTop.coe_ne_top)
  | zero =>
      have : (m * 2 ^ q : ℚ) = 0 := WithTop.coe_injective hr
      exact absurd this (by positivity)
  | finite hn hd =>
      obtain ⟨rfl, rfl⟩ := hc.eq_of_value hd (WithTop.coe_injective hr)
      rfl

/-- A decimal in the interval of a double is that double. -/
theorem ofFloat_scaled {n m : ℕ} {e q : ℤ} (hn : 0 < n) (low : -2048 ≤ e) (high : e ≤ 2048)
    (hm : 0 < m) (hc : Canonical m q) (hq : q ≤ greatestExponent) (h : Near m q (n * 10 ^ e)) :
    Double.ofFloat (scaled n e) = .finite false m q := by
  obtain ⟨hnonneg, hexact⟩ := exact_scaled hn low high
  refine ofFloat_of_exact hnonneg hm hc ?_
  rw [hexact, fitted_coe, rounded_of_near hc (by positivity) h, if_pos (hc.lt_iff.mpr hq)]

end SuiteBalance.Number
