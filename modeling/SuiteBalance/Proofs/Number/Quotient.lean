import Mathlib
import SuiteBalance.Proofs.Number.Overflow

/-!
# Proofs — Number — shares

A share is a quotient of doubles, which is scaled by a product and rounded to an integer.  Doubles
that are not below zero and stand for rationals have a quotient and a product that do so too, fitted
to the format; a quotient of infinities is no number, and has no nearest integer.

* `rounded_natCast`, `lt_overflowThreshold`: small numbers are kept, and are not too large.
* `isFinite_iff_exact`: the finite doubles.
* **`exact_div`**, `exact_div_of_top`: quotients.
* **`exact_mul`**: products.
* **`nearest_eq`**: the nearest integer.
* `nearest_infinities`: infinities have no share of one another.
-/

namespace SuiteBalance.Number

open Float.Model Float.Model.UnpackedFloat

variable {x y : Float} {r s : ℚ}

/-! ### Small numbers -/

theorem lt_overflowThreshold {r : ℚ} (h : r ≤ 2 ^ 53) : r < overflowThreshold := by
  have hsmall : (2 : ℚ) ^ 53 < 2 ^ (1023 : ℤ) := by
    rw [← zpow_natCast]
    exact zpow_lt_zpow_right₀ one_lt_two (by norm_num)
  exact (h.trans_lt hsmall).trans_le le_overflowThreshold

theorem rounded_natCast {n : ℕ} (h : n < 2 ^ 53) : rounded n = n := by
  have hgrid := rounded_of_grid (e := 0) h (by decide)
  rwa [zpow_zero, mul_one] at hgrid

theorem rounded_le_natCast {r : ℚ} {n : ℕ} (hn : n < 2 ^ 53) (hr : 0 ≤ r) (h : r ≤ n) :
    rounded r ≤ n := (rounded_mono hr h).trans_eq (rounded_natCast hn)

/-! ### Finite doubles -/

/-- A number that is not below zero is finite if it stands for a rational. -/
theorem isFinite_iff_exact (hx : 0.0 ≤ x) : x.isFinite = true ↔ exact x ≠ ⊤ := by
  have hisFinite : x.isFinite = x.toModel.unpack.isFinite := rfl
  have hdenotes := denotes_of_nonneg hx
  rw [hisFinite]
  generalize x.toModel.unpack = u, exact x = a at hdenotes
  cases hdenotes with
  | infinity => exact iff_of_false Bool.false_ne_true (fun h => h rfl)
  | zero => exact iff_of_true rfl WithTop.zero_ne_top
  | finite => exact iff_of_true rfl WithTop.coe_ne_top

/-! ### Quotients -/

/-- **A quotient of doubles stands for the exact quotient, fitted to the format**, unless nothing is
what it is divided by. -/
theorem exact_div (hx : 0.0 ≤ x) (hy : 0.0 ≤ y) (hr : exact x = r) (hs : exact y = s)
    (hne : s ≠ 0) : 0.0 ≤ x / y ∧ exact (x / y) = fitted (r / s : ℚ) := by
  have hu := denotes_of_nonneg hx
  have hv := denotes_of_nonneg hy
  rw [hr] at hu
  rw [hs] at hv
  have hdiv : x / y = .ofModel (.pack (.div .binary64 x.toModel.unpack y.toModel.unpack)) := rfl
  rw [hdiv]
  generalize x.toModel.unpack = u, y.toModel.unpack = v at hu hv
  generalize ha : (r : WithTop ℚ) = a at hu
  generalize hb : (s : WithTop ℚ) = b at hv
  cases hv with
  | infinity => exact absurd hb WithTop.coe_ne_top
  | zero => exact absurd (WithTop.coe_eq_zero.mp hb) hne
  | finite hn =>
      obtain rfl := WithTop.coe_injective hb
      cases hu with
      | infinity => exact absurd ha WithTop.coe_ne_top
      | zero z =>
          obtain rfl := WithTop.coe_eq_zero.mp ha
          rw [zero_div]
          cases z <;> exact (Denotes.zero _).pack
      | finite hm =>
          obtain rfl := WithTop.coe_injective ha
          exact (div_eq hm hn).pack

/-- What is finite has no part of what is infinite. -/
theorem exact_div_of_top (hx : 0.0 ≤ x) (hy : 0.0 ≤ y) (hr : exact x ≠ ⊤) (hs : exact y = ⊤) :
    0.0 ≤ x / y ∧ exact (x / y) = 0 := by
  have hu := denotes_of_nonneg hx
  have hv := denotes_of_nonneg hy
  have hdiv : x / y = .ofModel (.pack (.div .binary64 x.toModel.unpack y.toModel.unpack)) := rfl
  rw [hdiv]
  generalize x.toModel.unpack = u, y.toModel.unpack = v, exact x = a, exact y = b at hu hv hr hs
  rw [← fitted_zero]
  cases hv with
  | zero => exact absurd hs WithTop.zero_ne_top
  | finite => exact absurd hs WithTop.coe_ne_top
  | infinity =>
      cases hu with
      | infinity => exact absurd rfl hr
      | zero z => cases z <;> exact (Denotes.zero _).pack
      | finite => exact (Denotes.zero _).pack

/-! ### Products -/

/-- **A product with a double that has fifty-three digits** stands for the exact product, fitted to
the format. -/
theorem exact_mul (hx : 0.0 ≤ x) (hr : exact x = r) (hy : IsNormal y s) :
    0.0 ≤ x * y ∧ exact (x * y) = fitted (r * s : ℚ) := by
  have hu := denotes_of_nonneg hx
  rw [hr] at hu
  obtain ⟨n, q, hn, hv, hdigits, rfl⟩ := hy.unpack
  have hmul : x * y = .ofModel (.pack (.mul .binary64 x.toModel.unpack y.toModel.unpack)) := rfl
  rw [hmul, hv]
  generalize x.toModel.unpack = u at hu
  generalize ha : (r : WithTop ℚ) = a at hu
  cases hu with
  | infinity => exact absurd ha WithTop.coe_ne_top
  | zero z =>
      obtain rfl := WithTop.coe_eq_zero.mp ha
      rw [zero_mul]
      cases z <;> exact (Denotes.zero _).pack
  | finite hm =>
      obtain rfl := WithTop.coe_injective ha
      exact (mul_eq hm hn (hdigits.trans (Nat.le_mul_of_pos_left n hm))).pack

/-! ### Integers -/

/-- The integer that is found by the remainder is the nearest one. -/
theorem roundQuotient_eq (n : ℕ) {d : ℕ} (hd : 0 < d) :
    (roundQuotient n d : ℤ) = nearestEven (n / d) := by
  have hd' : (0 : ℚ) < d := Nat.cast_pos.mpr hd
  have hsplit : (n / d : ℚ) = (n / d : ℕ) + (n % d : ℕ) / d := by
    rw [div_eq_iff hd'.ne', add_mul, div_mul_cancel₀ _ hd'.ne']
    exact_mod_cast (Nat.div_add_mod' n d).symm
  have hfloor : ⌊(n / d : ℚ)⌋ = (n / d : ℕ) := Rat.floor_natCast_div_natCast n d
  have hfract : (n / d : ℚ) - ⌊(n / d : ℚ)⌋ = (n % d : ℕ) / d := by
    rw [hfloor, Int.cast_natCast]
    linarith
  have hless : ((n % d : ℕ) / d : ℚ) < 1 / 2 ↔ 2 * (n % d) < d := by
    rw [div_lt_div_iff₀ hd' two_pos, one_mul, mul_comm]
    exact_mod_cast Iff.rfl
  have htie : ((n % d : ℕ) / d : ℚ) = 1 / 2 ↔ 2 * (n % d) = d := by
    rw [div_eq_div_iff hd'.ne' two_ne_zero, one_mul, mul_comm]
    exact_mod_cast Iff.rfl
  have heven : ((n / d : ℕ) : ℤ) % 2 = 0 ↔ n / d % 2 = 0 := by exact_mod_cast Iff.rfl
  unfold nearestEven roundQuotient
  rw [hfract, hfloor]
  simp only [hless, htie, heven]
  split_ifs <;> rfl

theorem roundQuotient_ratio (m : ℕ) (q : ℤ) :
    (roundQuotient (ratio m q).1 (ratio m q).2 : ℤ) = nearestEven (m * 2 ^ q) := by
  obtain ⟨hd, hn⟩ := ratio_spec m q
  rw [roundQuotient_eq _ hd, hn, mul_div_cancel_right₀ _ (Nat.cast_ne_zero.mpr hd.ne')]

theorem roundQuotient_ratio_zero (q : ℤ) : roundQuotient (ratio 0 q).1 (ratio 0 q).2 = 0 := by
  have hround := roundQuotient_ratio 0 q
  have hzero : nearestEven 0 = 0 := nearestEven_intCast 0
  rw [Nat.cast_zero, zero_mul, hzero] at hround
  exact_mod_cast hround

/-- **The integer nearest to a double is that nearest to what it stands for.** -/
theorem nearest_eq (hx : 0.0 ≤ x) (hr : exact x = r) : nearest x = .ok (nearestEven r) := by
  have hu := denotes_of_nonneg hx
  rw [nearest, toInteger, ofFloat_eq]
  rw [hr] at hu
  generalize x.toModel.unpack = u at hu
  generalize ha : (r : WithTop ℚ) = a at hu
  cases hu with
  | infinity => exact absurd ha WithTop.coe_ne_top
  | zero z =>
      obtain rfl := WithTop.coe_eq_zero.mp ha
      have hzero : nearestEven 0 = 0 := nearestEven_intCast 0
      dsimp only [Double.ofUnpacked]
      rw [roundQuotient_ratio_zero, hzero]
      cases z <;> rfl
  | @finite m q hm =>
      obtain rfl := WithTop.coe_injective ha
      exact congrArg Except.ok (roundQuotient_ratio m q)

/-- **A share of an infinity in an infinity is no number**, and has no nearest integer. -/
theorem nearest_infinities (hx : 0.0 ≤ x) (hy : 0.0 ≤ y) (htop : exact x = ⊤) (htop' : exact y = ⊤)
    (z : Float) : nearest (x / y * z) = .error .notANumber := by
  have hdiv : x / y = .ofModel (.pack .notANumber) := by
    have hu := denotes_of_nonneg hx
    have hv := denotes_of_nonneg hy
    have hdiv : x / y = .ofModel (.pack (.div .binary64 x.toModel.unpack y.toModel.unpack)) := rfl
    rw [hdiv]
    generalize x.toModel.unpack = u, y.toModel.unpack = v, exact x = a, exact y = b at *
    cases hu with
    | zero => exact absurd htop WithTop.zero_ne_top
    | finite => exact absurd htop WithTop.coe_ne_top
    | infinity =>
        cases hv with
        | zero => exact absurd htop' WithTop.zero_ne_top
        | finite => exact absurd htop' WithTop.coe_ne_top
        | infinity => rfl
  have hunpack : (Float.ofModel (.pack .notANumber)).toModel.unpack = .notANumber := by
    rfl
  have hmul : x / y * z = .ofModel (.pack .notANumber) := by
    have hmul : x / y * z = .ofModel (.pack (.mul .binary64 (x / y).toModel.unpack
      z.toModel.unpack)) := rfl
    rw [hmul, hdiv, hunpack]
    rfl
  rw [hmul]
  decide +kernel

end SuiteBalance.Number
