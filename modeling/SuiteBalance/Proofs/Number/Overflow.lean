import Mathlib
import SuiteBalance.Proofs.Number.Product

/-!
# Proofs — Number — numbers beyond the doubles

The greatest double is one unit below `2 ^ 1024`, and what is at least half a unit above it is
rounded away to an infinity.  So is the greatest number that lies between the two, which is as near
to the power of two, whose significand is even.

* **`overflowThreshold`**: the least number that is rounded to an infinity.
* `fitted_eq_top_iff`: what is too large for the format.
* **`isInf_ofInt_iff`**: which integers are turned into infinities.
-/

namespace SuiteBalance.Number

open Float.Model Float.Model.UnpackedFloat

/-- The least number that is rounded to an infinity, half a unit above the greatest double. -/
def overflowThreshold : ℕ := 2 ^ 1024 - 2 ^ 970

/-- More than half a unit below an integer, the nearest integer is below it. -/
theorem nearestEven_lt {x : ℚ} {n : ℤ} (h : x < n - 1 / 2) : nearestEven x < n := by
  have hnear := (abs_le.mp (nearestEven_spec x).1).1
  exact_mod_cast (by linarith : (nearestEven x : ℚ) < n)

theorem overflowThreshold_pos : 0 < overflowThreshold :=
  Nat.sub_pos_of_lt (pow_lt_pow_right₀ one_lt_two (by omega))

/-- The greatest powers of two in units of the greatest double. -/
theorem zpow_units : (2 : ℚ) ^ (1023 : ℤ) = 2 ^ 52 * 2 ^ (971 : ℤ) ∧
    (2 : ℚ) ^ (1024 : ℤ) = 2 ^ 53 * 2 ^ (971 : ℤ) := by
  constructor <;> rw [← zpow_natCast, ← zpow_add₀ two_ne_zero] <;> rfl

/-- In units of the greatest double, the threshold lies halfway between two integers. -/
theorem overflowThreshold_eq : (overflowThreshold : ℚ) = (2 ^ 53 - 1 / 2) * 2 ^ (971 : ℤ) := by
  have hle : 2 ^ 970 ≤ 2 ^ 1024 := pow_le_pow_right₀ one_le_two (by omega)
  have hhalf : (2 : ℚ) ^ 970 = 1 / 2 * 2 ^ (971 : ℤ) := by
    rw [show (971 : ℤ) = 970 + 1 from rfl, zpow_add_one₀ two_ne_zero, mul_comm, mul_assoc,
      mul_one_div_cancel two_ne_zero, mul_one]
    exact (zpow_natCast 2 970).symm
  have htop : ((2 ^ 1024 : ℕ) : ℚ) = 2 ^ 53 * 2 ^ (971 : ℤ) := by
    rw [Nat.cast_pow, Nat.cast_ofNat, ← zpow_natCast]
    exact zpow_units.2
  rw [overflowThreshold, Nat.cast_sub hle, htop, Nat.cast_pow, Nat.cast_ofNat, hhalf, sub_mul]

/-- Numbers from `2 ^ 1023` on and below `2 ^ 1024` are rounded in units of the greatest double. -/
theorem gridExponent_eq {r : ℚ} (low : 2 ^ (1023 : ℤ) ≤ r) (high : r < 2 ^ (1024 : ℤ)) :
    gridExponent r = 971 := by
  have hr : 0 < r := low.trans_lt' (zpow_pos two_pos _)
  have h₁ := Int.zpow_le_iff_le_log (R := ℚ) (b := 2) (x := 1023) one_lt_two hr
  have h₂ := Int.lt_zpow_iff_log_lt (R := ℚ) (b := 2) (x := 1024) one_lt_two hr
  rw [Nat.cast_ofNat] at h₁ h₂
  have := h₁.mp low
  have := h₂.mp high
  unfold gridExponent leastExponent
  omega

theorem overflowThreshold_lt : (overflowThreshold : ℚ) < 2 ^ (1024 : ℤ) := by
  rw [overflowThreshold_eq, zpow_units.2]
  exact mul_lt_mul_of_pos_right (by norm_num) (zpow_pos two_pos _)

theorem le_overflowThreshold : 2 ^ (1023 : ℤ) ≤ (overflowThreshold : ℚ) := by
  rw [overflowThreshold_eq, zpow_units.1]
  exact mul_le_mul_of_nonneg_right (by norm_num) (zpow_pos two_pos _).le

/-- The threshold itself is rounded up. -/
theorem rounded_overflowThreshold : rounded overflowThreshold = 2 ^ (1024 : ℤ) := by
  have hhalf : (overflowThreshold : ℚ) / 2 ^ (971 : ℤ) = 2 ^ 53 - 1 / 2 := by
    rw [overflowThreshold_eq, mul_div_cancel_right₀ _ (zpow_ne_zero _ two_ne_zero)]
  have hnearest : nearestEven (2 ^ 53 - 1 / 2 : ℚ) = 2 ^ 53 :=
    nearestEven_eq (by norm_num) fun _ => by norm_num
  rw [rounded, gridExponent_eq le_overflowThreshold overflowThreshold_lt, hhalf, hnearest,
    zpow_units.2, Int.cast_pow, Int.cast_ofNat]

/-- What is below the threshold stays below the infinities. -/
theorem rounded_lt {r : ℚ} (hr : 0 ≤ r) (h : r < overflowThreshold) :
    rounded r < 2 ^ (1024 : ℤ) := by
  by_cases hlow : r < 2 ^ (1023 : ℤ)
  · have hself : rounded (2 ^ (1023 : ℤ)) = 2 ^ (1023 : ℤ) := by
      have hone := rounded_of_grid (n := 1) (e := 1023) (by norm_num) (by norm_num [leastExponent])
      rwa [Nat.cast_one, one_mul] at hone
    calc rounded r ≤ rounded (2 ^ (1023 : ℤ)) := rounded_mono hr hlow.le
      _ = 2 ^ (1023 : ℤ) := hself
      _ < 2 ^ (1024 : ℤ) := zpow_lt_zpow_right₀ one_lt_two (by omega)
  · have hunit : (0 : ℚ) < 2 ^ (971 : ℤ) := zpow_pos two_pos _
    have hunits : r / 2 ^ (971 : ℤ) < (2 ^ 53 : ℤ) - 1 / 2 := by
      rw [div_lt_iff₀ hunit, Int.cast_pow, Int.cast_ofNat, ← overflowThreshold_eq]
      exact h
    have hlt : (nearestEven (r / 2 ^ (971 : ℤ)) : ℚ) < (2 ^ 53 : ℤ) :=
      Int.cast_lt.mpr (nearestEven_lt hunits)
    rw [Int.cast_pow, Int.cast_ofNat] at hlt
    rw [rounded, gridExponent_eq (not_lt.mp hlow) (h.trans overflowThreshold_lt), zpow_units.2]
    exact mul_lt_mul_of_pos_right hlt hunit

/-- **What is too large for the format.** -/
theorem fitted_eq_top_iff {r : ℚ} (hr : 0 ≤ r) : fitted r = ⊤ ↔ overflowThreshold ≤ r := by
  rw [fitted_coe]
  constructor
  · intro htop
    by_contra hlt
    rw [if_pos (rounded_lt hr (not_le.mp hlt))] at htop
    exact WithTop.coe_ne_top htop
  · intro hle
    have hmono := rounded_mono (Nat.cast_nonneg _) hle
    rw [rounded_overflowThreshold] at hmono
    exact if_neg hmono.not_gt

/-! ### Integers -/

/-- A float is infinite if its double is. -/
theorem isInf_iff (x : Float) :
    x.isInf = true ↔ ∃ negative, Double.ofFloat x = .infinite negative := by
  have hisInf : x.isInf = x.toModel.unpack.isInf := rfl
  rw [hisInf, ofFloat_eq]
  cases x.toModel.unpack <;> simp [UnpackedFloat.isInf, Double.ofUnpacked]

/-- A number that is not below zero is infinite if it stands for no rational. -/
theorem isInf_iff_exact {x : Float} (hx : 0.0 ≤ x) : x.isInf = true ↔ exact x = ⊤ := by
  have hisInf : x.isInf = x.toModel.unpack.isInf := rfl
  have hdenotes := denotes_of_nonneg hx
  rw [hisInf]
  generalize x.toModel.unpack = u, exact x = r at hdenotes
  cases hdenotes with
  | infinity => exact iff_of_true rfl rfl
  | zero => exact iff_of_false Bool.false_ne_true WithTop.zero_ne_top
  | finite => exact iff_of_false Bool.false_ne_true WithTop.coe_ne_top

/-- A number and its opposite are infinite together. -/
theorem isInf_neg (x : Float) : (-x).isInf = x.isInf := by
  have hneg : -x = .ofModel (.pack (UnpackedFloat.neg x.toModel.unpack)) := rfl
  have hisInf : x.isInf = x.toModel.unpack.isInf := rfl
  have hdouble := ofFloat_eq x
  cases hu : x.toModel.unpack with
  | notANumber =>
      rw [hneg, hisInf, hu]
      decide +kernel
  | infinity s =>
      rw [hneg, hisInf, hu]
      cases s <;> decide +kernel
  | zero s =>
      rw [hneg, hisInf, hu]
      cases s <;> decide +kernel
  | finite s m q hm =>
      rw [hu, Double.ofUnpacked] at hdouble
      rw [Bool.eq_iff_iff, isInf_iff, isInf_iff, ofFloat_neg hdouble, hdouble]
      simp only [reduceCtorEq, exists_const]

theorem isInf_ofNat_iff (n : ℕ) : (Float.ofNat n).isInf = true ↔ overflowThreshold ≤ n := by
  obtain rfl | hn := n.eq_zero_or_pos
  · exact iff_of_false (by decide +kernel) overflowThreshold_pos.not_ge
  · have hscaled := exact_scaled (e := 0) hn (by norm_num) (by norm_num)
    rw [zpow_zero, mul_one] at hscaled
    have hofNat : Float.ofNat n = scaled n 0 := rfl
    rw [hofNat, isInf_iff_exact hscaled.1, hscaled.2, fitted_eq_top_iff (Nat.cast_nonneg n),
      Nat.cast_le]

/-- **The integers that are turned into infinities.** -/
theorem isInf_ofInt_iff (n : ℤ) : (Float.ofInt n).isInf = true ↔ overflowThreshold ≤ n.natAbs := by
  cases n with
  | ofNat n => exact isInf_ofNat_iff n
  | negSucc n =>
      have hneg : Float.ofInt (.negSucc n) = -Float.ofNat n.succ := rfl
      rw [Int.natAbs_negSucc, ← isInf_ofNat_iff, hneg, isInf_neg]

end SuiteBalance.Number
