import Mathlib
import SuiteBalance.Number.Shortest
import SuiteBalance.Proofs.Number.Product

/-!
# Proofs — Number — the shortest decimal

The decimal that a double is written with lies in the double's interval, so it is rounded to the
double and to no other.

* `contains_iff`: an **`Interval`** holds a multiple of a unit exactly if it is `Near` the double.
* `isSome_candidate`: of seventeen digits there is always a decimal in the interval.
* **`shortest_standsFor`**: the shortest decimal stands for its double.
-/

namespace SuiteBalance.Number

/-! ### The interval -/

/-- An interval is that of `m · 2 ^ q`, over its denominator and in the given unit. -/
structure Interval.Describes (i : Interval) (m : ℕ) (q : ℤ) (unit : ℚ) : Prop where
  denominator_pos : 0 < i.denominator
  value_eq : (i.value : ℚ) = m * 2 ^ q / unit * i.denominator
  below_eq : (i.below : ℚ) = reachBelow m q * 2 ^ q / unit * i.denominator
  above_eq : (i.above : ℚ) = 1 / 2 * 2 ^ q / unit * i.denominator
  closed_iff : i.closed = true ↔ m % 2 = 0

theorem Interval.describes_of (m : ℕ) (q : ℤ) : (Interval.of m q).Describes m q 1 := by
  obtain ⟨hpos, hratio⟩ := ratio_spec 1 q
  rw [Nat.cast_one, one_mul] at hratio
  constructor
  · exact Nat.mul_pos (by norm_num) hpos
  · simp only [Interval.of]
    push_cast
    rw [hratio]
    ring
  · simp only [Interval.of]
    push_cast
    rw [hratio, reachBelow]
    change ((if m = 2 ^ 52 ∧ q ≠ -1074 then (1 : ℚ) else 2) : ℚ) * _ =
      (if m = 2 ^ 52 ∧ q ≠ -1074 then _ else _) * _ / _ * _
    split_ifs <;> ring
  · simp only [Interval.of]
    push_cast
    rw [hratio]
    ring
  · simp [Interval.of]

variable {i : Interval} {m : ℕ} {q : ℤ} {unit : ℚ}

theorem Interval.Describes.inUnits (h : i.Describes m q 1) (e : ℤ) :
    (i.inUnits e).Describes m q (10 ^ e) := by
  obtain ⟨hpos, hvalue, hbelow, habove, hclosed⟩ := h
  unfold Interval.inUnits
  split_ifs with he
  · obtain ⟨k, rfl⟩ := Int.eq_ofNat_of_zero_le he
    have hscale {n : ℕ} {r : ℚ} (h : (n : ℚ) = r / 1 * i.denominator) :
        (n : ℚ) = r / 10 ^ k * (i.denominator * Nat.pow 10 k : ℕ) := by
      push_cast [Nat.pow_eq]
      rw [h]
      field_simp
    rw [zpow_natCast, Int.toNat_natCast]
    exact ⟨Nat.mul_pos hpos (Nat.pow_pos (by norm_num)), hscale hvalue, hscale hbelow,
      hscale habove, hclosed⟩
  · obtain ⟨k, rfl⟩ := Int.exists_eq_neg_ofNat (not_le.mp he).le
    have hscale {n : ℕ} {r : ℚ} (h : (n : ℚ) = r / 1 * i.denominator) :
        ((n * Nat.pow 10 k : ℕ) : ℚ) = r / (10 ^ k)⁻¹ * i.denominator := by
      push_cast [Nat.pow_eq]
      rw [h]
      field_simp
    rw [neg_neg, Int.toNat_natCast, zpow_neg, zpow_natCast]
    exact ⟨hpos, hscale hvalue, hscale hbelow, hscale habove, hclosed⟩

/-- Naturals compare as rationals whose difference is theirs but for a scale. -/
theorem cast_compare_iff {a b : ℕ} {x y scale : ℚ} (hscale : 0 < scale)
    (h : (y - x) * scale = b - a) : (a ≤ b ↔ x ≤ y) ∧ (a < b ↔ x < y) := by
  constructor
  · rw [← sub_nonneg (a := y), ← mul_nonneg_iff_of_pos_right hscale, h, sub_nonneg]
    exact Nat.cast_le.symm
  · rw [← sub_pos (a := y), ← mul_pos_iff_of_pos_right hscale, h, sub_pos]
    exact Nat.cast_lt.symm

/-- **An interval holds a multiple of its unit exactly if that is near the double.** -/
theorem Interval.Describes.contains_iff (h : i.Describes m q unit) (hunit : 0 < unit) (k : ℕ) :
    i.contains (k * i.denominator) = true ↔ Near m q (k * unit) := by
  obtain ⟨hpos, hvalue, hbelow, habove, hclosed⟩ := h
  have hscale : (0 : ℚ) < 2 ^ q / unit * i.denominator := by positivity
  have low : (k * unit / 2 ^ q - (m - reachBelow m q)) * (2 ^ q / unit * i.denominator) =
      ((k * i.denominator + i.below : ℕ) : ℚ) - (i.value : ℕ) := by
    push_cast
    rw [hvalue, hbelow]
    field_simp
    ring
  have high : (m + 1 / 2 - k * unit / 2 ^ q) * (2 ^ q / unit * i.denominator) =
      ((i.value + i.above : ℕ) : ℚ) - (k * i.denominator : ℕ) := by
    push_cast
    rw [hvalue, habove]
    field_simp
  obtain ⟨low_le, low_lt⟩ := cast_compare_iff hscale low
  obtain ⟨high_le, high_lt⟩ := cast_compare_iff hscale high
  unfold Interval.contains
  split_ifs with hc
  · rw [Bool.and_eq_true, decide_eq_true_iff, decide_eq_true_iff, low_le, high_le]
    refine ⟨fun ⟨hlow, hhigh⟩ => ⟨hlow, hhigh, fun hodd => ?_⟩, fun h => ⟨h.below, h.above⟩⟩
    have := hclosed.mp hc
    omega
  · rw [Bool.and_eq_true, decide_eq_true_iff, decide_eq_true_iff, low_lt, high_lt]
    refine ⟨fun h => ⟨h.1.le, h.2.le, fun _ => h⟩, fun h => h.ends ?_⟩
    have := mt hclosed.mpr hc
    omega

theorem reachBelow_pos (m : ℕ) (q : ℤ) : 0 < reachBelow m q := by
  unfold reachBelow
  split_ifs <;> norm_num

/-- What lies in the interval but for its ends is near the double. -/
theorem Near.of_lt {r : ℚ} (low : m - reachBelow m q < r / 2 ^ q) (high : r / 2 ^ q < m + 1 / 2) :
    Near m q r := ⟨low.le, high.le, fun _ => ⟨low, high⟩⟩

/-- The nearest unit is one of the double's two neighbours and lies in the interval. -/
theorem nearestUnit?_spec {k : ℕ} (h : i.nearestUnit? = some k) :
    i.contains (k * i.denominator) = true ∧ i.value / i.denominator ≤ k ∧
      k ≤ i.value / i.denominator + 1 := by
  unfold Interval.nearestUnit? at h
  dsimp only at h
  split at h
  case h_1 hlow hhigh =>
      split_ifs at h
      · obtain rfl := Option.some_inj.mp h
        exact ⟨hlow, le_rfl, Nat.le_succ _⟩
      · obtain rfl := Option.some_inj.mp h
        exact ⟨hhigh, Nat.le_succ _, le_rfl⟩
  case h_2 hlow _ =>
      obtain rfl := Option.some_inj.mp h
      exact ⟨hlow, le_rfl, Nat.le_succ _⟩
  case h_3 _ hhigh =>
      obtain rfl := Option.some_inj.mp h
      exact ⟨hhigh, Nat.le_succ _, le_rfl⟩
  case h_4 => cases h

theorem nearestUnit?_eq_none (h : i.nearestUnit? = none) :
    i.contains (i.value / i.denominator * i.denominator) = false ∧
      i.contains ((i.value / i.denominator + 1) * i.denominator) = false := by
  unfold Interval.nearestUnit? at h
  dsimp only at h
  split at h
  case h_1 => split_ifs at h
  case h_2 => cases h
  case h_3 => cases h
  case h_4 hlow hhigh => exact ⟨hlow, hhigh⟩

/-! ### Digits before the point -/

/-- The number of digits of a positive number tells its power of ten. -/
theorem digitCount_spec {n : ℕ} (hn : 0 < n) :
    (10 : ℚ) ^ ((digitCount n : ℤ) - 1) ≤ n ∧ (n : ℚ) < 10 ^ (digitCount n : ℤ) := by
  have hpos : 0 < digitCount n := Nat.length_toDigits_pos
  have high : n < 10 ^ digitCount n := (Nat.length_toDigits_le_iff (by norm_num) hpos).mp le_rfl
  obtain ⟨c, hc⟩ : ∃ c, digitCount n = c + 1 := ⟨digitCount n - 1, by omega⟩
  have low : 10 ^ c ≤ n := by
    rcases c.eq_zero_or_pos with rfl | hcpos
    · exact hn
    · refine not_lt.mp fun hlt => ?_
      have hle : digitCount n ≤ c := (Nat.length_toDigits_le_iff (by norm_num) hcpos).mpr hlt
      omega
  rw [hc] at high ⊢
  refine ⟨?_, ?_⟩
  · rw [Nat.cast_succ, add_sub_cancel_right, zpow_natCast]
    exact_mod_cast low
  · rw [zpow_natCast]
    exact_mod_cast high

theorem fits_iff {n d : ℕ} (hd : 0 < d) (p : ℤ) :
    (if 0 ≤ p then n < d * Nat.pow 10 p.toNat else n * Nat.pow 10 (-p).toNat < d) ↔
      (n / d : ℚ) < 10 ^ p := by
  have hd' : (0 : ℚ) < d := by exact_mod_cast hd
  rw [div_lt_iff₀ hd']
  split_ifs with hp
  · obtain ⟨k, rfl⟩ := Int.eq_ofNat_of_zero_le hp
    rw [Int.toNat_natCast, zpow_natCast, mul_comm d]
    exact_mod_cast Iff.rfl
  · obtain ⟨k, rfl⟩ := Int.exists_eq_neg_ofNat (not_le.mp hp).le
    rw [neg_neg, Int.toNat_natCast, zpow_neg, zpow_natCast, ← div_eq_inv_mul,
      lt_div_iff₀ (by positivity)]
    exact_mod_cast Iff.rfl

/-- The magnitude of a positive quotient tells its power of ten. -/
theorem magnitude_spec {n d : ℕ} (hn : 0 < n) (hd : 0 < d) :
    (10 : ℚ) ^ (magnitude n d - 1) ≤ n / d ∧ (n / d : ℚ) < 10 ^ magnitude n d := by
  have hd' : (0 : ℚ) < d := by exact_mod_cast hd
  obtain ⟨hnlow, hnhigh⟩ := digitCount_spec hn
  obtain ⟨hdlow, hdhigh⟩ := digitCount_spec hd
  obtain ⟨p, hp⟩ : ∃ p : ℤ, p = digitCount n - digitCount d := ⟨_, rfl⟩
  have low : (10 : ℚ) ^ (p - 1) ≤ n / d := by
    calc (10 : ℚ) ^ (p - 1) = 10 ^ ((digitCount n : ℤ) - 1) / 10 ^ (digitCount d : ℤ) := by
          rw [← zpow_sub₀ (by norm_num), hp]
          congr 1
          ring
      _ ≤ n / d := by gcongr
  have high : (n / d : ℚ) < 10 ^ (p + 1) := by
    calc (n / d : ℚ) < 10 ^ (digitCount n : ℤ) / 10 ^ ((digitCount d : ℤ) - 1) := by gcongr
      _ = 10 ^ (p + 1) := by
          rw [← zpow_sub₀ (by norm_num), hp]
          congr 1
          ring
  have hmagnitude : magnitude n d = if (n / d : ℚ) < 10 ^ p then p else p + 1 := by
    unfold magnitude
    rw [← hp]
    exact if_congr (fits_iff hd p) rfl rfl
  rw [hmagnitude]
  split_ifs with hfits
  · exact ⟨low, hfits⟩
  · rw [add_sub_cancel_right]
    exact ⟨not_lt.mp hfits, high⟩

/-! ### The search -/

/-- The number that a decimal is. -/
def Decimal.value (x : Decimal) : ℚ := x.digits * 10 ^ x.exponent

/-- The number of digits before the point of `m · 2 ^ q`. -/
def pointOf (m : ℕ) (q : ℤ) : ℤ :=
  magnitude (Interval.of m q).value (Interval.of m q).denominator

/-- The decimal with at most the given number of digits that the search tries. -/
def candidate (m : ℕ) (q : ℤ) (length : ℕ) : Option Decimal :=
  (((Interval.of m q).inUnits (pointOf m q - length)).nearestUnit?).map fun digits =>
    ⟨digits, pointOf m q - length⟩

theorem shortest_eq (m : ℕ) (q : ℤ) :
    shortest m q =
      (((List.range 17).findSome? fun n => candidate m q (n + 1)).getD ⟨0, 0⟩).dropZeros 20 := rfl

theorem pointOf_spec (hm : 0 < m) (q : ℤ) :
    (10 : ℚ) ^ (pointOf m q - 1) ≤ m * 2 ^ q ∧ (m * 2 ^ q : ℚ) < 10 ^ pointOf m q := by
  obtain ⟨hpos, hvalue, -⟩ := Interval.describes_of m q
  have hd : (0 : ℚ) < (Interval.of m q).denominator := by exact_mod_cast hpos
  rw [div_one] at hvalue
  have hquotient : ((Interval.of m q).value / (Interval.of m q).denominator : ℚ) = m * 2 ^ q := by
    rw [hvalue, mul_div_cancel_right₀ _ hd.ne']
  have hn : 0 < (Interval.of m q).value := by
    have : (0 : ℚ) < (Interval.of m q).value := by
      rw [hvalue]
      positivity
    exact_mod_cast this
  exact hquotient ▸ magnitude_spec hn hpos

/-- The unit of a candidate's digits is small beside the double. -/
theorem zpow_unit (m : ℕ) (q : ℤ) (length : ℕ) :
    (10 : ℚ) ^ (pointOf m q - length) * 10 ^ length = 10 ^ pointOf m q := by
  rw [← zpow_natCast, ← zpow_add₀ (by norm_num), sub_add_cancel]

/-- The neighbours of a double among the multiples of a unit. -/
theorem Interval.Describes.neighbours (h : i.Describes m q unit) (hunit : 0 < unit) :
    (i.value / i.denominator : ℕ) * unit ≤ m * 2 ^ q ∧
      m * 2 ^ q < ((i.value / i.denominator : ℕ) + 1) * unit := by
  have hd : (0 : ℚ) < i.denominator := by exact_mod_cast h.denominator_pos
  have hquotient : (i.value / i.denominator : ℚ) = m * 2 ^ q / unit := by
    rw [h.value_eq, mul_div_cancel_right₀ _ hd.ne']
  rw [← le_div_iff₀ hunit, ← div_lt_iff₀ hunit, ← hquotient]
  refine ⟨Nat.cast_div_le, ?_⟩
  rw [div_lt_iff₀ hd]
  exact_mod_cast Nat.lt_mul_of_div_lt (Nat.lt_succ_self _) h.denominator_pos

/-- **A candidate** lies in the interval and has as many digits as it may have. -/
theorem candidate_spec {length : ℕ} {x : Decimal} (hm : 0 < m) (hlength : 0 < length)
    (h : candidate m q length = some x) :
    Near m q x.value ∧ 0 < x.digits ∧ x.digits ≤ 10 ^ length ∧
      x.exponent = pointOf m q - length := by
  obtain ⟨k, hk, rfl⟩ := Option.map_eq_some_iff.mp h
  have hunit : (0 : ℚ) < 10 ^ (pointOf m q - length) := by positivity
  have hdescribes := (Interval.describes_of m q).inUnits (pointOf m q - length)
  obtain ⟨hcontains, hle, hge⟩ := nearestUnit?_spec hk
  obtain ⟨hlow, hhigh⟩ := hdescribes.neighbours hunit
  obtain ⟨hpoint, hpoint'⟩ := pointOf_spec hm q
  generalize ((Interval.of m q).inUnits (pointOf m q - length)).value /
    ((Interval.of m q).inUnits (pointOf m q - length)).denominator = low at *
  refine ⟨(hdescribes.contains_iff hunit k).mp hcontains, ?_, ?_, rfl⟩
  · -- the unit is not above the double, so the lower neighbour is not zero
    have hone : (10 : ℚ) ^ (pointOf m q - length) ≤ m * 2 ^ q :=
      le_trans (zpow_le_zpow_right₀ (by norm_num) (by omega)) hpoint
    have : (1 : ℚ) < low + 1 := by
      rw [← mul_lt_mul_iff_of_pos_right hunit, one_mul]
      exact hone.trans_lt hhigh
    have : 0 < low := by exact_mod_cast (by linarith : (0 : ℚ) < low)
    exact this.trans_le hle
  · have : (low : ℚ) < 10 ^ length := by
      rw [← mul_lt_mul_iff_of_pos_right hunit, mul_comm (10 ^ length : ℚ), zpow_unit]
      exact hlow.trans_lt hpoint'
    have : low < 10 ^ length := by exact_mod_cast this
    exact hge.trans this

/-- **Seventeen digits are enough**: one of the double's two neighbours lies in its interval. -/
theorem isSome_candidate (hc : Canonical m q) (hm : 0 < m) : (candidate m q 17).isSome := by
  have hunit : (0 : ℚ) < 10 ^ (pointOf m q - (17 : ℕ)) := by positivity
  have hdescribes := (Interval.describes_of m q).inUnits (pointOf m q - (17 : ℕ))
  rw [candidate, Option.isSome_map, Option.isSome_iff_ne_none]
  intro hnone
  obtain ⟨hnotlow, hnothigh⟩ := nearestUnit?_eq_none hnone
  obtain ⟨hlow, hhigh⟩ := hdescribes.neighbours hunit
  obtain ⟨hpoint, -⟩ := pointOf_spec hm q
  have hsmall : (10 : ℚ) ^ (pointOf m q - (17 : ℕ)) * 10 ^ 16 ≤ m * 2 ^ q := by
    rw [← zpow_natCast, ← zpow_add₀ (by norm_num)]
    refine le_trans (zpow_le_zpow_right₀ (by norm_num) ?_) hpoint
    push_cast
    omega
  rw [← Bool.not_eq_true, hdescribes.contains_iff hunit] at hnotlow hnothigh
  generalize ((Interval.of m q).inUnits (pointOf m q - (17 : ℕ))).value /
    ((Interval.of m q).inUnits (pointOf m q - (17 : ℕ))).denominator = low at *
  generalize (10 : ℚ) ^ (pointOf m q - (17 : ℕ)) = unit at *
  have hpos : (0 : ℚ) < 2 ^ q := by positivity
  rw [← div_le_iff₀ hpos, mul_div_right_comm] at hsmall
  rw [← div_le_iff₀ hpos, mul_div_assoc] at hlow
  rw [← lt_div_iff₀ hpos, mul_div_assoc] at hhigh
  have hbelow := reachBelow_pos m q
  have hm' : (m : ℚ) < 2 ^ 53 := by exact_mod_cast hc.lt
  have near {n : ℕ} (h₁ : m - reachBelow m q < n * (unit / 2 ^ q))
      (h₂ : n * (unit / 2 ^ q) < m + 1 / 2) : Near m q (n * unit) := by
    rw [← mul_div_assoc] at h₁ h₂
    exact .of_lt h₁ h₂
  have hsucc : ((low + 1 : ℕ) : ℚ) = low + 1 := Nat.cast_succ low
  by_cases hspecial : m = 2 ^ 52
  · -- the unit is less than half of the double's own, so the upper neighbour is near
    have hm'' : (m : ℚ) = 2 ^ 52 := by exact_mod_cast hspecial
    refine hnothigh (near ?_ ?_)
    · rw [hsucc]
      linarith
    · rw [hsucc]
      linarith
  · -- the unit is less than the double's own, so the nearer neighbour is near
    have hhalf : reachBelow m q = 1 / 2 := if_neg fun h => hspecial h.1
    by_cases hnear : m - 1 / 2 < low * (unit / 2 ^ q)
    · refine hnotlow (near ?_ ?_)
      · rwa [hhalf]
      · linarith
    · refine hnothigh (near ?_ ?_)
      · rw [hsucc]
        linarith
      · rw [hsucc]
        linarith

/-! ### The shortest decimal -/

/-- Dropping zeros keeps the value; each zero raises the exponent by one. -/
theorem dropZeros_spec (fuel : ℕ) (x : Decimal) :
    (x.dropZeros fuel).value = x.value ∧ (x.dropZeros fuel).digits ≤ x.digits ∧
      (0 < x.digits → 0 < (x.dropZeros fuel).digits) ∧
      x.exponent ≤ (x.dropZeros fuel).exponent ∧
      (x.dropZeros fuel).exponent ≤ x.exponent + fuel := by
  induction fuel generalizing x with
  | zero => simp [Decimal.dropZeros]
  | succ fuel ih =>
      unfold Decimal.dropZeros
      split_ifs with h
      · obtain ⟨hpos, hzero⟩ := h
        obtain ⟨hvalue, hle, hdigits, hlow, hhigh⟩ := ih ⟨x.digits / 10, x.exponent + 1⟩
        dsimp only at hle hdigits hlow hhigh
        refine ⟨?_, by omega, fun _ => hdigits (by omega), by omega, by push_cast; omega⟩
        obtain ⟨k, hk⟩ := Nat.dvd_of_mod_eq_zero hzero
        rw [hvalue, Decimal.value, Decimal.value, zpow_add_one₀ (by norm_num), hk,
          Nat.mul_div_cancel_left k (by norm_num)]
        push_cast
        ring
      · exact ⟨rfl, le_rfl, id, le_rfl, by omega⟩

/-- A decimal that is read as the double `m · 2 ^ q`, with digits and an exponent of a size that a
double can have. -/
structure Decimal.StandsFor (x : Decimal) (m : ℕ) (q : ℤ) : Prop where
  near : Near m q x.value
  pos : 0 < x.digits
  le : x.digits ≤ 10 ^ 17
  low : -341 ≤ x.exponent
  high : x.exponent ≤ 341

theorem zpow_ten_mono {a b : ℤ} (h : (10 : ℚ) ^ a < 10 ^ b) : a < b :=
  (zpow_lt_zpow_iff_right₀ (by norm_num)).mp h

/-- The point of a double stands within some three hundred digits of its own. -/
theorem pointOf_bounds (hc : Canonical m q) (hm : 0 < m) (hq : q ≤ greatestExponent) :
    -324 < pointOf m q ∧ pointOf m q ≤ 309 := by
  obtain ⟨low, high⟩ := pointOf_spec hm q
  have hone : (1 : ℚ) ≤ m := by exact_mod_cast hm
  have hbig : (2 : ℚ) ^ (1024 : ℤ) ≤ 10 ^ (309 : ℤ) := by
    have : 2 ^ 1024 ≤ 10 ^ 309 := by decide +kernel
    exact_mod_cast this
  have hsmall : (10 : ℚ) ^ (-324 : ℤ) ≤ 2 ^ (-1074 : ℤ) := by
    have : 2 ^ 1074 ≤ 10 ^ 324 := by decide +kernel
    rw [zpow_neg, zpow_neg]
    gcongr
    exact_mod_cast this
  refine ⟨zpow_ten_mono ?_, ?_⟩
  · calc (10 : ℚ) ^ (-324 : ℤ) ≤ 2 ^ (-1074 : ℤ) := hsmall
      _ ≤ 2 ^ q := zpow_le_zpow_right₀ one_le_two hc.least_le
      _ ≤ m * 2 ^ q := le_mul_of_one_le_left (by positivity) hone
      _ < 10 ^ pointOf m q := high
  · have : pointOf m q - 1 < 309 := by
      refine zpow_ten_mono ?_
      calc (10 : ℚ) ^ (pointOf m q - 1) ≤ m * 2 ^ q := low
        _ < 2 ^ (1024 : ℤ) := hc.lt_iff.mpr hq
        _ ≤ 10 ^ (309 : ℤ) := hbig
    omega

/-- **The shortest decimal of a double stands for it.** -/
theorem shortest_standsFor (hc : Canonical m q) (hm : 0 < m) (hq : q ≤ greatestExponent) :
    (shortest m q).StandsFor m q := by
  -- the search succeeds at seventeen digits if not before
  obtain ⟨x, hx⟩ : ∃ x, (List.range 17).findSome? (fun n => candidate m q (n + 1)) = some x := by
    refine Option.isSome_iff_exists.mp (List.findSome?_isSome_iff.mpr ⟨16, ?_, ?_⟩)
    · simp
    · exact isSome_candidate hc hm
  obtain ⟨n, hn, hcandidate⟩ := List.exists_of_findSome?_eq_some hx
  have hlength := List.mem_range.mp hn
  obtain ⟨hnear, hpos, hle, hexponent⟩ := candidate_spec hm n.succ_pos hcandidate
  obtain ⟨hlow, hhigh⟩ := pointOf_bounds hc hm hq
  rw [shortest_eq, hx, Option.getD_some]
  obtain ⟨hvalue, hdigits, hdigitspos, hge, hle'⟩ := dropZeros_spec 20 x
  refine ⟨hvalue ▸ hnear, hdigitspos hpos, ?_, ?_, ?_⟩
  · calc (x.dropZeros 20).digits ≤ x.digits := hdigits
      _ ≤ 10 ^ (n + 1) := hle
      _ ≤ 10 ^ 17 := Nat.pow_le_pow_right (by norm_num) hlength
  · push_cast at hexponent
    omega
  · push_cast at hexponent
    omega

end SuiteBalance.Number
