import Mathlib
import SuiteBalance.Proofs.Number.Overflow

/-!
# Proofs — Number — sums from left to right

Terms that are not below zero never lower a sum, and a sum of fewer terms is never greater, though
each addition is rounded.

A rounding takes a number away from what it was by at most one part in `2 ^ 53`, unless it is tiny
or too large.  A sum from left to right is rounded once for each addition, so it stays within that
many roundings of the exact sum, in whatever order the terms come.

* `exact_foldl_le`: fewer terms make no greater sum.
* `abs_rounded_sub_le`: what one rounding does.
* **`Within`**: what some roundings may have made of a rational.
* `Within.add`, **`within_sum`**: what one addition does, and a whole sum.
* `Within.ne_top`, `Within.eq_top`: which sums are finite, and which are not.
-/

namespace SuiteBalance.Number

variable {x y : Float} {r s : ℚ} {n k : ℕ}

/-! ### The order of sums -/

theorem exact_le_add (hx : 0.0 ≤ x) (hy : 0.0 ≤ y) : exact x ≤ exact (x + y) := by
  rw [exact_add hx hy]
  calc exact x = fitted (exact x) := (denotes_of_nonneg hx).fitted_eq.symm
    _ ≤ fitted (exact x + exact y) :=
        fitted_mono (exact_nonneg hx) (le_add_of_nonneg_right (exact_nonneg hy))

theorem exact_add_le_add {x' y' : Float} (hx : 0.0 ≤ x) (hx' : 0.0 ≤ x') (hy : 0.0 ≤ y)
    (hy' : 0.0 ≤ y') (hxx' : exact x ≤ exact x') (hyy' : exact y ≤ exact y') :
    exact (x + y) ≤ exact (x' + y') := by
  rw [exact_add hx hy, exact_add hx' hy']
  exact fitted_mono (add_nonneg (exact_nonneg hx) (exact_nonneg hy)) (add_le_add hxx' hyy')

/-- **Fewer terms, added to a number that is no greater, make no greater sum.** -/
theorem exact_foldl_le {xs ys : List Float} (h : xs.Sublist ys) (hys : ∀ y ∈ ys, 0.0 ≤ y)
    (hx : 0.0 ≤ x) (hy : 0.0 ≤ y) (hxy : exact x ≤ exact y) :
    exact (xs.foldl (· + ·) x) ≤ exact (ys.foldl (· + ·) y) := by
  induction h generalizing x y with
  | slnil => exact hxy
  | cons z _ ih =>
      obtain ⟨hz, hrest⟩ := List.forall_mem_cons.mp hys
      exact ih hrest hx (nonneg_add hy hz) (hxy.trans (exact_le_add hy hz))
  | cons_cons z _ ih =>
      obtain ⟨hz, hrest⟩ := List.forall_mem_cons.mp hys
      exact ih hrest (nonneg_add hx hz) (nonneg_add hy hz) (exact_add_le_add hx hy hz hz hxy le_rfl)

/-! ### One rounding -/

/-- The part of a number by which it may be rounded. -/
def roundoff : ℚ := 1 / 2 ^ 53

theorem roundoff_pos : 0 < roundoff := by norm_num [roundoff]

theorem roundoff_lt_one : roundoff < 1 := by norm_num [roundoff]

/-- **A rounding takes away or adds at most one part in `2 ^ 53`**, unless the number is tiny. -/
theorem abs_rounded_sub_le (hr : 1 ≤ r) : |rounded r - r| ≤ roundoff * r := by
  have hlog : 0 ≤ Int.log 2 r := by
    rw [← Int.zpow_le_iff_le_log one_lt_two (one_pos.trans_le hr), zpow_zero]
    exact hr
  have hgrid : gridExponent r ≠ leastExponent := by
    unfold gridExponent leastExponent
    omega
  have hunit : (0 : ℚ) < 2 ^ gridExponent r := by positivity
  have hdigits := le_div_gridExponent (one_pos.trans_le hr) hgrid
  rw [le_div_iff₀ hunit] at hdigits
  have hnear := (nearestEven_spec (r / 2 ^ gridExponent r)).1
  rw [abs_sub_comm] at hnear
  calc |rounded r - r|
      = |nearestEven (r / 2 ^ gridExponent r) - r / 2 ^ gridExponent r| * 2 ^ gridExponent r := by
        rw [← abs_of_pos hunit, ← abs_mul, abs_of_pos hunit, sub_mul, div_mul_cancel₀ _ hunit.ne',
          rounded]
    _ ≤ 1 / 2 * 2 ^ gridExponent r := by gcongr
    _ ≤ roundoff * r := by
        unfold roundoff
        linarith

theorem rounded_bounds (hr : 1 ≤ r) :
    (1 - roundoff) * r ≤ rounded r ∧ rounded r ≤ (1 + roundoff) * r := by
  obtain ⟨low, high⟩ := abs_le.mp (abs_rounded_sub_le hr)
  constructor <;> linarith

theorem rounded_le_fitted (r : ℚ) : (rounded r : WithTop ℚ) ≤ fitted r := by
  rw [fitted_coe]
  split_ifs
  · exact le_rfl
  · exact le_top

theorem fitted_of_lt (hr : 0 ≤ r) (h : r < overflowThreshold) : fitted r = (rounded r : ℚ) := by
  rw [fitted_coe, if_pos (rounded_lt hr h)]

/-! ### Some roundings -/

/-- What some roundings may have made of a rational: each takes away at most one part in `2 ^ 53`,
or adds as much, or makes an infinity of what has reached the threshold. -/
structure Within (n : ℕ) (x : Float) (r : ℚ) : Prop where
  below : (((1 - roundoff) ^ n * r : ℚ) : WithTop ℚ) ≤ exact x
  above : (1 + roundoff) ^ n * r < overflowThreshold →
    exact x ≤ (((1 + roundoff) ^ n * r : ℚ) : WithTop ℚ)

namespace Within

theorem of_exact_eq (h : exact x = (r : ℚ)) : Within 0 x r where
  below := by rw [pow_zero, one_mul, h]
  above _ := by rw [pow_zero, one_mul, h]

/-- More roundings may make more of a number. -/
theorem mono (h : Within n x r) (hr : 0 ≤ r) (hle : n ≤ k) : Within k x r := by
  have hdown : (1 - roundoff) ^ k * r ≤ (1 - roundoff) ^ n * r := by
    gcongr ?_ * r
    exact pow_le_pow_of_le_one (sub_nonneg.mpr roundoff_lt_one.le)
      (sub_le_self 1 roundoff_pos.le) hle
  have hup : (1 + roundoff) ^ n * r ≤ (1 + roundoff) ^ k * r := by
    gcongr ?_ * r
    exact pow_le_pow_right₀ (le_add_of_nonneg_right roundoff_pos.le) hle
  exact {
    below := (WithTop.coe_le_coe.mpr hdown).trans h.below
    above := fun hlt => (h.above (hup.trans_lt hlt)).trans (WithTop.coe_le_coe.mpr hup) }

/-- What stays below the threshold is finite. -/
theorem ne_top (h : Within n x r) (hlt : (1 + roundoff) ^ n * r < overflowThreshold) :
    exact x ≠ ⊤ := ((h.above hlt).trans_lt (WithTop.coe_lt_top _)).ne

/-- What reaches the threshold is infinite. -/
theorem eq_top (h : Within n x r) (hx : 0.0 ≤ x)
    (hle : (overflowThreshold : ℚ) ≤ (1 - roundoff) ^ n * r) : exact x = ⊤ := by
  have hfitted := (denotes_of_nonneg hx).fitted_eq
  have hbelow := (WithTop.coe_le_coe.mpr hle).trans h.below
  cases hexact : exact x with
  | top => rfl
  | coe a =>
      rw [hexact] at hbelow hfitted
      have ha := WithTop.coe_le_coe.mp hbelow
      rw [(fitted_eq_top_iff ((Nat.cast_nonneg _).trans ha)).mpr ha] at hfitted
      exact absurd hfitted WithTop.top_ne_coe

/-- **An addition is one more rounding.** -/
theorem add (h : Within n x r) (h' : Within n y s) (hx : 0.0 ≤ x) (hy : 0.0 ≤ y)
    (hone : 1 ≤ exact x) (hr : 0 ≤ r) (hs : 0 ≤ s) : Within (n + 1) (x + y) (r + s) := by
  have hsum := exact_add hx hy
  have hone_sum := hone.trans (le_add_of_nonneg_right (a := exact x) (exact_nonneg hy))
  obtain ⟨below, above⟩ := h
  obtain ⟨below', above'⟩ := h'
  generalize exact x = a, exact y = b at *
  constructor
  · rw [hsum]
    cases a with
    | top => exact le_top
    | coe a =>
        cases b with
        | top => exact le_top
        | coe b =>
            have hround := (rounded_bounds (WithTop.one_le_coe.mp hone_sum)).1
            refine le_trans (WithTop.coe_le_coe.mpr ?_) (rounded_le_fitted (a + b))
            calc (1 - roundoff) ^ (n + 1) * (r + s)
                = (1 - roundoff) * ((1 - roundoff) ^ n * r + (1 - roundoff) ^ n * s) := by ring
              _ ≤ (1 - roundoff) * (a + b) :=
                  mul_le_mul_of_nonneg_left
                    (add_le_add (WithTop.coe_le_coe.mp below) (WithTop.coe_le_coe.mp below'))
                    (sub_nonneg.mpr roundoff_lt_one.le)
              _ ≤ rounded (a + b) := hround
  · intro hlt
    -- the exact sum is below the threshold as well, and so are its terms
    have hone_add : 1 ≤ 1 + roundoff := le_add_of_nonneg_right roundoff_pos.le
    have hpow : 0 ≤ (1 + roundoff) ^ n := pow_nonneg (zero_le_one.trans hone_add) n
    have hgrow : (1 + roundoff) ^ n * r + (1 + roundoff) ^ n * s ≤
        (1 + roundoff) ^ (n + 1) * (r + s) := by
      rw [← mul_add]
      exact mul_le_mul_of_nonneg_right (pow_le_pow_right₀ hone_add n.le_succ) (add_nonneg hr hs)
    have hr' := mul_nonneg hpow hr
    have hs' := mul_nonneg hpow hs
    have ha := above (by linarith)
    have hb := above' (by linarith)
    obtain ⟨a, rfl⟩ := WithTop.ne_top_iff_exists.mp (ha.trans_lt (WithTop.coe_lt_top _)).ne
    obtain ⟨b, rfl⟩ := WithTop.ne_top_iff_exists.mp (hb.trans_lt (WithTop.coe_lt_top _)).ne
    have hab := add_le_add (WithTop.coe_le_coe.mp ha) (WithTop.coe_le_coe.mp hb)
    have hone_sum := WithTop.one_le_coe.mp hone_sum
    rw [hsum, ← WithTop.coe_add, fitted_of_lt (zero_le_one.trans hone_sum) (by linarith)]
    refine WithTop.coe_le_coe.mpr ?_
    calc rounded (a + b) ≤ (1 + roundoff) * (a + b) := (rounded_bounds hone_sum).2
      _ ≤ (1 + roundoff) * ((1 + roundoff) ^ n * r + (1 + roundoff) ^ n * s) :=
          mul_le_mul_of_nonneg_left hab (zero_le_one.trans hone_add)
      _ = (1 + roundoff) ^ (n + 1) * (r + s) := by ring

end Within

/-! ### Sums -/

/-- Adding to nothing is exact. -/
theorem zero_add_eq (hx : 0.0 ≤ x) (hone : 1 ≤ exact x) : 0.0 + x = x := by
  have hzero : (0.0 : Float) ≤ 0.0 := by decide +kernel
  have hsum : exact (0.0 + x) = exact x := by
    rw [exact_add hzero hx, exact_zero, zero_add, (denotes_of_nonneg hx).fitted_eq]
  refine eq_of_exact_eq (nonneg_add hzero hx) hx hsum ?_
  rw [hsum]
  exact (zero_lt_one.trans_le hone).ne'

/-- **The sum of at most two terms is rounded once**, so their order does not matter. -/
theorem exact_foldl_of_length_le {xs : List Float} (hxs : ∀ x ∈ xs, 0.0 ≤ x)
    (hlength : xs.length ≤ 2) : exact (xs.foldl (· + ·) 0.0) = fitted (xs.map exact).sum := by
  have hzero : (0.0 : Float) ≤ 0.0 := by decide +kernel
  match xs, hxs, hlength with
  | [], _, _ => simp [exact_zero]
  | [x], hxs, _ =>
      have hx := hxs x (by simp)
      simp [exact_add hzero hx, exact_zero]
  | [x, y], hxs, _ =>
      have hx := hxs x (by simp)
      have hy := hxs y (by simp)
      simp [exact_add (nonneg_add hzero hx) hy, exact_add hzero hx, exact_zero,
        (denotes_of_nonneg hx).fitted_eq]
  | _ :: _ :: _ :: _, _, hlength => simp at hlength

section Sums

variable {α : Type} {items : List α} {number : α → Float} {value : α → ℚ}

/-- A number to which terms are added from left to right is rounded once for each of them. -/
theorem within_foldl
    (hitems : ∀ a ∈ items, 0.0 ≤ number a ∧ 0 ≤ value a ∧ Within n (number a) (value a))
    (h : Within k x r) (hle : n ≤ k) (hx : 0.0 ≤ x) (hone : 1 ≤ exact x) (hr : 0 ≤ r) :
    Within (k + items.length) ((items.map number).foldl (· + ·) x)
      (r + (items.map value).sum) := by
  induction items generalizing x r k with
  | nil => simpa using h
  | cons a rest ih =>
      obtain ⟨⟨hnumber, hvalue, ha⟩, hrest⟩ := List.forall_mem_cons.mp hitems
      have hadd := h.add (ha.mono hvalue hle) hx hnumber hone hr hvalue
      have hfold := ih hrest hadd (hle.trans k.le_succ) (nonneg_add hx hnumber)
        (hone.trans (exact_le_add hx hnumber)) (add_nonneg hr hvalue)
      rwa [add_assoc, add_assoc, add_comm 1] at hfold

/-- **A sum from left to right is rounded once for each addition**, of which the first is exact. -/
theorem within_sum
    (hitems : ∀ a ∈ items, 0.0 ≤ number a ∧ 0 ≤ value a ∧ Within n (number a) (value a))
    (hone : ∀ a ∈ items, 1 ≤ exact (number a)) :
    Within (n + (items.length - 1)) ((items.map number).foldl (· + ·) 0.0)
      (items.map value).sum := by
  cases items with
  | nil => exact (Within.of_exact_eq exact_zero).mono le_rfl (Nat.zero_le _)
  | cons a rest =>
      obtain ⟨⟨hnumber, hvalue, ha⟩, hrest⟩ := List.forall_mem_cons.mp hitems
      have hfirst := hone a List.mem_cons_self
      rw [List.map_cons, List.foldl_cons, zero_add_eq hnumber hfirst]
      exact within_foldl hrest ha le_rfl hnumber hfirst hvalue

end Sums

end SuiteBalance.Number
