import Mathlib

/-!
# Proofs — Number — rounding to the grid of doubles

A rational that is not negative is rounded to a multiple of a power of two.  Its **`gridExponent`**
leaves fifty-three binary digits, unless the rational is so small that the least power of the
format takes over; **`rounded`** takes the nearest multiple, of two equally near ones the even one.

* `rounded_mono`: rounding keeps the order.
* `rounded_of_grid`: a multiple of a grid that is coarse enough is rounded to itself.
* `rounded_of_near`: all rationals in the interval of a double are rounded to it.
-/

namespace SuiteBalance.Number

/-! ### The nearest integer -/

/-- The integer nearest to a rational; halfway between two, the even one. -/
def nearestEven (x : ℚ) : ℤ :=
  if x - ⌊x⌋ < 1 / 2 then ⌊x⌋ else if x - ⌊x⌋ = 1 / 2 ∧ ⌊x⌋ % 2 = 0 then ⌊x⌋ else ⌊x⌋ + 1

/-- The nearest integer is at most half a unit away, and even if it is as far away as that. -/
theorem nearestEven_spec (x : ℚ) :
    |x - nearestEven x| ≤ 1 / 2 ∧ (|x - nearestEven x| = 1 / 2 → nearestEven x % 2 = 0) := by
  have low := Int.floor_le x
  have high := Int.lt_floor_add_one x
  unfold nearestEven
  split_ifs with below tie
  · rw [abs_of_nonneg (by linarith)]
    exact ⟨below.le, fun h => absurd h below.ne⟩
  · rw [abs_of_nonneg (by linarith)]
    exact ⟨tie.1.le, fun _ => tie.2⟩
  · have above : 1 / 2 ≤ x - ⌊x⌋ := not_lt.mp below
    rw [abs_sub_comm, abs_of_nonneg (by push_cast; linarith)]
    push_cast
    refine ⟨by linarith, fun h => ?_⟩
    have half : x - ⌊x⌋ = 1 / 2 := by linarith
    have odd : ⌊x⌋ % 2 ≠ 0 := fun even => tie ⟨half, even⟩
    omega

/-- Nearest integers of ordered rationals are ordered. -/
theorem nearestEven_mono {x y : ℚ} (h : x ≤ y) : nearestEven x ≤ nearestEven y := by
  by_contra hlt
  obtain ⟨hx, -⟩ := nearestEven_spec x
  obtain ⟨hy, -⟩ := nearestEven_spec y
  have gap : (nearestEven y : ℚ) + 1 ≤ nearestEven x := by exact_mod_cast (by omega)
  have hx := (abs_le.mp hx).1
  have hy := (abs_le.mp hy).2
  -- two integers apart, with the rationals half a unit from each: they coincide
  obtain rfl : x = y := by linarith
  exact hlt le_rfl

/-- An integer less than half a unit away is the nearest, and so is an even one half a unit away. -/
theorem nearestEven_eq {x : ℚ} {n : ℤ} (near : |x - n| ≤ 1 / 2)
    (tie : |x - n| = 1 / 2 → n % 2 = 0) : nearestEven x = n := by
  obtain ⟨hx, htie⟩ := nearestEven_spec x
  have close : |(nearestEven x : ℚ) - n| ≤ 1 := by
    calc |(nearestEven x : ℚ) - n| = |(x - n) - (x - nearestEven x)| := by ring_nf
      _ ≤ |x - n| + |x - nearestEven x| := abs_sub _ _
      _ ≤ 1 := by linarith
  by_contra hne
  have apart : |nearestEven x - n| = 1 := by
    have h₁ : |nearestEven x - n| ≤ 1 := by exact_mod_cast close
    have h₂ : 0 < |nearestEven x - n| := abs_pos.mpr (sub_ne_zero.mpr hne)
    omega
  -- both are half a unit away, so both are even
  have apart' : |(nearestEven x : ℚ) - n| = 1 := by exact_mod_cast apart
  have bound : |(nearestEven x : ℚ) - n| ≤ |x - n| + |x - nearestEven x| := by
    calc |(nearestEven x : ℚ) - n| = |(x - n) - (x - nearestEven x)| := by ring_nf
      _ ≤ |x - n| + |x - nearestEven x| := abs_sub _ _
  have even₁ := tie (by linarith)
  have even₂ := htie (by linarith)
  rcases abs_eq zero_le_one |>.mp apart with h | h <;> omega

@[simp] theorem nearestEven_intCast (n : ℤ) : nearestEven n = n :=
  nearestEven_eq (by simp) (by simp)

theorem le_nearestEven {x : ℚ} {n : ℤ} (h : (n : ℚ) ≤ x) : n ≤ nearestEven x :=
  (nearestEven_intCast n).symm.trans_le (nearestEven_mono h)

theorem nearestEven_le {x : ℚ} {n : ℤ} (h : x ≤ n) : nearestEven x ≤ n :=
  (nearestEven_mono h).trans_eq (nearestEven_intCast n)

/-! ### The grid -/

/-- The least exponent of a double's last binary digit. -/
def leastExponent : ℤ := -1074

theorem zpow_log_le {r : ℚ} (hr : 0 < r) : 2 ^ Int.log 2 r ≤ r := by
  exact_mod_cast Int.zpow_log_le_self one_lt_two hr

theorem lt_zpow_log_succ (r : ℚ) : r < 2 ^ (Int.log 2 r + 1) := by
  exact_mod_cast Int.lt_zpow_succ_log_self one_lt_two r

/-- The exponent of the last binary digit that a rational keeps. -/
def gridExponent (r : ℚ) : ℤ := max (Int.log 2 r - 52) leastExponent

/-- A rational rounded to the grid at its exponent. -/
def rounded (r : ℚ) : ℚ := nearestEven (r / 2 ^ gridExponent r) * 2 ^ gridExponent r

theorem gridExponent_mono {r s : ℚ} (hr : 0 < r) (h : r ≤ s) : gridExponent r ≤ gridExponent s :=
  max_le_max_right _ (sub_le_sub_right (Int.log_mono_right hr h) _)

/-- A positive rational has at most fifty-three digits on its grid. -/
theorem div_gridExponent_lt {r : ℚ} : r / 2 ^ gridExponent r < 2 ^ 53 := by
  rw [div_lt_iff₀ (by positivity), ← zpow_natCast, ← zpow_add₀ (by norm_num)]
  refine (lt_zpow_log_succ r).trans_le (zpow_le_zpow_right₀ (by norm_num) ?_)
  unfold gridExponent
  omega

/-- Above the least exponent, a positive rational has fifty-three digits on its grid. -/
theorem le_div_gridExponent {r : ℚ} (hr : 0 < r) (h : gridExponent r ≠ leastExponent) :
    2 ^ 52 ≤ r / 2 ^ gridExponent r := by
  rw [le_div_iff₀ (by positivity), ← zpow_natCast, ← zpow_add₀ (by norm_num)]
  refine le_trans (zpow_le_zpow_right₀ (by norm_num) ?_) (zpow_log_le hr)
  unfold gridExponent at *
  omega

theorem rounded_zero : rounded 0 = 0 := by
  have : nearestEven 0 = 0 := nearestEven_intCast 0
  simp [rounded, this]

/-- What is not negative is not rounded below zero. -/
theorem rounded_nonneg {r : ℚ} (hr : 0 ≤ r) : 0 ≤ rounded r := by
  have : (0 : ℤ) ≤ nearestEven (r / 2 ^ gridExponent r) :=
    le_nearestEven (by simpa using div_nonneg hr (by positivity))
  have : (0 : ℚ) ≤ nearestEven (r / 2 ^ gridExponent r) := by exact_mod_cast this
  unfold rounded
  positivity

/-- A rational below a power of two that is on its grid is not rounded above it. -/
theorem rounded_le_zpow {r : ℚ} {k : ℤ} (hk : gridExponent r ≤ k) (h : r ≤ 2 ^ k) :
    rounded r ≤ 2 ^ k := by
  obtain ⟨d, rfl⟩ : ∃ d : ℕ, k = gridExponent r + d :=
    ⟨(k - gridExponent r).toNat, by omega⟩
  rw [zpow_add₀ (by norm_num), zpow_natCast, mul_comm] at h ⊢
  have : nearestEven (r / 2 ^ gridExponent r) ≤ (2 ^ d : ℤ) :=
    nearestEven_le (by rw [div_le_iff₀ (by positivity)]; exact_mod_cast h)
  have : (nearestEven (r / 2 ^ gridExponent r) : ℚ) ≤ 2 ^ d := by exact_mod_cast this
  unfold rounded
  gcongr

/-- A rational above a power of two that is on its grid is not rounded below it. -/
theorem zpow_le_rounded {r : ℚ} {k : ℤ} (hk : gridExponent r ≤ k) (h : 2 ^ k ≤ r) :
    2 ^ k ≤ rounded r := by
  obtain ⟨d, rfl⟩ : ∃ d : ℕ, k = gridExponent r + d :=
    ⟨(k - gridExponent r).toNat, by omega⟩
  rw [zpow_add₀ (by norm_num), zpow_natCast, mul_comm] at h ⊢
  have : (2 ^ d : ℤ) ≤ nearestEven (r / 2 ^ gridExponent r) :=
    le_nearestEven (by rw [le_div_iff₀ (by positivity)]; exact_mod_cast h)
  have : (2 : ℚ) ^ d ≤ nearestEven (r / 2 ^ gridExponent r) := by exact_mod_cast this
  unfold rounded
  gcongr

/-- **Rounding keeps the order.** -/
theorem rounded_mono {r s : ℚ} (hr : 0 ≤ r) (h : r ≤ s) : rounded r ≤ rounded s := by
  obtain rfl | hr := hr.eq_or_lt
  · rw [rounded_zero]
    exact rounded_nonneg h
  obtain heq | hlt := (gridExponent_mono hr h).eq_or_lt
  · unfold rounded
    rw [heq]
    gcongr
    exact nearestEven_mono (by gcongr)
  · -- the grids differ: a power of two stands between the rationals
    have hs := hr.trans_le h
    have hexp : gridExponent s = Int.log 2 s - 52 := by
      unfold gridExponent at *
      omega
    have hlog : Int.log 2 r + 1 ≤ Int.log 2 s := by
      unfold gridExponent at *
      omega
    calc rounded r ≤ 2 ^ Int.log 2 s := by
          refine rounded_le_zpow (by omega) ?_
          exact (lt_zpow_log_succ r).le.trans (zpow_le_zpow_right₀ (by norm_num) hlog)
      _ ≤ rounded s := zpow_le_rounded (by omega) (zpow_log_le hs)

/-- A multiple of a grid at least as coarse as its own is rounded to itself. -/
theorem rounded_of_gridExponent_le {n : ℤ} {e : ℤ} (h : gridExponent (n * 2 ^ e) ≤ e) :
    rounded (n * 2 ^ e) = n * 2 ^ e := by
  obtain ⟨d, hd⟩ : ∃ d : ℕ, e - gridExponent (n * 2 ^ e) = d :=
    ⟨(e - gridExponent (n * 2 ^ e)).toNat, by omega⟩
  have hdiv : (n * 2 ^ e : ℚ) / 2 ^ gridExponent (n * 2 ^ e) = (n * 2 ^ d : ℤ) := by
    rw [mul_div_assoc, ← zpow_sub₀ (by norm_num), hd]
    push_cast
    rw [zpow_natCast]
  rw [rounded, hdiv, nearestEven_intCast, ← hdiv]
  field_simp

/-- **Representable rationals are rounded to themselves**: the multiples below `2 ^ 53` of a power
of two that is no less than the least. -/
theorem rounded_of_grid {n : ℕ} {e : ℤ} (hn : n < 2 ^ 53) (he : leastExponent ≤ e) :
    rounded (n * 2 ^ e) = n * 2 ^ e := by
  obtain rfl | hpos := n.eq_zero_or_pos
  · simpa using rounded_zero
  refine rounded_of_gridExponent_le (n := n) (max_le ?_ he)
  have hpos : (0 : ℚ) < n * 2 ^ e := by positivity
  have hlt : (n * 2 ^ e : ℚ) < 2 ^ (e + 53) := by
    rw [zpow_add₀ (by norm_num), mul_comm]
    have : (n : ℚ) < 2 ^ (53 : ℤ) := by exact_mod_cast hn
    gcongr
  have := (Int.lt_zpow_iff_log_lt one_lt_two hpos).mp (by exact_mod_cast hlt)
  push_cast
  omega

/-! ### The interval of a double -/

/-- The significand and the exponent of a double: fifty-three digits, or fewer at the least
exponent. -/
structure Canonical (m : ℕ) (q : ℤ) : Prop where
  lt : m < 2 ^ 53
  least_le : leastExponent ≤ q
  normal : 2 ^ 52 ≤ m ∨ q = leastExponent

/-- How far the interval of a double reaches below it, in its own units: half a unit, or a quarter
where the doubles below lie twice as close. -/
def reachBelow (m : ℕ) (q : ℤ) : ℚ := if m = 2 ^ 52 ∧ q ≠ leastExponent then 1 / 4 else 1 / 2

/-- `r` lies in the interval of `m · 2 ^ q`, which has its ends if `m` is even. -/
structure Near (m : ℕ) (q : ℤ) (r : ℚ) : Prop where
  below : m - reachBelow m q ≤ r / 2 ^ q
  above : r / 2 ^ q ≤ m + 1 / 2
  ends : m % 2 = 1 → m - reachBelow m q < r / 2 ^ q ∧ r / 2 ^ q < m + 1 / 2

theorem reachBelow_le (m : ℕ) (q : ℤ) : reachBelow m q ≤ 1 / 2 := by
  unfold reachBelow
  split <;> norm_num

/-- A rational on the double's own grid is rounded to the double. -/
theorem rounded_of_gridExponent_eq {m : ℕ} {q : ℤ} {r : ℚ} (h : Near m q r)
    (hq : gridExponent r = q) : rounded r = m * 2 ^ q := by
  have low := reachBelow_le m q
  have near : nearestEven (r / 2 ^ q) = m := by
    refine nearestEven_eq ?_ fun tie => ?_
    · push_cast
      rw [abs_le]
      constructor <;> linarith [h.below, h.above]
    · by_contra odd
      obtain ⟨h₁, h₂⟩ := h.ends (by omega)
      push_cast at tie
      have : |r / 2 ^ q - m| < 1 / 2 := by
        rw [abs_lt]
        constructor <;> linarith
      exact this.ne tie
  rw [rounded, hq, near]
  norm_cast

/-- A rational in the interval of a double is on another grid only below a power of two, where the
double is that power and the grid is the next finer one. -/
theorem gridExponent_of_near {m : ℕ} {q : ℤ} {r : ℚ} (hc : Canonical m q) (hr : 0 < r)
    (h : Near m q r) (hq : gridExponent r ≠ q) :
    m = 2 ^ 52 ∧ gridExponent r = q - 1 ∧ 2 ^ 52 - 1 / 4 ≤ r / 2 ^ q ∧ r / 2 ^ q < 2 ^ 52 := by
  have hpos : (0 : ℚ) < 2 ^ q := by positivity
  have log_lt (k : ℕ) : Int.log 2 r < q + k ↔ r / 2 ^ q < 2 ^ k := by
    rw [← Int.lt_zpow_iff_log_lt one_lt_two hr, div_lt_iff₀ hpos, mul_comm, Nat.cast_ofNat,
      zpow_add₀ two_ne_zero, zpow_natCast]
  -- the interval ends below the next power of two, so the grid of `r` is not the coarser one
  have hlt : r / 2 ^ q < 2 ^ 53 := by
    rcases Nat.lt_or_ge m (2 ^ 53 - 1) with hm | hm
    · have : (m : ℚ) ≤ 2 ^ 53 - 2 := by exact_mod_cast (by omega : (m : ℤ) ≤ 2 ^ 53 - 2)
      linarith [h.above]
    · obtain rfl : m = 2 ^ 53 - 1 := by have := hc.lt; omega
      have := (h.ends (by norm_num)).2
      norm_num at this ⊢
      linarith
  have hlog := (log_lt 53).mpr hlt
  have hleast := hc.least_le
  have hfine : Int.log 2 r < q + (52 : ℕ) ∧ q ≠ leastExponent := by
    unfold gridExponent at hq
    omega
  -- `r` is below the power of two that the double is at least: the double is that power
  have hbelow := (log_lt 52).mp hfine.1
  obtain rfl : m = 2 ^ 52 := by
    have hm := hc.normal.resolve_right hfine.2
    by_contra hne
    have : (2 ^ 52 + 1 : ℚ) ≤ m := by exact_mod_cast (by omega : 2 ^ 52 + 1 ≤ m)
    linarith [h.below, reachBelow_le m q]
  have habove : 2 ^ 52 - 1 / 4 ≤ r / 2 ^ q := by
    have := h.below
    rwa [reachBelow, if_pos ⟨rfl, hfine.2⟩, Nat.cast_pow, Nat.cast_ofNat] at this
  have hge : ¬ Int.log 2 r < q + (51 : ℕ) := by
    rw [log_lt, not_lt]
    linarith
  refine ⟨rfl, ?_, habove, hbelow⟩
  unfold gridExponent
  omega

/-- **The rationals in the interval of a double are rounded to it.** -/
theorem rounded_of_near {m : ℕ} {q : ℤ} {r : ℚ} (hc : Canonical m q) (hr : 0 < r)
    (h : Near m q r) : rounded r = m * 2 ^ q := by
  by_cases hq : gridExponent r = q
  · exact rounded_of_gridExponent_eq h hq
  obtain ⟨rfl, hgrid, hlow, hhigh⟩ := gridExponent_of_near hc hr h hq
  have hdouble : r / 2 ^ (q - 1) = 2 * (r / 2 ^ q) := by
    rw [zpow_sub_one₀ two_ne_zero]
    field_simp
  have near : nearestEven (r / 2 ^ (q - 1)) = 2 ^ 53 := by
    refine nearestEven_eq ?_ fun _ => by norm_num
    rw [hdouble, abs_le]
    push_cast
    constructor <;> linarith
  rw [rounded, hgrid, near, zpow_sub_one₀ two_ne_zero]
  push_cast
  ring

end SuiteBalance.Number
