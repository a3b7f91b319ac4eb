import Mathlib
import SuiteBalance.Proofs.Number.Packed

/-!
# Proofs — Number — sums and the order of doubles

Durations and loads are doubles that are not below zero.  Such a double stands for a rational, or
for `⊤` if it is infinite, and its arithmetic is that of rationals with a rounding behind it.

* `le_iff_exact_le`, `lt_iff_exact_lt`: the order of doubles is the order of what they stand for.
* `eq_of_exact_eq`: what a double stands for determines it, unless it is a zero.
* `exact_add`: a sum stands for the exact sum, **`fitted`** to the format.
* `fitted_mono`, `fitted_of_grid`: fitting keeps the order, and what is representable.
-/

namespace SuiteBalance.Number

open Float.Model Float.Model.UnpackedFloat

/-! ### What a double stands for -/

/-- The magnitude of a double, which is what it stands for unless it is below zero. -/
def Double.magnitude : Double → WithTop ℚ
  | .finite _ m q => ((m * 2 ^ q : ℚ) : WithTop ℚ)
  | _ => ⊤

/-- What a float that is not below zero stands for. -/
def exact (x : Float) : WithTop ℚ := (Double.ofFloat x).magnitude

/-- A float taken apart that is not below zero, in the form that a bit pattern has, and what it
stands for. -/
inductive Denotes : UnpackedFloat → WithTop ℚ → Prop
  | infinity : Denotes (.infinity .positive) ⊤
  | zero (s : Sign) : Denotes (.zero s) 0
  | finite {m : ℕ} {q : ℤ} (hm : 0 < m) (hc : Canonical m q) (hq : q ≤ greatestExponent) :
      Denotes (.finite .positive m q hm) (m * 2 ^ q : ℚ)

/-- The parts of a double are in canonical form. -/
theorem canonical_of_ofFloat {x : Float} {s : Bool} {m : ℕ} {q : ℤ}
    (h : Double.ofFloat x = .finite s m q) : Canonical m q ∧ q ≤ greatestExponent := by
  have hfraction : fractionOf x.toBits.toNat < 2 ^ 52 := Nat.mod_lt _ (by norm_num)
  have hfield : fieldOf x.toBits.toNat < 2048 := Nat.mod_lt _ (by norm_num)
  rw [ofFloat_fields, Double.ofFields] at h
  unfold greatestExponent
  split_ifs at h with h₁ h₂ h₃
  · obtain ⟨-, rfl, rfl⟩ := Double.finite.inj h
    exact ⟨⟨by omega, le_rfl, .inr rfl⟩, by norm_num⟩
  · obtain ⟨-, rfl, rfl⟩ := Double.finite.inj h
    exact ⟨⟨by omega, by unfold leastExponent; omega, .inl (by omega)⟩, by omega⟩

theorem le_iff_unpack_le {x y : Float} :
    x ≤ y ↔ UnpackedFloat.le x.toModel.unpack y.toModel.unpack = true := decide_eq_true_iff

theorem lt_iff_unpack_lt {x y : Float} :
    x < y ↔ UnpackedFloat.lt x.toModel.unpack y.toModel.unpack = true := decide_eq_true_iff

theorem beq_iff_unpack_beq {x y : Float} :
    x == y ↔ UnpackedFloat.beq x.toModel.unpack y.toModel.unpack = true := Iff.rfl

theorem unpack_zero : (0.0 : Float).toModel.unpack = .zero .positive := rfl

/-- The floats that are not below zero are those without a sign, and both zeros. -/
theorem denotes_of_nonneg {x : Float} (h : 0.0 ≤ x) : Denotes x.toModel.unpack (exact x) := by
  rw [le_iff_unpack_le, unpack_zero] at h
  have heq := ofFloat_eq x
  unfold exact
  cases hu : x.toModel.unpack with
  | infinity s =>
      rw [hu] at h heq
      cases s with
      | negative => cases h
      | positive =>
          rw [heq]
          exact .infinity
  | notANumber =>
      rw [hu] at h
      cases h
  | zero s =>
      rw [hu] at heq
      rw [heq]
      simpa [Double.ofUnpacked, Double.magnitude] using Denotes.zero s
  | finite s m q hm =>
      rw [hu] at h heq
      obtain ⟨hc, hq⟩ := canonical_of_ofFloat heq
      rw [heq]
      cases s with
      | negative => cases h
      | positive => exact .finite hm hc hq

/-- A finite float stands for a rational. -/
theorem exact_ne_top {x : Float} (finite : x.isFinite = true) : exact x ≠ ⊤ := by
  replace finite : x.toModel.unpack.isFinite = true := finite
  rw [exact, ofFloat_eq]
  cases hu : x.toModel.unpack with
  | infinity => simp [hu, UnpackedFloat.isFinite] at finite
  | notANumber => simp [hu, UnpackedFloat.isFinite] at finite
  | zero => exact WithTop.coe_ne_top
  | finite => exact WithTop.coe_ne_top

theorem Denotes.nonneg {u : UnpackedFloat} {r : WithTop ℚ} (h : Denotes u r) : 0 ≤ r := by
  cases h with
  | infinity => exact le_top
  | zero => exact le_rfl
  | finite => exact_mod_cast (by positivity)

theorem exact_nonneg {x : Float} (h : 0.0 ≤ x) : 0 ≤ exact x := (denotes_of_nonneg h).nonneg

/-! ### The order -/

/-- Of two canonical forms the one with the greater exponent is greater. -/
theorem Canonical.lt_of_lt {m n : ℕ} {p q : ℤ} (hm : Canonical m p) (hn : Canonical n q)
    (h : p < q) : (m * 2 ^ p : ℚ) < n * 2 ^ q := by
  have hnormal : 2 ^ 52 ≤ n := hn.normal.resolve_right (by have := hm.least_le; omega)
  have hm' : (m : ℚ) < 2 ^ 53 := by exact_mod_cast hm.lt
  have hn' : (2 : ℚ) ^ 52 ≤ n := by exact_mod_cast hnormal
  calc (m * 2 ^ p : ℚ) < 2 ^ 53 * 2 ^ p := by gcongr
    _ = 2 ^ 52 * 2 ^ (p + 1) := by rw [zpow_add_one₀ two_ne_zero]; ring
    _ ≤ n * 2 ^ q := by
        gcongr
        · norm_num
        · omega

/-- Two doubles without a sign that stand for one number are one. -/
theorem Canonical.eq_of_value {m n : ℕ} {p q : ℤ} (hm : Canonical m p) (hn : Canonical n q)
    (h : (m * 2 ^ p : ℚ) = n * 2 ^ q) : m = n ∧ p = q := by
  obtain rfl : p = q := by
    rcases lt_trichotomy p q with hlt | heq | hlt
    · exact absurd h (hm.lt_of_lt hn hlt).ne
    · exact heq
    · exact absurd h (hn.lt_of_lt hm hlt).ne'
  refine ⟨?_, rfl⟩
  have := mul_right_cancel₀ (zpow_ne_zero p two_ne_zero) h
  exact_mod_cast this

theorem compare_canonical {m n : ℕ} {p q : ℤ} (hm : Canonical m p) (hn : Canonical n q) :
    (compare p q).then (compare m n) =
      compare ((m * 2 ^ p : ℚ) : WithTop ℚ) ((n * 2 ^ q : ℚ) : WithTop ℚ) := by
  -- the exponents decide, and the mantissas where the exponents agree
  rcases lt_trichotomy p q with h | rfl | h
  · rw [compare_lt_iff_lt.mpr h,
      compare_lt_iff_lt.mpr (WithTop.coe_lt_coe.mpr (hm.lt_of_lt hn h))]
    rfl
  · rw [compare_eq_iff_eq.mpr rfl, Ordering.eq_then]
    have hpos : (0 : ℚ) < 2 ^ p := by positivity
    rcases lt_trichotomy m n with h | rfl | h
    · rw [compare_lt_iff_lt.mpr h, eq_comm, compare_lt_iff_lt, WithTop.coe_lt_coe]
      gcongr
    · rw [compare_eq_iff_eq.mpr rfl, compare_eq_iff_eq.mpr rfl]
    · rw [compare_gt_iff_gt.mpr h, eq_comm, compare_gt_iff_gt]
      refine WithTop.coe_lt_coe.mpr ?_
      gcongr
  · rw [compare_gt_iff_gt.mpr h,
      compare_gt_iff_gt.mpr (WithTop.coe_lt_coe.mpr (hn.lt_of_lt hm h))]
    rfl

/-- Floats taken apart compare as what they stand for. -/
theorem Denotes.compare_eq {u v : UnpackedFloat} {r s : WithTop ℚ} (hu : Denotes u r)
    (hv : Denotes v s) : u.compare v = some (compare r s) := by
  have hpos {m : ℕ} {q : ℤ} (hm : 0 < m) : (0 : WithTop ℚ) < (m * 2 ^ q : ℚ) := by
    exact_mod_cast (by positivity)
  cases hu with
  | infinity =>
      cases hv with
      | infinity => rw [compare_eq_iff_eq.mpr rfl]; rfl
      | zero => rw [compare_gt_iff_gt.mpr (WithTop.coe_lt_top _)]; rfl
      | finite => rw [compare_gt_iff_gt.mpr (WithTop.coe_lt_top _)]; rfl
  | zero =>
      cases hv with
      | infinity => rw [compare_lt_iff_lt.mpr (WithTop.coe_lt_top _)]; rfl
      | zero => rw [compare_eq_iff_eq.mpr rfl]; rfl
      | finite hm => rw [compare_lt_iff_lt.mpr (hpos hm)]; rfl
  | finite hm hc =>
      cases hv with
      | infinity => rw [compare_lt_iff_lt.mpr (WithTop.coe_lt_top _)]; rfl
      | zero => rw [compare_gt_iff_gt.mpr (hpos hm)]; rfl
      | finite hn hd => exact congrArg some (compare_canonical hc hd)

/-- A float taken apart that equals one that is not below zero is not below zero. -/
theorem Denotes.nonneg_of_beq {u v : UnpackedFloat} {r : WithTop ℚ} (hu : Denotes u r)
    (h : u.beq v = true) : UnpackedFloat.le (.zero .positive) v = true := by
  cases v with
  | infinity s =>
      cases s with
      | negative => cases hu <;> cases h
      | positive => rfl
  | notANumber => cases hu <;> cases h
  | zero => rfl
  | finite s =>
      cases s with
      | negative => cases hu <;> cases h
      | positive => rfl

variable {x y : Float}

/-- **Doubles are ordered as what they stand for.** -/
theorem le_iff_exact_le (hx : 0.0 ≤ x) (hy : 0.0 ≤ y) : x ≤ y ↔ exact x ≤ exact y := by
  have h := (denotes_of_nonneg hx).compare_eq (denotes_of_nonneg hy)
  rw [le_iff_unpack_le, UnpackedFloat.le, h, ← compare_le_iff_le, Option.any_some,
    Ordering.isLE_iff_ne_gt]

/-- Doubles are strictly ordered as what they stand for. -/
theorem lt_iff_exact_lt (hx : 0.0 ≤ x) (hy : 0.0 ≤ y) : x < y ↔ exact x < exact y := by
  have h := (denotes_of_nonneg hx).compare_eq (denotes_of_nonneg hy)
  rw [lt_iff_unpack_lt, UnpackedFloat.lt, h, ← compare_lt_iff_lt, beq_iff_eq, Option.some_inj]

/-- Doubles are equal as what they stand for. -/
theorem beq_iff_exact_eq (hx : 0.0 ≤ x) (hy : 0.0 ≤ y) : x == y ↔ exact x = exact y := by
  have h := (denotes_of_nonneg hx).compare_eq (denotes_of_nonneg hy)
  rw [beq_iff_unpack_beq, UnpackedFloat.beq, h, beq_iff_eq, Option.some_inj, compare_eq_iff_eq]

/-- Floats taken apart that stand for one number other than zero are one double. -/
theorem Denotes.ofUnpacked_eq {u v : UnpackedFloat} {r s : WithTop ℚ} (hu : Denotes u r)
    (hv : Denotes v s) (h : r = s) (hne : r ≠ 0) : Double.ofUnpacked u = .ofUnpacked v := by
  cases hu with
  | infinity =>
      cases hv with
      | infinity => rfl
      | zero => exact absurd h hne
      | finite => exact absurd h WithTop.top_ne_coe
  | zero => exact absurd rfl hne
  | finite hm hc =>
      cases hv with
      | infinity => exact absurd h WithTop.coe_ne_top
      | zero => exact absurd h hne
      | finite hn hd =>
          obtain ⟨rfl, rfl⟩ := hc.eq_of_value hd (WithTop.coe_injective h)
          rfl

/-- **What a double other than zero stands for determines it.** -/
theorem eq_of_exact_eq (hx : 0.0 ≤ x) (hy : 0.0 ≤ y) (h : exact x = exact y) (hne : exact x ≠ 0) :
    x = y := by
  refine ofFloat_injective ?_
  rw [ofFloat_eq, ofFloat_eq]
  exact (denotes_of_nonneg hx).ofUnpacked_eq (denotes_of_nonneg hy) h hne

/-- What equals a double that is not below zero is not below zero. -/
theorem nonneg_of_beq (hx : 0.0 ≤ x) (h : x == y) : 0.0 ≤ y := by
  rw [beq_iff_unpack_beq] at h
  rw [le_iff_unpack_le, unpack_zero]
  exact (denotes_of_nonneg hx).nonneg_of_beq h

theorem exact_zero : exact 0.0 = 0 := by
  have : Double.ofFloat 0.0 = .finite false 0 (-1074) := by decide +kernel
  simp [exact, this, Double.magnitude]

/-- A float is not below zero if its double has no sign, or is a zero. -/
theorem nonneg_of_ofFloat (h : Double.ofFloat x = .infinite false ∨
    ∃ s m q, Double.ofFloat x = .finite s m q ∧ (s = true → m = 0)) : 0.0 ≤ x := by
  rw [le_iff_unpack_le, unpack_zero]
  rw [ofFloat_eq] at h
  cases hu : x.toModel.unpack with
  | infinity s =>
      cases s with
      | negative => simp [hu, Double.ofUnpacked, isNegative] at h
      | positive => rfl
  | notANumber => simp [hu, Double.ofUnpacked] at h
  | zero s => rfl
  | finite s m q hm =>
      cases s with
      | negative => simp [hu, Double.ofUnpacked, isNegative, hm.ne'] at h
      | positive => rfl

/-! ### Sums -/

/-- What is left of a number that is rounded to the format: the rounded number, or `⊤` if that is
too large. -/
def fitted : WithTop ℚ → WithTop ℚ
  | ⊤ => ⊤
  | (r : ℚ) => if rounded r < 2 ^ (1024 : ℤ) then (rounded r : ℚ) else ⊤

@[simp] theorem fitted_top : fitted ⊤ = ⊤ := rfl

theorem fitted_coe (r : ℚ) :
    fitted r = if rounded r < 2 ^ (1024 : ℤ) then (rounded r : WithTop ℚ) else ⊤ := rfl

@[simp] theorem fitted_zero : fitted 0 = 0 := by
  have hpos : (0 : ℚ) < 2 ^ (1024 : ℤ) := by positivity
  rw [← WithTop.coe_zero, fitted_coe, rounded_zero, if_pos hpos]

/-- Fitting keeps the order. -/
theorem fitted_mono {r s : WithTop ℚ} (hr : 0 ≤ r) (h : r ≤ s) : fitted r ≤ fitted s := by
  cases s with
  | top => exact le_top
  | coe s =>
      obtain ⟨r, rfl⟩ := WithTop.ne_top_iff_exists.mp (h.trans_lt (WithTop.coe_lt_top s)).ne
      have hle := rounded_mono (WithTop.coe_nonneg.mp hr) (WithTop.coe_le_coe.mp h)
      rw [fitted_coe, fitted_coe]
      split_ifs with h₁ h₂ h₂
      · exact WithTop.coe_le_coe.mpr hle
      · exact le_top
      · exact absurd (hle.trans_lt h₂) h₁
      · exact le_rfl

/-- The multiples below `2 ^ 53` of a power of two are fitted to themselves if they are not too
large. -/
theorem fitted_of_grid {n : ℕ} {e : ℤ} (hn : n < 2 ^ 53) (he : leastExponent ≤ e)
    (hlt : (n * 2 ^ e : ℚ) < 2 ^ (1024 : ℤ)) :
    fitted ((n * 2 ^ e : ℚ) : WithTop ℚ) = (n * 2 ^ e : ℚ) := by
  rw [fitted_coe, rounded_of_grid hn he, if_pos hlt]

/-- The exponent of a canonical form is within the format if the number is. -/
theorem Canonical.lt_iff {m : ℕ} {q : ℤ} (h : Canonical m q) :
    (m * 2 ^ q : ℚ) < 2 ^ (1024 : ℤ) ↔ q ≤ greatestExponent := by
  have hm : (m : ℚ) < 2 ^ 53 := by exact_mod_cast h.lt
  unfold greatestExponent
  constructor
  · intro hlt
    by_contra hq
    have hnormal := h.normal.resolve_right (by unfold leastExponent; omega)
    have hn : (2 : ℚ) ^ 52 ≤ m := by exact_mod_cast hnormal
    have : (2 : ℚ) ^ (1024 : ℤ) ≤ m * 2 ^ q := by
      calc (2 : ℚ) ^ (1024 : ℤ) = 2 ^ 52 * 2 ^ (972 : ℤ) := by
            rw [← zpow_natCast, ← zpow_add₀ two_ne_zero]
            norm_num only
        _ ≤ m * 2 ^ q := by
            gcongr
            · norm_num
            · omega
    exact absurd hlt this.not_gt
  · intro hq
    calc (m * 2 ^ q : ℚ) < 2 ^ 53 * 2 ^ q := by gcongr
      _ ≤ 2 ^ 53 * 2 ^ (971 : ℤ) := by gcongr; norm_num
      _ = 2 ^ (1024 : ℤ) := by
          rw [← zpow_natCast, ← zpow_add₀ two_ne_zero]
          norm_num only

/-- **A canonical form of a rounded number is packed to the number fitted to the format.** -/
theorem pack_of_rounded {m : ℕ} {q : ℤ} {r : ℚ} (hc : Canonical m q) (h : m * 2 ^ q = rounded r) :
    0.0 ≤ Float.ofModel (.pack (ofParts .positive m q)) ∧
      exact (.ofModel (.pack (ofParts .positive m q))) = fitted r := by
  have hpack := ofFloat_pack .positive hc
  have hfit := hc.lt_iff
  rw [h] at hfit
  rw [exact, fitted_coe]
  by_cases hq : q ≤ greatestExponent
  · rw [if_pos hq] at hpack
    rw [if_pos (hfit.mpr hq), hpack, ← h]
    exact ⟨nonneg_of_ofFloat (.inr ⟨_, _, _, hpack, by simp [isNegative]⟩), rfl⟩
  · rw [if_neg hq] at hpack
    rw [if_neg (mt hfit.mp hq), hpack]
    exact ⟨nonneg_of_ofFloat (.inl hpack), rfl⟩

/-- A float that a bit pattern holds is packed to what it stands for. -/
theorem Denotes.pack {u : UnpackedFloat} {r : WithTop ℚ} (h : Denotes u r) :
    0.0 ≤ Float.ofModel (.pack u) ∧ exact (.ofModel (.pack u)) = fitted r := by
  cases h with
  | infinity =>
      have hpack : Double.ofFloat (.ofModel (.pack (.infinity .positive))) = .infinite false := by
        decide +kernel
      exact ⟨nonneg_of_ofFloat (.inl hpack), by rw [exact, hpack]; rfl⟩
  | zero s =>
      have hpack : Double.ofFloat (.ofModel (.pack (.zero s))) =
          .finite (isNegative s) 0 (-1074) := by
        cases s <;> decide +kernel
      refine ⟨nonneg_of_ofFloat (.inr ⟨_, _, _, hpack, fun _ => rfl⟩), ?_⟩
      rw [exact, hpack, fitted_zero]
      simp [Double.magnitude]
  | @finite m q hm hc hq =>
      have hparts : ofParts .positive m q = .finite .positive m q hm := dif_neg hm.ne'
      rw [← hparts]
      exact pack_of_rounded hc (rounded_of_grid hc.lt hc.least_le).symm

/-- A double fits. -/
theorem Denotes.fitted_eq {u : UnpackedFloat} {r : WithTop ℚ} (h : Denotes u r) : fitted r = r := by
  cases h with
  | infinity => rfl
  | zero => exact fitted_zero
  | finite hm hc hq => exact fitted_of_grid hc.lt hc.least_le (hc.lt_iff.mpr hq)

theorem normalize_natCast {n : ℕ} (hn : 0 < n) (e : ℤ) (z : Sign) :
    UnpackedFloat.normalize .binary64 n e z = UnpackedFloat.round .binary64 .positive n e := by
  have hcompare : compare (n : ℤ) 0 = .gt := compare_gt_iff_gt.mpr (Int.natCast_pos.mpr hn)
  simp only [UnpackedFloat.normalize, hcompare, Int.toNat_natCast]

/-- Decreasing the exponent of a mantissa does not change the product. -/
theorem mul_zpow_eq (m d : ℕ) {e t : ℤ} (h : e - d = t) :
    ((m * 2 ^ d : ℕ) * 2 ^ t : ℚ) = m * 2 ^ e := by
  rw [← h, Nat.cast_mul, Nat.cast_pow, Nat.cast_ofNat, mul_assoc, ← zpow_natCast,
    ← zpow_add₀ two_ne_zero, add_sub_cancel]

/-- The sum of floats taken apart is packed to the exact sum, fitted to the format. -/
theorem Denotes.add {u v : UnpackedFloat} {r s : WithTop ℚ} (hu : Denotes u r)
    (hv : Denotes v s) :
    0.0 ≤ Float.ofModel (.pack (.add .binary64 u v)) ∧
      exact (.ofModel (.pack (.add .binary64 u v))) = fitted (r + s) := by
  cases hu with
  | infinity =>
      rw [top_add]
      cases hv with
      | infinity => exact Denotes.infinity.pack
      | zero => exact Denotes.infinity.pack
      | finite => exact Denotes.infinity.pack
  | zero s =>
      rw [zero_add]
      cases hv with
      | infinity => exact Denotes.infinity.pack
      | zero t => cases s <;> cases t <;> exact (Denotes.zero _).pack
      | finite hn hd hq => exact (Denotes.finite hn hd hq).pack
  | @finite m p hm hc hp =>
      cases hv with
      | infinity =>
          rw [add_top]
          exact Denotes.infinity.pack
      | zero =>
          rw [add_zero]
          exact (Denotes.finite hm hc hp).pack
      | @finite n q hn hd hq =>
          obtain ⟨a, ha, -, ha'⟩ := decreaseExponent_eq m p (min p q)
          obtain ⟨b, hb, -, hb'⟩ := decreaseExponent_eq n q (min p q)
          have hpos : 0 < m * 2 ^ a + n * 2 ^ b := by positivity
          have hadd : UnpackedFloat.add .binary64 (.finite .positive m p hm)
              (.finite .positive n q hn) =
              UnpackedFloat.round .binary64 .positive (m * 2 ^ a + n * 2 ^ b) (min p q) := by
            rw [← normalize_natCast hpos _ .positive, Nat.cast_add]
            simp only [UnpackedFloat.add, ha, hb, Sign.apply]
          obtain ⟨M, E, hround, hcanonical, hvalue⟩ := round_eq .positive (min p q) hpos
          have hsum : ((m * 2 ^ a + n * 2 ^ b : ℕ) * 2 ^ min p q : ℚ) =
              m * 2 ^ p + n * 2 ^ q := by
            rw [Nat.cast_add, add_mul, mul_zpow_eq m a (ha' (min_le_left _ _)),
              mul_zpow_eq n b (hb' (min_le_right _ _))]
          rw [hadd, hround, ← WithTop.coe_add, ← hsum]
          exact pack_of_rounded hcanonical hvalue

/-- **A sum of doubles stands for the exact sum, fitted to the format.** -/
theorem exact_add (hx : 0.0 ≤ x) (hy : 0.0 ≤ y) :
    exact (x + y) = fitted (exact x + exact y) :=
  ((denotes_of_nonneg hx).add (denotes_of_nonneg hy)).2

theorem nonneg_add (hx : 0.0 ≤ x) (hy : 0.0 ≤ y) : 0.0 ≤ x + y :=
  ((denotes_of_nonneg hx).add (denotes_of_nonneg hy)).1

/-- A finite double is negated by its sign. -/
theorem ofFloat_neg {s : Bool} {m : ℕ} {q : ℤ} (h : Double.ofFloat x = .finite s m q) :
    Double.ofFloat (-x) = .finite (!s) m q := by
  obtain ⟨hc, hq⟩ := canonical_of_ofFloat h
  have hneg : -x = .ofModel (.pack (UnpackedFloat.neg x.toModel.unpack)) := rfl
  rw [ofFloat_eq] at h
  rw [hneg]
  cases hu : x.toModel.unpack with
  | infinity => simp [hu, Double.ofUnpacked] at h
  | notANumber => simp [hu, Double.ofUnpacked] at h
  | zero t =>
      rw [hu, Double.ofUnpacked, Double.finite.injEq] at h
      obtain ⟨rfl, rfl, rfl⟩ := h
      cases t <;> decide +kernel
  | finite t n p hn =>
      rw [hu, Double.ofUnpacked, Double.finite.injEq] at h
      obtain ⟨rfl, rfl, rfl⟩ := h
      have hpack (u : Sign) : Double.ofFloat (.ofModel (.pack (.finite u n p hn))) =
          .finite (isNegative u) n p := by
        have hparts := ofFloat_pack u hc
        rwa [if_pos hq, ofParts, dif_neg hn.ne'] at hparts
      cases t with
      | negative => exact hpack .positive
      | positive => exact hpack .negative

end SuiteBalance.Number
