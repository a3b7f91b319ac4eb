import Mathlib
import SuiteBalance.Number.Double
import SuiteBalance.Proofs.Number.Unpacked

/-!
# Proofs — Number — doubles and their bits

A `Float` is a bit pattern, and two readings of the pattern meet: the floats taken apart that the
arithmetic works on, and **`Double.ofFloat`**, which texts are made from.

* `ofFloat_eq`: the two readings agree.
* `ofFloat_injective`: a double determines its float.
* `ofFloat_pack`: a float in canonical form is packed to the double of its parts, or to an
  infinity if its exponent is beyond the greatest.
-/

namespace SuiteBalance.Number

open Float.Model Float.Model.UnpackedFloat

/-! ### The fields of a bit pattern -/

/-- The double of a sign bit, an exponent field and a fraction. -/
def Double.ofFields (negative : Bool) (field fraction : ℕ) : Double :=
  if field = 2047 then
    if fraction = 0 then .infinite negative else .notANumber
  else if field = 0 then .finite negative fraction (-1074)
  else .finite negative (2 ^ 52 + fraction) (field - 1075)

/-- The exponent field of a pattern. -/
def fieldOf (bits : ℕ) : ℕ := bits / 2 ^ 52 % 2048

/-- The fraction of a pattern. -/
def fractionOf (bits : ℕ) : ℕ := bits % 2 ^ 52

/-- The sign bit of a pattern. -/
def signOf (bits : ℕ) : ℕ := bits / 2 ^ 63 % 2

theorem ofFloat_fields (x : Float) :
    Double.ofFloat x =
      .ofFields (signOf x.toBits.toNat == 1) (fieldOf x.toBits.toNat)
        (fractionOf x.toBits.toNat) := rfl

theorem eq_of_fields {a b : ℕ} (ha : a < 2 ^ 64) (hb : b < 2 ^ 64) (hsign : signOf a = signOf b)
    (hfield : fieldOf a = fieldOf b) (hfraction : fractionOf a = fractionOf b) : a = b := by
  unfold signOf at hsign
  unfold fieldOf at hfield
  unfold fractionOf at hfraction
  omega

theorem toNat_packComponents (s : Sign) (e : BitVec 11) (f : BitVec 52) :
    (packComponents .binary64 s e f).toNat =
      s.toBitVec.toNat * 2 ^ 63 + e.toNat * 2 ^ 52 + f.toNat := by
  have he := e.isLt
  have hf := f.isLt
  rw [packComponents, BitVec.toNat_append, BitVec.toNat_append, ← Nat.shiftLeft_add_eq_or_of_lt hf,
    ← Nat.shiftLeft_add_eq_or_of_lt he, Nat.shiftLeft_eq, Nat.shiftLeft_eq]
  ring

theorem toNat_unpackMantissa (b : BitVec Format.binary64.numBits) :
    (unpackMantissa b).toNat = fractionOf b.toNat := by
  simp [unpackMantissa, fractionOf]

theorem toNat_unpackExponent (b : BitVec Format.binary64.numBits) :
    (unpackExponent b).toNat = fieldOf b.toNat := by
  simp [unpackExponent, fieldOf, Nat.shiftRight_eq_div_pow]

theorem toNat_unpackSign (b : BitVec Format.binary64.numBits) :
    (unpackSign b).toNat = signOf b.toNat := by
  simp [unpackSign, signOf, Nat.shiftRight_eq_div_pow]

/-! ### The two readings -/

/-- Whether a sign is the negative one. -/
def isNegative : Sign → Bool
  | .negative => true
  | .positive => false

/-- The double of a float that is taken apart. -/
def Double.ofUnpacked : UnpackedFloat → Double
  | .notANumber => .notANumber
  | .infinity s => .infinite (isNegative s)
  | .zero s => .finite (isNegative s) 0 (-1074)
  | .finite s m e _ => .finite (isNegative s) m e

theorem isNegative_ofBitVec (b : BitVec 1) : isNegative (.ofBitVec b) = (b.toNat == 1) := by
  obtain rfl | rfl : b = 0#1 ∨ b = 1#1 := by
    have := b.isLt
    simp only [← BitVec.toNat_inj, BitVec.toNat_ofNat]
    omega
  · rfl
  · rfl

theorem ofUnpacked_unpack (b : BitVec Format.binary64.numBits) :
    Double.ofUnpacked (UnpackedFloat.unpack .binary64 b) =
      .ofFields (signOf b.toNat == 1) (fieldOf b.toNat) (fractionOf b.toNat) := by
  have hexponent := toNat_unpackExponent b
  have hmantissa := toNat_unpackMantissa b
  have hsign := toNat_unpackSign b
  have hones : unpackExponent b = -1#_ ↔ fieldOf b.toNat = 2047 := by
    rw [← BitVec.toNat_inj, hexponent]; rfl
  have hzeros : unpackExponent b = 0#_ ↔ fieldOf b.toNat = 0 := by
    rw [← BitVec.toNat_inj, hexponent]; rfl
  have hfraction : unpackMantissa b = 0#_ ↔ fractionOf b.toNat = 0 := by
    rw [← BitVec.toNat_inj, hmantissa]; rfl
  rw [UnpackedFloat.unpack, Double.ofFields]
  simp only [hones, hzeros, hfraction]
  split_ifs with h₁ h₂ h₃ h₄
  · rw [Double.ofUnpacked, isNegative_ofBitVec, hsign]
  · rfl
  · rw [Double.ofUnpacked, isNegative_ofBitVec, hsign, h₄]
  · rw [Double.ofUnpacked, isNegative_ofBitVec, hsign, hmantissa, hexponent, h₃]
    rfl
  · have hlt : fractionOf b.toNat < 2 ^ 52 := Nat.mod_lt _ (by norm_num)
    rw [Double.ofUnpacked, isNegative_ofBitVec, hsign, hexponent, BitVec.toNat_append, hmantissa,
      ← Nat.shiftLeft_add_eq_or_of_lt hlt]
    rfl

/-- **The two readings of a bit pattern agree.** -/
theorem ofFloat_eq (x : Float) : Double.ofFloat x = .ofUnpacked x.toModel.unpack :=
  (ofUnpacked_unpack x.toModel.toBits.toBitVec).symm

/-- The least pattern of no number is the only one. -/
theorem toBits_of_notANumber {x : Float} (h : Double.ofFloat x = .notANumber) :
    fieldOf x.toBits.toNat = 2047 ∧ fractionOf x.toBits.toNat = 2 ^ 51 ∧
      signOf x.toBits.toNat = 0 := by
  have hfield : fieldOf x.toBits.toNat = 2047 := by
    rw [ofFloat_fields, Double.ofFields] at h
    split_ifs at h with h₁
    exact h₁
  have hfraction : fractionOf x.toBits.toNat ≠ 0 := by
    rw [ofFloat_fields, Double.ofFields, if_pos hfield] at h
    split_ifs at h with h₂
    exact h₂
  have hbits : x.toBits.toBitVec = packedNaN .binary64 := by
    refine x.toModel.valid.eq_packedNaN ?_ ?_
    · rw [← BitVec.toNat_inj, toNat_unpackExponent]
      exact hfield
    · rw [ne_eq, ← BitVec.toNat_inj, toNat_unpackMantissa]
      exact hfraction
  have hnat : x.toBits.toNat = 2047 * 2 ^ 52 + 2 ^ 51 := congrArg BitVec.toNat hbits
  rw [hnat]
  decide

/-- **A double determines its float.** -/
theorem ofFloat_injective : Function.Injective Double.ofFloat := by
  intro x y h
  have hsuffices : x.toBits.toNat = y.toBits.toNat → x = y := by
    intro hbits
    obtain ⟨⟨a, _⟩⟩ := x
    obtain ⟨⟨b, _⟩⟩ := y
    obtain rfl : a = b := UInt64.toNat_inj.mp hbits
    rfl
  refine hsuffices ?_
  -- the fields are read off the double, except for no number, whose pattern is known
  by_cases hnan : Double.ofFloat x = .notANumber
  · obtain ⟨h₁, h₂, h₃⟩ := toBits_of_notANumber hnan
    obtain ⟨h₄, h₅, h₆⟩ := toBits_of_notANumber (h ▸ hnan)
    exact eq_of_fields x.toBits.toNat_lt y.toBits.toNat_lt (h₃.trans h₆.symm) (h₁.trans h₄.symm)
      (h₂.trans h₅.symm)
  have hsx : signOf x.toBits.toNat < 2 := Nat.mod_lt _ two_pos
  have hsy : signOf y.toBits.toNat < 2 := Nat.mod_lt _ two_pos
  have hfx : fractionOf x.toBits.toNat < 2 ^ 52 := Nat.mod_lt _ (by norm_num)
  have hfy : fractionOf y.toBits.toNat < 2 ^ 52 := Nat.mod_lt _ (by norm_num)
  have key : signOf x.toBits.toNat = signOf y.toBits.toNat ∧
      fieldOf x.toBits.toNat = fieldOf y.toBits.toNat ∧
      fractionOf x.toBits.toNat = fractionOf y.toBits.toNat := by
    rw [ofFloat_fields] at hnan
    rw [ofFloat_fields, ofFloat_fields] at h
    unfold Double.ofFields at h hnan
    split_ifs at h hnan <;> simp only [Double.infinite.injEq, Double.finite.injEq, beq_eq_beq] at h <;>
      grind
  exact eq_of_fields x.toBits.toNat_lt y.toBits.toNat_lt key.1 key.2.1 key.2.2

/-! ### Packing -/

/-- The greatest exponent of a double's last binary digit. -/
def greatestExponent : ℤ := 971

theorem ofFloat_ofModel_pack (u : UnpackedFloat) :
    Double.ofFloat (.ofModel (.pack u)) =
      .ofFields (signOf (UnpackedFloat.pack .binary64 u).toNat == 1)
        (fieldOf (UnpackedFloat.pack .binary64 u).toNat)
        (fractionOf (UnpackedFloat.pack .binary64 u).toNat) := rfl

theorem fields_packComponents (s : Sign) (e : BitVec 11) (f : BitVec 52) :
    (signOf (packComponents .binary64 s e f).toNat == 1) = isNegative s ∧
      fieldOf (packComponents .binary64 s e f).toNat = e.toNat ∧
      fractionOf (packComponents .binary64 s e f).toNat = f.toNat := by
  have he := e.isLt
  have hf := f.isLt
  rw [toNat_packComponents]
  unfold signOf fieldOf fractionOf
  cases s with
  | negative =>
      simp only [Sign.toBitVec, isNegative, beq_iff_eq, BitVec.toNat_ofNat]
      omega
  | positive =>
      simp only [Sign.toBitVec, isNegative, beq_eq_false_iff_ne, BitVec.toNat_ofNat]
      omega

/-- **A float in canonical form is packed to the double of its parts**, or to an infinity if its
exponent is beyond the greatest. -/
theorem ofFloat_pack (s : Sign) {m : ℕ} {q : ℤ} (h : Canonical m q) :
    Double.ofFloat (.ofModel (.pack (ofParts s m q))) =
      if q ≤ greatestExponent then .finite (isNegative s) m q else .infinite (isNegative s) := by
  obtain ⟨hlt, hleast, hnormal⟩ := h
  unfold leastExponent at *
  unfold greatestExponent
  rw [ofFloat_ofModel_pack]
  -- no digits go with the least exponent, where the pattern is that of zero
  obtain rfl | hm := m.eq_zero_or_pos
  · obtain rfl : q = -1074 := hnormal.resolve_left (by norm_num)
    obtain ⟨h₁, h₂, h₃⟩ := fields_packComponents s 0 0
    have hpack : UnpackedFloat.pack .binary64 (ofParts s 0 (-1074)) =
        packComponents .binary64 s 0 0 := rfl
    rw [hpack, h₁, h₂, h₃]
    rfl
  have hparts : ofParts s m q = .finite s m q hm := by
    rw [ofParts, dif_neg hm.ne']
  have hlog : m.log2 + 1 = 53 ↔ 2 ^ 52 ≤ m := by
    have h₁ := (Nat.le_log2 hm.ne' (k := 52)).symm
    have h₂ := (Nat.log2_lt hm.ne').mpr hlt
    omega
  have hbiased : (q + (1023 : ℕ) + (52 : ℕ)).toNat = q + 1075 := by omega
  have hpack : UnpackedFloat.pack .binary64 (.finite s m q hm) =
      if 2 ^ 11 ≤ (q + (1023 : ℕ) + (52 : ℕ)).toNat + 1 then packComponents .binary64 s (-1#_) 0
      else if m.log2 + 1 = 53 then
        packComponents .binary64 s (BitVec.ofNat _ (q + (1023 : ℕ) + (52 : ℕ)).toNat)
          (BitVec.ofNat _ m)
      else packComponents .binary64 s 0#_ (BitVec.ofNat _ m) := rfl
  rw [hparts, hpack]
  -- too large, with all digits, or with fewer at the least exponent; the others contradict `q`
  split_ifs with hoverflow hq hfull hq hq
  · omega
  · obtain ⟨h₁, h₂, h₃⟩ := fields_packComponents s (-1#_) 0
    rw [h₁, h₂, h₃]
    rfl
  · obtain ⟨h₁, h₂, h₃⟩ := fields_packComponents s
      (BitVec.ofNat _ (q + (1023 : ℕ) + (52 : ℕ)).toNat) (BitVec.ofNat _ m)
    rw [h₁, h₂, h₃, Double.ofFields]
    simp only [BitVec.toNat_ofNat]
    rw [if_neg (by omega), if_neg (by omega)]
    congr 1 <;> omega
  · omega
  · obtain rfl : q = -1074 := hnormal.resolve_left fun h => hfull (hlog.mpr h)
    have hm52 : m < 2 ^ 52 := not_le.mp fun h => hfull (hlog.mpr h)
    obtain ⟨h₁, h₂, h₃⟩ := fields_packComponents s 0#_ (BitVec.ofNat _ m)
    rw [h₁, h₂, h₃]
    have hfield : (0#11).toNat = 0 := rfl
    rw [Double.ofFields, hfield, if_neg (by norm_num), if_pos rfl, BitVec.toNat_ofNat,
      Nat.mod_eq_of_lt hm52]
  · omega

end SuiteBalance.Number
