import Mathlib
import SuiteBalance.Number.Reading
import SuiteBalance.Proofs.Text.Blank

/-!
# Proofs — Numbers — blanks around a number

A number may stand between white characters, and what strips a text removes the information
separators as well.  No number has one of those, so a text that is read as a number is read as the
same number once it is trimmed.

* `Number.isSeparator`: the blanks that are not white.
* `Number.not_mem_of_readDecimal?`, `Number.not_isSeparator_of_readFloat?`: no number has a
  separator.
* **`Number.readFloat?_trim`**: a number is read with or without the blanks around it.
-/

namespace SuiteBalance.Number

open Text

variable {s body : List Char} {c : Char}

/-- The information separators, the blanks that are not white. -/
def isSeparator (c : Char) : Bool := 0x1c ≤ c.toNat && c.toNat ≤ 0x1f

theorem ne_of_isSeparator {d : Char} (h : isSeparator c = true) (hd : isSeparator d = false) :
    c ≠ d := by
  rintro rfl
  exact Bool.false_ne_true (hd.symm.trans h)

theorem isSeparator_iff : isSeparator c = true ↔ 0x1c ≤ c.toNat ∧ c.toNat ≤ 0x1f := by
  simp [isSeparator]

theorem not_isDigit_of_isSeparator (h : isSeparator c = true) : ¬ c.isDigit = true := by
  have hlast := (isSeparator_iff.mp h).2
  have hzero : '0'.toNat = 0x30 := rfl
  rw [Char.isDigit_iff_toNat]
  omega

theorem toLower_of_isSeparator (h : isSeparator c = true) : c.toLower = c := by
  obtain ⟨hfirst, hlast⟩ := isSeparator_iff.mp h
  rw [← Char.ofNat_toNat c]
  interval_cases c.toNat <;> rfl

/-- A separator is no sign. -/
theorem mem_splitSign (h : isSeparator c = true) (hc : c ∈ s) : c ∈ (splitSign s).2 := by
  fun_cases splitSign s with
  | case1 rest => exact (List.mem_cons.mp hc).resolve_left (ne_of_isSeparator h (by decide))
  | case2 rest => exact (List.mem_cons.mp hc).resolve_left (ne_of_isSeparator h (by decide))
  | case3 s => exact hc

/-- What stands behind the digits of a decimal has no separator. -/
theorem not_mem_of_readExponent? {bound : ℕ} {e : ℤ} (hread : readExponent? bound s = some e)
    (h : isSeparator c = true) : c ∉ s := by
  unfold readExponent? at hread
  split at hread
  · exact List.not_mem_nil
  · next e rest =>
    dsimp only at hread
    split at hread
    · next hform =>
      simp only [Bool.and_eq_true, Bool.or_eq_true, beq_iff_eq, List.all_eq_true] at hform
      obtain ⟨⟨hletter, -⟩, hdigits⟩ := hform
      intro hc
      rcases List.mem_cons.mp hc with rfl | hc
      · rcases hletter with rfl | rfl <;> cases h
      · exact not_isDigit_of_isSeparator h (hdigits c (mem_splitSign h hc))
    · cases hread

theorem mem_dropWhile_isDigit (h : isSeparator c = true) (hc : c ∈ s) :
    c ∈ s.dropWhile Char.isDigit := by
  rw [← List.takeWhile_append_dropWhile (p := Char.isDigit) (l := s), List.mem_append] at hc
  exact hc.resolve_left fun hmem => not_isDigit_of_isSeparator h (List.mem_takeWhile_imp hmem)

/-- A decimal has no separator. -/
theorem not_mem_of_readDecimal? {x : Float} (hread : readDecimal? s = some x)
    (h : isSeparator c = true) : c ∉ s := by
  intro hc
  have hrest := mem_dropWhile_isDigit h hc
  unfold readDecimal? at hread
  dsimp only at hread
  split at hread
  · next tail htail =>
    rw [htail] at hrest
    have hmem := (List.mem_cons.mp hrest).resolve_left (ne_of_isSeparator h (by decide))
    split at hread
    · cases hread
    · obtain ⟨e, he, -⟩ := Option.map_eq_some_iff.mp hread
      exact not_mem_of_readExponent? he h (mem_dropWhile_isDigit h hmem)
  · split at hread
    · cases hread
    · obtain ⟨e, he, -⟩ := Option.map_eq_some_iff.mp hread
      exact not_mem_of_readExponent? he h hrest

/-- Only low lines are dropped. -/
theorem mem_of_dropLowLines {isDigit : Char → Bool} {before : Char}
    (h : dropLowLines isDigit before s = some body) (hc : c ∈ s) (hline : c ≠ '_') : c ∈ body := by
  induction s generalizing before body with
  | nil => cases hc
  | cons d rest ih =>
      rw [dropLowLines] at h
      split at h
      · next hd =>
        split at h
        · obtain rfl := beq_iff_eq.mp hd
          exact ih h ((List.mem_cons.mp hc).resolve_left hline)
        · cases h
      · obtain ⟨tail, htail, rfl⟩ := Option.map_eq_some_iff.mp h
        rcases List.mem_cons.mp hc with rfl | hc
        · exact List.mem_cons_self
        · exact List.mem_cons_of_mem _ (ih htail hc)

/-- A separator is no digit of any script. -/
theorem mem_asciiDigits (h : isSeparator c = true) (hc : c ∈ s) : c ∈ asciiDigits s := by
  have hnone : digitValue? c = none := by
    have hlast := (isSeparator_iff.mp h).2
    have hzeros : ∀ z ∈ digitZeros, 0x30 ≤ z := by decide
    rw [digitValue?, Option.map_eq_none_iff, List.find?_eq_none]
    intro z hz
    have hle := hzeros z hz
    rw [Bool.and_eq_true, decide_eq_true_eq, decide_eq_true_eq]
    omega
  refine List.mem_map.mpr ⟨c, hc, ?_⟩
  rw [hnone]

/-- None of the names that are read as a number has a separator. -/
theorem not_mem_of_name {name : String} (hname : ∀ d ∈ name.toList, isSeparator d = false)
    (hbody : String.ofList (s.map Char.toLower) = name) (h : isSeparator c = true) : c ∉ s := by
  intro hc
  have hmem : c ∈ name.toList := by
    rw [← hbody, String.toList_ofList]
    exact List.mem_map.mpr ⟨c, hc, toLower_of_isSeparator h⟩
  exact ne_of_isSeparator h (hname c hmem) rfl

/-- **No number has a separator**, but for the white characters around it. -/
theorem not_isSeparator_of_readFloat? {s : String} {x : Float} (h : readFloat? s = some x) :
    ∀ c ∈ stripChars isWhite s.toList, isSeparator c = false := by
  intro c hc
  by_contra hsep
  rw [Bool.not_eq_false] at hsep
  obtain ⟨body, hbody, hread⟩ := Option.bind_eq_some_iff.mp h
  have hkept : c ∈ body := mem_of_dropLowLines hbody (mem_asciiDigits hsep hc)
    (ne_of_isSeparator hsep (by decide))
  have hmem : c ∈ (splitSign body).2 := mem_splitSign hsep hkept
  dsimp only at hread
  split at hread
  · next hname =>
    rw [Bool.or_eq_true, beq_iff_eq, beq_iff_eq] at hname
    rcases hname with hname | hname
    · exact not_mem_of_name (by simp [isSeparator]) hname hsep hmem
    · exact not_mem_of_name (by simp [isSeparator]) hname hsep hmem
  · split at hread
    · next hname => exact not_mem_of_name (by simp [isSeparator]) (beq_iff_eq.mp hname) hsep hmem
    · obtain ⟨magnitude, hmagnitude, -⟩ := Option.bind_eq_some_iff.mp hread
      exact not_mem_of_readDecimal? hmagnitude hsep hmem

/-- What is read is settled by what is left between the white characters. -/
theorem readFloat?_congr {s t : String}
    (h : stripChars isWhite s.toList = stripChars isWhite t.toList) :
    readFloat? s = readFloat? t := by
  unfold readFloat?
  rw [h]

/-- **A text that is read as a number is read as the same number without the blanks around it.** -/
theorem readFloat?_trim {s : String} {x : Float} (h : readFloat? s = some x) :
    readFloat? (trim s) = some x := by
  have hbare := bare_stripChars isWhite s.toList
  have hsep := not_isSeparator_of_readFloat? h
  have hblank : Bare isBlank (stripChars isWhite s.toList) := by
    refine ⟨fun c hc => ?_, fun c hc => ?_⟩
    · exact Bool.or_eq_false_iff.mpr ⟨hbare.head c hc, hsep c (List.mem_of_mem_head? hc)⟩
    · exact Bool.or_eq_false_iff.mpr ⟨hbare.last c hc, hsep c (List.mem_of_mem_getLast? hc)⟩
  have hwider : ∀ c, isWhite c = true → isBlank c = true :=
    fun c hc => Bool.or_eq_true_iff.mpr (.inl hc)
  refine (readFloat?_congr ?_).trans h
  rw [trim, String.toList_ofList, trimChars, stripChars_of_narrower hwider hblank,
    hbare.stripChars_eq]

end SuiteBalance.Number
