import Mathlib
import SuiteBalance.Text.Lines

/-!
# Proofs — Text — plain characters

Documents hold printable ASCII and line breaks.  The line breaks of such text are unified already.

* `Plain`: the characters that documents hold.
* `unifyBreaks_eq`: the line breaks of plain text stay.
-/

namespace SuiteBalance.Text

/-- A character is a line break or a printable one of ASCII. -/
def Plain (c : Char) : Prop := c = '\n' ∨ 0x20 ≤ c.toNat ∧ c.toNat < 0x7f

instance : DecidablePred Plain := fun _ => inferInstanceAs (Decidable (_ ∨ _))

theorem Plain.lt {c : Char} (h : Plain c) : c.toNat < 0x80 := by
  rcases h with rfl | ⟨-, hlt⟩
  · decide
  · exact hlt.trans (by norm_num)

/-- The other characters below the printable ones are not plain. -/
theorem Plain.ne {c d : Char} (h : Plain c) (hlow : d.toNat < 0x20) (hbreak : d ≠ '\n') : c ≠ d := by
  rintro rfl
  rcases h with rfl | ⟨hle, -⟩
  · exact hbreak rfl
  · exact absurd hle (not_le.mpr hlow)

/-! ### Line breaks -/

theorem unifyBreaksFrom_eq {s : List Char} (h : ∀ c ∈ s, Plain c) (done : List Char) :
    unifyBreaksFrom done s = done.reverse ++ s := by
  induction s generalizing done with
  | nil => exact (List.append_nil _).symm
  | cons c s ih =>
      have hc : c ≠ '\r' := (h c (List.mem_cons_self ..)).ne (by decide) (by decide)
      have hstep : unifyBreaksFrom done (c :: s) = unifyBreaksFrom (c :: done) s := by
        -- the last equation of the function applies, whose cases before need a carriage return
        rw [unifyBreaksFrom]
        · rintro rest rfl
          exact absurd rfl hc
        · rintro rfl
          exact absurd rfl hc
      rw [hstep, ih fun c hc => h c (List.mem_cons_of_mem _ hc), List.reverse_cons,
        List.append_assoc]
      rfl

/-- **Plain text has no other line break than the unified one.** -/
theorem unifyBreaks_eq {s : List Char} (h : ∀ c ∈ s, Plain c) : unifyBreaks s = s :=
  unifyBreaksFrom_eq h []

end SuiteBalance.Text
