import Mathlib
import SuiteBalance.Proofs.Json.Plain
import SuiteBalance.Terminal.Control

/-!
# Proofs — Terminal — control sequences

A text without the escape character has no control sequences, so it is shown to other programs as
it is.  Documents are such texts, whatever texts they hold.

* `withoutControls_eq`: a text without escape characters stays.
* **`withoutControls_document`**: so does a document.
-/

namespace SuiteBalance.Terminal

/-- Without escape characters there is no control sequence. -/
theorem dropControls_eq {s : List Char} (h : escapeMark ∉ s) : dropControls s = s := by
  have hhead {c : Char} {rest : List Char} (h : escapeMark ∉ c :: rest) : (c == escapeMark) ≠ true :=
    fun hmark => h (List.mem_cons.mpr (.inl (beq_iff_eq.mp hmark).symm))
  fun_induction dropControls s with
  | case1 => rfl
  | case2 c body hmark => exact absurd hmark (hhead h)
  | case3 c body hmark => exact absurd hmark (hhead h)
  | case4 c body hmark ih => rw [ih (List.not_mem_of_not_mem_cons h)]
  | case5 c rest hrest ih => rw [ih (List.not_mem_of_not_mem_cons h)]

/-- A text without escape characters stays. -/
theorem withoutControls_eq {s : String} (h : escapeMark ∉ s.toList) : withoutControls s = s := by
  rw [withoutControls, dropControls_eq h, String.ofList_toList]

/-- **A document stays.** -/
theorem withoutControls_document (v : Json) : withoutControls v.document = v.document := by
  refine withoutControls_eq fun hmark => ?_
  rw [Json.document, String.toList_ofList] at hmark
  exact (Json.plain_write v 0 _ hmark).ne (by decide) (by decide) rfl

end SuiteBalance.Terminal
