import Mathlib
import SuiteBalance.Text.Blank

/-!
# Proofs — Text — what stripping leaves

A text is what stripping leaves of it, framed by characters of the kind that is stripped.  What is
left has none of them at its ends, and this settles what it is.

* **`Text.Bare`**: neither end of a text is a character of a kind.
* **`Text.stripChars_append`**: stripping removes a frame.
* `Text.exists_append_stripChars`: every text is a frame around what is left of it.
* `Text.trim_trim`, `Text.stripChars_of_narrower`: stripping a second time, and stripping more.
-/

namespace SuiteBalance.Text

variable {kind wider : Char → Bool} {s before core behind : List Char}

/-- Neither end of a text is a character of a kind. -/
structure Bare (kind : Char → Bool) (s : List Char) : Prop where
  head : ∀ c ∈ s.head?, kind c = false
  last : ∀ c ∈ s.getLast?, kind c = false

theorem dropWhile_append (hbefore : ∀ c ∈ before, kind c = true)
    (h : ∀ c ∈ core.head?, kind c = false) : (before ++ core).dropWhile kind = core := by
  rw [List.dropWhile_append_of_pos hbefore]
  cases core with
  | nil => rfl
  | cons c core => exact List.dropWhile_cons_of_neg (by simp [h c rfl])

/-- **Stripping removes what a text is framed by.** -/
theorem stripChars_append (h : Bare kind core) (hbefore : ∀ c ∈ before, kind c = true)
    (hbehind : ∀ c ∈ behind, kind c = true) :
    stripChars kind (before ++ core ++ behind) = core := by
  have hreverse : (core ++ behind).reverse.dropWhile kind = core.reverse := by
    rw [List.reverse_append]
    exact dropWhile_append (by simpa using hbehind) (by simpa using h.last)
  rw [stripChars, List.append_assoc, List.dropWhile_append_of_pos hbefore]
  by_cases hcore : core = []
  · subst hcore
    rw [List.nil_append, List.dropWhile_eq_nil_iff.mpr hbehind]
    rfl
  · have hhead : ∀ c ∈ (core ++ behind).head?, kind c = false := by
      rw [List.head?_append_of_ne_nil core hcore]
      exact h.head
    have hkept : ([] ++ (core ++ behind)).dropWhile kind = core ++ behind :=
      dropWhile_append (by simp) hhead
    rw [List.nil_append] at hkept
    rw [hkept, hreverse, List.reverse_reverse]

theorem head?_dropWhile (kind : Char → Bool) (s : List Char) :
    ∀ c ∈ (s.dropWhile kind).head?, kind c = false := by
  intro c hc
  have := List.head?_dropWhile_not kind s
  rw [Option.mem_def.mp hc] at this
  simpa using this

/-- What is left of a text is bare, and stood between characters of the kind. -/
theorem exists_append_stripChars (kind : Char → Bool) (s : List Char) : ∃ before behind,
    s = before ++ stripChars kind s ++ behind ∧ Bare kind (stripChars kind s) ∧
      (∀ c ∈ before, kind c = true) ∧ ∀ c ∈ behind, kind c = true := by
  refine ⟨s.takeWhile kind, (s.dropWhile kind).rtakeWhile kind, ?_, ⟨?_, ?_⟩,
    fun c hc => List.mem_takeWhile_imp hc, fun c hc => List.mem_rtakeWhile_imp hc⟩
  · change s = s.takeWhile kind ++ (s.dropWhile kind).rdropWhile kind ++ _
    rw [List.append_assoc, List.rdropWhile_append_rtakeWhile, List.takeWhile_append_dropWhile]
  · intro c hc
    obtain ⟨tail, htail⟩ := List.head?_eq_some_iff.mp hc
    obtain ⟨rest, hrest⟩ : stripChars kind s <+: s.dropWhile kind := List.rdropWhile_prefix kind _
    refine head?_dropWhile kind s c ?_
    rw [← hrest, htail]
    rfl
  · intro c hc
    rw [stripChars, List.getLast?_reverse] at hc
    exact head?_dropWhile kind _ c hc

theorem bare_stripChars (kind : Char → Bool) (s : List Char) : Bare kind (stripChars kind s) := by
  obtain ⟨_, _, -, h, -⟩ := exists_append_stripChars kind s
  exact h

theorem Bare.stripChars_eq (h : Bare kind s) : stripChars kind s = s := by
  have hframe : stripChars kind ([] ++ s ++ []) = s := stripChars_append h (by simp) (by simp)
  rwa [List.append_nil, List.nil_append] at hframe

/-- Trimming a second time changes nothing. -/
@[simp] theorem trim_trim (s : String) : trim (trim s) = trim s := by
  unfold trim trimChars
  rw [String.toList_ofList, (bare_stripChars isBlank s.toList).stripChars_eq]

/-- A wider kind of characters strips no more, where none of them are left. -/
theorem stripChars_of_narrower (hkind : ∀ c, kind c = true → wider c = true)
    (h : Bare wider (stripChars kind s)) : stripChars wider s = stripChars kind s := by
  obtain ⟨before, behind, hs, -, hbefore, hbehind⟩ := exists_append_stripChars kind s
  conv_lhs => rw [hs]
  exact stripChars_append h (fun c hc => hkind c (hbefore c hc)) fun c hc => hkind c (hbehind c hc)

end SuiteBalance.Text
