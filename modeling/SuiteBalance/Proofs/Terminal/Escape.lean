import Mathlib
import SuiteBalance.Proofs.Terminal.Tags

/-!
# Proofs — Terminal — escaped texts

An escaped text has no tags; the brackets are those of the text, and so is the way that it leaves a
tag open for what is put behind it.  Backslashes at the end make no difference to any of this.

* **`tagless_escapeFrom`**: an escaped text has no tags.
* `leavesOpen_escapeFrom`, `opensTag_escapeFrom`: escaping keeps the brackets.
* **`Escaped`**: how a text is escaped, with or without backslashes at the end.
* `Escaped.tagless`, `Escaped.leavesOpen`: what holds of it.
-/

namespace SuiteBalance.Terminal

variable {s t a b rest body : List CodePoint} {p : CodePoint} {count k : ℕ}

/-! ### Escaped texts -/

theorem escapeFrom_of_bracketless (hs : Bracketless s) (k : ℕ) :
    escapeFrom k s = backslashes k ++ s := by
  fun_induction escapeFrom k s with
  | case1 k => rw [List.append_nil]
  | case2 k rest ih =>
    rw [ih (bracketless_cons.mp hs).2, backslashes_add, List.append_assoc]
    rfl
  | case3 k p rest hp before ih =>
    obtain ⟨⟨hopen, -⟩, hrest⟩ := bracketless_cons.mp hs
    have hbefore : before = k := by simp [before, hopen]
    rw [ih hrest, hbefore]
    rfl

theorem closes_escapeFrom (k : ℕ) (s : List CodePoint) : closes (escapeFrom k s) = closes s := by
  have hslashes (k : ℕ) (t : List CodePoint) : closes (backslashes k ++ t) = closes t := by
    induction k with
    | zero => rfl
    | succ k ih => exact ih
  fun_induction escapeFrom k s with
  | case1 k => simpa using hslashes k []
  | case2 k rest ih => exact ih
  | case3 k p rest hp before ih => rw [hslashes, closes, closes, ih]

theorem bracketless_escapeFrom : Bracketless (escapeFrom k s) ↔ Bracketless s := by
  fun_induction escapeFrom k s with
  | case1 k => exact iff_of_true (bracketless_backslashes k) bracketless_nil
  | case2 k rest ih => rw [ih, bracketless_cons]; simp
  | case3 k p rest hp before ih =>
    rw [bracketless_append, bracketless_cons, bracketless_cons, ih]
    simp [bracketless_backslashes]

theorem tagBody_escapeFrom : TagBody (escapeFrom 0 s) ↔ TagBody s := by
  have hbody (h : Bracketless s) : TagBody (escapeFrom 0 s) ↔ TagBody s := by
    rw [escapeFrom_of_bracketless h]; rfl
  exact ⟨fun h => (hbody (bracketless_escapeFrom.mp h.toBracketless)).mp h,
    fun h => (hbody h.toBracketless).mpr h⟩

theorem opensTag_escapeFrom (s : List CodePoint) : opensTag (escapeFrom 0 s) = opensTag s := by
  suffices h : ∀ k, opensTag (escapeFrom k s) = opensTag (backslashes k ++ s) from h 0
  intro k
  fun_induction escapeFrom k s with
  | case1 k => rw [List.append_nil]
  | case2 k rest ih => rw [ih, backslashes_add, List.append_assoc]; rfl
  | case3 k p rest hp before ih =>
    cases k with
    | succ k =>
      obtain ⟨j, hj⟩ : ∃ j, before = j + 1 := Nat.exists_eq_succ_of_ne_zero (by grind)
      rw [hj]
      rfl
    | zero =>
      by_cases htag : p = .char '[' ∧ opensTag rest = true
      · have hbefore : before = 1 := by simp [before, htag]
        rw [hbefore, htag.1]
        rfl
      · have hbefore : before = 0 := by simpa [before] using htag
        rw [hbefore]
        change (p.isOf startsTag && closes (escapeFrom 0 rest)) = (p.isOf startsTag && closes rest)
        rw [closes_escapeFrom]

theorem tagless_escapeFrom (k : ℕ) (s : List CodePoint) : Tagless (escapeFrom k s) := by
  rw [tagless_iff]
  fun_induction escapeFrom k s with
  | case1 k => exact fun _ _ _ h => absurd h (not_opens (bracketless_backslashes k).open_notMem)
  | case2 k rest ih => exact ih
  | case3 k p rest hp before ih =>
    intro count behind heven hopens
    rw [opens_append_cons (bracketless_backslashes before).open_notMem hp] at hopens
    obtain ⟨rfl, hcount, rfl⟩ | hopens := hopens
    · rw [slashesAtEnd_backslashes] at hcount
      refine Bool.eq_false_iff.mpr fun htag => ?_
      rw [opensTag_escapeFrom] at htag
      have hodd : before = 2 * k + 1 := by simp [before, htag]
      exact Nat.not_even_two_mul_add_one k (hodd ▸ hcount ▸ heven)
    · exact ih count behind heven hopens

theorem leavesOpen_append_cons (ha : .char '[' ∉ a) (hp : p ≠ .char '\\') :
    LeavesOpen (a ++ p :: b) count ↔
      p = .char '[' ∧ slashesAtEnd a = count ∧ TagBody b ∨ LeavesOpen b count := by
  simp only [LeavesOpen, opens_append_cons ha hp, or_and_right, exists_or, and_assoc,
    exists_and_left, exists_eq_left']

theorem leavesOpen_escapeFrom :
    LeavesOpen (escapeFrom k s) count ↔ LeavesOpen (backslashes k ++ s) count := by
  fun_induction escapeFrom k s with
  | case1 k => rw [List.append_nil]
  | case2 k rest ih => rw [ih, backslashes_add, List.append_assoc]; rfl
  | case3 k p rest hp before ih =>
    have hslashes (k : ℕ) : .char '[' ∉ backslashes k := (bracketless_backslashes k).open_notMem
    rw [leavesOpen_append_cons (hslashes _) hp, leavesOpen_append_cons (hslashes k) hp, ih,
      slashesAtEnd_backslashes, slashesAtEnd_backslashes, tagBody_escapeFrom]
    refine or_congr_left (and_congr_right fun _ => and_congr_left fun hbody => ?_)
    -- What may stand in a tag closes none.
    have hbefore : before = k := by simp [before, hbody.opensTag_eq]
    rw [hbefore]

/-! ### Backslashes at the end -/

/-- How a text is escaped: the backslashes in front of each tag are doubled and one more is put
there, and there may be more at the end. -/
def Escaped (name cell : List CodePoint) : Prop := ∃ k, cell = escapeFrom 0 name ++ backslashes k

theorem opens_append_backslashes : Opens (s ++ backslashes k) count rest ↔
    ∃ rest', Opens s count rest' ∧ rest = rest' ++ backslashes k := by
  constructor
  · rintro ⟨before, heq, hcount⟩
    obtain ⟨c, rfl, hc⟩ | ⟨c, rfl, hc⟩ := List.append_eq_append_iff.mp heq
    · have hmem : .char '[' ∈ backslashes k := hc ▸ List.mem_append_right c (List.mem_cons_self ..)
      exact absurd hmem (bracketless_backslashes k).open_notMem
    · cases c with
      | nil =>
        have hmem : .char '[' ∈ backslashes k := by
          rw [← List.nil_append (backslashes k), ← hc]
          exact List.mem_cons_self ..
        exact absurd hmem (bracketless_backslashes k).open_notMem
      | cons q c =>
        obtain ⟨rfl, rfl⟩ := List.cons.inj hc
        exact ⟨c, ⟨before, rfl, hcount⟩, rfl⟩
  · rintro ⟨rest', ⟨before, rfl, hcount⟩, rfl⟩
    exact ⟨before, by simp, hcount⟩

theorem closesFirst_append_backslashes :
    ClosesFirst (s ++ backslashes k) ↔ ClosesFirst s := by
  have hslashes : ¬ClosesFirst (backslashes k) := by
    rintro ⟨body, behind, heq, -⟩
    have hmem : .char ']' ∈ backslashes k := heq ▸ List.mem_append_right body (List.mem_cons_self ..)
    exact (bracketless_backslashes k).close_notMem hmem
  rw [closesFirst_append, or_iff_left fun h => hslashes h.2]

theorem tagBody_append_backslashes : TagBody (s ++ backslashes k) ↔ TagBody s := by
  cases s with
  | nil =>
    refine iff_of_false ?_ not_tagBody_nil
    cases k with
    | zero => exact not_tagBody_nil
    | succ k => exact fun h => absurd (tagBody_cons.mp h).1 (by decide)
  | cons p s =>
    rw [List.cons_append, tagBody_cons, tagBody_cons, bracketless_append,
      and_iff_left (bracketless_backslashes k)]

theorem opensTag_append_backslashes : opensTag (s ++ backslashes k) = opensTag s := by
  cases s with
  | nil => cases k <;> rfl
  | cons p s =>
    rw [List.cons_append, opensTag, opensTag]
    refine congrArg (p.isOf startsTag && ·) (Bool.eq_iff_iff.mpr ?_)
    rw [closes_iff, closes_iff, closesFirst_append_backslashes]

namespace Escaped

variable {name cell : List CodePoint}

/-- **An escaped text has no tags.** -/
theorem tagless (h : Escaped name cell) : Tagless cell := by
  obtain ⟨k, rfl⟩ := h
  refine tagless_iff.mpr fun count rest heven hopens => ?_
  obtain ⟨rest', hinside, rfl⟩ := opens_append_backslashes.mp hopens
  rw [opensTag_append_backslashes]
  exact tagless_iff.mp (tagless_escapeFrom 0 name) count rest' heven hinside

theorem bracketless (h : Escaped name cell) : Bracketless cell ↔ Bracketless name := by
  obtain ⟨k, rfl⟩ := h
  rw [bracketless_append, and_iff_left (bracketless_backslashes k), bracketless_escapeFrom]

theorem closesFirst (h : Escaped name cell) : ClosesFirst cell ↔ ClosesFirst name := by
  obtain ⟨k, rfl⟩ := h
  rw [closesFirst_append_backslashes, ← closes_iff, closes_escapeFrom, closes_iff]

/-- An escaped text leaves a tag open as the text does. -/
theorem leavesOpen (h : Escaped name cell) : LeavesOpen cell count ↔ LeavesOpen name count := by
  obtain ⟨k, rfl⟩ := h
  refine Iff.trans ?_ (leavesOpen_escapeFrom (k := 0) (s := name))
  constructor
  · rintro ⟨body, hopens, hbody⟩
    obtain ⟨body', hinside, rfl⟩ := opens_append_backslashes.mp hopens
    exact ⟨body', hinside, tagBody_append_backslashes.mp hbody⟩
  · rintro ⟨body, hopens, hbody⟩
    exact ⟨body ++ backslashes k, opens_append_backslashes.mpr ⟨body, hopens, rfl⟩,
      tagBody_append_backslashes.mpr hbody⟩

end Escaped

end SuiteBalance.Terminal
