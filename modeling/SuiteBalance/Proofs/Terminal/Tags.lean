import Mathlib
import SuiteBalance.Terminal.Markup

/-!
# Proofs — Terminal — tags

A tag of a text is told by what is between its brackets and by what is behind it.  Two texts without
tags, one put behind the other, have a tag if and only if the first leaves one open behind an even
number of backslashes and the other closes a bracket before it opens one.

* **`Tag`**, `Tagless`: the tags of a text, and that there are none.
* `LeavesOpen`, `ClosesFirst`: what makes a tag of two texts.
* `opens_append_cons`, `opens_append`: where brackets open.
* **`tagless_append`**, `tag_append`: the tags of texts put together.
-/

namespace SuiteBalance.Terminal

/-! ### Brackets -/

/-- The number of backslashes that a text ends in. -/
def slashesAtEnd (s : List CodePoint) : ℕ := (s.reverse.takeWhile (· == .char '\\')).length

/-- A bracket opens behind a number of backslashes, and `rest` is behind it. -/
def Opens (s : List CodePoint) (count : ℕ) (rest : List CodePoint) : Prop :=
  ∃ before, s = before ++ .char '[' :: rest ∧ slashesAtEnd before = count

/-- A text without brackets. -/
structure Bracketless (s : List CodePoint) : Prop where
  open_notMem : .char '[' ∉ s
  close_notMem : .char ']' ∉ s

/-- What may stand between the brackets of a tag. -/
structure TagBody (body : List CodePoint) : Prop extends Bracketless body where
  starts : ∃ c rest, body = .char c :: rest ∧ startsTag c = true

/-- A tag: what is between its brackets, which open behind an even number of backslashes, and what
is behind it. -/
def Tag (s body behind : List CodePoint) : Prop :=
  ∃ count, Even count ∧ Opens s count (body ++ .char ']' :: behind) ∧ TagBody body

/-- There is no tag. -/
def Tagless (s : List CodePoint) : Prop := ∀ body behind, ¬Tag s body behind

/-- The last bracket opens behind a number of backslashes, and what is behind it may stand in a
tag. -/
def LeavesOpen (s : List CodePoint) (count : ℕ) : Prop := ∃ body, Opens s count body ∧ TagBody body

/-- The first bracket is a closing one. -/
def ClosesFirst (s : List CodePoint) : Prop :=
  ∃ body behind, s = body ++ .char ']' :: behind ∧ Bracketless body

variable {s t a b rest body : List CodePoint} {p : CodePoint} {count k : ℕ}

theorem bracketless_append : Bracketless (a ++ b) ↔ Bracketless a ∧ Bracketless b := by
  constructor
  · rintro ⟨hopen, hclose⟩
    rw [List.mem_append, not_or] at hopen hclose
    exact ⟨⟨hopen.1, hclose.1⟩, hopen.2, hclose.2⟩
  · rintro ⟨ha, hb⟩
    exact ⟨List.mem_append.not.mpr (not_or.mpr ⟨ha.1, hb.1⟩),
      List.mem_append.not.mpr (not_or.mpr ⟨ha.2, hb.2⟩)⟩

theorem bracketless_cons :
    Bracketless (p :: s) ↔ (p ≠ .char '[' ∧ p ≠ .char ']') ∧ Bracketless s := by
  constructor
  · rintro ⟨hopen, hclose⟩
    rw [List.mem_cons, not_or] at hopen hclose
    exact ⟨⟨Ne.symm hopen.1, Ne.symm hclose.1⟩, hopen.2, hclose.2⟩
  · rintro ⟨⟨hopen, hclose⟩, hs⟩
    exact ⟨List.mem_cons.not.mpr (not_or.mpr ⟨hopen.symm, hs.1⟩),
      List.mem_cons.not.mpr (not_or.mpr ⟨hclose.symm, hs.2⟩)⟩

theorem bracketless_nil : Bracketless [] := ⟨List.not_mem_nil, List.not_mem_nil⟩

theorem bracketless_backslashes (k : ℕ) : Bracketless (backslashes k) :=
  ⟨fun h => absurd (List.eq_of_mem_replicate h) (by decide),
    fun h => absurd (List.eq_of_mem_replicate h) (by decide)⟩

/-! ### Backslashes -/

theorem slashesAtEnd_backslashes (k : ℕ) : slashesAtEnd (backslashes k) = k := by
  simp [slashesAtEnd, backslashes]

/-- Only the backslashes behind the last other character count. -/
theorem slashesAtEnd_append_cons (hp : p ≠ .char '\\') (a b : List CodePoint) :
    slashesAtEnd (a ++ p :: b) = slashesAtEnd b := by
  have hstop : (p == .char '\\') = false := beq_eq_false_iff_ne.mpr hp
  simp only [slashesAtEnd, List.reverse_append, List.reverse_cons, List.append_assoc,
    List.takeWhile_append]
  split
  · next h => simp [hstop, h]
  · rfl

theorem backslashes_add (j k : ℕ) : backslashes (j + k) = backslashes j ++ backslashes k :=
  List.replicate_add ..

/-! ### Where brackets open -/

/-- What opens behind a character that is no backslash. -/
theorem opens_append_cons (ha : .char '[' ∉ a) (hp : p ≠ .char '\\') :
    Opens (a ++ p :: b) count rest ↔
      p = .char '[' ∧ slashesAtEnd a = count ∧ b = rest ∨ Opens b count rest := by
  constructor
  · rintro ⟨before, heq, hcount⟩
    obtain ⟨c, rfl, hc⟩ | ⟨c, rfl, hc⟩ := List.append_eq_append_iff.mp heq
    · cases c with
      | nil =>
        obtain ⟨rfl, rfl⟩ := List.cons.inj hc
        exact .inl ⟨rfl, by simpa using hcount, rfl⟩
      | cons q c =>
        obtain ⟨rfl, rfl⟩ := List.cons.inj hc
        exact .inr ⟨c, rfl, by rwa [slashesAtEnd_append_cons hp] at hcount⟩
    · cases c with
      | nil =>
        obtain ⟨rfl, rfl⟩ := List.cons.inj hc
        exact .inl ⟨rfl, by simpa using hcount, rfl⟩
      | cons q c =>
        obtain ⟨rfl, -⟩ := List.cons.inj hc
        exact absurd (List.mem_append_right before (List.mem_cons_self ..)) ha
  · rintro (⟨rfl, hcount, rfl⟩ | ⟨before, rfl, hcount⟩)
    · exact ⟨a, rfl, hcount⟩
    · exact ⟨a ++ p :: before, by simp, by rwa [slashesAtEnd_append_cons hp]⟩

theorem not_opens (hs : .char '[' ∉ s) : ¬Opens s count rest := by
  rintro ⟨before, rfl, -⟩
  exact hs (List.mem_append_right before (List.mem_cons_self ..))

/-- What opens in two texts of which the second starts with neither a backslash nor a bracket. -/
theorem opens_append (hb : ∀ p ∈ b.head?, p ≠ .char '\\' ∧ p ≠ .char '[') :
    Opens (a ++ b) count rest ↔
      (∃ rest', Opens a count rest' ∧ rest = rest' ++ b) ∨ Opens b count rest := by
  constructor
  · rintro ⟨before, heq, hcount⟩
    obtain ⟨c, rfl, hc⟩ | ⟨c, rfl, hc⟩ := List.append_eq_append_iff.mp heq
    · cases c with
      | nil => exact absurd rfl (hb (.char '[') (by simp [hc])).2
      | cons q c =>
        have hq : q ≠ .char '\\' := (hb q (by simp [hc])).1
        exact .inr ⟨q :: c, hc, by
          rwa [slashesAtEnd_append_cons hq, ← slashesAtEnd_append_cons hq []] at hcount⟩
    · cases c with
      | nil =>
        have hhead : b = .char '[' :: rest := hc.symm
        exact absurd rfl (hb (.char '[') (by rw [hhead]; rfl)).2
      | cons q c =>
        obtain ⟨rfl, rfl⟩ := List.cons.inj hc
        exact .inl ⟨c, ⟨before, rfl, hcount⟩, rfl⟩
  · rintro (⟨rest', ⟨before, rfl, hcount⟩, rfl⟩ | ⟨before, rfl, hcount⟩)
    · exact ⟨before, by simp, hcount⟩
    · cases before with
      | nil => exact absurd rfl (hb (.char '[') rfl).2
      | cons q before =>
        have hq : q ≠ .char '\\' := (hb q rfl).1
        refine ⟨a ++ q :: before, by simp, ?_⟩
        rwa [slashesAtEnd_append_cons hq, ← slashesAtEnd_append_cons hq []]

/-! ### The conditions as they are tested -/

theorem closes_iff : closes s = true ↔ ClosesFirst s := by
  induction s with
  | nil => simp [closes, ClosesFirst]
  | cons p s ih =>
    rw [closes, Bool.or_eq_true, beq_iff_eq, Bool.and_eq_true, bne_iff_ne, ih]
    constructor
    · rintro (rfl | ⟨hp, body, behind, rfl, hbody⟩)
      · exact ⟨[], s, rfl, bracketless_nil⟩
      · by_cases hclose : p = .char ']'
        · exact ⟨[], body ++ .char ']' :: behind, by rw [hclose]; rfl, bracketless_nil⟩
        · exact ⟨p :: body, behind, rfl, bracketless_cons.mpr ⟨⟨hp, hclose⟩, hbody⟩⟩
    · rintro ⟨body, behind, heq, hbody⟩
      cases body with
      | nil => exact .inl (List.cons.inj heq).1
      | cons q body =>
        obtain ⟨rfl, rfl⟩ := List.cons.inj heq
        obtain ⟨⟨hopen, -⟩, hrest⟩ := bracketless_cons.mp hbody
        exact .inr ⟨hopen, body, behind, rfl, hrest⟩

theorem not_tagBody_nil : ¬TagBody [] := fun ⟨_, _, _, h, _⟩ => nomatch h

theorem tagBody_cons : TagBody (p :: s) ↔ p.isOf startsTag = true ∧ Bracketless s := by
  constructor
  · rintro ⟨hbody, c, rest, heq, hc⟩
    obtain ⟨rfl, rfl⟩ := List.cons.inj heq
    exact ⟨hc, (bracketless_cons.mp hbody).2⟩
  · rintro ⟨hp, hs⟩
    cases p with
    | surrogate => cases hp
    | char c =>
      have hc : CodePoint.char c ≠ .char '[' ∧ CodePoint.char c ≠ .char ']' := by
        constructor <;> rintro ⟨⟩ <;> exact absurd hp (by decide)
      exact ⟨bracketless_cons.mpr ⟨hc, hs⟩, c, s, rfl, hp⟩

theorem opensTag_iff :
    opensTag s = true ↔ ∃ body behind, s = body ++ .char ']' :: behind ∧ TagBody body := by
  cases s with
  | nil => simp [opensTag]
  | cons p s =>
    rw [opensTag, Bool.and_eq_true, closes_iff]
    constructor
    · rintro ⟨hp, body, behind, rfl, hbody⟩
      exact ⟨p :: body, behind, rfl, tagBody_cons.mpr ⟨hp, hbody⟩⟩
    · rintro ⟨body, behind, heq, hbody⟩
      cases body with
      | nil => exact absurd hbody not_tagBody_nil
      | cons q body =>
        obtain ⟨rfl, rfl⟩ := List.cons.inj heq
        obtain ⟨hp, hrest⟩ := tagBody_cons.mp hbody
        exact ⟨hp, body, behind, rfl, hrest⟩

theorem TagBody.opensTag_eq (h : TagBody s) : opensTag s = false := by
  refine Bool.eq_false_iff.mpr fun htag => ?_
  obtain ⟨body, behind, rfl, -⟩ := opensTag_iff.mp htag
  exact h.close_notMem (List.mem_append_right body (List.mem_cons_self ..))

/-- Whether there is a tag, by the brackets that open. -/
theorem tagless_iff :
    Tagless s ↔ ∀ count rest, Even count → Opens s count rest → opensTag rest = false := by
  constructor
  · intro h count rest heven hopens
    refine Bool.eq_false_iff.mpr fun htag => ?_
    obtain ⟨body, behind, rfl, hbody⟩ := opensTag_iff.mp htag
    exact h body behind ⟨count, heven, hopens, hbody⟩
  · rintro h body behind ⟨count, heven, hopens, hbody⟩
    exact Bool.eq_false_iff.mp (h count _ heven hopens)
      (opensTag_iff.mpr ⟨body, behind, rfl, hbody⟩)

/-! ### Texts put together -/

/-- What may stand behind a name: nothing, or what begins with a comma or a blank. -/
def Gap (s : List CodePoint) : Prop := ∀ p ∈ s.head?, p = .char ',' ∨ p = .char ' '

theorem Gap.ne (hb : Gap b) : ∀ p ∈ b.head?, p ≠ .char '\\' ∧ p ≠ .char '[' := by
  intro p hp
  obtain rfl | rfl := hb p hp <;> decide

theorem closesFirst_append :
    ClosesFirst (a ++ b) ↔ ClosesFirst a ∨ Bracketless a ∧ ClosesFirst b := by
  simp only [← closes_iff]
  induction a with
  | nil => simp [closes, bracketless_nil]
  | cons p a ih =>
    simp only [List.cons_append, closes, Bool.or_eq_true, Bool.and_eq_true, beq_iff_eq, bne_iff_ne,
      ih, bracketless_cons]
    tauto

theorem opensTag_append (hb : Gap b) :
    opensTag (a ++ b) = true ↔ opensTag a = true ∨ TagBody a ∧ ClosesFirst b := by
  cases a with
  | nil =>
    have hstart : opensTag b = false := by
      cases b with
      | nil => rfl
      | cons p b => obtain rfl | rfl := hb p rfl <;> rfl
    simp [hstart, not_tagBody_nil, show opensTag [] = false from rfl]
  | cons p a =>
    simp only [List.cons_append, opensTag, Bool.and_eq_true, closes_iff, closesFirst_append,
      tagBody_cons]
    tauto

/-- **Where a tag is in texts put together.**  It is in one of them, or the first leaves it open and
the other closes it. -/
theorem tagless_append (hb : Gap b) :
    Tagless (a ++ b) ↔
      Tagless a ∧ Tagless b ∧ ∀ count, Even count → LeavesOpen a count → ¬ClosesFirst b := by
  simp only [tagless_iff, opens_append hb.ne]
  constructor
  · intro h
    refine ⟨fun count rest heven hopens => ?_, fun count rest heven hopens => ?_, ?_⟩
    · exact Bool.eq_false_iff.mpr fun htag => Bool.eq_false_iff.mp
        (h count _ heven (.inl ⟨rest, hopens, rfl⟩)) ((opensTag_append hb).mpr (.inl htag))
    · exact h count rest heven (.inr hopens)
    · rintro count heven ⟨body, hopens, hbody⟩ hcloses
      exact Bool.eq_false_iff.mp (h count _ heven (.inl ⟨body, hopens, rfl⟩))
        ((opensTag_append hb).mpr (.inr ⟨hbody, hcloses⟩))
  · rintro ⟨ha, hb', hcross⟩ count rest heven (⟨rest, hopens, rfl⟩ | hopens)
    · refine Bool.eq_false_iff.mpr fun htag => ?_
      obtain hin | ⟨hbody, hcloses⟩ := (opensTag_append hb).mp htag
      · exact Bool.eq_false_iff.mp (ha count rest heven hopens) hin
      · exact hcross count heven ⟨rest, hopens, hbody⟩ hcloses
    · exact hb' count rest heven hopens

/-- Where the tags are, if the second text closes no bracket that the first may have left open. -/
theorem tag_append (hb : Gap b) (hopen : ¬ClosesFirst b) {behind : List CodePoint} :
    Tag (a ++ b) body behind ↔
      (∃ behind', Tag a body behind' ∧ behind = behind' ++ b) ∨ Tag b body behind := by
  constructor
  · rintro ⟨count, heven, hopens, hbody⟩
    obtain ⟨rest, hin, heq⟩ | hopens := (opens_append hb.ne).mp hopens
    · obtain ⟨c, rfl, hc⟩ | ⟨c, rfl, hc⟩ := List.append_eq_append_iff.mp heq
      · cases c with
        | nil =>
          exact absurd ⟨[], behind, hc.symm, bracketless_nil⟩ hopen
        | cons q c =>
          obtain ⟨rfl, rfl⟩ := List.cons.inj hc
          exact .inl ⟨c, ⟨count, heven, hin, hbody⟩, rfl⟩
      · exact absurd ⟨c, behind, hc, (bracketless_append.mp hbody.toBracketless).2⟩ hopen
    · exact .inr ⟨count, heven, hopens, hbody⟩
  · rintro (⟨behind', ⟨count, heven, hopens, hbody⟩, rfl⟩ | ⟨count, heven, hopens, hbody⟩)
    · exact ⟨count, heven, (opens_append hb.ne).mpr (.inl ⟨_, hopens, by simp⟩), hbody⟩
    · exact ⟨count, heven, (opens_append hb.ne).mpr (.inr hopens), hbody⟩

end SuiteBalance.Terminal
