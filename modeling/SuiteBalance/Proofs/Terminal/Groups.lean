import Mathlib
import SuiteBalance.Platform.Usual
import SuiteBalance.Proofs.Terminal.Escape
import SuiteBalance.Terminal.Table

/-!
# Proofs — Terminal — the names of a fork's groups

The cell of a fork's groups holds the names of the first of them, escaped one by one and separated
by commas.  Each of them has no tag, but two of them can make one together: `[a` and `b]`.  So the
cell's only tags are those around the number of the groups that are not named, unless a name leaves
a tag open and a later one closes it.

* `namesShown`, `moreTags`: the names in a cell, and the tags behind them.
* **`Crosses`**: a tag that one name opens and another closes.
* `tagless_joined`: names put together.
* `moreMarkup_spec`: the number of the groups that are not named.
* `EscapesTags`: how a console escapes a name.
* **`tags_groupsCell`**: the tags of a cell.
* `tag_of_two_names`: two names that make a tag.
-/

namespace SuiteBalance.Terminal

/-! ### Names put together -/

/-- What is behind the first of some names that are separated by commas. -/
def behindFirst (names : List (List CodePoint)) : List CodePoint :=
  names.flatMap fun name => .char ',' :: .char ' ' :: name

/-- Names separated by commas. -/
def joined : List (List CodePoint) → List CodePoint
  | [] => []
  | name :: rest => name ++ behindFirst rest

/-- A name leaves a tag open behind a number of backslashes, and the next name with a bracket closes
it. -/
def Crosses (count : ℕ) (names : List (List CodePoint)) : Prop :=
  ∃ front name between closing rest, names = front ++ name :: (between ++ closing :: rest) ∧
    LeavesOpen name count ∧ (∀ s ∈ between, Bracketless s) ∧ ClosesFirst closing

variable {names rest : List (List CodePoint)} {name t : List CodePoint} {count : ℕ}

theorem gap_behindFirst (names : List (List CodePoint)) : Gap (behindFirst names) := by
  cases names with
  | nil => exact fun p hp => by cases hp
  | cons name rest => exact fun p hp => .inl (Option.some.inj hp).symm

theorem points_intercalate (names : List Text) :
    (Text.intercalate ", " names).points = joined (names.map Text.points) := by
  have hfold (rest : List Text) (done : Text) :
      (rest.foldl (fun done t => done ++ Text.ofString ", " ++ t) done).points =
        done.points ++ behindFirst (rest.map Text.points) := by
    induction rest generalizing done with
    | nil => simp [behindFirst]
    | cons t rest ih =>
      rw [List.foldl_cons, ih, Text.points_append, Text.points_append]
      simp [behindFirst, Text.points]
  cases names with
  | nil => rfl
  | cons t rest => exact hfold rest t

/-- The first bracket of some names is the first of the first name that has one. -/
theorem closesFirst_behindFirst : ClosesFirst (behindFirst names) ↔
    ∃ between closing rest, names = between ++ closing :: rest ∧
      (∀ s ∈ between, Bracketless s) ∧ ClosesFirst closing := by
  induction names with
  | nil =>
    refine iff_of_false (mt closes_iff.mpr (by decide)) ?_
    rintro ⟨between, closing, rest, h, -⟩
    exact absurd h.symm (by simp)
  | cons name names ih =>
    have hsplit : behindFirst (name :: names) =
        [.char ',', .char ' '] ++ (name ++ behindFirst names) := by simp [behindFirst]
    have hcomma : Bracketless [.char ',', .char ' '] ∧ ¬ClosesFirst [.char ',', .char ' '] :=
      ⟨⟨by decide, by decide⟩, mt closes_iff.mpr (by decide)⟩
    rw [hsplit, closesFirst_append, closesFirst_append, ih]
    simp only [hcomma, false_or, true_and]
    constructor
    · rintro (h | ⟨hname, between, closing, rest, rfl, hbetween, hclosing⟩)
      · exact ⟨[], name, names, rfl, fun s hs => absurd hs List.not_mem_nil, h⟩
      · exact ⟨name :: between, closing, rest, rfl, List.forall_mem_cons.mpr ⟨hname, hbetween⟩,
          hclosing⟩
    · rintro ⟨between, closing, rest, heq, hbetween, hclosing⟩
      cases between with
      | nil =>
        obtain ⟨rfl, rfl⟩ := List.cons.inj heq
        exact .inl hclosing
      | cons s between =>
        obtain ⟨rfl, rfl⟩ := List.cons.inj heq
        obtain ⟨hs, hbetween⟩ := List.forall_mem_cons.mp hbetween
        exact .inr ⟨hs, between, closing, rest, rfl, hbetween, hclosing⟩

theorem not_crosses_nil : ¬Crosses count [] := by
  rintro ⟨front, name, between, closing, rest, h, -⟩
  exact absurd h.symm (by simp)

theorem crosses_cons : Crosses count (name :: rest) ↔
    LeavesOpen name count ∧ ClosesFirst (behindFirst rest) ∨ Crosses count rest := by
  rw [closesFirst_behindFirst]
  constructor
  · rintro ⟨front, s, between, closing, tail, heq, hopen, hbetween, hclosing⟩
    cases front with
    | nil =>
      obtain ⟨rfl, rfl⟩ := List.cons.inj heq
      exact .inl ⟨hopen, between, closing, tail, rfl, hbetween, hclosing⟩
    | cons q front =>
      obtain ⟨rfl, rfl⟩ := List.cons.inj heq
      exact .inr ⟨front, s, between, closing, tail, rfl, hopen, hbetween, hclosing⟩
  · rintro (⟨hopen, between, closing, tail, rfl, hbetween, hclosing⟩ |
      ⟨front, s, between, closing, tail, rfl, hopen, hbetween, hclosing⟩)
    · exact ⟨[], name, between, closing, tail, rfl, hopen, hbetween, hclosing⟩
    · exact ⟨name :: front, s, between, closing, tail, rfl, hopen, hbetween, hclosing⟩

theorem tagless_gap {p : CodePoint} (hp : p ≠ .char '\\' ∧ p ≠ .char '[') (s : List CodePoint) :
    Tagless (p :: s) ↔ Tagless s := by
  have hopens (count : ℕ) (behind : List CodePoint) :
      Opens (p :: s) count behind ↔ Opens s count behind := by
    refine (opens_append_cons (a := []) List.not_mem_nil hp.1).trans ?_
    simp [hp.2]
  simp only [tagless_iff, hopens]

theorem behindFirst_cons (name : List CodePoint) (rest : List (List CodePoint)) :
    behindFirst (name :: rest) = .char ',' :: .char ' ' :: (name ++ behindFirst rest) := rfl

theorem tagless_behindFirst_cons :
    Tagless (behindFirst (name :: rest)) ↔ Tagless (name ++ behindFirst rest) := by
  rw [behindFirst_cons, tagless_gap (by decide), tagless_gap (by decide)]

theorem tagless_behindFirst (h : ∀ s ∈ names, Tagless s) :
    Tagless (behindFirst names) ↔ ∀ count, Even count → ¬Crosses count names := by
  induction names with
  | nil =>
    refine iff_of_true ?_ fun _ _ => not_crosses_nil
    exact tagless_iff.mpr fun _ _ _ hopens => absurd hopens (not_opens List.not_mem_nil)
  | cons name rest ih =>
    obtain ⟨hname, hrest⟩ := List.forall_mem_cons.mp h
    rw [tagless_behindFirst_cons, tagless_append (gap_behindFirst rest), ih hrest]
    simp only [crosses_cons, hname, true_and]
    constructor
    · rintro ⟨hrest, hcross⟩ count heven (⟨hopen, hcloses⟩ | hlater)
      · exact hcross count heven hopen hcloses
      · exact hrest count heven hlater
    · intro hnone
      exact ⟨fun count heven hlater => hnone count heven (.inr hlater),
        fun count heven hopen hcloses => hnone count heven (.inl ⟨hopen, hcloses⟩)⟩

/-- **Names without tags have one together if and only if one of them opens a tag that a later one
closes.** -/
theorem tagless_joined (h : ∀ s ∈ names, Tagless s) :
    Tagless (joined names) ↔ ∀ count, Even count → ¬Crosses count names := by
  rw [← tagless_behindFirst h]
  cases names with
  | nil => rfl
  | cons name rest => exact tagless_behindFirst_cons.symm

/-! ### Escaped names -/

variable {escaped : List CodePoint → List CodePoint}

theorem closesFirst_behindFirst_escaped (h : ∀ name, Escaped name (escaped name)) :
    ClosesFirst (behindFirst (names.map escaped)) ↔ ClosesFirst (behindFirst names) := by
  induction names with
  | nil => rfl
  | cons name rest ih =>
    have hcomma (s : List CodePoint) :
        ClosesFirst (.char ',' :: .char ' ' :: s) ↔ ClosesFirst s := by
      simp only [← closes_iff]
      rfl
    rw [List.map_cons, behindFirst_cons, behindFirst_cons, hcomma, hcomma, closesFirst_append,
      closesFirst_append, ih, (h name).closesFirst, (h name).bracketless]

/-- Escaping keeps the tags that names make together. -/
theorem crosses_escaped (h : ∀ name, Escaped name (escaped name)) :
    Crosses count (names.map escaped) ↔ Crosses count names := by
  induction names with
  | nil => rfl
  | cons name rest ih =>
    rw [List.map_cons, crosses_cons, crosses_cons, ih, (h name).leavesOpen,
      closesFirst_behindFirst_escaped h]

/-! ### The cell of a fork's groups -/

/-- A string as code points. -/
def chars (s : String) : List CodePoint := Text.points s

/-- The names in the cell of a fork's groups. -/
def namesShown (s : ForkSummary) : List (List CodePoint) :=
  (s.groups.take groupsShown).map fun g => chars g.name

/-- The tags around this number, each with what is behind it. -/
def moreTags (s : ForkSummary) : List (List CodePoint × List CodePoint) :=
  if groupsShown < s.groups.length then
    [(chars "dim", chars s!"(+{s.groups.length - groupsShown} more)[/dim]"), (chars "/dim", [])]
  else []

/-- This number with its tags. -/
def moreMarkup (s : ForkSummary) : List CodePoint :=
  if groupsShown < s.groups.length then
    chars s!" [dim](+{s.groups.length - groupsShown} more)[/dim]"
  else []

/-- The console escapes the tags of each text. -/
def EscapesTags [Console] : Prop := ∀ s : Text, Escaped s.points (Console.escape s).points

/-- A name as it stands in a cell. -/
def inCell [Console] (name : List CodePoint) : List CodePoint :=
  (Console.escape (.ofPoints name)).points

theorem EscapesTags.inCell [Console] (h : EscapesTags) (name : List CodePoint) :
    Escaped name (inCell name) := by
  have hescaped := h (.ofPoints name)
  rwa [Text.points_ofPoints] at hescaped

theorem points_groupsCell [Console] (s : ForkSummary) :
    (groupsCell s).points = joined ((namesShown s).map inCell) ++ moreMarkup s := by
  have hescaped (groups : List GroupSummary) :
      (groups.map fun g => Console.escape g.name).map Text.points =
        (groups.map fun g => chars g.name).map inCell := by
    simp only [List.map_map]
    refine List.map_congr_left fun g _ => ?_
    simp only [Function.comp_apply, inCell, chars, Text.ofPoints_points]
  unfold groupsCell moreMarkup namesShown
  simp only [List.length_map]
  split
  · rw [Text.points_append, points_intercalate, ← List.map_take, hescaped]
    rfl
  · next hle =>
    rw [points_intercalate, List.append_nil, hescaped, List.take_of_length_le (not_lt.mp hle)]

/-- What is between two brackets is told by the first that closes. -/
theorem append_close_inj {a b x y : List CodePoint} (ha : Bracketless a) (hb : Bracketless b) :
    a ++ .char ']' :: x = b ++ .char ']' :: y ↔ a = b ∧ x = y := by
  refine ⟨fun h => ?_, fun ⟨hab, hxy⟩ => by rw [hab, hxy]⟩
  obtain ⟨c, rfl, hc⟩ | ⟨c, rfl, hc⟩ := List.append_eq_append_iff.mp h
  all_goals
    cases c with
    | nil => exact ⟨by simp, by simpa [eq_comm] using hc⟩
    | cons q c =>
      obtain ⟨rfl, -⟩ := List.cons.inj hc
      first
        | exact absurd (List.mem_append_right a (List.mem_cons_self ..)) hb.close_notMem
        | exact absurd (List.mem_append_right b (List.mem_cons_self ..)) ha.close_notMem

/-- The number of groups has neither brackets nor backslashes. -/
theorem more_plain (n : ℕ) :
    Bracketless (chars s!"(+{n} more)") ∧ .char '\\' ∉ chars s!"(+{n} more)" := by
  have hchars : chars s!"(+{n} more)" =
      chars "(+" ++ ((Nat.toDigits 10 n).map .char ++ chars " more)") := by
    simp [chars, Text.points, toString, Nat.toList_repr]
  have hdigits {c : Char} (hc : c.isDigit = false) :
      CodePoint.char c ∉ (Nat.toDigits 10 n).map .char := by
    intro hmem
    obtain ⟨d, hd, hdc⟩ := List.mem_map.mp hmem
    obtain rfl := CodePoint.char.inj hdc
    exact Bool.eq_false_iff.mp hc (Nat.isDigit_of_mem_toDigits (by norm_num) (by norm_num) hd)
  have hnone {c : Char} (hc : c.isDigit = false) (hbefore : .char c ∉ chars "(+")
      (hbehind : .char c ∉ chars " more)") : .char c ∉ chars s!"(+{n} more)" := by
    rw [hchars, List.mem_append, List.mem_append, not_or, not_or]
    exact ⟨hbefore, hdigits hc, hbehind⟩
  exact ⟨⟨hnone rfl (by decide) (by decide), hnone rfl (by decide) (by decide)⟩,
    hnone rfl (by decide) (by decide)⟩

/-- The markup of a dimmed text behind a blank. -/
def dimmed (w : List CodePoint) : List CodePoint :=
  .char ' ' :: .char '[' :: (chars "dim" ++ .char ']' :: (w ++ .char '[' ::
    (chars "/dim" ++ .char ']' :: [])))

variable {w : List CodePoint}

theorem slashesAtEnd_of_notMem (h : .char '\\' ∉ w) : slashesAtEnd w = 0 := by
  cases hw : w.reverse with
  | nil => simp [slashesAtEnd, hw]
  | cons p rest =>
    have hp : p ≠ .char '\\' := by
      rintro rfl
      exact h (List.mem_reverse.mp (by simp [hw]))
    simp [slashesAtEnd, hw, hp]

theorem tag_dimmed (hw : Bracketless w) (hslash : .char '\\' ∉ w) {body behind : List CodePoint} :
    Tag (dimmed w) body behind ↔
      (body, behind) ∈ [(chars "dim", w ++ chars "[/dim]"), (chars "/dim", [])] := by
  have hdim : TagBody (chars "dim") :=
    ⟨⟨by decide, by decide⟩, 'd', (chars "im"), rfl, by decide⟩
  have hend : TagBody (chars "/dim") :=
    ⟨⟨by decide, by decide⟩, '/', (chars "dim"), rfl, by decide⟩
  have hopens (count : ℕ) (rest : List CodePoint) : Opens (dimmed w) count rest ↔
      0 = count ∧ chars "dim" ++ .char ']' :: (w ++ chars "[/dim]") = rest ∨
        0 = count ∧ chars "/dim" ++ .char ']' :: [] = rest := by
    have hsplit : dimmed w = [.char ' '] ++ .char '[' ::
        ((chars "dim" ++ .char ']' :: w) ++ .char '[' :: chars "/dim]") := by
      simp [dimmed, chars, Text.points]
    have hbefore : .char '[' ∉ chars "dim" ++ .char ']' :: w :=
      List.mem_append.not.mpr (not_or.mpr ⟨by decide, by simpa using hw.open_notMem⟩)
    rw [hsplit, opens_append_cons (by decide) (by decide), opens_append_cons hbefore (by decide),
      slashesAtEnd_append_cons (by decide), slashesAtEnd_of_notMem hslash,
      or_iff_left (not_opens (by decide))]
    simp [slashesAtEnd, chars, Text.points]
  constructor
  · rintro ⟨count, -, hopen, hbody⟩
    obtain ⟨-, heq⟩ | ⟨-, heq⟩ := (hopens _ _).mp hopen
    · obtain ⟨rfl, rfl⟩ := (append_close_inj hdim.toBracketless hbody.toBracketless).mp heq
      simp
    · obtain ⟨rfl, rfl⟩ := (append_close_inj hend.toBracketless hbody.toBracketless).mp heq
      simp
  · intro hmem
    obtain ⟨rfl, rfl⟩ | ⟨rfl, rfl⟩ : body = _ ∧ behind = _ ∨ body = _ ∧ behind = _ := by
      simpa using hmem
    · exact ⟨0, by decide, (hopens _ _).mpr (.inl ⟨rfl, rfl⟩), hdim⟩
    · exact ⟨0, by decide, (hopens _ _).mpr (.inr ⟨rfl, rfl⟩), hend⟩

theorem moreMarkup_spec (s : ForkSummary) : Gap (moreMarkup s) ∧ ¬ClosesFirst (moreMarkup s) ∧
    ∀ body behind, Tag (moreMarkup s) body behind ↔ (body, behind) ∈ moreTags s := by
  unfold moreMarkup moreTags
  split
  · generalize s.groups.length - groupsShown = n
    obtain ⟨hw, hslash⟩ := more_plain n
    have hmarkup : chars s!" [dim](+{n} more)[/dim]" = dimmed (chars s!"(+{n} more)") := by
      simp [dimmed, chars, Text.points, toString]
    have hbehind : chars s!"(+{n} more)[/dim]" = chars s!"(+{n} more)" ++ chars "[/dim]" := by
      simp [chars, Text.points, toString]
    rw [hmarkup, hbehind]
    exact ⟨fun p hp => .inr (Option.some.inj hp).symm,
      mt closes_iff.mpr (b := closes (dimmed _) = true) Bool.false_ne_true,
      fun body behind => tag_dimmed hw hslash⟩
  · refine ⟨by simp [Gap], mt closes_iff.mpr (by decide), fun body behind => ?_⟩
    refine iff_of_false ?_ List.not_mem_nil
    rintro ⟨count, -, hopens, -⟩
    exact not_opens List.not_mem_nil hopens

theorem length_lt_of_mem_moreTags {s : ForkSummary} {t : List CodePoint × List CodePoint}
    (h : t ∈ moreTags s) : t.2.length < (moreMarkup s).length := by
  unfold moreTags at h
  unfold moreMarkup
  split at h
  · obtain rfl | rfl : t = _ ∨ t = _ := by simpa using h
    all_goals simp [*, chars, Text.points, toString]
  · cases h

/-- **The tags of the cell of a fork's groups** are those around the number of the groups that are
not named, if and only if no name opens a tag, behind an even number of backslashes, that a later
one closes.  It is enough to know that the console escapes the tags of each name by itself. -/
theorem tags_groupsCell [Console] (escapes : EscapesTags) (s : ForkSummary) :
    (∀ body behind, Tag (groupsCell s).points body behind ↔ (body, behind) ∈ moreTags s) ↔
      ∀ count, Even count → ¬Crosses count (namesShown s) := by
  obtain ⟨hgap, hopen, htags⟩ := moreMarkup_spec s
  have htagless : ∀ n ∈ (namesShown s).map inCell, Tagless n := by
    intro n hn
    obtain ⟨n, -, rfl⟩ := List.mem_map.mp hn
    exact (escapes.inCell n).tagless
  have hcross : Tagless (joined ((namesShown s).map inCell)) ↔
      ∀ count, Even count → ¬Crosses count (namesShown s) := by
    simp only [tagless_joined htagless, crosses_escaped escapes.inCell]
  rw [← hcross]
  simp only [points_groupsCell, tag_append hgap hopen, htags]
  constructor
  · intro h body behind htag
    have hmore := (h body _).mp (.inl ⟨behind, htag, rfl⟩)
    have hlength := length_lt_of_mem_moreTags hmore
    rw [List.length_append] at hlength
    omega
  · intro hnone body behind
    refine or_iff_right ?_
    rintro ⟨behind', htag, -⟩
    exact hnone body behind' htag

theorem closeSlash_eq (s : List CodePoint) :
    closeSlash s = if slashesAtEnd s = 1 then s ++ backslashes 1 else s := by
  unfold closeSlash slashesAtEnd
  split
  · next h => simp [h]
  · next rest hrest h =>
    cases rest with
    | nil => simp [h]
    | cons p rest =>
      have hp : (p == .char '\\') = false :=
        beq_eq_false_iff_ne.mpr fun hp => hrest rest (by rw [hp])
      simp [h, hp]
  · next hrest =>
    cases h : s.reverse with
    | nil => simp
    | cons p rest =>
      have hp : (p == .char '\\') = false :=
        beq_eq_false_iff_ne.mpr fun hp => hrest rest (by rw [h, hp])
      simp [hp]

/-- The usual console escapes tags.  A backslash that stands alone at the end is doubled. -/
theorem escapesTags_usual : EscapesTags := by
  intro s
  change Escaped s.points (escape s).points
  rw [escape, Text.points_ofPoints, closeSlash_eq]
  split
  · exact ⟨1, rfl⟩
  · exact ⟨0, (List.append_nil _).symm⟩

/-- A fork of two groups, of which the first name opens a bracket that the second closes. -/
def bracketPair : ForkSummary := ⟨0, 20.0, 0, [{ name := "[a*" }, { name := "b]*" }]⟩

/-- **Two names can make a tag.** -/
theorem tag_of_two_names :
    ¬∀ body behind, Tag (groupsCell bracketPair).points body behind →
      (body, behind) ∈ moreTags bracketPair := by
  have hpoints : (groupsCell bracketPair).points = [] ++ .char '[' ::
      (chars "a*, b" ++ .char ']' :: chars "*") := by decide +kernel
  have hbody : TagBody (chars "a*, b") :=
    ⟨⟨by decide, by decide⟩, 'a', chars "*, b", rfl, by decide⟩
  intro h
  exact absurd (h _ _ ⟨0, by decide, ⟨[], hpoints, rfl⟩, hbody⟩) List.not_mem_nil

/-- A fork of two groups, of which the first name is a tag of its own. -/
def redPair : ForkSummary := ⟨0, 20.0, 0, [{ name := "[red]*" }, { name := "b]" }]⟩

/-- A name that is a tag of its own makes none in the cell, also in front of one that closes a
bracket. -/
theorem tags_groupsCell_red :
    EscapesTags ∧ (∀ count, Even count → ¬Crosses count (namesShown redPair)) ∧
    ∀ body behind, Tag (groupsCell redPair).points body behind ↔
      (body, behind) ∈ moreTags redPair := by
  have hfirst (count : ℕ) : ¬LeavesOpen (chars "[red]*") count := by
    change ¬LeavesOpen ([] ++ .char '[' :: chars "red]*") count
    rw [leavesOpen_append_cons (by decide) (by decide)]
    rintro (⟨-, -, hbody⟩ | ⟨body, hopens, -⟩)
    · exact hbody.close_notMem (by decide)
    · exact not_opens (by decide) hopens
  have hsecond (count : ℕ) : ¬LeavesOpen (chars "b]") count :=
    fun ⟨_, hopens, _⟩ => not_opens (by decide) hopens
  have hnone (count : ℕ) (_ : Even count) : ¬Crosses count [chars "[red]*", chars "b]"] := by
    simp [crosses_cons, not_crosses_nil, hfirst, hsecond]
  exact ⟨escapesTags_usual, hnone, (tags_groupsCell escapesTags_usual redPair).mpr hnone⟩

end SuiteBalance.Terminal
