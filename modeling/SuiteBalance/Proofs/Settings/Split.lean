import Mathlib
import SuiteBalance.Settings.Placeholder

/-!
# Proofs — Settings — the placeholders of a text

A text is split in one way only into placeholders and the stretches between them that hold none.
What is put in for the placeholders of a text, and the names of the variables that are looked up,
can be told from that split.

* **`Split`**, `Split.Of`: stretches and placeholders that make up a text.
* `pieces_literal`, `pieces_variable`: the pieces of a stretch and of a placeholder.
* **`of_split`**, **`split_unique`**: each text has one split.
* `points_expand`, `names_eq`: a text with values put in, and the names in it, by the split.
-/

namespace SuiteBalance.Placeholder

/-! ### Stretches and placeholders -/

/-- The name of a variable. -/
structure IsName (name : List Char) : Prop where
  ne_nil : name ≠ []
  word : ∀ c ∈ name, Text.isWord c = true

/-- How the placeholder of a variable is written. -/
def placeholder (name : List Char) : List CodePoint :=
  [.char '$', .char '{'] ++ name.map .char ++ [.char '}']

/-- A stretch of text that holds no placeholder. -/
def Literal (s : List CodePoint) : Prop :=
  ∀ before name behind, IsName name → s ≠ before ++ placeholder name ++ behind

/-- A text split into stretches and placeholders, which it begins and ends with stretches of: the
first of them, and each placeholder's name with the stretch behind it. -/
structure Split where
  first : List CodePoint
  rest : List (List Char × List CodePoint)

namespace Split

/-- What the placeholders and the stretches behind them become, given what is put in for each. -/
def behind (value : List Char → List CodePoint) (rest : List (List Char × List CodePoint)) :
    List CodePoint :=
  rest.flatMap fun part => value part.1 ++ part.2

/-- The text with something put in for each placeholder. -/
def filled (value : List Char → List CodePoint) (p : Split) : List CodePoint :=
  p.first ++ behind value p.rest

/-- The names of the placeholders, in their order. -/
def names (p : Split) : List (List Char) := p.rest.map Prod.fst

/-- A split of a text: the placeholders, with the stretches between them, make up the text, and all
placeholders are told. -/
structure Of (p : Split) (s : List CodePoint) : Prop where
  whole : p.filled placeholder = s
  first : Literal p.first
  rest : ∀ part ∈ p.rest, IsName part.1 ∧ Literal part.2

/-- The pieces that a split stands for. -/
def pieces (p : Split) : List Piece :=
  p.first.map .point ++ p.rest.flatMap fun part => .variable part.1 :: part.2.map .point

/-- The split that pieces stand for. -/
def ofPieces : List Piece → Split
  | [] => ⟨[], []⟩
  | .point p :: later => ⟨p :: (ofPieces later).first, (ofPieces later).rest⟩
  | .variable name :: later => ⟨[], (name, (ofPieces later).first) :: (ofPieces later).rest⟩

theorem ofPieces_points (s : List CodePoint) (later : List Piece) :
    ofPieces (s.map .point ++ later) = ⟨s ++ (ofPieces later).first, (ofPieces later).rest⟩ := by
  induction s with
  | nil => rfl
  | cons p s ih => rw [List.map_cons, List.cons_append, ofPieces, ih, List.cons_append]

/-- A split is told by its pieces. -/
theorem ofPieces_pieces (p : Split) : ofPieces p.pieces = p := by
  obtain ⟨first, rest⟩ := p
  rw [pieces, ofPieces_points]
  induction rest generalizing first with
  | nil => simp [ofPieces]
  | cons part rest ih =>
    have hlater := ih part.2
    rw [List.flatMap_cons, List.cons_append, ofPieces, ofPieces_points]
    simp only [List.append_nil, mk.injEq] at hlater ⊢
    exact ⟨trivial, by rw [hlater.1, hlater.2]⟩

end Split

/-! ### Reading -/

variable {s t l behind : List CodePoint} {name : List Char}

theorem written_variable (name : List Char) :
    (Piece.variable name).written = placeholder name := by
  simp [Piece.written, placeholder]

/-- A placeholder is read back. -/
theorem read?_placeholder (h : IsName name) (behind : List CodePoint) :
    read? (placeholder name ++ behind) = some (name, behind) := by
  have hname : ∀ p ∈ name.map CodePoint.char, isNamePoint p = true := by
    intro p hp
    obtain ⟨c, hc, rfl⟩ := List.mem_map.mp hp
    exact h.word c hc
  have hstop : isNamePoint (.char '}') = false := by decide
  have htake : (name.map CodePoint.char ++ .char '}' :: behind).takeWhile isNamePoint =
      name.map .char := by
    rw [List.takeWhile_append_of_pos hname, List.takeWhile_cons_of_neg (by simp [hstop]),
      List.append_nil]
  have hdrop : (name.map CodePoint.char ++ .char '}' :: behind).dropWhile isNamePoint =
      .char '}' :: behind := by
    rw [List.dropWhile_append_of_pos hname, List.dropWhile_cons_of_neg (by simp [hstop])]
  have hsplit : placeholder name ++ behind =
      .char '$' :: .char '{' :: (name.map CodePoint.char ++ .char '}' :: behind) := by
    simp [placeholder]
  rw [hsplit, read?]
  simp only [htake, hdrop, Text.filterMap_char?_map_char]
  rw [if_neg (by simp [h.ne_nil])]

/-- What is read is a placeholder. -/
theorem isName_of_read? (h : read? s = some (name, behind)) : IsName name := by
  unfold read? at h
  split at h
  · next rest =>
    split at h
    · simp only at h
      split at h
      · cases h
      · next hempty =>
        obtain ⟨rfl, -⟩ := Prod.mk.inj (Option.some.inj h)
        refine ⟨fun hnil => hempty (by rw [hnil]; rfl), fun c hc => ?_⟩
        obtain ⟨p, hp, hchar⟩ := List.mem_filterMap.mp hc
        have hword := List.all_eq_true.mp (List.all_takeWhile (p := isNamePoint) (l := rest)) p hp
        cases p with
        | surrogate => cases hchar
        | char d => exact Option.some.inj hchar ▸ hword
    · cases h
  · cases h

theorem pieces_of_some (h : read? s = some (name, behind)) :
    pieces s = .variable name :: pieces behind := by
  cases s with
  | nil => cases h
  | cons p s =>
    rw [pieces]
    split
    · next name' behind' h' =>
      obtain ⟨rfl, rfl⟩ := Prod.mk.inj (Option.some.inj (h'.symm.trans h))
      rfl
    · next h' => exact absurd (h'.symm.trans h) (by simp)

theorem pieces_of_none {p : CodePoint} (h : read? (p :: s) = none) :
    pieces (p :: s) = .point p :: pieces s := by
  rw [pieces]
  split
  · next h' => exact absurd (h.symm.trans h') (by simp)
  · rfl

theorem Literal.tail {p : CodePoint} (h : Literal (p :: s)) : Literal s :=
  fun before name behind hname heq => h (p :: before) name behind hname (by rw [heq]; rfl)

/-- The mark of a placeholder stands at its front only. -/
theorem dollar_notMem_tail (h : IsName name) : .char '$' ∉ (placeholder name).tail := by
  have hname : .char '$' ∉ name.map CodePoint.char := by
    intro hmem
    obtain ⟨c, hc, heq⟩ := List.mem_map.mp hmem
    obtain rfl := CodePoint.char.inj heq
    exact absurd (h.word _ hc) (by decide)
  simp [placeholder, hname]

/-- A stretch is taken point by point, up to the placeholder behind it. -/
theorem pieces_literal (hs : Literal s) (ht : ∀ p ∈ t.head?, p = .char '$') :
    pieces (s ++ t) = s.map .point ++ pieces t := by
  induction s with
  | nil => rfl
  | cons p s ih =>
    have hnone : read? (p :: (s ++ t)) = none := by
      refine Option.eq_none_iff_forall_ne_some.mpr fun ⟨name, behind⟩ hread => ?_
      have hname := isName_of_read? hread
      have heq : (p :: s) ++ t = placeholder name ++ behind := by
        rw [← written_variable]
        exact eq_of_read? hread
      obtain ⟨c, hc, rfl⟩ | ⟨c, hc, -⟩ := List.append_eq_append_iff.mp heq
      · cases c with
        | nil => exact hs [] name [] hname (by simpa using hc.symm)
        | cons q c =>
          obtain rfl := ht q rfl
          refine dollar_notMem_tail hname ?_
          rw [hc]
          exact List.mem_append_right s (List.mem_cons_self ..)
      · exact hs [] name c hname hc
    rw [List.cons_append, pieces_of_none hnone, ih hs.tail]
    rfl

theorem pieces_placeholder (h : IsName name) (behind : List CodePoint) :
    pieces (placeholder name ++ behind) = .variable name :: pieces behind :=
  pieces_of_some (read?_placeholder h behind)

/-! ### The split of a text -/

theorem head?_behind (rest : List (List Char × List CodePoint)) :
    ∀ p ∈ (Split.behind placeholder rest).head?, p = .char '$' := by
  cases rest with
  | nil => simp [Split.behind]
  | cons part rest => simp [Split.behind, placeholder]

theorem pieces_behind {rest : List (List Char × List CodePoint)}
    (h : ∀ part ∈ rest, IsName part.1 ∧ Literal part.2) :
    pieces (Split.behind placeholder rest) =
      rest.flatMap fun part => .variable part.1 :: part.2.map .point := by
  induction rest with
  | nil => rw [Split.behind, List.flatMap_nil, pieces]; rfl
  | cons part rest ih =>
    obtain ⟨⟨hname, hliteral⟩, hrest⟩ := List.forall_mem_cons.mp h
    have hsplit : Split.behind placeholder (part :: rest) =
        placeholder part.1 ++ (part.2 ++ Split.behind placeholder rest) := by simp [Split.behind]
    rw [hsplit, pieces_placeholder hname, pieces_literal hliteral (head?_behind rest), ih hrest]
    rfl

/-- The pieces of a text are those of any split of it. -/
theorem pieces_of {p : Split} (h : p.Of s) : pieces s = p.pieces := by
  rw [← h.whole, Split.filled, pieces_literal h.first (head?_behind p.rest), pieces_behind h.rest]
  rfl

/-- The split of a text. -/
def split (s : List CodePoint) : Split := .ofPieces (pieces s)

/-- What is put in for placeholders is put in for the pieces that are. -/
theorem filled_ofPieces {value : List Char → List CodePoint} {fill : Piece → List CodePoint}
    (hpoint : ∀ p, fill (.point p) = [p]) (hvariable : ∀ name, fill (.variable name) = value name)
    (ps : List Piece) : (Split.ofPieces ps).filled value = ps.flatMap fill := by
  induction ps with
  | nil => rfl
  | cons piece ps ih =>
    rw [List.flatMap_cons, ← ih]
    obtain p | name := piece
    · rw [hpoint]; rfl
    · rw [hvariable]; simp [Split.ofPieces, Split.filled, Split.behind]

theorem filled_split (s : List CodePoint) : (split s).filled placeholder = s :=
  (filled_ofPieces (fun _ => rfl) written_variable (pieces s)).trans (flatMap_written_pieces s)

theorem literal_nil : Literal [] := by
  intro before name behind _ heq
  simp [placeholder] at heq

/-- The stretches of a text's split hold no placeholder. -/
theorem literal_split (s : List CodePoint) : Literal (split s).first ∧
    ∀ part ∈ (split s).rest, IsName part.1 ∧ Literal part.2 := by
  unfold split
  fun_induction pieces s with
  | case1 => exact ⟨literal_nil, List.forall_mem_nil _⟩
  | case2 p rest name behind h _ ih =>
    exact ⟨literal_nil, List.forall_mem_cons.mpr ⟨⟨isName_of_read? h, ih.1⟩, ih.2⟩⟩
  | case3 p rest h ih =>
    refine ⟨fun before name behind hname heq => ?_, ih.2⟩
    cases before with
    | cons q before => exact ih.1 before name behind hname (List.cons.inj heq).2
    | nil =>
      -- The placeholder would have been read at the front of what is left of the text.
      have hread : p :: rest = placeholder name ++
          (behind ++ Split.behind placeholder (split rest).rest) := by
        conv_lhs => rw [← filled_split rest]
        rw [← List.append_assoc]
        exact congrArg (· ++ Split.behind placeholder (split rest).rest) heq
      rw [hread, read?_placeholder hname] at h
      cases h

/-- A text has its split. -/
theorem of_split (s : List CodePoint) : (split s).Of s :=
  ⟨filled_split s, (literal_split s).1, (literal_split s).2⟩

/-- **Each text has one split.** -/
theorem split_unique {p : Split} (h : p.Of s) : p = split s := by
  rw [split, pieces_of h, Split.ofPieces_pieces]

/-! ### What is put in, and the names -/

/-- What the value of a variable is put in as; a variable that is not set counts as empty. -/
def valueOf (lookup : String → Option String) (name : List Char) : List CodePoint :=
  ((lookup (String.ofList name)).getD "" : Text).points

/-- The variables of a text that are not set, once for each of their placeholders. -/
def Split.unset (lookup : String → Option String) (p : Split) : List String :=
  (p.names.map String.ofList).filter fun name => (lookup name).isNone

theorem points_expand (lookup : String → Option String) (s : Text) :
    (expand lookup s).points = (split s.points).filled (valueOf lookup) := by
  rw [expand, Text.points_ofPoints]
  exact (filled_ofPieces (fun _ => rfl) (fun _ => rfl) _).symm

theorem names_eq (s : Text) : names s = (split s.points).names.map String.ofList := by
  unfold names split
  generalize pieces s.points = ps
  induction ps with
  | nil => rfl
  | cons piece ps ih =>
    obtain p | name := piece
    · exact ih
    · exact congrArg (String.ofList name :: ·) ih

/-- Only the variables of a text matter for it. -/
theorem expand_congr {lookup lookup' : String → Option String} {s : Text}
    (h : ∀ name ∈ names s, lookup name = lookup' name) : expand lookup s = expand lookup' s := by
  have hpiece : ∀ piece ∈ pieces s.points, piece.expand lookup = piece.expand lookup' := by
    intro piece hpiece
    obtain p | name := piece
    · rfl
    · have hname := h (String.ofList name) (List.mem_filterMap.mpr ⟨_, hpiece, rfl⟩)
      rw [Piece.expand, Piece.expand, hname]
  rw [expand, expand, List.flatMap_congr hpiece]

end SuiteBalance.Placeholder
