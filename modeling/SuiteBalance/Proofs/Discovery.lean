import Mathlib
import SuiteBalance.Discovery
import SuiteBalance.Proofs.Text.Blank
import SuiteBalance.Proofs.Text.Lines
import SuiteBalance.Proofs.Text.Utf8
import SuiteBalance.Proofs.Workspace.Calls

/-!
# Proofs — Discovery — lists of patterns

A list of patterns is read line by line.  Everything about it follows from one equation: what stands
before a line end and what stands behind it are read on their own (`patterns_append`), whatever kind
of line end it is and even between the two halves of `CR LF`.

* **`IsPattern`**: the texts that can be listed.
* `pattern?_frame`, `isPattern_of_pattern?`: what a single line lists.
* `patterns_append`, `patterns_written`: what a text lists, and what lines that are written list.
* **`listed_line_by_line`**: the files of the sources.
-/

namespace SuiteBalance.Discovery

open Text

/-- A text that can be listed: it is not empty, has no blanks around it, stands on one line, and is
no comment. -/
structure IsPattern (name : String) : Prop where
  ne_empty : name ≠ ""
  bare : Bare isBlank name.toList
  one_line : ∀ c ∈ name.toList, endsLine c = false
  no_comment : name.toList.head? ≠ some '#'

variable {name : String} {line before behind s : List Char}

/-! ### One line -/

theorem pattern?_of_blank (h : ∀ c ∈ s, isBlank c = true) : pattern? s = none := by
  have htrim : trimChars s = [] := by
    have hframe : stripChars isBlank (s ++ [] ++ []) = [] :=
      stripChars_append ⟨nofun, nofun⟩ h nofun
    rwa [List.append_nil, List.append_nil] at hframe
  rw [pattern?, htrim]

/-- A line lists the pattern that stands on it between blanks. -/
theorem pattern?_frame (h : IsPattern name) (hbefore : ∀ c ∈ before, isBlank c = true)
    (hbehind : ∀ c ∈ behind, isBlank c = true) :
    pattern? (before ++ name.toList ++ behind) = some name := by
  have htrim : trimChars (before ++ name.toList ++ behind) = name.toList :=
    stripChars_append h.bare hbefore hbehind
  have hne : name.toList ≠ [] := by simpa using h.ne_empty
  have hcomment (rest : List Char) : name.toList ≠ '#' :: rest := by
    intro hrest
    exact h.no_comment (by rw [hrest]; rfl)
  rw [pattern?, htrim]
  split
  · next heq => exact absurd heq hne
  · next rest heq => exact absurd heq (hcomment rest)
  · rw [String.ofList_toList]

/-- A comment lists nothing, wherever on its line it starts. -/
theorem pattern?_comment (hbefore : ∀ c ∈ before, isBlank c = true) (words : List Char) :
    pattern? (before ++ '#' :: words) = none := by
  have hmark : isBlank '#' = false := by decide
  obtain ⟨rest, hrest⟩ : ∃ rest, trimChars (before ++ '#' :: words) = '#' :: rest := by
    rw [trimChars, stripChars, List.dropWhile_append_of_pos hbefore,
      List.dropWhile_cons_of_neg (by simp [hmark]), List.reverse_cons, List.dropWhile_append]
    split_ifs
    · rw [List.dropWhile_cons_of_neg (by simp [hmark])]
      exact ⟨[], rfl⟩
    · rw [List.reverse_append]
      exact ⟨_, rfl⟩
  rw [pattern?, hrest]
  rfl

/-- What a line lists can be listed. -/
theorem isPattern_of_pattern? (hline : ∀ c ∈ line, endsLine c = false)
    (h : pattern? line = some name) : IsPattern name := by
  have hbare := bare_stripChars isBlank line
  obtain ⟨left, right, hsplit, -⟩ := exists_append_stripChars isBlank line
  have hends : ∀ c ∈ trimChars line, endsLine c = false := fun c hc =>
    hline c (hsplit ▸ List.mem_append_left _ (List.mem_append_right _ hc))
  unfold pattern? at h
  split at h
  · cases h
  · cases h
  · next hne hcomment =>
    obtain rfl := Option.some.inj h
    refine ⟨fun hempty => hne ?_, ?_, ?_, ?_⟩
    · simpa using hempty
    · rwa [String.toList_ofList]
    · rwa [String.toList_ofList]
    · rw [String.toList_ofList, Ne, List.head?_eq_some_iff, not_exists]
      exact hcomment

/-! ### Texts -/

theorem patterns_eq (s : List Char) : patterns s = (s.splitOnP endsLine).filterMap pattern? :=
  filterMap_lines_unifyBreaks rfl s

/-- **What stands before a line end and what stands behind it are read on their own.** -/
theorem patterns_append {c : Char} (hc : endsLine c = true) (a b : List Char) :
    patterns (a ++ c :: b) = patterns a ++ patterns b := by
  rw [patterns_eq, patterns_eq, patterns_eq, List.splitOnP_append_cons a b hc,
    List.filterMap_append]

/-- A text without line ends is one line. -/
theorem patterns_line (h : ∀ c ∈ line, endsLine c = false) :
    patterns line = (pattern? line).toList := by
  rw [patterns_eq, List.splitOnP_eq_singleton h, List.filterMap_cons, List.filterMap_nil]
  cases pattern? line <;> rfl

theorem isPattern_of_mem_patterns (h : name ∈ patterns s) : IsPattern name := by
  rw [patterns_eq, List.mem_filterMap] at h
  obtain ⟨line, hline, hname⟩ := h
  exact isPattern_of_pattern? (not_of_mem_splitOnP hline) hname

/-! ### Lines that are written -/

/-- How a line is ended. -/
inductive LineBreak where
  | lf
  | crlf
  | cr
  deriving DecidableEq

/-- The characters of a line break. -/
def LineBreak.chars : LineBreak → List Char
  | .lf => ['\n']
  | .crlf => ['\r', '\n']
  | .cr => ['\r']

/-- What stands on a line between its margins. -/
inductive Content where
  | pattern (name : String)
  | comment (words : List Char)
  | blank

/-- The characters of a content. -/
def Content.chars : Content → List Char
  | .pattern name => name.toList
  | .comment words => '#' :: words
  | .blank => []

/-- The pattern that a content is. -/
def Content.name? : Content → Option String
  | .pattern name => some name
  | .comment _ | .blank => none

/-- A line: a content between margins of blanks that end no line, and the break behind it. -/
structure Line where
  before : List Char := []
  content : Content
  behind : List Char := []
  ending : LineBreak := .lf
  margins : ∀ c ∈ before ++ behind, isBlank c = true ∧ endsLine c = false := by
    simp [isBlank, isWhite, endsLine]
  one_line : ∀ c ∈ content.chars, endsLine c = false := by simp [Content.chars, endsLine]

/-- The characters of a line, its break apart. -/
def Line.chars (l : Line) : List Char := l.before ++ l.content.chars ++ l.behind

/-- The text of some lines. -/
def written (lines : List Line) : List Char := lines.flatMap fun l => l.chars ++ l.ending.chars

/-- The patterns on some lines. -/
def named (lines : List Line) : List String := lines.filterMap (·.content.name?)

/-- A line break of any kind is a line end. -/
theorem patterns_append_break (ending : LineBreak) (a b : List Char) :
    patterns (a ++ ending.chars ++ b) = patterns a ++ patterns b := by
  have hlf : endsLine '\n' = true := by decide
  have hcr : endsLine '\r' = true := by decide
  rw [List.append_assoc]
  cases ending with
  | lf => exact patterns_append hlf a b
  | cr => exact patterns_append hcr a b
  | crlf =>
      calc patterns (a ++ '\r' :: '\n' :: b)
        _ = patterns a ++ patterns ([] ++ '\n' :: b) := patterns_append hcr a _
        _ = patterns a ++ (patterns [] ++ patterns b) := by rw [patterns_append hlf]
        _ = patterns a ++ patterns b := rfl

/-- A line lists the pattern that is its content. -/
theorem Line.pattern?_chars (l : Line) (h : ∀ name, l.content.name? = some name → IsPattern name) :
    pattern? l.chars = l.content.name? := by
  have hbefore : ∀ c ∈ l.before, isBlank c = true := fun c hc =>
    (l.margins c (List.mem_append_left _ hc)).1
  have hbehind : ∀ c ∈ l.behind, isBlank c = true := fun c hc =>
    (l.margins c (List.mem_append_right _ hc)).1
  unfold chars
  cases hcontent : l.content with
  | pattern name => exact pattern?_frame (h name (by rw [hcontent]; rfl)) hbefore hbehind
  | comment words =>
      rw [Content.chars, List.append_assoc, List.cons_append]
      exact pattern?_comment hbefore _
  | blank =>
      rw [Content.chars, List.append_nil]
      exact pattern?_of_blank (List.forall_mem_append.mpr ⟨hbefore, hbehind⟩)

theorem Line.not_endsLine (l : Line) : ∀ c ∈ l.chars, endsLine c = false := by
  have hmargins : ∀ c ∈ l.before ++ l.behind, endsLine c = false := fun c hc => (l.margins c hc).2
  rw [List.forall_mem_append] at hmargins
  rw [Line.chars, List.forall_mem_append, List.forall_mem_append]
  exact ⟨⟨hmargins.1, l.one_line⟩, hmargins.2⟩

/-- **Lines that are written list the patterns on them.** -/
theorem patterns_written {lines : List Line} (h : ∀ name ∈ named lines, IsPattern name) :
    patterns (written lines) = named lines := by
  induction lines with
  | nil => rfl
  | cons l lines ih =>
      rw [named, List.filterMap_cons] at h
      have hline : patterns l.chars = l.content.name?.toList := by
        rw [patterns_line l.not_endsLine, l.pattern?_chars]
        intro name hname
        exact h name (by rw [hname]; exact List.mem_cons_self ..)
      have hrest : ∀ name ∈ named lines, IsPattern name := by
        intro name hname
        refine h name ?_
        cases l.content.name? with
        | none => exact hname
        | some _ => exact List.mem_cons_of_mem _ hname
      rw [written, List.flatMap_cons, patterns_append_break, hline, ← written, ih hrest, named, named,
        List.filterMap_cons]
      cases l.content.name? <;> rfl

/-! ### Files -/

/-- What comes of listing the patterns in a file. -/
def listed (w : Workspace) (path : Path) : Except Failure (List String) :=
  (ask (load path : StateM Workspace (Reply (List String))) w).1.outcome

/-- A file that holds a text lists some patterns, wherever it is. -/
def Lists (text : String) (patterns : List String) : Prop :=
  ∀ (w : Workspace) (path : Path), w.read path = .ok text.toUTF8.toList →
    listed w path = .ok patterns

theorem listed_eq (w : Workspace) (path : Path) :
    listed w path = ((w.read path).mapError .file).bind fun bytes =>
      ((Utf8.decode bytes).mapError .encoding).map patterns := by
  have hread : ask (Host.read path : StateM Workspace _) w = (w.read path, w) := rfl
  rw [listed, load, ask_bind, hread]
  dsimp only
  cases w.read path with
  | error e => rfl
  | ok bytes =>
      dsimp only [Except.mapError, Except.bind]
      cases Utf8.decode bytes <;> rfl

/-- A file lists the patterns in its text. -/
theorem lists_patterns (text : String) : Lists text (patterns text.toList) := by
  intro w path h
  have hdecode := decode_toUTF8 text.toList
  rw [String.ofList_toList] at hdecode
  rw [listed_eq, h, Except.mapError, Except.bind, hdecode]
  rfl

/-- What is listed are the patterns in some text. -/
theorem exists_eq_patterns {w : Workspace} {path : Path} {found : List String}
    (h : listed w path = .ok found) : ∃ text, found = patterns text := by
  rw [listed_eq] at h
  cases hread : w.read path with
  | error e =>
      rw [hread] at h
      cases h
  | ok bytes =>
      rw [hread, Except.mapError, Except.bind] at h
      cases hdecode : Utf8.decode bytes with
      | error fault =>
          rw [hdecode] at h
          cases h
      | ok text =>
          rw [hdecode] at h
          exact ⟨text, (Except.ok.inj h).symm⟩

/-- **The files of the sources are read line by line.**  Two texts with a line break between them
list what they list on their own; what is listed can stand on a line; and whatever can is listed
where it stands on a line of its own, between any margins and among any comments and empty lines. -/
theorem listed_line_by_line :
    (∀ a b : String, ∃ first second, Lists a first ∧ Lists b second ∧
      Lists (a ++ "\n" ++ b) (first ++ second)) ∧
    (∀ (w : Workspace) (path : Path) (found : List String), listed w path = .ok found →
      ∀ name ∈ found, IsPattern name) ∧
    ∀ listing : List String, (∀ name ∈ listing, IsPattern name) →
      ∀ lines : List Line, named lines = listing → Lists (String.ofList (written lines)) listing := by
  refine ⟨fun a b => ?_, fun w path found h name hname => ?_, ?_⟩
  · refine ⟨_, _, lists_patterns a, lists_patterns b, ?_⟩
    have hjoined : patterns (a ++ "\n" ++ b).toList = patterns a.toList ++ patterns b.toList := by
      rw [String.toList_append, String.toList_append]
      exact patterns_append_break .lf a.toList b.toList
    rw [← hjoined]
    exact lists_patterns _
  · obtain ⟨text, rfl⟩ := exists_eq_patterns h
    exact isPattern_of_mem_patterns hname
  · rintro _ h lines rfl
    have hwritten := lists_patterns (String.ofList (written lines))
    rwa [String.toList_ofList, patterns_written h] at hwritten

/-- Lines with margins and all breaks: a `CR` stands before the `LF` of an empty line. -/
def mixedLines : List Line :=
  [{ before := ['\t'], content := .pattern "web*", behind := [' '], ending := .cr },
    { content := .blank },
    { before := [' '], content := .comment " two words".toList, ending := .crlf },
    { content := .pattern "db 1*" }]

/-- A workspace with a file of these lines. -/
def mixedWorkspace : Workspace :=
  ({} : Workspace).withFile ["unit.txt"] (String.ofList (written mixedLines)).toUTF8.toList

theorem isPattern_mixed : ∀ name ∈ ["web*", "db 1*"], IsPattern name := by
  intro name hname
  rcases List.mem_pair.mp hname with rfl | rfl
  · refine ⟨by decide, ⟨?_, ?_⟩, ?_, by decide⟩ <;> simp [isBlank, isWhite, endsLine]
  · refine ⟨by decide, ⟨?_, ?_⟩, ?_, by decide⟩ <;> simp [isBlank, isWhite, endsLine]

/-- The file lists both patterns, and so do the texts before and behind the `LF` in the midst. -/
theorem listed_line_by_line_mixed :
    named mixedLines = ["web*", "db 1*"] ∧
      "\tweb* \r" ++ "\n" ++ " # two words\r\ndb 1*\n" = String.ofList (written mixedLines) ∧
      listed mixedWorkspace (Path.ofText "unit.txt") = .ok ["web*", "db 1*"] ∧
      (∃ first second, Lists "\tweb* \r" first ∧ Lists " # two words\r\ndb 1*\n" second ∧
        first ++ second = ["web*", "db 1*"]) ∧
      ∀ name ∈ ["web*", "db 1*"], IsPattern name := by
  have htext : "\tweb* \r" ++ "\n" ++ " # two words\r\ndb 1*\n" =
      String.ofList (written mixedLines) := by decide
  have hread : mixedWorkspace.read (Path.ofText "unit.txt") =
      .ok (String.ofList (written mixedLines)).toUTF8.toList := rfl
  obtain ⟨hjoined, hpatterns, hwritten⟩ := listed_line_by_line
  have hlisted : listed mixedWorkspace (Path.ofText "unit.txt") = .ok ["web*", "db 1*"] :=
    hwritten _ isPattern_mixed mixedLines rfl _ _ hread
  obtain ⟨first, second, hfirst, hsecond, hboth⟩ := hjoined "\tweb* \r" " # two words\r\ndb 1*\n"
  rw [htext] at hboth
  exact ⟨rfl, htext, hlisted, ⟨first, second, hfirst, hsecond,
    Except.ok.inj ((hboth _ _ hread).symm.trans hlisted)⟩, hpatterns _ _ _ hlisted⟩

end SuiteBalance.Discovery
