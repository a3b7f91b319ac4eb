import Mathlib
import SuiteBalance.Csv

/-!
# Proofs — CSV — reading what was written

A field between quotes may hold anything if its own quotes are written twice, and then its text runs
over lines that are no rows.  So the reader is first taken character by character: a line that ends
within quotes is only counted, and what is left is a walk over one field, one row and one table
after the other.

* `Csv.readLines_physicalLinesFrom`: the reader of lines is a reader of characters.
* **`Csv.writeRows`**: a table with every field between quotes and a line break behind each row.
* `Csv.passes_flatMap_doubled`, `Csv.passes_writeField`, `Csv.completes_writeRow`: what is read
  within quotes, as a field and as a row.
* **`Csv.read_writeRows`**: a table is read as it was written.
-/

namespace SuiteBalance

/-! ### Where lines end -/

namespace Text

/-- Whether a physical line ends behind a character: `CR` leaves the end to an `LF` that follows. -/
def closesLine (c : Char) (rest : List Char) : Bool :=
  c == '\n' || (c == '\r' && rest.head? != some '\n')

/-- Lines cut before stand in front of those cut later. -/
theorem physicalLinesFrom_append (front done : List (List Char)) (line s : List Char) :
    physicalLinesFrom (done ++ front) line s = front.reverse ++ physicalLinesFrom done line s := by
  fun_induction physicalLinesFrom done line s with
  | case1 done line => cases line <;> simp [physicalLinesFrom]
  | case2 done line rest ih => exact ih
  | case3 done line rest hlf ih =>
      rw [physicalLinesFrom]
      · exact ih
      · exact hlf
  | case4 done line rest ih => exact ih
  | case5 done line c rest hcrlf hcr hlf ih =>
      rw [physicalLinesFrom]
      · exact ih
      all_goals assumption

/-- The first character of a text ends the line begun, or is the next of its characters. -/
theorem physicalLinesFrom_cons (line : List Char) (c : Char) (rest : List Char) :
    physicalLinesFrom [] line (c :: rest) =
      if closesLine c rest then (c :: line).reverse :: physicalLinesFrom [] [] rest
      else physicalLinesFrom [] (c :: line) rest := by
  have hcut (cut : List Char) :
      physicalLinesFrom [cut] [] rest = cut :: physicalLinesFrom [] [] rest :=
    physicalLinesFrom_append [cut] [] [] rest
  by_cases hlf : c = '\n'
  · subst hlf
    exact hcut _
  by_cases hcr : c = '\r'
  · subst hcr
    rcases rest with _ | ⟨d, rest⟩
    · rfl
    by_cases hd : d = '\n'
    · subst hd
      simp [closesLine, physicalLinesFrom]
    · simpa [closesLine, physicalLinesFrom, hd] using hcut _
  · simp [closesLine, physicalLinesFrom, hlf, hcr]

end Text

namespace Csv

open Text

/-! ### Character by character -/

variable {whole begun : Bool} {count : ℕ} {start s : Cursor} {done : List Row}
  {line text : List Char}

/-- What the end of a physical line leaves: a row more, unless the row goes on behind the break. -/
def endLine (count : ℕ) (s : Cursor) (done : List Row) : Cursor × List Row :=
  match s.finish? with
  | none => (s, done)
  | some fields => ({}, ⟨fields, count + 1⟩ :: done)

/-- Reads character after character; `begun` says whether some of the line was read. -/
def readChars (whole : Bool) (count : ℕ) (s : Cursor) (done : List Row) (begun : Bool) :
    List Char → Except Fault Unit × List Row
  | [] =>
    if begun then readLines whole (count + 1) (endLine count s done).1 (endLine count s done).2 []
    else readLines whole count s done []
  | c :: rest =>
    match s.step c with
    | .error e => (.error e, done.reverse)
    | .ok s' =>
      if closesLine c rest then
        readChars whole (count + 1) (endLine count s' done).1 (endLine count s' done).2 false rest
      else readChars whole count s' done true rest

theorem readLines_cons {lines : List (List Char)} (h : line.foldlM Cursor.step start = .ok s) :
    readLines whole count start done (line :: lines) =
      readLines whole (count + 1) (endLine count s done).1 (endLine count s done).2 lines := by
  rw [readLines, h, endLine]
  dsimp only
  cases s.finish? <;> rfl

/-- A line grows by the characters that are moved over. -/
theorem foldlM_step_cons (start : Cursor) (c : Char) (line : List Char) :
    (c :: line).reverse.foldlM Cursor.step start =
      (line.reverse.foldlM Cursor.step start).bind (·.step c) := by
  rw [List.reverse_cons, List.foldlM_append]
  exact congrArg _ (funext fun s => bind_pure (s.step c))

/-- A line whose beginning fails cannot be read, however it goes on. -/
theorem readLines_of_error {e : Fault}
    (h : line.reverse.foldlM Cursor.step start = .error e) :
    readLines whole count start done (physicalLinesFrom [] line text) =
      (.error e, done.reverse) := by
  induction text generalizing line with
  | nil =>
      cases line with
      | nil => cases h
      | cons c line =>
          change readLines whole count start done [(c :: line).reverse] = _
          rw [readLines, h]
  | cons c text ih =>
      have hline : (c :: line).reverse.foldlM Cursor.step start = .error e := by
        rw [foldlM_step_cons, h]
        rfl
      rw [physicalLinesFrom_cons]
      split
      · rw [readLines, hline]
      · exact ih hline

/-- **The reader of lines is a reader of characters.** -/
theorem readLines_physicalLinesFrom (h : line.reverse.foldlM Cursor.step start = .ok s) :
    readLines whole count start done (physicalLinesFrom [] line text) =
      readChars whole count s done (!line.isEmpty) text := by
  induction text generalizing line count start s done with
  | nil =>
      cases line with
      | nil =>
          obtain rfl := Except.ok.inj h
          rfl
      | cons c line => exact readLines_cons h
  | cons c text ih =>
      have hline : (c :: line).reverse.foldlM Cursor.step start = s.step c := by
        rw [foldlM_step_cons, h]
        rfl
      rw [physicalLinesFrom_cons, readChars]
      cases hstep : s.step c with
      | error e =>
          rw [hstep] at hline
          split
          · rw [readLines, hline]
          · exact readLines_of_error hline
      | ok s' =>
          rw [hstep] at hline
          dsimp only
          split
          · rw [readLines_cons hline]
            exact ih rfl
          · exact ih hline

/-! ### Writing -/

/-- A character of a field between quotes: a quote is written twice. -/
def doubled (c : Char) : List Char := if c = '"' then ['"', '"'] else [c]

/-- A field between quotes. -/
def writeField (field : String) : List Char := '"' :: field.toList.flatMap doubled ++ ['"']

/-- What ends a row. -/
inductive RowEnd where
  | lf
  | crlf
  deriving DecidableEq, Repr

/-- The characters that end a row. -/
def RowEnd.chars : RowEnd → List Char
  | .lf => ['\n']
  | .crlf => ['\r', '\n']

/-- A row: its fields with commas between, and what ends it. -/
def writeRow (fields : List String) (ending : RowEnd) : List Char :=
  [','].intercalate (fields.map writeField) ++ ending.chars

/-- A table: one row after the other. -/
def writeRows (rows : List (List String × RowEnd)) : List Char :=
  rows.flatMap fun row => writeRow row.1 row.2

/-! ### What is passed -/

variable {t : Cursor} {c : Char} {mode : Mode} {fields before : List String}
  {stretch field cs : List Char} {length : ℕ}

/-- The reader passes a stretch of text on its way from one cursor to another and ends no row there,
whatever it read before and whatever follows. -/
def Passes (s : Cursor) (stretch : List Char) (t : Cursor) : Prop :=
  ∀ whole count done begun text, ∃ count' begun',
    readChars whole count s done begun (stretch ++ text) = readChars whole count' t done begun' text

/-- The reader completes a row at the end of a stretch of text. -/
def Completes (s : Cursor) (stretch : List Char) (fields : List String) : Prop :=
  ∀ whole count done begun text, ∃ count',
    readChars whole count s done begun (stretch ++ text) =
      readChars whole count' {} (⟨fields, count'⟩ :: done) false text

namespace Passes

theorem nil (s : Cursor) : Passes s [] s :=
  fun _ count _ begun _ => ⟨count, begun, rfl⟩

theorem append {u : Cursor} {stretch' : List Char} (h : Passes s stretch t)
    (h' : Passes t stretch' u) : Passes s (stretch ++ stretch') u := by
  intro whole count done begun text
  obtain ⟨count₁, begun₁, hfirst⟩ := h whole count done begun (stretch' ++ text)
  obtain ⟨count₂, begun₂, hsecond⟩ := h' whole count₁ done begun₁ text
  exact ⟨count₂, begun₂, by rw [List.append_assoc, hfirst, hsecond]⟩

theorem completes {stretch' : List Char} (h : Passes s stretch t)
    (h' : Completes t stretch' fields) : Completes s (stretch ++ stretch') fields := by
  intro whole count done begun text
  obtain ⟨count₁, begun₁, hfirst⟩ := h whole count done begun (stretch' ++ text)
  obtain ⟨count₂, hsecond⟩ := h' whole count₁ done begun₁ text
  exact ⟨count₂, by rw [List.append_assoc, hfirst, hsecond]⟩

/-- A character that is no break is passed. -/
theorem of_step (hstep : s.step c = .ok t) (hbreak : Cursor.isBreak c = false) :
    Passes s [c] t := by
  intro whole count done begun text
  rw [Cursor.isBreak, Bool.or_eq_false_iff] at hbreak
  have hopen : closesLine c text = false := by rw [closesLine, hbreak.1, hbreak.2]; rfl
  refine ⟨count, true, ?_⟩
  rw [List.singleton_append, readChars, hstep]
  simp only [hopen, Bool.false_eq_true, if_false]

/-- So is every character within quotes: where a line ends behind it, the row goes on. -/
theorem of_step_quoted (hstep : s.step c = .ok t) (hmode : t.mode = .quoted) :
    Passes s [c] t := by
  intro whole count done begun text
  have hend : endLine count t done = (t, done) := by rw [endLine, Cursor.finish?, hmode]
  rw [List.singleton_append, readChars, hstep]
  dsimp only
  split
  · rw [hend]
    exact ⟨count + 1, false, rfl⟩
  · exact ⟨count, true, rfl⟩

end Passes

/-- Where a line ends behind a row, the row is complete. -/
theorem Completes.of_step (hstep : s.step '\n' = .ok t) (hfinish : t.finish? = some fields) :
    Completes s ['\n'] fields := by
  intro whole count done begun text
  refine ⟨count + 1, ?_⟩
  rw [List.singleton_append, readChars, hstep]
  simp only [closesLine, beq_self_eq_true, Bool.true_or, if_true, endLine, hfinish]

/-- Either break ends a row, once one of them was seen. -/
theorem Completes.of_break (ending : RowEnd) (hlf : s.step '\n' = .ok t)
    (hcr : s.step '\r' = .ok t) (hmode : t.mode = .rowEnd) (hfields : t.fields.reverse = fields) :
    Completes s ending.chars fields := by
  have hfinish : t.finish? = some fields := by rw [Cursor.finish?, hmode, ← hfields]
  cases ending with
  | lf => exact .of_step hlf hfinish
  | crlf =>
      intro whole count done begun text
      have hstay : t.step '\n' = .ok t := by rw [Cursor.step, hmode]
      obtain ⟨count', hread⟩ := Completes.of_step hstay hfinish whole count done true text
      refine ⟨count', ?_⟩
      -- the first character leaves the end of the line to the second
      change readChars whole count s done begun ('\r' :: (['\n'] ++ text)) = _
      rw [readChars, hcr]
      exact hread

/-! ### Reading -/

theorem Cursor.push_of_lt (h : s.length < fieldLimit) (mode : Mode) (c : Char) :
    s.push mode c = .ok ⟨mode, s.fields, c :: s.field, s.length + 1⟩ :=
  if_neg (not_le.mpr h)

/-- Within quotes the reader takes a character in the form in which it is written. -/
theorem passes_doubled (h : length < fieldLimit) :
    Passes ⟨.quoted, before, field, length⟩ (doubled c)
      ⟨.quoted, before, c :: field, length + 1⟩ := by
  by_cases hquote : c = '"'
  · subst hquote
    -- the first of the two quotes may close the field, and the second says that it does not
    have hfirst : Passes ⟨.quoted, before, field, length⟩ ['"']
        ⟨.quoteSeen, before, field, length⟩ := .of_step rfl rfl
    exact hfirst.append (.of_step_quoted (Cursor.push_of_lt h _ _) rfl)
  · rw [doubled, if_neg hquote]
    refine .of_step_quoted ?_ rfl
    exact (if_neg (by simpa using hquote)).trans (Cursor.push_of_lt h _ _)

/-- **Within quotes the reader takes every character.** -/
theorem passes_flatMap_doubled (h : length + cs.length ≤ fieldLimit) :
    Passes ⟨.quoted, before, field, length⟩ (cs.flatMap doubled)
      ⟨.quoted, before, cs.reverse ++ field, length + cs.length⟩ := by
  induction cs generalizing field length with
  | nil => exact .nil _
  | cons c cs ih =>
      rw [List.length_cons] at h
      have hrest : Passes ⟨.quoted, before, c :: field, length + 1⟩ (cs.flatMap doubled)
          ⟨.quoted, before, cs.reverse ++ c :: field, length + 1 + cs.length⟩ := ih (by omega)
      rw [List.flatMap_cons, List.reverse_cons, List.append_assoc, List.singleton_append,
        List.length_cons, Nat.add_comm cs.length, ← Nat.add_assoc]
      exact (passes_doubled (by omega)).append hrest

/-- Where the reader stands behind the quote that closes a field. -/
def behindField (before : List String) (f : String) : Cursor :=
  ⟨.quoteSeen, before, f.toList.reverse, f.length⟩

theorem save_behindField (before : List String) (f : String) (mode : Mode) :
    (behindField before f).save mode = ⟨mode, f :: before, [], 0⟩ := by
  rw [Cursor.save, behindField, List.reverse_reverse, String.ofList_toList]

/-- A field between quotes is read up to the quote that closes it. -/
theorem passes_writeField {f : String} (hmode : mode = .rowStart ∨ mode = .fieldStart)
    (h : f.length ≤ fieldLimit) :
    Passes ⟨mode, before, [], 0⟩ (writeField f) (behindField before f) := by
  have hopen : Passes ⟨mode, before, [], 0⟩ ['"'] ⟨.quoted, before, [], 0⟩ := by
    rcases hmode with rfl | rfl <;> exact .of_step rfl rfl
  have hinside : Passes ⟨.quoted, before, [], 0⟩ (f.toList.flatMap doubled)
      ⟨.quoted, before, f.toList.reverse ++ [], 0 + f.toList.length⟩ :=
    passes_flatMap_doubled (by rwa [Nat.zero_add, String.length_toList])
  rw [List.append_nil, Nat.zero_add, String.length_toList] at hinside
  exact (hopen.append hinside).append (.of_step rfl rfl)

theorem writeRow_cons_cons (f g : String) (rest : List String) (ending : RowEnd) :
    writeRow (f :: g :: rest) ending =
      writeField f ++ ([','] ++ writeRow (g :: rest) ending) := by
  simp [writeRow, List.intercalate]

/-- **A row is read as it was written.** -/
theorem completes_writeRow (hmode : mode = .rowStart ∨ mode = .fieldStart) {f : String}
    {rest : List String} (h : ∀ g ∈ f :: rest, g.length ≤ fieldLimit) (ending : RowEnd) :
    Completes ⟨mode, before, [], 0⟩ (writeRow (f :: rest) ending)
      (before.reverse ++ f :: rest) := by
  induction rest generalizing f mode before with
  | nil =>
      have hend : Completes (behindField before f) ending.chars (before.reverse ++ [f]) :=
        .of_break ending (congrArg Except.ok (save_behindField before f .rowEnd))
          (congrArg Except.ok (save_behindField before f .rowEnd)) rfl List.reverse_cons
      rw [writeRow, List.map_singleton, List.intercalate_singleton]
      exact (passes_writeField hmode (h f List.mem_cons_self)).completes hend
  | cons g rest ih =>
      have hcomma : Passes (behindField before f) [','] ⟨.fieldStart, f :: before, [], 0⟩ :=
        .of_step (congrArg Except.ok (save_behindField before f .fieldStart)) rfl
      have hrest : Completes ⟨.fieldStart, f :: before, [], 0⟩ (writeRow (g :: rest) ending)
          ((f :: before).reverse ++ g :: rest) :=
        ih (.inr rfl) fun k hk => h k (List.mem_cons_of_mem _ hk)
      rw [List.reverse_cons, List.append_assoc, List.singleton_append] at hrest
      rw [writeRow_cons_cons]
      exact (passes_writeField hmode (h f List.mem_cons_self)).completes (hcomma.completes hrest)

/-- A row without fields is read as such. -/
theorem completes_writeRow_nil (ending : RowEnd) : Completes {} (writeRow [] ending) [] :=
  .of_break ending rfl rfl rfl rfl

theorem readChars_writeRows {rows : List (List String × RowEnd)}
    (h : ∀ row ∈ rows, ∀ f ∈ row.1, f.length ≤ fieldLimit) (count : ℕ) (done : List Row) :
    ∃ table, table.map Row.fields = rows.map Prod.fst ∧
      readChars true count {} done false (writeRows rows) = (.ok (), done.reverse ++ table) := by
  induction rows generalizing count done with
  | nil =>
      refine ⟨[], rfl, ?_⟩
      rw [List.append_nil]
      rfl
  | cons row rows ih =>
      obtain ⟨fields, ending⟩ := row
      have hrow : Completes {} (writeRow fields ending) fields := by
        cases fields with
        | nil => exact completes_writeRow_nil ending
        | cons f rest => exact completes_writeRow (.inl rfl) (h _ List.mem_cons_self) ending
      obtain ⟨count', hread⟩ := hrow true count done false (writeRows rows)
      obtain ⟨table, hfields, hrest⟩ := ih (fun row hmem => h row (List.mem_cons_of_mem _ hmem))
        count' (⟨fields, count'⟩ :: done)
      refine ⟨⟨fields, count'⟩ :: table, congrArg _ hfields, ?_⟩
      rw [writeRows, List.flatMap_cons]
      refine hread.trans (hrest.trans ?_)
      rw [List.reverse_cons, List.append_assoc, List.singleton_append]

/-- **A table is read as it was written**, whatever its fields hold. -/
theorem read_writeRows {rows : List (List String × RowEnd)}
    (h : ∀ row ∈ rows, ∀ f ∈ row.1, f.length ≤ fieldLimit) :
    ∃ table, table.map Row.fields = rows.map Prod.fst ∧
      read ⟨writeRows rows, none⟩ = ⟨table, none⟩ := by
  obtain ⟨table, hfields, hread⟩ := readChars_writeRows h 0 []
  have hlines : readLines true 0 {} [] (physicalLines (writeRows rows)) = (.ok (), table) :=
    (readLines_physicalLinesFrom rfl).trans hread
  refine ⟨table, hfields, ?_⟩
  rw [read]
  dsimp only
  rw [hlines]

end Csv

end SuiteBalance
