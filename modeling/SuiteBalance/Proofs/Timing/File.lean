import Mathlib
import SuiteBalance.Proofs.Schedule.Cost
import SuiteBalance.Proofs.Text.Blank
import SuiteBalance.Proofs.Text.Utf8
import SuiteBalance.Proofs.Workspace.Calls
import SuiteBalance.Timing.File

/-!
# Proofs — Timing — what a file of durations tells

A row either has no name, or tells a record, or is faulty: its duration is missing, or is no number
of seconds.  The first faulty row fails the whole file, and without one there is a record for each
row with a name.

* **`Timing.Seconds`**: what a text is read as.
* `TimingFile.Faulty`, `TimingFile.Tells`: what a row can be, and `TimingFile.records_cons`: what it
  adds.
* `TimingFile.records_of_not_faulty`, `TimingFile.records_of_faulty`: what rows come to.
* `TimingFile.loaded_of_read`: a table with both columns is read row by row.
* **`TimingFile.loaded_whole_or_refused`**: a file is used as a whole, or it is refused.
-/

namespace SuiteBalance

open Workspace

/-! ### Numbers of seconds -/

theorem Number.not_lt_of_nonneg {x : Float} (h : 0.0 ≤ x) : ¬ x < 0.0 := by
  have hzero : (0.0 : Float) ≤ 0.0 := by decide +kernel
  rw [lt_iff_exact_lt h hzero, not_lt]
  exact (le_iff_exact_le hzero h).mp h

/-- A text is read as a number of seconds, which is finite and not below zero. -/
def Timing.Seconds (s : String) (x : Float) : Prop :=
  Number.readFloat? s = some x ∧ x.isFinite = true ∧ 0.0 ≤ x

theorem TimingRecord.toOption_make_eq_some_iff {name : String} {x : Float} {r : TimingRecord} :
    (make name x).toOption = some r ↔ r.name = name ∧ r.duration = x := by
  unfold make
  constructor
  · intro h
    split at h
    · obtain rfl := Option.some.inj h
      exact ⟨rfl, rfl⟩
    · cases h
  · rintro ⟨rfl, rfl⟩
    rw [dif_pos ⟨r.finite, r.not_negative⟩]
    rfl

namespace TimingFile

open Timing

variable {file : TimingFile} {header : List Text} {rows : List Csv.Row} {row : Csv.Row}
  {records : List TimingRecord} {w : Workspace} {bytes : List UInt8}

theorem record?_eq_some_iff {name duration : String} {r : TimingRecord} :
    record? name duration = some r ↔ r.name = name ∧ Seconds duration r.duration := by
  unfold record? Seconds
  rw [Option.bind_eq_bind, Option.bind_eq_some_iff]
  constructor
  · rintro ⟨x, hread, hmake⟩
    obtain ⟨hname, rfl⟩ := TimingRecord.toOption_make_eq_some_iff.mp hmake
    exact ⟨hname, hread, r.finite, r.nonneg_duration⟩
  · rintro ⟨hname, hread, -⟩
    exact ⟨_, hread, TimingRecord.toOption_make_eq_some_iff.mpr ⟨hname, rfl⟩⟩

/-- There is no record where the duration is no number of seconds. -/
theorem record?_eq_none_iff {name duration : String} :
    record? name duration = none ↔ ∀ x, ¬ Seconds duration x := by
  rw [Option.eq_none_iff_forall_ne_some]
  constructor
  · intro h x hx
    exact h ⟨name, x, hx.2.1, Number.not_lt_of_nonneg hx.2.2⟩
      (record?_eq_some_iff.mpr ⟨rfl, hx⟩)
  · intro h r hr
    exact h r.duration (record?_eq_some_iff.mp hr).2

/-! ### Rows -/

/-- The text of a row in a column, `none` if the row is too short for it. -/
def cell? (header : List Text) (row : Csv.Row) (column : Text) : Option String :=
  (lastPosition? header column).bind (row.fields[·]?)

theorem value_eq_trim_cell? (header : List Text) (row : Csv.Row) (column : Text) :
    value header row.fields column = Text.trim ((cell? header row column).getD "") := by
  unfold value cell?
  cases lastPosition? header column with
  | none => rfl
  | some i => exact congrArg Text.trim List.getD_eq_getElem?_getD

/-- The name in a row, without the blanks around it. -/
def nameIn (file : TimingFile) (header : List Text) (row : Csv.Row) : String :=
  Text.trim ((cell? header row file.nameColumn).getD "")

/-- The text of the duration in a row, without the blanks around it. -/
def durationIn (file : TimingFile) (header : List Text) (row : Csv.Row) : String :=
  Text.trim ((cell? header row file.durationColumn).getD "")

/-- A row with a name whose duration is missing, or is no number of seconds without its blanks. -/
structure Faulty (file : TimingFile) (header : List Text) (row : Csv.Row) : Prop where
  named : file.nameIn header row ≠ ""
  untimed : ∀ text, cell? header row file.durationColumn = some text →
    ∀ x, ¬ Seconds (Text.trim text) x

/-- A row tells a record: its name and the number that its duration is read as. -/
structure Tells (file : TimingFile) (header : List Text) (row : Csv.Row) (r : TimingRecord) :
    Prop where
  name : r.name = file.nameIn header row
  duration : ∃ text, cell? header row file.durationColumn = some text ∧
    Seconds (Text.trim text) r.duration

theorem not_seconds_empty (x : Float) : ¬ Seconds "" x := by
  rintro ⟨h, -⟩
  cases h

/-- A missing duration is no number of seconds. -/
theorem seconds_durationIn_iff {x : Float} : Seconds (file.durationIn header row) x ↔
    ∃ text, cell? header row file.durationColumn = some text ∧ Seconds (Text.trim text) x := by
  unfold durationIn
  cases cell? header row file.durationColumn with
  | none => exact iff_of_false (not_seconds_empty x) fun ⟨_, h, _⟩ => nomatch h
  | some text => simp

theorem faulty_iff : file.Faulty header row ↔ file.nameIn header row ≠ "" ∧
    record? (file.nameIn header row) (file.durationIn header row) = none := by
  simp only [record?_eq_none_iff, seconds_durationIn_iff, not_exists, not_and]
  exact ⟨fun h => ⟨h.named, fun x text htext => h.untimed text htext x⟩,
    fun h => ⟨h.1, fun text htext x => h.2 x text htext⟩⟩

theorem tells_iff {r : TimingRecord} : file.Tells header row r ↔
    record? (file.nameIn header row) (file.durationIn header row) = some r := by
  rw [record?_eq_some_iff, seconds_durationIn_iff]
  exact ⟨fun h => ⟨h.name, h.duration⟩, fun h => ⟨h.1, h.2⟩⟩

/-- What one row adds: nothing without a name, its record, or a fault. -/
theorem records_cons (file : TimingFile) (header : List Text) (row : Csv.Row)
    (rows : List Csv.Row) :
    file.records header (row :: rows) =
      if file.nameIn header row = "" then file.records header rows
      else match record? (file.nameIn header row) (file.durationIn header row) with
        | none => .error
            (.badDuration row.line (file.durationIn header row) (file.nameIn header row))
        | some r => (file.records header rows).map (r :: ·) := by
  have hname : value header row.fields file.nameColumn = file.nameIn header row :=
    value_eq_trim_cell? ..
  have hduration : value header row.fields file.durationColumn = file.durationIn header row :=
    value_eq_trim_cell? ..
  rw [records]
  dsimp only
  rewrite [hname, hduration]
  generalize record? (file.nameIn header row) (file.durationIn header row) = told
  cases told <;> rfl

theorem records_cons_of_unnamed (h : file.nameIn header row = "") :
    file.records header (row :: rows) = file.records header rows := by
  rw [records_cons, if_pos h]

theorem records_cons_of_tells {r : TimingRecord} (hname : file.nameIn header row ≠ "")
    (h : file.Tells header row r) :
    file.records header (row :: rows) = (file.records header rows).map (r :: ·) := by
  rw [records_cons, if_neg hname, tells_iff.mp h]

theorem records_cons_of_faulty (h : file.Faulty header row) :
    file.records header (row :: rows) =
      .error (.badDuration row.line (file.durationIn header row) (file.nameIn header row)) := by
  obtain ⟨hname, hnone⟩ := faulty_iff.mp h
  rw [records_cons, if_neg hname, hnone]

theorem exists_tells (hname : file.nameIn header row ≠ "") (h : ¬ file.Faulty header row) :
    ∃ r, file.Tells header row r := by
  obtain ⟨r, hr⟩ := Option.ne_none_iff_exists'.mp fun hnone => h (faulty_iff.mpr ⟨hname, hnone⟩)
  exact ⟨r, tells_iff.mpr hr⟩

/-- **Without a faulty row there is a record for each row with a name**, in the rows' order. -/
theorem records_of_not_faulty (h : ∀ row ∈ rows, ¬ file.Faulty header row) :
    ∃ records, file.records header rows = .ok records ∧
      List.Forall₂ (file.Tells header) (rows.filter (file.nameIn header · ≠ "")) records := by
  induction rows with
  | nil => exact ⟨[], rfl, .nil⟩
  | cons row rows ih =>
      obtain ⟨hrow, hrows⟩ := List.forall_mem_cons.mp h
      obtain ⟨records, hrecords, htells⟩ := ih hrows
      by_cases hname : file.nameIn header row = ""
      · rw [records_cons_of_unnamed hname, List.filter_cons_of_neg (by simpa using hname)]
        exact ⟨records, hrecords, htells⟩
      · obtain ⟨r, hr⟩ := exists_tells hname hrow
        rw [records_cons_of_tells hname hr, List.filter_cons_of_pos (by simpa using hname),
          hrecords]
        exact ⟨r :: records, rfl, .cons hr htells⟩

/-- **The first faulty row is reported**, and nothing else. -/
theorem records_of_faulty {before behind : List Csv.Row}
    (hbefore : ∀ earlier ∈ before, ¬ file.Faulty header earlier) (h : file.Faulty header row) :
    file.records header (before ++ row :: behind) =
      .error (.badDuration row.line (file.durationIn header row) (file.nameIn header row)) := by
  induction before with
  | nil => exact records_cons_of_faulty h
  | cons earlier before ih =>
      obtain ⟨hearlier, hrest⟩ := List.forall_mem_cons.mp hbefore
      by_cases hname : file.nameIn header earlier = ""
      · exact (records_cons_of_unnamed hname).trans (ih hrest)
      · obtain ⟨r, hr⟩ := exists_tells hname hearlier
        rw [List.cons_append, records_cons_of_tells hname hr, ih hrest]
        rfl

/-- Among rows of which one is faulty, one is the first. -/
theorem exists_first_faulty (h : ∃ row ∈ rows, file.Faulty header row) :
    ∃ before row behind, rows = before ++ row :: behind ∧
      (∀ earlier ∈ before, ¬ file.Faulty header earlier) ∧ file.Faulty header row := by
  classical
  have hsome : (rows.find? fun row => decide (file.Faulty header row)).isSome := by
    simpa only [List.find?_isSome, decide_eq_true_eq] using h
  obtain ⟨row, hrow⟩ := Option.isSome_iff_exists.mp hsome
  obtain ⟨hfaulty, before, behind, hsplit, hbefore⟩ := List.find?_eq_some_iff_append.mp hrow
  exact ⟨before, row, behind, hsplit, fun r hr => by simpa using hbefore r hr,
    of_decide_eq_true hfaulty⟩

/-- A record that is made has a name, and no blanks around it. -/
theorem trimmed_of_mem_records {r : TimingRecord} (h : file.records header rows = .ok records)
    (hr : r ∈ records) : r.name ≠ "" ∧ Text.trim r.name = r.name := by
  induction rows generalizing records with
  | nil =>
      obtain rfl := Except.ok.inj h
      cases hr
  | cons row rows ih =>
      rw [records_cons] at h
      split at h
      · exact ih h hr
      · next hname =>
        split at h
        · cases h
        · next told htold =>
          cases hrest : file.records header rows with
          | error fault =>
              rw [hrest] at h
              cases h
          | ok rest =>
              rw [hrest] at h
              obtain rfl := Except.ok.inj h
              rcases List.mem_cons.mp hr with rfl | hr
              · rw [(tells_iff.mpr htold).name]
                exact ⟨hname, Text.trim_trim _⟩
              · exact ih hrest hr

/-! ### The file -/

/-- What comes of loading a file. -/
def loaded (file : TimingFile) (w : Workspace) : Except Failure (List TimingRecord) :=
  (ask (file.load : StateM Workspace (Reply (List TimingRecord))) w).1.outcome

/-- What is loaded from a file that stands there. -/
theorem loaded_eq (h : w.standing file.path = .ok (some (.file bytes))) :
    file.loaded w = ((file.ofBytes bytes).map (·.getD [])).mapError
      fun fault => .timing (fault.message file.path) := by
  have hfile : ask (Host.isFile file.path : StateM Workspace _) w = (.ok true, w) := by
    rw [ask_isFile, h]
    rfl
  rw [loaded, load, ask_bind, hfile]
  dsimp only
  rw [ask_bind, ask_read (read_of_standing h)]
  dsimp only
  rcases file.ofBytes bytes with fault | _ | records <;> rfl

theorem trimmed_of_ofBytes {r : TimingRecord} (h : file.ofBytes bytes = .ok (some records))
    (hr : r ∈ records) : r.name ≠ "" ∧ Text.trim r.name = r.name := by
  unfold ofBytes ofTable at h
  split at h
  · split at h <;> cases h
  · dsimp only at h
    split at h
    · cases h
    · split at h
      · cases h
      · cases h
      · next hrecords _ =>
        obtain rfl := Option.some.inj (Except.ok.inj h)
        exact trimmed_of_mem_records hrecords hr

/-- The titles of the columns. -/
def titles (header : Csv.Row) : List Text := header.fields.map Text.ofString

/-- **A table without faults and with both columns is read row by row.** -/
theorem loaded_of_read {text : List Char} {header : Csv.Row}
    (h : w.standing file.path = .ok (some (.file bytes)))
    (hdecode : Text.Utf8.decode bytes = .ok text)
    (hread : Csv.read ⟨text, none⟩ = ⟨header :: rows, none⟩)
    (hname : file.nameColumn ∈ titles header) (hduration : file.durationColumn ∈ titles header) :
    file.loaded w = (file.records (titles header) rows).mapError
      fun fault => .timing (fault.message file.path) := by
  have hmissing : [file.nameColumn, file.durationColumn].filter (!(titles header).contains ·) =
      [] := by
    rw [List.filter_eq_nil_iff]
    intro column hcolumn
    rcases List.mem_pair.mp hcolumn with rfl | rfl
    · simpa using hname
    · simpa using hduration
  rw [loaded_eq h, ofBytes, Text.Utf8.decodeBlocks_of_decode hdecode, hread, ofTable]
  dsimp only
  rw [← titles, if_neg (not_not_intro hmissing)]
  cases file.records (titles header) rows <;> rfl

/-- What comes of the rows behind a header: where one is faulty the first of these is reported, and
otherwise each row with a name tells its record. -/
structure Answers (file : TimingFile) (header : List Text) (rows : List Csv.Row)
    (outcome : Except Failure (List TimingRecord)) : Prop where
  refused_iff : (∃ e, outcome = .error e) ↔ ∃ row ∈ rows, file.Faulty header row
  first : ∀ before row behind, rows = before ++ row :: behind →
    (∀ earlier ∈ before, ¬ file.Faulty header earlier) → file.Faulty header row →
      outcome = .error (.timing (TimingFault.message file.path
        (.badDuration row.line (file.durationIn header row) (file.nameIn header row))))
  told : (∀ row ∈ rows, ¬ file.Faulty header row) → ∃ records, outcome = .ok records ∧
    List.Forall₂ (file.Tells header) (rows.filter (file.nameIn header · ≠ "")) records

theorem answers_records (file : TimingFile) (header : List Text) (rows : List Csv.Row) :
    file.Answers header rows ((file.records header rows).mapError
      fun fault => .timing (fault.message file.path)) where
  refused_iff := by
    constructor
    · rintro ⟨e, he⟩
      by_contra hnone
      obtain ⟨records, hrecords, -⟩ := file.records_of_not_faulty fun row hrow hfaulty =>
        hnone ⟨row, hrow, hfaulty⟩
      rw [hrecords] at he
      cases he
    · intro hfaulty
      obtain ⟨before, row, behind, rfl, hbefore, hrow⟩ := exists_first_faulty hfaulty
      rw [records_of_faulty hbefore hrow]
      exact ⟨_, rfl⟩
  first := by
    rintro before row behind rfl hbefore hrow
    rw [records_of_faulty hbefore hrow]
    rfl
  told := by
    intro hrows
    obtain ⟨records, hrecords, htells⟩ := records_of_not_faulty hrows
    rw [hrecords]
    exact ⟨records, rfl, htells⟩

/-- **A file is used as a whole, or it is refused.**  Whatever its bytes, what is loaded are records
with names that have no blanks around them and with numbers of seconds, or there is a fault in the
history and nothing else.  Of a text that is a table with both columns it is the first faulty row
that is reported, and without one each row with a name tells its record. -/
theorem loaded_whole_or_refused (h : w.standing file.path = .ok (some (.file bytes))) :
    ((∃ records, file.loaded w = .ok records ∧
        ∀ r ∈ records, r.name ≠ "" ∧ Text.trim r.name = r.name ∧
          r.duration.isFinite = true ∧ 0.0 ≤ r.duration) ∨
      ∃ text, file.loaded w = .error (.timing text)) ∧
    ∀ text header rows, Text.Utf8.decode bytes = .ok text →
      Csv.read ⟨text, none⟩ = ⟨header :: rows, none⟩ →
      file.nameColumn ∈ titles header → file.durationColumn ∈ titles header →
        file.Answers (titles header) rows (file.loaded w) := by
  refine ⟨?_, fun text header rows hdecode hread hname hduration => ?_⟩
  · rw [loaded_eq h]
    cases hbytes : file.ofBytes bytes with
    | error fault => exact .inr ⟨_, rfl⟩
    | ok records? =>
        refine .inl ⟨_, rfl, fun r hr => ?_⟩
        cases records? with
        | none => cases hr
        | some records =>
            obtain ⟨hname, htrim⟩ := trimmed_of_ofBytes hbytes hr
            exact ⟨hname, htrim, r.finite, r.nonneg_duration⟩
  · rw [loaded_of_read h hdecode hread hname hduration]
    exact file.answers_records (titles header) rows

/-- A history whose last row ends before its duration. -/
def shortHistory : List Char := "Test Name,Duration\n a ,1.5\n,soon\nb\n".toList

/-- The file that it stands in. -/
def timingsFile : TimingFile := { path := Path.ofText "timings.csv" }

/-- A workspace with the file. -/
def shortWorkspace : Workspace :=
  { nodes := [(["timings.csv"], .file (String.ofList shortHistory).toUTF8.toList)] }

/-- What a row without a name holds does not matter, and a missing duration is reported. -/
theorem loaded_whole_or_refused_short :
    shortWorkspace.standing timingsFile.path =
        .ok (some (.file (String.ofList shortHistory).toUTF8.toList)) ∧
      timingsFile.loaded shortWorkspace =
        .error (.timing "timings.csv:4: invalid duration '' for 'b'") := by
  have hstanding : shortWorkspace.standing timingsFile.path =
      .ok (some (.file (String.ofList shortHistory).toUTF8.toList)) := rfl
  have hanswers := (loaded_whole_or_refused hstanding).2 shortHistory ⟨["Test Name", "Duration"], 1⟩
    [⟨[" a ", "1.5"], 2⟩, ⟨["", "soon"], 3⟩, ⟨["b"], 4⟩] (Text.decode_toUTF8 shortHistory) rfl
    (by decide) (by decide)
  refine ⟨hstanding,
    hanswers.first [⟨[" a ", "1.5"], 2⟩, ⟨["", "soon"], 3⟩] ⟨["b"], 4⟩ [] rfl ?_ ?_⟩
  · rintro earlier hearlier hfaulty
    rcases List.mem_pair.mp hearlier with rfl | rfl
    · exact hfaulty.untimed "1.5" rfl 1.5 ⟨rfl, by decide +kernel, by decide +kernel⟩
    · exact hfaulty.named rfl
  · exact ⟨by decide, fun text htext => nomatch htext⟩

end TimingFile

end SuiteBalance
