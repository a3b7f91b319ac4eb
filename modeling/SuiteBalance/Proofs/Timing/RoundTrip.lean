import Mathlib
import SuiteBalance.Proofs.Csv.RoundTrip
import SuiteBalance.Proofs.Number.Reading
import SuiteBalance.Proofs.Timing.File

/-!
# Proofs — Timing — durations that were written

Names and durations can be laid out as a table in many ways: among any other columns, in any order,
and with either line break.  What is loaded does not depend on the way.

* **`TimingFile.Layout`**: names and durations as two columns of a table.
* `TimingFile.lastPosition?_eq_some`: among distinct titles a column is where its title is.
* **`TimingFile.loaded_layout`**: every layout of the same names and durations is loaded as the same
  records.
-/

namespace SuiteBalance.TimingFile

open Timing

/-! ### Columns -/

section Columns

variable {header : List Text} {column : Text}

theorem lastPosition?_eq_none (h : column ∉ header) : lastPosition? header column = none := by
  induction header with
  | nil => rfl
  | cons field rest ih =>
      rw [List.mem_cons, not_or] at h
      rw [lastPosition?, ih h.2]
      exact if_neg (Ne.symm h.1)

/-- Among distinct titles a column is where its title is. -/
theorem lastPosition?_eq_some {i : ℕ} (hnodup : header.Nodup) (h : header[i]? = some column) :
    lastPosition? header column = some i := by
  induction header generalizing i with
  | nil => cases h
  | cons field rest ih =>
      obtain ⟨hfield, hrest⟩ := List.nodup_cons.mp hnodup
      cases i with
      | zero =>
          obtain rfl := Option.some.inj h
          rw [lastPosition?, lastPosition?_eq_none hfield]
          exact if_pos rfl
      | succ i => rw [lastPosition?, ih hrest h]

end Columns

/-! ### Layouts -/

/-- Names and texts of durations as two columns of a table with distinct titles. -/
structure Layout (file : TimingFile) (entries : List (String × String)) where
  header : List String
  headerEnd : Csv.RowEnd
  rows : List (List String × Csv.RowEnd)
  nameAt : ℕ
  durationAt : ℕ
  nodup : header.Nodup
  titled_name : (header.map Text.ofString)[nameAt]? = some file.nameColumn
  titled_duration : (header.map Text.ofString)[durationAt]? = some file.durationColumn
  holds : List.Forall₂ (fun row e => row.1[nameAt]? = some e.1 ∧ row.1[durationAt]? = some e.2)
    rows entries
  fits : ∀ row ∈ (header, headerEnd) :: rows, ∀ field ∈ row.1, field.length ≤ Csv.fieldLimit

variable {file : TimingFile} {entries : List (String × String)} {records : List TimingRecord}
  {w : Workspace}

/-- The bytes of a layout: each field between quotes, its quotes written twice. -/
def Layout.bytes (layout : Layout file entries) : List UInt8 :=
  (String.ofList
    (Csv.writeRows ((layout.header, layout.headerEnd) :: layout.rows))).toUTF8.toList

/-- A record of an entry: its name without the blanks around it, and the number of its duration. -/
def RecordOf (e : String × String) (r : TimingRecord) : Prop :=
  r.name = Text.trim e.1 ∧ Number.readFloat? e.2 = some r.duration

/-- Rows that hold entries are read as the records of these. -/
theorem records_of_entries {header : List Text} {rows : List Csv.Row}
    (hrows : List.Forall₂ (fun row e => cell? header row file.nameColumn = some e.1 ∧
      cell? header row file.durationColumn = some e.2) rows entries)
    (hrecords : List.Forall₂ RecordOf (entries.filter (Text.trim ·.1 ≠ "")) records) :
    file.records header rows = .ok records := by
  induction hrows generalizing records with
  | nil =>
      cases hrecords
      rfl
  | @cons row e rows entries hrow _ ih =>
      have hname : file.nameIn header row = Text.trim e.1 := by rw [nameIn, hrow.1]; rfl
      by_cases hblank : Text.trim e.1 = ""
      · rw [List.filter_cons_of_neg (by simpa using hblank)] at hrecords
        rw [records_cons_of_unnamed (hname.trans hblank), ih hrecords]
      · rw [List.filter_cons_of_pos (by simpa using hblank)] at hrecords
        cases hrecords with
        | @cons _ r _ records hr hrest =>
          have htells : file.Tells header row r :=
            ⟨hr.1.trans hname.symm, e.2, hrow.2, Number.readFloat?_trim hr.2, r.finite,
              r.nonneg_duration⟩
          rw [records_cons_of_tells (by rwa [hname]) htells, ih hrest]
          rfl

/-- A layout is loaded as the records of its entries. -/
theorem loaded_of_standing (layout : Layout file entries)
    (h : w.standing file.path = .ok (some (.file layout.bytes)))
    (hrecords : List.Forall₂ RecordOf (entries.filter (Text.trim ·.1 ≠ "")) records) :
    file.loaded w = .ok records := by
  obtain ⟨table, hfields, hread⟩ := Csv.read_writeRows layout.fits
  cases table with
  | nil => cases hfields
  | cons header rows =>
      obtain ⟨hheader, hrows⟩ := List.cons.inj hfields
      have htitles : titles header = layout.header.map Text.ofString := congrArg _ hheader
      have hnodup : (titles header).Nodup := by
        rw [htitles]
        exact layout.nodup.map fun _ _ => Text.ofString.inj
      have hname : (titles header)[layout.nameAt]? = some file.nameColumn := by
        rw [htitles, layout.titled_name]
      have hduration : (titles header)[layout.durationAt]? = some file.durationColumn := by
        rw [htitles, layout.titled_duration]
      have hcells : List.Forall₂ (fun (fields : List String) (e : String × String) =>
          fields[layout.nameAt]? = some e.1 ∧ fields[layout.durationAt]? = some e.2)
          (rows.map Csv.Row.fields) entries := by
        rw [hrows]
        exact List.forall₂_map_left_iff.mpr layout.holds
      have hrecorded : file.records (titles header) rows = .ok records := by
        refine records_of_entries ((List.forall₂_map_left_iff.mp hcells).imp ?_) hrecords
        intro row e hrow
        rw [cell?, cell?, lastPosition?_eq_some hnodup hname,
          lastPosition?_eq_some hnodup hduration]
        exact hrow
      rw [loaded_of_read h (Text.decode_toUTF8 _) hread (List.mem_of_getElem? hname)
        (List.mem_of_getElem? hduration), hrecorded]
      rfl

theorem exists_forall₂ {α β : Type} {R : α → β → Prop} {l : List α} (h : ∀ a ∈ l, ∃ b, R a b) :
    ∃ bs, List.Forall₂ R l bs := by
  induction l with
  | nil => exact ⟨[], .nil⟩
  | cons a l ih =>
      obtain ⟨⟨b, hb⟩, hl⟩ := List.forall_mem_cons.mp h
      obtain ⟨bs, hbs⟩ := ih hl
      exact ⟨b :: bs, .cons hb hbs⟩

/-- **Every layout of the same names and durations is loaded as the same records**, one for each
name that is not blank, in the order of the rows. -/
theorem loaded_layout (entries : List (String × String))
    (timed : ∀ e ∈ entries, Text.trim e.1 ≠ "" → ∃ x, Seconds e.2 x) :
    ∃ records, List.Forall₂ RecordOf (entries.filter (Text.trim ·.1 ≠ "")) records ∧
      ∀ (file : TimingFile) (layout : Layout file entries) (w : Workspace),
        w.standing file.path = .ok (some (.file layout.bytes)) → file.loaded w = .ok records := by
  obtain ⟨records, hrecords⟩ : ∃ records,
      List.Forall₂ RecordOf (entries.filter (Text.trim ·.1 ≠ "")) records := by
    refine exists_forall₂ fun e he => ?_
    obtain ⟨hmem, hname⟩ := List.mem_filter.mp he
    obtain ⟨x, hread, hfinite, hnonneg⟩ := timed e hmem (of_decide_eq_true hname)
    exact ⟨⟨Text.trim e.1, x, hfinite, Number.not_lt_of_nonneg hnonneg⟩, rfl, hread⟩
  exact ⟨records, hrecords, fun file layout w h => loaded_of_standing layout h hrecords⟩

/-- A name that needs its quotes, and one that is blank. -/
def quotedEntries : List (String × String) := [(" say \"hi\",\r\nnow", " 1.5"), (" ", "soon")]

/-- Two columns in their usual order. -/
def plainLayout : Layout timingsFile quotedEntries where
  header := ["Test Name", "Duration"]
  headerEnd := .lf
  rows := [([" say \"hi\",\r\nnow", " 1.5"], .lf), ([" ", "soon"], .lf)]
  nameAt := 0
  durationAt := 1
  nodup := by decide
  titled_name := rfl
  titled_duration := rfl
  holds := .cons ⟨rfl, rfl⟩ (.cons ⟨rfl, rfl⟩ .nil)
  fits := by decide

/-- The other order, around a third column. -/
def wideLayout : Layout timingsFile quotedEntries where
  header := ["Duration", "Kind, or \"mark\"", "Test Name"]
  headerEnd := .crlf
  rows := [([" 1.5", "a\rb", " say \"hi\",\r\nnow"], .crlf), (["soon", "", " "], .crlf)]
  nameAt := 2
  durationAt := 0
  nodup := by decide
  titled_name := rfl
  titled_duration := rfl
  holds := .cons ⟨rfl, rfl⟩ (.cons ⟨rfl, rfl⟩ .nil)
  fits := by decide

/-- A workspace with one of the layouts. -/
def quotedWorkspace (layout : Layout timingsFile quotedEntries) : Workspace :=
  { nodes := [(["timings.csv"], .file layout.bytes)] }

/-- Both layouts are loaded as one record. -/
theorem loaded_layout_quoted :
    (∀ e ∈ quotedEntries, Text.trim e.1 ≠ "" → ∃ x, Seconds e.2 x) ∧
    ∃ r : TimingRecord, r.name = "say \"hi\",\r\nnow" ∧ Number.readFloat? " 1.5" = some r.duration ∧
      timingsFile.loaded (quotedWorkspace plainLayout) = .ok [r] ∧
      timingsFile.loaded (quotedWorkspace wideLayout) = .ok [r] := by
  have timed : ∀ e ∈ quotedEntries, Text.trim e.1 ≠ "" → ∃ x, Seconds e.2 x := by
    intro e he hname
    rcases List.mem_pair.mp he with rfl | rfl
    · exact ⟨1.5, rfl, by decide +kernel, by decide +kernel⟩
    · exact absurd rfl hname
  obtain ⟨records, hrecords, hloaded⟩ := loaded_layout quotedEntries timed
  have hfilter : quotedEntries.filter (Text.trim ·.1 ≠ "") = [(" say \"hi\",\r\nnow", " 1.5")] := by
    decide
  rw [hfilter] at hrecords
  obtain ⟨r, _, ⟨hname, hread⟩, hnil, rfl⟩ := List.forall₂_cons_left_iff.mp hrecords
  obtain rfl := List.forall₂_nil_left_iff.mp hnil
  exact ⟨timed, r, hname, hread, hloaded timingsFile plainLayout _ rfl,
    hloaded timingsFile wideLayout _ rfl⟩

end SuiteBalance.TimingFile
