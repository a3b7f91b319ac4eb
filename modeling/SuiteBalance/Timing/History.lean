import SuiteBalance.Timing.Record

/-!
# Timing — the history

A **`History`** keeps timing records sorted by name, records of one name in the order in which
they came.  Names with a common start stand together, so **`startingWith`** finds the first
candidate by bisection and reads on until a name starts otherwise.
-/

namespace SuiteBalance

/-- Whether the first record's name is not behind the second's. -/
def TimingRecord.precedes (a b : TimingRecord) : Bool := decide (a.name ≤ b.name)

theorem TimingRecord.precedes_trans (a b c : TimingRecord) (hab : a.precedes b)
    (hbc : b.precedes c) : a.precedes c := by
  simp only [precedes, decide_eq_true_eq] at *
  exact String.le_trans hab hbc

theorem TimingRecord.precedes_total (a b : TimingRecord) : a.precedes b || b.precedes a := by
  simpa only [precedes, Bool.or_eq_true, decide_eq_true_eq] using String.le_total a.name b.name

/-- Timing records sorted by name. -/
structure History where
  records : Array TimingRecord
  sorted : records.toList.Pairwise fun a b => a.precedes b = true

namespace History

/-- Sorts records by name; records of one name keep their order. -/
def ofList (records : List TimingRecord) : History :=
  ⟨(records.mergeSort TimingRecord.precedes).toArray,
    List.pairwise_mergeSort TimingRecord.precedes_trans TimingRecord.precedes_total records⟩

/-- A history holds the records that it is made of. -/
theorem perm_ofList (records : List TimingRecord) : (ofList records).records.toList.Perm records :=
  List.mergeSort_perm records _

/-- The number of records. -/
def size (h : History) : Nat := h.records.size

theorem size_ofList (records : List TimingRecord) : (ofList records).size = records.length :=
  (perm_ofList records).length_eq

/-- The first position from `low` up to `high` whose name is not before `stem`, given that the
names before `low` are and those from `high` on are not. -/
def bisect (h : History) (stem : String) (low high : Nat) : Nat :=
  if hlt : low < high then
    let middle := (low + high) / 2
    if h.records[middle]?.any (·.name < stem) then bisect h stem (middle + 1) high
    else bisect h stem low middle
  else low
termination_by high - low

/-- The records whose names start with `stem`. -/
def startingWith (h : History) (stem : String) : List TimingRecord :=
  ((h.records.toList.drop (h.bisect stem 0 h.size)).takeWhile fun r => startsWith r.name stem)

end History

end SuiteBalance
