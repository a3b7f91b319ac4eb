import Mathlib
import SuiteBalance.Proofs.Number.Sums
import SuiteBalance.Proofs.Schedule.Bound
import SuiteBalance.Proofs.Timing.Nesting

/-!
# Proofs — Schedule — groups that cover the same tests

Two groups cover a test together only if the stem of one starts with that of the other, and then the
narrower group covers a stretch of what the wider one covers and costs no more.  The sums of doubles
that make the costs are rounded, but rounding keeps the order, and a shorter sum is never rounded
above a longer one.

* `Group.bucket`: the bucket of one group.
* `Timing.estimate_le_of_sublist`: fewer records make no greater estimate.
* **`Group.nested_or_disjoint`**: how the buckets of two groups overlap.
-/

namespace SuiteBalance

open Number

/-! ### The bucket of a group -/

/-- The bucket of a group by the records of a history. -/
def Group.bucket (g : Group) (records : List TimingRecord) : Bucket :=
  .ofMatched g ((History.ofList records).startingWith g.stem)

theorem Bucket.build_eq (groups : List Group) (records : List TimingRecord) :
    (build groups records).1 = groups.map (·.bucket records) := rfl

/-! ### Shorter sums -/

namespace Timing

/-- What the tests of some records cost one by one. -/
def costs (records : List TimingRecord) : List Float := records.map fun r => atLeastCost r.duration

theorem nonneg_of_mem_costs {records : List TimingRecord} {x : Float} (hx : x ∈ costs records) :
    0.0 ≤ x := by
  obtain ⟨r, -, rfl⟩ := List.mem_map.mp hx
  exact nonneg_atLeastCost r.nonneg_duration

/-- An estimate is the sum of the costs, raised to the least cost. -/
theorem exact_estimate_eq (records : List TimingRecord) :
    exact (estimate records) = max 10 (exact ((costs records).foldl (· + ·) 0.0)) := by
  have hnonneg := nonneg_foldl records nonneg_zero
  rw [← List.foldl_map (f := fun r : TimingRecord => atLeastCost r.duration)] at hnonneg
  rw [estimate_eq, exact_atLeastCost hnonneg, costs]

/-- Fewer records make no greater estimate. -/
theorem estimate_le_of_sublist {records records' : List TimingRecord}
    (h : records.Sublist records') : estimate records ≤ estimate records' := by
  have hsum : exact ((costs records).foldl (· + ·) 0.0) ≤
      exact ((costs records').foldl (· + ·) 0.0) :=
    exact_foldl_le (h.map _) (fun _ hy => nonneg_of_mem_costs hy) nonneg_zero nonneg_zero le_rfl
  rw [le_iff_exact_le (nonneg_estimate records) (nonneg_estimate records'), exact_estimate_eq,
    exact_estimate_eq]
  exact max_le_max_left _ hsum

end Timing

/-! ### Two groups -/

namespace Group

/-- A group whose stem extends another's covers a stretch of what the other covers. -/
theorem Extends.infix_matched {g g' : Group} (h : g.Extends g') (records : List TimingRecord) :
    (g.bucket records).matched <:+: (g'.bucket records).matched :=
  (History.ofList records).startingWith_infix_startingWith h

theorem extends_or_extends_of_mem {g g' : Group} {records : List TimingRecord} {r : TimingRecord}
    (hr : r ∈ (g.bucket records).matched) (hr' : r ∈ (g'.bucket records).matched) :
    g.Extends g' ∨ g'.Extends g :=
  extends_or_extends (History.startsWith_of_mem hr) (History.startsWith_of_mem hr')

/-- **The buckets of two groups are nested or disjoint.**  If the stem of one group extends that of
the other, it covers a stretch of what the other covers, and costs no more; if neither does, no
record is covered by both.  So buckets that are built together share a record only if the stem of
one group extends that of the other. -/
theorem nested_or_disjoint (g g' : Group) (records : List TimingRecord) :
    (g.Extends g' → (g.bucket records).matched <:+: (g'.bucket records).matched ∧
        (g.bucket records).cost ≤ (g'.bucket records).cost) ∧
      (¬ g.Extends g' → ¬ g'.Extends g →
        (g.bucket records).matched.Disjoint (g'.bucket records).matched) ∧
      ∀ groups, ∀ b ∈ (Bucket.build groups records).1, ∀ c ∈ (Bucket.build groups records).1,
        ∀ r, r ∈ b.matched → r ∈ c.matched → b.group.Extends c.group ∨ c.group.Extends b.group := by
  refine ⟨fun h => ?_, fun h h' r hr hr' => ?_, fun groups b hb c hc r hrb hrc => ?_⟩
  · have hstretch := h.infix_matched records
    exact ⟨hstretch, Timing.estimate_le_of_sublist hstretch.sublist⟩
  · exact (extends_or_extends_of_mem hr hr').elim h h'
  · rw [Bucket.build_eq] at hb hc
    obtain ⟨e, -, rfl⟩ := List.mem_map.mp hb
    obtain ⟨e', -, rfl⟩ := List.mem_map.mp hc
    exact extends_or_extends_of_mem hrb hrc

end Group

/-- The slow tests of the small suite, told by their first letter. -/
def slowGroup : Group := ⟨"s*", .number 7, by decide⟩

/-- Some of them, run by another task. -/
def slowerGroup : Group := ⟨"slow1*", .name "unit", by decide⟩

/-- The fast tests, told alike. -/
def fastGroup : Group := ⟨"f*", .name "unit", by decide⟩

/-- The slow tests of the small suite overlap with some of them, and not with the fast ones. -/
theorem Group.nested_or_disjoint_small :
    slowerGroup.Extends slowGroup ∧ (slowerGroup.bucket smallHistory).matched.length = 1 ∧
      (slowerGroup.bucket smallHistory).matched <:+: (slowGroup.bucket smallHistory).matched ∧
      (slowerGroup.bucket smallHistory).cost ≤ (slowGroup.bucket smallHistory).cost ∧
      ¬ fastGroup.Extends slowGroup ∧ ¬ slowGroup.Extends fastGroup ∧
      (fastGroup.bucket smallHistory).matched.Disjoint (slowGroup.bucket smallHistory).matched := by
  have hextends : slowerGroup.Extends slowGroup := by decide
  have hfast : ¬ fastGroup.Extends slowGroup := by decide
  have hslow : ¬ slowGroup.Extends fastGroup := by decide
  have hlength : (slowerGroup.bucket smallHistory).matched.length = 1 :=
    (History.perm_startingWith smallHistory slowerGroup.stem).length_eq.trans (by decide +kernel)
  obtain ⟨hstretch, hcost⟩ := (nested_or_disjoint slowerGroup slowGroup smallHistory).1 hextends
  have hdisjoint := (nested_or_disjoint fastGroup slowGroup smallHistory).2.1 hfast hslow
  exact ⟨hextends, hlength, hstretch, hcost, hfast, hslow, hdisjoint⟩

end SuiteBalance
