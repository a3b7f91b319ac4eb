import Mathlib
import SuiteBalance.Proofs.Timing.History

/-!
# Proofs — Timing — stems within one another

One stem may be the start of another.  Then whatever the longer one finds is found by the shorter
one too, and stands together there, as names with one start stand together in every sorted list.  If
neither stem is the start of the other, no name starts with both.

* `Group.Extends`: the stem of one group starts with that of another.
* `Group.extends_or_extends`: groups that cover one name.
* `History.infix_startingWith`: a look-up finds a stretch of the history.
* **`History.startingWith_infix_startingWith`**: a look-up of a longer stem finds a stretch of what
  the shorter one finds.
-/

namespace SuiteBalance

/-- Whether the stem of a group starts with that of another. -/
def Group.Extends (g g' : Group) : Prop := g'.stem.toList <+: g.stem.toList

instance (g g' : Group) : Decidable (g.Extends g') :=
  inferInstanceAs (Decidable (g'.stem.toList <+: g.stem.toList))

/-! ### Names -/

/-- A name that starts with a stem starts with whatever the stem starts with. -/
theorem startsWith_of_prefix {name stem shorter : String}
    (hshorter : shorter.toList <+: stem.toList)
    (h : startsWith name stem) : startsWith name shorter :=
  startsWith_iff.mpr (hshorter.trans (startsWith_iff.mp h))

/-- **Of two groups that cover one name, the stem of one starts with that of the other.** -/
theorem Group.extends_or_extends {g g' : Group} {name : String} (h : startsWith name g.stem)
    (h' : startsWith name g'.stem) : g.Extends g' ∨ g'.Extends g :=
  List.prefix_or_prefix_of_prefix (startsWith_iff.mp h') (startsWith_iff.mp h)

namespace History

variable {h : History} {stem shorter : String}

/-- What a look-up finds starts with the stem. -/
theorem startsWith_of_mem {r : TimingRecord} (hr : r ∈ h.startingWith stem) :
    startsWith r.name stem := by
  rw [startingWith_eq_filter] at hr
  exact (List.mem_filter.mp hr).2

/-- **A look-up finds a stretch of the history.** -/
theorem infix_startingWith (h : History) (stem : String) :
    h.startingWith stem <:+: h.records.toList :=
  (List.takeWhile_prefix _).isInfix.trans (List.drop_suffix _ _).isInfix

/-- What a look-up finds, as a history of its own. -/
def narrowed (h : History) (stem : String) : History where
  records := (h.startingWith stem).toArray
  sorted := h.sorted.sublist (infix_startingWith h stem).sublist

theorem records_narrowed (h : History) (stem : String) :
    (h.narrowed stem).records.toList = h.startingWith stem := rfl

/-- **A look-up of a stem finds a stretch of what a shorter stem finds.** -/
theorem startingWith_infix_startingWith (h : History) (hshorter : shorter.toList <+: stem.toList) :
    h.startingWith stem <:+: h.startingWith shorter := by
  -- the longer stem is looked up among what the shorter one finds
  have hnarrowed : (h.narrowed shorter).startingWith stem = h.startingWith stem := by
    rw [startingWith_eq_filter, records_narrowed, startingWith_eq_filter, startingWith_eq_filter,
      List.filter_filter]
    refine List.filter_congr fun r _ => ?_
    rw [Bool.and_eq_left_iff_imp]
    exact startsWith_of_prefix hshorter
  rw [← hnarrowed]
  exact (h.narrowed shorter).infix_startingWith stem

end History

end SuiteBalance
