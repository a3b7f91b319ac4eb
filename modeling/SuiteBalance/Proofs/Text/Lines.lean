import Mathlib
import SuiteBalance.Text.Lines

/-!
# Proofs — Text — lines

A text is cut at every line end, and neither the breaks that are unified before nor the line end at
the end of the text matter to what looks at lines that are not empty.

* `not_of_mem_splitOnP`: a stretch between line ends holds none.
* `filterMap_lines`: what is found on the lines of a text is found between its line ends.
* `filterMap_unifyBreaks`: unified breaks leave it there.
* **`filterMap_lines_unifyBreaks`**: both, for a text as it stands in a file.
-/

namespace SuiteBalance.Text

/-! ### Stretches without line ends -/

/-- A stretch between two members of a kind holds none of the kind. -/
theorem not_of_mem_splitOnPPrepend {α : Type} {p : α → Bool} {s part done : List α}
    (h : part ∈ List.splitOnPPrepend p s done) (hdone : ∀ a ∈ done, p a = false) :
    ∀ a ∈ part, p a = false := by
  induction s generalizing done with
  | nil =>
      rw [List.splitOnPPrepend_nil, List.mem_singleton] at h
      subst h
      simpa using hdone
  | cons a s ih =>
      cases ha : p a with
      | true =>
          rw [List.splitOnPPrepend_cons_pos ha, List.mem_cons] at h
          rcases h with rfl | h
          · simpa using hdone
          · exact ih h (List.forall_mem_nil _)
      | false =>
          rw [List.splitOnPPrepend_cons_neg ha] at h
          exact ih h (List.forall_mem_cons.mpr ⟨ha, hdone⟩)

theorem not_of_mem_splitOnP {α : Type} {p : α → Bool} {s part : List α}
    (h : part ∈ s.splitOnP p) : ∀ a ∈ part, p a = false :=
  not_of_mem_splitOnPPrepend h (List.forall_mem_nil _)

variable {β : Type} {f : List Char → Option β}

/-! ### Lines -/

theorem filterMap_linesFrom (hf : f [] = none) (done : List (List Char)) (line s : List Char) :
    (linesFrom done line s).filterMap f =
      done.reverse.filterMap f ++ (List.splitOnPPrepend endsLine s line).filterMap f := by
  fun_induction linesFrom done line s with
  | case1 done line =>
      rw [List.splitOnPPrepend_nil]
      cases line with
      | nil => simp [hf]
      | cons c line => simp
  | case2 done line c rest hc ih =>
      rw [ih, List.splitOnPPrepend_cons_pos hc, List.reverse_cons, List.filterMap_append,
        List.append_assoc, ← List.filterMap_append]
      rfl
  | case3 done line c rest hc ih =>
      rw [ih, List.splitOnPPrepend_cons_neg (Bool.eq_false_iff.mpr hc)]

/-- What is found on the lines of a text is found between its line ends. -/
theorem filterMap_lines (hf : f [] = none) (s : List Char) :
    (lines s).filterMap f = (s.splitOnP endsLine).filterMap f :=
  filterMap_linesFrom hf [] [] s

/-! ### Breaks -/

theorem filterMap_unifyBreaksFrom (hf : f [] = none) (done s : List Char) :
    ((unifyBreaksFrom done s).splitOnP endsLine).filterMap f =
      ((done.reverse ++ s).splitOnP endsLine).filterMap f := by
  have hlf : endsLine '\n' = true := by decide
  have hcr : endsLine '\r' = true := by decide
  fun_induction unifyBreaksFrom done s with
  | case1 done => rw [List.append_nil]
  | case2 done rest ih =>
      -- the two breaks have an empty stretch between them
      have hempty : ('\n' :: rest).splitOnP endsLine = [] :: rest.splitOnP endsLine :=
        List.splitOnP_append_cons [] rest hlf
      rw [ih, List.reverse_cons, List.append_assoc, List.singleton_append,
        List.splitOnP_append_cons _ _ hlf, List.splitOnP_append_cons _ _ hcr, hempty,
        List.filterMap_append, List.filterMap_append, List.filterMap_cons_none hf]
  | case3 done rest _ ih =>
      rw [ih, List.reverse_cons, List.append_assoc, List.singleton_append,
        List.splitOnP_append_cons _ _ hlf, List.splitOnP_append_cons _ _ hcr]
  | case4 done c rest _ _ ih =>
      rw [ih, List.reverse_cons, List.append_assoc, List.singleton_append]

/-- Unified breaks leave what is found between line ends. -/
theorem filterMap_unifyBreaks (hf : f [] = none) (s : List Char) :
    ((unifyBreaks s).splitOnP endsLine).filterMap f = (s.splitOnP endsLine).filterMap f :=
  filterMap_unifyBreaksFrom hf [] s

/-- **What is found on the lines of a file is found between the line ends of its text**, breaks of
any kind among them. -/
theorem filterMap_lines_unifyBreaks (hf : f [] = none) (s : List Char) :
    (lines (unifyBreaks s)).filterMap f = (s.splitOnP endsLine).filterMap f :=
  (filterMap_lines hf _).trans (filterMap_unifyBreaks hf s)

end SuiteBalance.Text
