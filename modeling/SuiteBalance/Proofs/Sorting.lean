import Mathlib

/-!
# Proofs — sorting

A merge sort is stable, so some of the members of a list come out of it as if they were alone.

* `exists_mergeSort_cons`: where one more member comes.
* **`mergeSort_filter`**: a part of a list, sorted, is that part of the sorted list.
* `filter_mergeSort`: members of which none has to come before another keep their order.
-/

namespace SuiteBalance

variable {α : Type} {le : α → α → Bool}

/-- Two ways to part a list into what has a property and what does not are the same. -/
theorem append_inj_of_filter {q : α → Bool} {l₁ l₂ m₁ m₂ : List α}
    (h : l₁ ++ l₂ = m₁ ++ m₂) (hl₁ : ∀ a ∈ l₁, q a = true) (hl₂ : ∀ a ∈ l₂, q a = false)
    (hm₁ : ∀ a ∈ m₁, q a = true) (hm₂ : ∀ a ∈ m₂, q a = false) : l₁ = m₁ ∧ l₂ = m₂ := by
  have hfilter := congrArg (List.filter q) h
  have hnone {l : List α} (hl : ∀ a ∈ l, q a = false) : l.filter q = [] :=
    List.filter_eq_nil_iff.mpr fun a ha => by simp [hl a ha]
  rw [List.filter_append, List.filter_append, List.filter_eq_self.mpr hl₁, hnone hl₂,
    List.filter_eq_self.mpr hm₁, hnone hm₂, List.append_nil, List.append_nil] at hfilter
  obtain rfl := hfilter
  exact ⟨rfl, List.append_cancel_left h⟩

/-- One more member comes behind those that it may not come before, and before all others. -/
theorem exists_mergeSort_cons (trans : ∀ a b c, le a b = true → le b c = true → le a c = true)
    (total : ∀ a b, (le a b || le b a) = true) (a : α) (l : List α) :
    ∃ l₁ l₂, (a :: l).mergeSort le = l₁ ++ a :: l₂ ∧ l.mergeSort le = l₁ ++ l₂ ∧
      (∀ b ∈ l₁, (!le a b) = true) ∧ ∀ b ∈ l₂, (!le a b) = false := by
  obtain ⟨l₁, l₂, hcons, hrest, hbefore⟩ := List.mergeSort_cons trans total a l
  have hsorted := List.pairwise_mergeSort trans total (a :: l)
  rw [hcons] at hsorted
  have hbehind := (List.pairwise_cons.mp (List.pairwise_append.mp hsorted).2.1).1
  exact ⟨l₁, l₂, hcons, hrest, hbefore, fun b hb => by simp [hbehind b hb]⟩

/-- **A part of a list, sorted, is that part of the sorted list.** -/
theorem mergeSort_filter (trans : ∀ a b c, le a b = true → le b c = true → le a c = true)
    (total : ∀ a b, (le a b || le b a) = true) (q : α → Bool) (l : List α) :
    (l.filter q).mergeSort le = (l.mergeSort le).filter q := by
  induction l with
  | nil => simp
  | cons a l ih =>
      obtain ⟨l₁, l₂, hcons, hrest, hbefore, hbehind⟩ := exists_mergeSort_cons trans total a l
      rw [hcons, List.filter_append]
      rw [hrest, List.filter_append] at ih
      cases hq : q a with
      | false =>
          rw [List.filter_cons_of_neg (by simp [hq]), List.filter_cons_of_neg (by simp [hq]), ih]
      | true =>
          -- both orders part the rest at `a` in the same way
          obtain ⟨m₁, m₂, hcons', hrest', hbefore', hbehind'⟩ :=
            exists_mergeSort_cons trans total a (l.filter q)
          rw [hrest'] at ih
          obtain ⟨rfl, rfl⟩ := append_inj_of_filter ih hbefore' hbehind'
            (fun b hb => hbefore b (List.mem_of_mem_filter hb))
            (fun b hb => hbehind b (List.mem_of_mem_filter hb))
          rw [List.filter_cons_of_pos hq, List.filter_cons_of_pos hq, hcons']

/-- Members of which none has to come before another keep their order. -/
theorem filter_mergeSort (trans : ∀ a b c, le a b = true → le b c = true → le a c = true)
    (total : ∀ a b, (le a b || le b a) = true) {q : α → Bool} {l : List α}
    (h : ∀ a ∈ l, ∀ b ∈ l, q a = true → q b = true → le a b = true) :
    (l.mergeSort le).filter q = l.filter q := by
  rw [← mergeSort_filter trans total]
  refine List.mergeSort_of_pairwise (List.pairwise_of_forall_mem_list fun a ha b hb => ?_)
  obtain ⟨ha, hqa⟩ := List.mem_filter.mp ha
  obtain ⟨hb, hqb⟩ := List.mem_filter.mp hb
  exact h a ha b hb hqa hqb

end SuiteBalance
