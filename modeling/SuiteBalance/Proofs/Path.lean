import Mathlib
import SuiteBalance.Path

/-!
# Proofs — Paths and their texts

A path whose parts are such as a text can name is read back from the way it is written.  The parts
of every path that was read are, and so are those of the path from the root that is meant by it.

* `Text.stretches_eq_splitOn`, `Text.points_intercalate`: texts taken apart and put together.
* **`Path.IsPart`**: what can be a part of a path that is read.
* **`Path.ofText_text`**: a path is read back.
* `Path.ofText_text_resolve`: so is what is meant by a path in a working directory.
-/

namespace SuiteBalance

namespace Text

/-! ### Texts taken apart and put together -/

theorem stretchesFrom_eq_splitOnPPrepend {α : Type} [BEq α] (mark : α) (part s : List α) :
    stretchesFrom mark part s = s.splitOnPPrepend (· == mark) part := by
  induction s generalizing part with
  | nil => rfl
  | cons a rest ih =>
      rw [stretchesFrom, List.splitOnPPrepend]
      split_ifs
      · rw [ih []]
      · exact ih _

/-- The stretches between marks are the parts of a list that is split at them. -/
theorem stretches_eq_splitOn {α : Type} [BEq α] (mark : α) (s : List α) :
    stretches mark s = s.splitOn mark := stretchesFrom_eq_splitOnPPrepend mark [] s

/-- No stretch holds the mark. -/
theorem notMem_of_mem_stretchesFrom {α : Type} [BEq α] [LawfulBEq α] {mark : α}
    {part s l : List α} (hpart : mark ∉ part) (h : l ∈ stretchesFrom mark part s) : mark ∉ l := by
  induction s generalizing part with
  | nil =>
      obtain rfl := List.mem_singleton.mp h
      rwa [List.mem_reverse]
  | cons a rest ih =>
      rw [stretchesFrom] at h
      split_ifs at h with ha
      · rcases List.mem_cons.mp h with rfl | h
        · rwa [List.mem_reverse]
        · exact ih List.not_mem_nil h
      · refine ih ?_ h
        rw [List.mem_cons, not_or]
        exact ⟨fun heq => ha (beq_iff_eq.mpr heq.symm), hpart⟩

theorem intercalate_append_append {α : Type} (separator a b : List α) (rest : List (List α)) :
    separator.intercalate ((a ++ separator ++ b) :: rest) =
      separator.intercalate (a :: b :: rest) := by
  rw [List.intercalate_cons_cons]
  cases rest with
  | nil => rw [List.intercalate_singleton, List.intercalate_singleton]
  | cons c rest =>
      simp only [List.intercalate_cons_cons, List.append_assoc]

/-- The code points of texts that are put together. -/
theorem points_intercalate (separator : Text) (texts : List Text) :
    (intercalate separator texts).points = separator.points.intercalate (texts.map points) := by
  cases texts with
  | nil => rfl
  | cons t rest =>
      rw [intercalate, List.map_cons]
      induction rest generalizing t with
      | nil => rw [List.map_nil, List.intercalate_singleton, List.foldl_nil]
      | cons u rest ih =>
          rw [List.foldl_cons, ih, List.map_cons, points_append, points_append,
            intercalate_append_append]

end Text

namespace Path

/-! ### Parts -/

/-- A part that a path can have once it is read. -/
def IsPart (part : Text) : Prop := part ≠ "" ∧ part ≠ "." ∧ .char '/' ∉ part.points

instance : DecidablePred IsPart := fun part =>
  inferInstanceAs (Decidable (part ≠ "" ∧ part ≠ "." ∧ .char '/' ∉ part.points))

variable {part s : Text} {directory parts : List Text} {p : Path}

theorem isPart_of_mem_parts (h : part ∈ (ofText s).parts) : IsPart part := by
  obtain ⟨hmem, hkept⟩ := List.mem_filter.mp h
  obtain ⟨stretch, hstretch, rfl⟩ := List.mem_map.mp hmem
  obtain ⟨hempty, hhere⟩ := of_decide_eq_true hkept
  refine ⟨hempty, hhere, ?_⟩
  rw [Text.points_ofPoints]
  exact Text.notMem_of_mem_stretchesFrom List.not_mem_nil hstretch

/-- Going down along parts comes to parts. -/
theorem isPart_descend (hdirectory : ∀ part ∈ directory, IsPart part)
    (hparts : ∀ part ∈ parts, IsPart part) : ∀ part ∈ descend directory parts, IsPart part := by
  induction parts generalizing directory with
  | nil => exact hdirectory
  | cons next parts ih =>
      rw [List.forall_mem_cons] at hparts
      rw [descend, List.foldl_cons]
      refine ih ?_ hparts.2
      split_ifs
      · exact fun part hpart => hdirectory part (List.dropLast_subset _ hpart)
      · rw [List.forall_mem_append, List.forall_mem_singleton]
        exact ⟨hdirectory, hparts.1⟩

theorem isPart_resolve (hdirectory : ∀ part ∈ directory, IsPart part) (s : Text) :
    ∀ part ∈ ((ofText s).resolve directory).parts, IsPart part := by
  refine isPart_descend ?_ fun _ => isPart_of_mem_parts
  split_ifs
  · exact List.forall_mem_nil _
  · exact hdirectory

/-! ### Paths that are read back -/

/-- The parts of a text, but for those without a meaning. -/
def partsOf (points : List CodePoint) : List Text :=
  ((points.splitOn (.char '/')).map Text.ofPoints).filter fun part => part ≠ "" ∧ part ≠ "."

theorem parts_ofText (s : Text) : (ofText s).parts = partsOf s.points := by
  rw [ofText, Text.stretches_eq_splitOn]
  rfl

/-- A slash in front is left out. -/
theorem partsOf_slash (points : List CodePoint) :
    partsOf (.char '/' :: points) = partsOf points := by
  have hsplit : (.char '/' :: points : List CodePoint).splitOn (.char '/') =
      [] :: points.splitOn (.char '/') :=
    List.splitOnP_append_cons_of_forall_mem (List.forall_mem_nil _) _ (by decide) _
  rw [partsOf, hsplit]
  rfl

/-- Parts are found again between the slashes. -/
theorem partsOf_intercalate (h : ∀ part ∈ parts, IsPart part) :
    partsOf (List.intercalate [.char '/'] (parts.map Text.points)) = parts := by
  cases parts with
  | nil => rfl
  | cons part parts =>
      have hsplit : (List.intercalate [.char '/'] ((part :: parts).map Text.points)).splitOn
          (.char '/') = (part :: parts).map Text.points :=
        List.splitOn_intercalate _ (List.forall_mem_map.mpr fun part hpart => (h part hpart).2.2)
          (List.cons_ne_nil _ _)
      have hback : ((part :: parts).map Text.points).map Text.ofPoints = part :: parts := by
        rw [List.map_map]
        exact List.map_id'' Text.ofPoints_points _
      rw [partsOf, hsplit, hback, List.filter_eq_self]
      intro part hpart
      obtain ⟨hempty, hhere, -⟩ := h part hpart
      exact decide_eq_true ⟨hempty, hhere⟩

/-- Parts do not begin with a slash. -/
theorem head?_intercalate (h : ∀ part ∈ parts, IsPart part) :
    (List.intercalate [.char '/'] (parts.map Text.points)).head? ≠ some (.char '/') := by
  cases parts with
  | nil => exact nofun
  | cons part parts =>
      obtain ⟨hempty, -, hslash⟩ := h part (List.mem_cons_self ..)
      cases hpoints : part.points with
      | nil => exact absurd ((Text.ofPoints_points part).symm.trans (by rw [hpoints]; rfl)) hempty
      | cons c points =>
          rw [hpoints, List.mem_cons, not_or] at hslash
          have hhead : (List.intercalate [.char '/']
              ((part :: parts).map Text.points)).head? = some c := by
            rw [List.map_cons, hpoints]
            cases parts <;> rfl
          rw [hhead]
          exact fun heq => hslash.1 (Option.some.inj heq).symm

/-- The anchor of a text whose rest does not begin with a slash. -/
theorem anchorOf_append {anchor : Anchor} {points : List CodePoint}
    (h : points.head? ≠ some (.char '/')) :
    anchorOf ((anchor.text : Text).points ++ points) = anchor := by
  have hne (tail : List CodePoint) (heq : points = .char '/' :: tail) : False := by
    rw [heq] at h
    exact h rfl
  cases anchor with
  | here => exact anchorOf.eq_4 _ (fun _ => hne _) (fun _ => hne _) hne
  | root => exact anchorOf.eq_3 _ (fun _ => hne _) hne
  | doubleRoot => exact anchorOf.eq_2 _ hne

/-- **A path is read back from the way it is written.** -/
theorem ofText_text (h : ∀ part ∈ p.parts, IsPart part) : ofText p.text = p := by
  obtain ⟨anchor, parts⟩ := p
  unfold text
  split_ifs with hhere
  · obtain ⟨rfl, rfl⟩ : anchor = .here ∧ parts = [] := hhere
    rfl
  · have hpoints : ((anchor.text : Text) ++ Text.intercalate "/" parts).points =
        (anchor.text : Text).points ++ List.intercalate [.char '/'] (parts.map Text.points) := by
      rw [Text.points_append, Text.points_intercalate]
      rfl
    have hparts := partsOf_intercalate h
    have hanchor : anchorOf ((anchor.text : Text).points ++ _) = anchor :=
      anchorOf_append (head?_intercalate h)
    generalize List.intercalate [.char '/'] (parts.map Text.points) = points at *
    have hslashes : partsOf ((anchor.text : Text).points ++ points) = partsOf points := by
      cases anchor with
      | here => rfl
      | root => exact partsOf_slash _
      | doubleRoot => exact (partsOf_slash _).trans (partsOf_slash _)
    have hread : (ofText ((anchor.text : Text) ++ Text.intercalate "/" parts)).parts = parts := by
      rw [parts_ofText, hpoints, hslashes, hparts]
    have hread' :
        (ofText ((anchor.text : Text) ++ Text.intercalate "/" parts)).anchor = anchor := by
      change anchorOf ((anchor.text : Text) ++ Text.intercalate "/" parts).points = anchor
      rw [hpoints, hanchor]
    exact congrArg₂ mk hread' hread

/-- **What is meant by a path in a working directory is read back.** -/
theorem ofText_text_resolve (hdirectory : ∀ part ∈ directory, IsPart part) (s : Text) :
    ofText ((ofText s).resolve directory).text = (ofText s).resolve directory :=
  ofText_text (isPart_resolve hdirectory s)

end Path

end SuiteBalance
