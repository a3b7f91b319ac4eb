import Mathlib
import SuiteBalance.Proofs.Json.RoundTrip
import SuiteBalance.Proofs.Text.Ascii
import SuiteBalance.Proofs.Text.Utf8

/-!
# Proofs — JSON — the bytes of a document

A document is written in plain characters whatever texts it holds, so no line break in it is unified
with another one.

* `plain_write`: all that is written is plain.
* **`parse_document`**: the bytes of a document are read as its value.
-/

namespace SuiteBalance.Json

open Number Text

/-! ### What is written -/

theorem plain_of_isDigit {c : Char} (h : c.isDigit = true) : Plain c := by
  rw [Char.isDigit, Bool.and_eq_true, decide_eq_true_iff, decide_eq_true_iff] at h
  have hle : '0'.toNat ≤ c.toNat := h.1
  have hge : c.toNat ≤ '9'.toNat := h.2
  exact .inr ⟨hle.trans' (by decide), hge.trans_lt (by decide)⟩

theorem plain_digitChar : ∀ d < 16, Plain (Nat.digitChar d) := by decide

theorem plain_backslash : Plain '\\' := by simp [Plain]

theorem plain_unitEscape {n : ℕ} (h : n < 0x10000) : ∀ c ∈ unitEscape n, Plain c := by
  have hlead : n / 16 / 16 / 16 < 16 := by omega
  have hdigit (k : ℕ) : k % 16 < 16 := Nat.mod_lt _ (by norm_num)
  rw [unitEscape, hexDigits_four h, List.forall_mem_cons, List.forall_mem_cons, List.forall_mem_map]
  refine ⟨plain_backslash, by simp [Plain], fun d hd => plain_digitChar d ?_⟩
  simp only [List.mem_cons, List.not_mem_nil, or_false] at hd
  rcases hd with rfl | rfl | rfl | rfl
  · exact hlead
  · exact hdigit _
  · exact hdigit _
  · exact hdigit _

/-- What stands behind a backslash is plain. -/
theorem plain_of_unescape? {l c : Char} (h : unescape? l = some c) : Plain l := by
  unfold unescape? at h
  split at h
  case h_9 => cases h
  all_goals simp [Plain]

theorem plain_escapeChar (c : Char) : ∀ d ∈ escapeChar c, Plain d := by
  have hescape := escape_char c
  generalize escapeChar c = written at hescape
  cases hescape with
  | letter h =>
      rw [List.forall_mem_cons, List.forall_mem_singleton]
      exact ⟨plain_backslash, plain_of_unescape? h⟩
  | itself h =>
      rw [List.forall_mem_singleton]
      exact .inr h
  | unit h => exact plain_unitEscape h
  | pair h hoffset =>
      rw [List.forall_mem_append]
      exact ⟨plain_unitEscape (by omega), plain_unitEscape (by omega)⟩

theorem plain_escapePoint (p : CodePoint) : ∀ c ∈ escapePoint p, Plain c := by
  cases p with
  | char c => exact plain_escapeChar c
  | surrogate offset =>
      refine plain_unitEscape ?_
      rw [CodePoint.value, firstSurrogate]
      omega

theorem plain_quoted (t : Text) : ∀ c ∈ quoted t, Plain c := by
  rw [quoted, List.forall_mem_cons, List.forall_mem_append]
  refine ⟨by simp [Plain], fun c hc => ?_, by simp [Plain]⟩
  obtain ⟨p, -, hc⟩ := List.mem_flatMap.mp hc
  exact plain_escapePoint p c hc

theorem plain_newLine (level : ℕ) : ∀ c ∈ newLine level, Plain c := by
  rw [newLine, List.forall_mem_cons]
  refine ⟨by simp [Plain], fun c hc => ?_⟩
  rw [List.eq_of_mem_replicate hc]
  simp [Plain]

theorem plain_sign (negative : Bool) : ∀ c ∈ sign negative, Plain c := by
  cases negative <;> simp [sign, Plain]

theorem plain_exponentText (e : ℤ) : ∀ c ∈ (exponentText e).toList, Plain c := by
  rw [toList_exponentText, List.forall_mem_cons, List.forall_mem_cons]
  refine ⟨by simp [Plain], ?_, fun c hc => plain_of_isDigit (isDigit_exponentDigits e c hc)⟩
  split_ifs <;> simp [Plain]

theorem plain_spelling {s : Spelling} (h : s.Proper) : ∀ c ∈ s.text, Plain c := by
  obtain ⟨hwhole, hfraction⟩ := List.forall_mem_append.mp h.digit
  rw [Spelling.text, List.forall_mem_append, List.forall_mem_append]
  refine ⟨⟨fun c hc => plain_of_isDigit (hwhole c hc), ?_⟩, ?_⟩
  · split_ifs
    · exact List.forall_mem_nil _
    · rw [List.forall_mem_cons]
      exact ⟨by simp [Plain], fun c hc => plain_of_isDigit (hfraction c hc)⟩
  · cases s.exponent with
    | none => exact List.forall_mem_nil _
    | some e => exact plain_exponentText e

theorem plain_text (x : Float) : ∀ c ∈ (documentFormat.text x).toList, Plain c := by
  unfold FloatFormat.text
  cases hx : Double.ofFloat x with
  | notANumber => simp [Plain, documentFormat]
  | infinite negative => cases negative <;> simp [Plain, documentFormat]
  | finite negative m q =>
      obtain ⟨hc, hq⟩ := canonical_of_ofFloat hx
      dsimp only
      rw [String.toList_append, List.forall_mem_append]
      refine ⟨by cases negative <;> simp [Plain], ?_⟩
      split_ifs with hm
      · simp [Plain]
      · rw [toList_text]
        have hstands := shortest_standsFor hc (Nat.pos_of_ne_zero hm) hq
        exact plain_spelling (spells_spelling hstands).toProper

/-! ### Documents -/

theorem plain_items {items : List Json} (h : ∀ v ∈ items, ∀ level, ∀ c ∈ write level v, Plain c)
    (level : ℕ) : ∀ c ∈ writeItems level items, Plain c := by
  induction items with
  | nil =>
      rw [writeItems, List.forall_mem_append]
      exact ⟨plain_newLine level, by simp [Plain]⟩
  | cons v items ih =>
      rw [List.forall_mem_cons] at h
      rw [writeItems, List.forall_mem_cons, List.forall_mem_append, List.forall_mem_append]
      exact ⟨by simp [Plain], ⟨plain_newLine _, h.1 _⟩, ih h.2⟩

/-- A name and its value. -/
theorem plain_field {v : Json} (h : ∀ level, ∀ c ∈ write level v, Plain c) (level : ℕ)
    (name : Text) :
    ∀ c ∈ newLine level ++ quoted name ++ ": ".toList ++ write level v, Plain c := by
  rw [List.forall_mem_append, List.forall_mem_append, List.forall_mem_append]
  exact ⟨⟨⟨plain_newLine level, plain_quoted name⟩, by simp [Plain]⟩, h level⟩

theorem plain_fields {fields : List (Text × Json)}
    (h : ∀ f ∈ fields, ∀ level, ∀ c ∈ write level f.2, Plain c) (level : ℕ) :
    ∀ c ∈ writeFields level fields, Plain c := by
  induction fields with
  | nil =>
      rw [writeFields, List.forall_mem_append]
      exact ⟨plain_newLine level, by simp [Plain]⟩
  | cons f fields ih =>
      obtain ⟨name, v⟩ := f
      rw [List.forall_mem_cons] at h
      rw [writeFields, List.forall_mem_cons, List.forall_mem_append]
      exact ⟨by simp [Plain], plain_field h.1 _ name, ih h.2⟩

/-- **All that is written is plain.** -/
theorem plain_write (v : Json) (level : ℕ) : ∀ c ∈ write level v, Plain c := by
  cases v with
  | null =>
      rw [write]
      simp [Plain]
  | bool b =>
      rw [write]
      cases b <;> simp [Plain]
  | integer n =>
      rw [write, toList_toString, List.forall_mem_append]
      exact ⟨plain_sign _, fun c hc => plain_of_isDigit (isDigit_toDigits _ c hc)⟩
  | real x =>
      rw [write]
      exact plain_text x
  | text t =>
      rw [write]
      exact plain_quoted t
  | array items =>
      have hitems : ∀ v ∈ items, ∀ level, ∀ c ∈ write level v, Plain c :=
        fun v _ level => plain_write v level
      cases items with
      | nil =>
          rw [write]
          simp [Plain]
      | cons v items =>
          rw [List.forall_mem_cons] at hitems
          rw [write, List.forall_mem_cons, List.forall_mem_append, List.forall_mem_append]
          exact ⟨by simp [Plain], ⟨plain_newLine _, hitems.1 _⟩, plain_items hitems.2 level⟩
  | object fields =>
      have hfields : ∀ f ∈ fields, ∀ level, ∀ c ∈ write level f.2, Plain c := by
        rintro ⟨name, v⟩ hf level
        exact plain_write v level
      cases fields with
      | nil =>
          rw [write]
          simp [Plain]
      | cons f fields =>
          obtain ⟨name, v⟩ := f
          rw [List.forall_mem_cons] at hfields
          rw [write, List.forall_mem_cons, List.forall_mem_append]
          exact ⟨by simp [Plain], plain_field hfields.1 _ name, plain_fields hfields.2 level⟩
termination_by sizeOf v
decreasing_by
  · next hv => exact (List.sizeOf_lt_of_mem hv).trans (by simp)
  · have hlt := List.sizeOf_lt_of_mem hf
    simp only [Prod.mk.sizeOf_spec, Json.object.sizeOf_spec] at hlt ⊢
    omega

/-- **The bytes of a document are read as its value.** -/
theorem parse_document [Levels] {levels : ℕ} {v : Json} (h : Fits levels v)
    (hlevels : levels ≤ Levels.limit) :
    ∃ text, Utf8.decode (document v).toUTF8.toList = .ok text ∧
      Json.parse (unifyBreaks text) = .ok v := by
  have hplain := plain_write v 0
  have hmark : (write 0 v).head? ≠ some (Char.ofNat 0xfeff) := by
    intro hhead
    have hmem := List.mem_of_mem_head? (Option.mem_def.mpr hhead)
    exact absurd (hplain _ hmem).lt (by decide)
  refine ⟨write 0 v, decode_toUTF8 _, ?_⟩
  rw [unifyBreaks_eq hplain]
  exact parse_write h hlevels hmark

end SuiteBalance.Json
