import Mathlib
import SuiteBalance.Proofs.Json.Number
import SuiteBalance.Proofs.Json.Quoted

/-!
# Proofs — JSON — tokens

What is written for a value that holds no others is one token, which is read back as the value.

* **`ReadsAs`**: some characters are a token, in front of others.
* `readsAs_mark`, `readsAs_word`: the tokens that are always written in one way.
* `readsAs_integer`, `readsAs_real`, `readsAs_text`: numbers and texts.
-/

namespace SuiteBalance.Json

open Number

/-- Some characters are read as a token, in front of others. -/
def ReadsAs (s : List Char) (t : Token) (rest : List Char) : Prop :=
  ∃ c s', s = c :: s' ∧ isSpace c = false ∧
    ∀ position, ∃ behind, readToken position c (s' ++ rest) = (t, behind, rest)

variable {rest : List Char}

/-! ### Marks and words -/

/-- The token that a character is on its own. -/
def mark? : Char → Option Token
  | '[' => some .openArray
  | ']' => some .closeArray
  | '{' => some .openObject
  | '}' => some .closeObject
  | ',' => some .comma
  | ':' => some .colon
  | _ => none

theorem readsAs_mark {c : Char} {t : Token} (h : mark? c = some t) : ReadsAs [c] t rest := by
  unfold mark? at h
  split at h
  case h_7 => cases h
  all_goals
    obtain rfl := Option.some_inj.mp h
    exact ⟨_, _, rfl, rfl, fun _ => ⟨_, rfl⟩⟩

/-- A word is read as its value. -/
theorem readsAs_word {w : List Char} {v : Json} (h : (w, v) ∈ words) :
    ReadsAs w (.scalar v) rest := by
  simp only [words, List.mem_cons, List.not_mem_nil, or_false, Prod.mk.injEq] at h
  rcases h with ⟨rfl, rfl⟩ | ⟨rfl, rfl⟩ | ⟨rfl, rfl⟩ | ⟨rfl, rfl⟩ | ⟨rfl, rfl⟩ | ⟨rfl, rfl⟩
  all_goals exact ⟨_, _, rfl, rfl, fun _ => ⟨_, rfl⟩⟩

theorem readsAs_bool (b : Bool) :
    ReadsAs (if b then "true" else "false").toList (.scalar (.bool b)) rest := by
  cases b with
  | true => exact readsAs_word (List.mem_of_getElem? (i := 1) rfl)
  | false => exact readsAs_word (List.mem_of_getElem? (i := 2) rfl)

/-- **An unpaired text is read as itself.** -/
theorem readsAs_text {t : Text} (h : t.Unpaired) : ReadsAs (quoted t) (.text t) rest := by
  refine ⟨_, _, rfl, rfl, fun position => ?_⟩
  rw [List.append_assoc]
  exact readText_quoted h position (position + 1)

/-! ### Numbers -/

/-- The words start with letters, or with a minus sign and a letter. -/
theorem words_eq : words = [
    (['n', 'u', 'l', 'l'], .null), (['t', 'r', 'u', 'e'], .bool true),
    (['f', 'a', 'l', 's', 'e'], .bool false), (['N', 'a', 'N'], .real (0.0 / 0.0)),
    (['I', 'n', 'f', 'i', 'n', 'i', 't', 'y'], .real (1.0 / 0.0)),
    (['-', 'I', 'n', 'f', 'i', 'n', 'i', 't', 'y'], .real (-1.0 / 0.0))] := rfl

/-- No word starts with a digit, nor with a minus sign and a digit. -/
theorem readWord?_sign {c : Char} (hc : c.isDigit = true) (negative : Bool) (s : List Char) :
    readWord? (sign negative ++ c :: s) = none := by
  have hne {d : Char} (hd : d.isDigit = false) : (d == c) = false := by
    rw [beq_eq_false_iff_ne]
    rintro rfl
    exact Bool.false_ne_true (hd.symm.trans hc)
  have hnone : ∀ w ∈ words, w.1.isPrefixOf (sign negative ++ c :: s) = false := by
    rw [words_eq]
    cases negative with
    | true => simp [sign, List.isPrefixOf, hne]
    | false => simp [sign, List.isPrefixOf, hne]
  rw [readWord?, List.find?_eq_none.mpr fun w hw => by rw [hnone w hw]; exact Bool.false_ne_true]
  rfl

/-- A token that starts with a digit or a minus sign is a word or a number. -/
theorem readToken_other {c : Char} (hc : c = '-' ∨ c.isDigit = true) (position : ℕ)
    (s : List Char) :
    isSpace c = false ∧ readToken position c s =
      match (readWord? (c :: s)).or (readNumber? position (c :: s)) with
      | some l => (l.token, position + l.length, l.rest)
      | none => (.junk, position, []) := by
  have hne {d : Char} (hminus : d ≠ '-') (hd : d.isDigit = false) : c ≠ d := by
    rintro rfl
    rcases hc with rfl | hc
    · exact hminus rfl
    · exact Bool.false_ne_true (hd.symm.trans hc)
  refine ⟨?_, ?_⟩
  · have hspace : ∀ d ∈ [' ', '\t', '\n', '\r'], c ≠ d := by
      intro d hd
      fin_cases hd <;> exact hne (by decide) rfl
    simp_all [isSpace]
  · unfold readToken
    split
    case h_8 => rfl
    all_goals exact absurd rfl (hne (by decide) rfl)

/-- A number in front of others is a token. -/
theorem readsAs_number {c : Char} (hc : c.isDigit = true) (negative : Bool) {s : List Char}
    {v : Json} (hread : ∀ position, ∃ length,
      readNumber? position (sign negative ++ (c :: s ++ rest)) = some ⟨.scalar v, length, rest⟩) :
    ReadsAs (sign negative ++ c :: s) (.scalar v) rest := by
  obtain ⟨d, t, hd, hdt⟩ : ∃ d t, (d = '-' ∨ d.isDigit = true) ∧ sign negative ++ c :: s = d :: t := by
    cases negative with
    | true => exact ⟨'-', c :: s, .inl rfl, rfl⟩
    | false => exact ⟨c, s, .inr hc, rfl⟩
  refine ⟨d, t, hdt, (readToken_other hd 0 []).1, fun position => ?_⟩
  obtain ⟨length, hlength⟩ := hread position
  have hword := readWord?_sign hc negative (s ++ rest)
  rw [← List.cons_append] at hword
  rw [← List.append_assoc, hdt, List.cons_append] at hlength hword
  refine ⟨position + length, ?_⟩
  rw [(readToken_other hd position (t ++ rest)).2, hword, hlength]
  rfl

/-- Digits with something behind them start with a digit. -/
theorem exists_digit {s : List Char} (hne : s ≠ []) (hdigit : ∀ c ∈ s, c.isDigit = true)
    (t : List Char) : ∃ c r, c.isDigit = true ∧ s ++ t = c :: r := by
  cases s with
  | nil => exact absurd rfl hne
  | cons c s => exact ⟨c, s ++ t, hdigit c (List.mem_cons_self ..), rfl⟩

/-- **An integer is read as itself.** -/
theorem readsAs_integer {n : ℤ} (h : isWritable n = true) (hrest : EndsNumber rest) :
    ReadsAs (toString n).toList (.scalar (.integer n)) rest := by
  have hread := readNumber?_integer h hrest
  obtain ⟨c, s, hc, hcs⟩ := exists_digit Nat.toDigits_ne_nil (isDigit_toDigits n.natAbs) []
  rw [List.append_nil] at hcs
  rw [toList_toString]
  rw [hcs] at hread ⊢
  exact readsAs_number hc _ hread

/-- A spelling is read as its decimal, rounded. -/
theorem readsAs_spelling {s : Spelling} (h : s.Proper) (negative : Bool)
    (hrest : EndsNumber rest) :
    ReadsAs (sign negative ++ s.text)
      (.scalar (signedReal negative (roundDecimal s.digits s.power))) rest := by
  have hread := fun position => readNumber?_spelling h hrest position negative
  obtain ⟨c, t, hc, hct⟩ : ∃ c t, c.isDigit = true ∧ s.text = c :: t := by
    unfold Spelling.text
    rw [List.append_assoc]
    exact exists_digit h.whole_ne (List.forall_mem_append.mp h.digit).1 _
  rw [hct] at hread ⊢
  exact readsAs_number hc negative hread

/-- A double is determined by its parts. -/
theorem signedReal_eq {x y : Float} {negative : Bool} {m : ℕ} {q : ℤ}
    (hx : Double.ofFloat x = .finite negative m q) (hy : Double.ofFloat y = .finite false m q) :
    signedReal negative y = .real x := by
  refine congrArg Json.real (ofFloat_injective ?_)
  cases negative with
  | false => exact hy.trans hx.symm
  | true => exact (ofFloat_neg hy).trans hx.symm

/-- A double that has a word. -/
theorem readsAs_real_word {w : List Char} {x y : Float} (h : (w, .real y) ∈ words)
    (hx : Double.ofFloat x = Double.ofFloat y) : ReadsAs w (.scalar (.real x)) rest := by
  rw [ofFloat_injective hx]
  exact readsAs_word h

/-- **A double is read as itself**, the infinities and what is no number included. -/
theorem readsAs_real (x : Float) (hrest : EndsNumber rest) :
    ReadsAs (documentFormat.text x).toList (.scalar (.real x)) rest := by
  unfold FloatFormat.text
  cases hx : Double.ofFloat x with
  | notANumber =>
      refine readsAs_real_word (List.mem_of_getElem? (i := 3) rfl) (hx.trans ?_)
      decide +kernel
  | infinite negative =>
      cases negative with
      | false =>
          refine readsAs_real_word (List.mem_of_getElem? (i := 4) rfl) (hx.trans ?_)
          decide +kernel
      | true =>
          refine readsAs_real_word (List.mem_of_getElem? (i := 5) rfl) (hx.trans ?_)
          decide +kernel
  | finite negative m q =>
      obtain ⟨hc, hq⟩ := canonical_of_ofFloat hx
      have hsign : (if negative then "-" else "").toList = sign negative := by
        cases negative <;> rfl
      dsimp only
      rw [String.toList_append, hsign]
      split_ifs with hm
      · obtain rfl := hm
        have hleast : q = leastExponent := hc.normal.resolve_left (by norm_num)
        have hzero : Double.ofFloat (roundDecimal ['0', '0'] (0 - 1)) = .finite false 0 q := by
          rw [hleast]
          decide +kernel
        rw [← signedReal_eq hx hzero]
        exact readsAs_spelling (s := ⟨['0'], ['0'], none⟩)
          ⟨by simp, by simp [Spelling.digits], by simp, by simp, by simp⟩ negative hrest
      · have hpos := Nat.pos_of_ne_zero hm
        have hstands := shortest_standsFor hc hpos hq
        have hspells := spells_spelling hstands
        rw [toList_text, ← signedReal_eq hx (ofFloat_roundDecimal hspells hstands hpos hc hq)]
        exact readsAs_spelling hspells.toProper negative hrest

end SuiteBalance.Json
