import Mathlib
import SuiteBalance.Json.Parser

/-!
# Proofs — JSON — documents that are too deep

A document is refused for its depth where an array or an object is opened while as many others are
open as may be, and nothing was wrong with it before.

* `run_eq_error_iff`: the first token that leads nowhere decides what is wrong with a document.
* `step_tooDeep_iff`: what leads nowhere for its depth.
* **`Deep`** and `deep_iff`: the documents that are refused for their depth.
-/

namespace SuiteBalance.Json

/-- A reader goes wrong at the first token that leads nowhere. -/
theorem run_eq_error_iff [Levels] {s : State} {tokens : List (ℕ × Token)} {problem : Problem} {p : ℕ} :
    s.run tokens = .error (problem, p) ↔ ∃ before position t behind s' at?,
      tokens = before ++ (position, t) :: behind ∧ s.run before = .ok s' ∧
        s'.step t = .error (problem, at?) ∧ p = at?.getD position := by
  induction tokens generalizing s with
  | nil =>
      refine iff_of_false nofun ?_
      rintro ⟨before, position, t, behind, s', at?, hnil, -⟩
      exact absurd hnil.symm (List.append_ne_nil_of_right_ne_nil _ (List.cons_ne_nil _ _))
  | cons first tokens ih =>
      obtain ⟨position, t⟩ := first
      rw [State.run]
      cases hstep : s.step t with
      | error fault =>
          obtain ⟨problem', at?⟩ := fault
          constructor
          · rintro ⟨⟩
            exact ⟨[], position, t, tokens, s, at?, rfl, rfl, hstep, rfl⟩
          · rintro ⟨before, position', t', behind, s', at', htokens, hrun, hstep', rfl⟩
            cases before with
            | nil =>
                obtain ⟨⟨⟩, rfl⟩ := List.cons.inj htokens
                obtain rfl := Except.ok.inj hrun
                obtain ⟨rfl, rfl⟩ := Prod.mk.inj (Except.error.inj (hstep.symm.trans hstep'))
                rfl
            | cons b before =>
                obtain ⟨rfl, rfl⟩ := List.cons.inj htokens
                rw [State.run, hstep] at hrun
                cases hrun
      | ok next =>
          dsimp only
          rw [ih]
          constructor
          · rintro ⟨before, position', t', behind, s', at?, rfl, hrun, hstep', hp⟩
            refine ⟨(position, t) :: before, position', t', behind, s', at?, rfl, ?_, hstep', hp⟩
            rw [State.run, hstep]
            exact hrun
          · rintro ⟨before, position', t', behind, s', at?, htokens, hrun, hstep', hp⟩
            cases before with
            | nil =>
                obtain ⟨⟨⟩, rfl⟩ := List.cons.inj htokens
                obtain rfl := Except.ok.inj hrun
                rw [hstep] at hstep'
                cases hstep'
            | cons b before =>
                obtain ⟨rfl, rfl⟩ := List.cons.inj htokens
                rw [State.run, hstep] at hrun
                exact ⟨before, position', t', behind, s', at?, rfl, hrun, hstep', hp⟩

/-! ### Tokens -/

/-- A token that is not faulty for the levels around it. -/
def Token.Level (t : Token) : Prop := ∀ position, t ≠ .faulty .tooDeep position

theorem level_readText (start position : ℕ) (half : Option ℕ) (done : List CodePoint)
    (s : List Char) : (readText start position half done s).1.Level := by
  fun_induction readText start position half done s with
  | case1 => exact nofun
  | case2 => exact nofun
  | case3 => exact nofun
  | case4 => assumption
  | case5 => exact nofun
  | case6 => exact nofun
  | case7 => assumption
  | case8 => exact nofun
  | case9 => exact nofun
  | case10 => assumption

theorem level_readNumber {position : ℕ} {s : List Char} {l : Lexeme}
    (h : readNumber? position s = some l) : l.token.Level := by
  unfold readNumber? at h
  dsimp only at h
  split_ifs at h <;>
  · obtain rfl := Option.some.inj h
    exact nofun

theorem level_readWord {s : List Char} {l : Lexeme} (h : readWord? s = some l) : l.token.Level := by
  obtain ⟨w, -, rfl⟩ := Option.map_eq_some_iff.mp h
  exact nofun

theorem level_readToken (position : ℕ) (c : Char) (rest : List Char) :
    (readToken position c rest).1.Level := by
  unfold readToken
  split
  case h_7 => exact level_readText _ _ _ _ _
  case h_8 =>
      split
      case h_1 l hl =>
          rcases Option.or_eq_some_iff.mp hl with hword | ⟨-, hnumber⟩
          · exact level_readWord hword
          · exact level_readNumber hnumber
      case h_2 => exact nofun
  all_goals exact nofun

theorem level_last {position : ℕ} {t : Token} {done : List (ℕ × Token)} (ht : t.Level)
    (h : ∀ entry ∈ done, entry.2.Level) :
    ∀ entry ∈ ((position, t) :: done).reverse, entry.2.Level := fun entry hentry =>
  List.forall_mem_cons (p := fun entry => entry.2.Level).mpr ⟨ht, h⟩ entry
    (List.mem_reverse.mp hentry)

/-- **No token is faulty for the levels around it.** -/
theorem level_tokensFrom {fuel position : ℕ} {done : List (ℕ × Token)} {s : List Char}
    (h : ∀ entry ∈ done, entry.2.Level) :
    ∀ entry ∈ tokensFrom fuel position done s, entry.2.Level := by
  fun_induction tokensFrom fuel position done s with
  | case1 => exact fun t ht => h t (List.mem_reverse.mp ht)
  | case2 => exact level_last (fun _ => nofun) h
  | case3 fuel position done c rest hspace ih => exact ih h
  | case4 fuel position done c rest hspace behind rest' problem at? hread =>
      have hlevel := level_readToken position c rest
      rw [hread] at hlevel
      exact level_last hlevel h
  | case5 => exact level_last (fun _ => nofun) h
  | case6 fuel position done c rest hspace token behind rest' hread hfaulty hjunk ih =>
      have hlevel := level_readToken position c rest
      rw [hread] at hlevel
      exact ih (List.forall_mem_cons.mpr ⟨hlevel, h⟩)

/-! ### Depth -/

/-- What is open around the value that a state waits for, if it waits for one. -/
def State.around? : State → Option (List Frame)
  | .value stack => some stack
  | .firstItem stack => some (.items [] :: stack)
  | _ => none

/-- Whether a token opens an array or an object. -/
def Token.Opens (t : Token) : Prop := t = .openArray ∨ t = .openObject

theorem beginField_ne_tooDeep (done : List (Text × Json)) (stack : List Frame) {t : Token}
    (ht : t.Level) (at? : Option ℕ) : State.beginField done stack t ≠ .error (.tooDeep, at?) := by
  unfold State.beginField
  intro h
  split at h
  · cases h
  · cases h
  · obtain ⟨rfl, -⟩ := Prod.mk.inj (Except.error.inj h)
    exact ht _ rfl
  · cases h

variable [Levels]

theorem opened_tooDeep_iff {stack : List Frame} {s : State} :
    (∃ at?, State.opened stack s = .error (.tooDeep, at?)) ↔ Levels.limit ≤ stack.length := by
  unfold State.opened
  split_ifs with h
  · exact iff_of_false nofun (by omega)
  · exact iff_of_true ⟨none, rfl⟩ (by omega)

theorem beginValue_tooDeep_iff {stack : List Frame} {t : Token} (ht : t.Level) :
    (∃ at?, State.beginValue stack t = .error (.tooDeep, at?)) ↔
      Levels.limit ≤ stack.length ∧ t.Opens := by
  unfold State.beginValue Token.Opens
  cases t with
  | openArray => exact opened_tooDeep_iff.trans (by simp)
  | openObject => exact opened_tooDeep_iff.trans (by simp)
  | faulty problem position =>
      refine iff_of_false ?_ (by simp)
      rintro ⟨at?, hfault⟩
      obtain ⟨rfl, -⟩ := Prod.mk.inj (Except.error.inj hfault)
      exact ht position rfl
  | _ => simp

/-- **A token leads nowhere for its depth if it opens a level beyond the last.** -/
theorem step_tooDeep_iff {s : State} {t : Token} (ht : t.Level) :
    (∃ at?, s.step t = .error (.tooDeep, at?)) ↔
      ∃ stack, s.around? = some stack ∧ Levels.limit ≤ stack.length ∧ t.Opens := by
  cases s with
  | value stack => simpa [State.step, State.around?] using beginValue_tooDeep_iff ht
  | firstItem stack =>
      have hvalue : (∃ at?, State.beginValue (.items [] :: stack) t = .error (.tooDeep, at?)) ↔ _ :=
        beginValue_tooDeep_iff ht
      cases t with
      | closeArray => simp [State.step, Token.Opens]
      | _ => exact hvalue.trans (by simp [State.around?])
  | firstName stack =>
      refine iff_of_false (fun ⟨at?, hstep⟩ => beginField_ne_tooDeep [] stack ht at? ?_) nofun
      rw [← hstep]
      cases t <;> first | rfl | cases hstep
  | name done stack =>
      exact iff_of_false (fun ⟨at?, hstep⟩ => beginField_ne_tooDeep done stack ht at? hstep) nofun
  | _ => cases t <;> simp [State.step, State.around?]

/-- A document in which an array or an object is opened while as many others are open as may be,
and in which nothing is wrong before. -/
def Deep (document : List Char) : Prop :=
  document.head? ≠ some (Char.ofNat 0xfeff) ∧
    ∃ before position t behind s stack, tokens document = before ++ (position, t) :: behind ∧
      (State.value []).run before = .ok s ∧ s.around? = some stack ∧ Levels.limit ≤ stack.length ∧
        t.Opens

/-- **The documents that are refused for their depth.** -/
theorem deep_iff {document : List Char} :
    (∃ e, parse document = .error e ∧ e.problem = .tooDeep) ↔ Deep document := by
  have hlevel : ∀ entry ∈ tokens document, entry.2.Level := level_tokensFrom (List.forall_mem_nil _)
  have hrun : (∃ p, (State.value []).run (tokens document) = .error (.tooDeep, p)) ↔
      ∃ before position t behind s stack, tokens document = before ++ (position, t) :: behind ∧
        (State.value []).run before = .ok s ∧ s.around? = some stack ∧ Levels.limit ≤ stack.length ∧
          t.Opens := by
    constructor
    · rintro ⟨p, hp⟩
      obtain ⟨before, position, t, behind, s, at?, htokens, hbefore, hstep, -⟩ :=
        run_eq_error_iff.mp hp
      have ht : t.Level := hlevel (position, t) (by rw [htokens]; simp)
      obtain ⟨stack, hstack⟩ := (step_tooDeep_iff ht).mp ⟨at?, hstep⟩
      exact ⟨before, position, t, behind, s, stack, htokens, hbefore, hstack⟩
    · rintro ⟨before, position, t, behind, s, stack, htokens, hbefore, hstack⟩
      have ht : t.Level := hlevel (position, t) (by rw [htokens]; simp)
      obtain ⟨at?, hstep⟩ := (step_tooDeep_iff ht).mpr ⟨stack, hstack⟩
      exact ⟨_, run_eq_error_iff.mpr
        ⟨before, position, t, behind, s, at?, htokens, hbefore, hstep, rfl⟩⟩
  unfold Deep
  rw [← hrun]
  unfold parse
  dsimp only
  split_ifs with hmark
  · refine iff_of_false ?_ fun h => h.1 hmark
    rintro ⟨e, he, hproblem⟩
    obtain rfl := Except.error.inj he
    cases hproblem
  · generalize (State.value []).run (tokens document) = outcome
    rcases outcome with ⟨problem, p⟩ | s
    · simp [hmark]
    · cases s <;> simp

end SuiteBalance.Json
