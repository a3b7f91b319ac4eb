import Mathlib
import SuiteBalance.Value.Basic

/-!
# Proofs — Values — values that are computed

A value that is made of texts, integers and mappings is compared with another one part by part, so
that what a computation comes to is told from its run.

* `isSame`, `areSame`: two values are one.
* **`eq_of_isSame`**, `eq_ok_of_isSame`: such values are equal.
-/

namespace SuiteBalance.Value

mutual

/-- Two values are one that is made of texts, integers and mappings. -/
def isSame : Value → Value → Bool
  | .null, .null => true
  | .integer n, .integer n' => n = n'
  | .text s, .text s' => s = s'
  | .mapping fields, .mapping fields' => areSame fields fields'
  | _, _ => false

/-- Fields that are the same, one by one. -/
def areSame : List (Value × Value) → List (Value × Value) → Bool
  | [], [] => true
  | (key, v) :: fields, (key', v') :: fields' =>
      isSame key key' && isSame v v' && areSame fields fields'
  | _, _ => false

end

/-- **Values that are the same are equal**, and so are their fields. -/
theorem eq_of_isSame {v v' : Value} : isSame v v' = true → v = v' := by
  refine isSame.induct (fun v v' => isSame v v' = true → v = v')
    (fun fields fields' => areSame fields fields' = true → fields = fields')
    (fun _ => rfl) ?integer ?text ?mapping ?other (fun _ => rfl) ?field ?others v v'
  case integer =>
    intro n n' h
    rw [isSame, decide_eq_true_eq] at h
    rw [h]
  case text =>
    intro s s' h
    rw [isSame, decide_eq_true_eq] at h
    rw [h]
  case mapping =>
    intro fields fields' ih h
    rw [isSame] at h
    rw [ih h]
  case other =>
    intro v v' hnull hinteger htext hmapping h
    rw [isSame] at h
    · cases h
    all_goals assumption
  case field =>
    intro key v fields key' v' fields' hkey hv hfields h
    rw [areSame, Bool.and_eq_true, Bool.and_eq_true] at h
    rw [hkey h.1.1, hv h.1.2, hfields h.2]
  case others =>
    intro fields fields' hnil hcons h
    rw [areSame] at h
    · cases h
    all_goals assumption

/-- The value that a computation comes to. -/
theorem eq_ok_of_isSame {ε : Type} {outcome : Except ε Value} {v : Value}
    (h : outcome.toOption.any (isSame · v) = true) : outcome = .ok v := by
  cases outcome with
  | error e => cases h
  | ok v' => exact congrArg Except.ok (eq_of_isSame h)

end SuiteBalance.Value
