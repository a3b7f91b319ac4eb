import Mathlib
import SuiteBalance.Command.Run
import SuiteBalance.Proofs.Workspace.Calls

/-!
# Proofs — Commands — calls

A call works on a transcript and a workspace.  What it does is read off its parts one after the
other.

* **`perform`**: how a call ends, and the transcript and the workspace that it leaves.
* `perform_bind`: one call after the other; `of_perform_bind`: what succeeded in parts.
* `perform_asUsage`: the reason of a failure taken for a fault of usage.
* `perform_print_of_accepted`, `perform_abort_of_accepted`, and what is refused: printing to a
  console.
* **`Looks`**: a call that ends alike in two workspaces and changes nothing.
-/

namespace SuiteBalance.Command.Call

open Terminal

variable {α β : Type} {t t' : Transcript} {w v w' : Workspace}

/-- How a call ends, and the transcript and the workspace that it leaves. -/
def perform (c : Call (StateM Workspace) α) (t : Transcript) (w : Workspace) :
    (Except Failed α × Transcript) × Workspace :=
  ask ((ExceptT.run c).run t) w

/-- One call after the other. -/
theorem perform_bind (c : Call (StateM Workspace) α) (next : α → Call (StateM Workspace) β) :
    perform (c >>= next) t w =
      match perform c t w with
      | ((.ok a, t'), w') => perform (next a) t' w'
      | ((.error e, t'), w') => ((.error e, t'), w') := by
  change ask ((ExceptT.run c).run t >>= fun left => (ExceptT.bindCont next left.1).run left.2) w = _
  rw [ask_bind, perform]
  generalize ask ((ExceptT.run c).run t) w = left
  obtain ⟨⟨outcome, t'⟩, w'⟩ := left
  cases outcome with
  | ok a => rfl
  | error e => rfl

/-- A call that succeeds has succeeded in its parts. -/
theorem of_perform_bind {c : Call (StateM Workspace) α} {next : α → Call (StateM Workspace) β}
    {b : β} (h : perform (c >>= next) t w = ((.ok b, t'), w')) :
    ∃ a made left, perform c t w = ((.ok a, made), left) ∧
      perform (next a) made left = ((.ok b, t'), w') := by
  rw [perform_bind] at h
  generalize perform c t w = parts at h
  obtain ⟨⟨outcome, made⟩, left⟩ := parts
  cases outcome with
  | ok a => exact ⟨a, made, left, rfl, h⟩
  | error e => cases congrArg (·.1.1) h

/-- A first part that succeeds is left behind. -/
theorem perform_bind_of_ok {c : Call (StateM Workspace) α} {next : α → Call (StateM Workspace) β}
    {a : α} (h : perform c t w = ((.ok a, t'), w')) :
    perform (c >>= next) t w = perform (next a) t' w' := by
  rw [perform_bind, h]

/-- A first part that fails ends the call. -/
theorem perform_bind_of_error {c : Call (StateM Workspace) α}
    {next : α → Call (StateM Workspace) β} {e : Failed} (h : perform c t w = ((.error e, t'), w')) :
    perform (c >>= next) t w = ((.error e, t'), w') := by
  rw [perform_bind, h]

@[simp] theorem perform_lift (x : StateM Workspace α) :
    perform (Call.lift x) t w = ((.ok (ask x w).1, t), (ask x w).2) := rfl

theorem perform_lift_of_ask {x : StateM Workspace α} {a : α} (h : ask x w = (a, w')) :
    perform (Call.lift x) t w = ((.ok a, t), w') := by
  rw [perform_lift, h]

@[simp] theorem perform_note (notices : List Notice) :
    perform (Call.note notices) t w =
      ((.ok (), { t with notices := t.notices ++ notices }), w) := rfl

@[simp] theorem perform_ofExcept_ok {ε : Type} (failed : ε → Failed) (a : α) :
    perform (Call.ofExcept failed (.ok a)) t w = ((.ok a, t), w) := rfl

/-- What a call succeeds with stays as it is; why it fails is taken for a fault of usage. -/
theorem perform_asUsage (c : Call (StateM Workspace) α) :
    perform c.asUsage t w =
      (((perform c t w).1.1.mapError Failed.asUsage, (perform c t w).1.2), (perform c t w).2) := by
  change ask ((ExceptT.run (ExceptT.tryCatch c fun failed => throw failed.asUsage)).run t) w = _
  have hperform : ask (StateT.run c t) w = perform c t w := rfl
  rw [ExceptT.tryCatch, ExceptT.run_mk, StateT.run_bind, ask_bind, hperform]
  obtain ⟨⟨outcome, t'⟩, w'⟩ := perform c t w
  cases outcome <;> rfl

section Printing

variable [Console] {item : Printed}

theorem perform_print (item : Printed) :
    perform (Call.print [item] : Call (StateM Workspace) Unit) t w =
      perform (Call.printOne item) t w := by
  change perform (Call.printOne item >>= fun _ => pure ()) t w = _
  rw [bind_pure_unit]

/-- What the console accepts is printed. -/
theorem perform_print_of_accepted (h : Console.refusal? item = none) :
    perform (Call.print [item]) t w = ((.ok (), { t with printed := t.printed ++ [item] }), w) := by
  rw [perform_print, Call.printOne, h]
  rfl

/-- What the console refuses ends the call. -/
theorem perform_print_of_refused {e : Failure} (h : Console.refusal? item = some e) :
    perform (Call.print [item]) t w = ((.error (.failure e), t), w) := by
  rw [perform_print, Call.printOne, h]
  rfl

/-- A call that is given up has printed the reason, if the console accepts it. -/
theorem perform_abort_of_accepted {reason : Text}
    (h : Console.refusal? (message .error reason) = none) :
    perform (Call.abort reason : Call (StateM Workspace) α) t w =
      ((.error .aborted, { t with printed := t.printed ++ [message .error reason] }), w) := by
  rw [Call.abort, perform_bind_of_ok (perform_print_of_accepted h)]
  rfl

theorem perform_abort_of_refused {reason : Text} {e : Failure}
    (h : Console.refusal? (message .error reason) = some e) :
    perform (Call.abort reason : Call (StateM Workspace) α) t w = ((.error (.failure e), t), w) :=
  perform_bind_of_error (perform_print_of_refused h)

/-- A call that is given up does not succeed. -/
theorem not_ok_abort (reason : Text) (a : α) : (perform (Call.abort reason) t w).1.1 ≠ .ok a := by
  cases h : Console.refusal? (message .error reason) with
  | none =>
    rw [perform_abort_of_accepted h]
    exact fun hends => by cases hends
  | some e =>
    rw [perform_abort_of_refused h]
    exact fun hends => by cases hends

end Printing

/-- A call without surrogates in its lines adds them to the standard output. -/
@[simp] theorem perform_echo (s : String) :
    perform (Call.echo s) t w =
      ((.ok (), { t with output := t.output ++ withoutControls s ++ "\n" }), w) := rfl

/-- What lines add to the standard output. -/
def lines (names : List String) : String :=
  names.foldr (fun name rest => withoutControls name ++ "\n" ++ rest) ""

/-- Lines are added one after the other. -/
theorem perform_forM_echo (names : List String) :
    perform ((names.map Text.ofString).forM Call.echo) t w =
      ((.ok (), { t with output := t.output ++ lines names }), w) := by
  induction names generalizing t with
  | nil =>
      change ((Except.ok (), t), w) = _
      rw [lines, List.foldr_nil, String.append_empty]
  | cons name names ih =>
      change perform (Call.echo (Text.ofString name) >>= fun _ =>
        (names.map Text.ofString).forM Call.echo) t w = _
      rw [perform_bind_of_ok (perform_echo name), ih]
      simp only [lines, List.foldr_cons, String.append_assoc]

/-! ### Looking -/

/-- A call ends alike in two workspaces and changes nothing. -/
def Looks (w v : Workspace) (c : Call (StateM Workspace) α) : Prop :=
  ∀ t, ∃ outcome, perform c t w = ((outcome, t), w) ∧ perform c t v = ((outcome, t), v)

theorem Looks.pure (a : α) : Looks w v (Pure.pure a) := fun _ => ⟨.ok a, rfl, rfl⟩

theorem Looks.lift {x : StateM Workspace α} (h : w.Alike v x) : Looks w v (Call.lift x) := by
  intro t
  obtain ⟨a, hw, hv⟩ := h
  refine ⟨.ok a, ?_, ?_⟩
  · rw [perform_lift, hw]
  · rw [perform_lift, hv]

theorem Looks.ofExcept {ε : Type} (failed : ε → Failed) (outcome : Except ε α) :
    Looks w v (Call.ofExcept failed outcome) := by
  intro t
  cases outcome with
  | ok a => exact ⟨.ok a, rfl, rfl⟩
  | error e => exact ⟨.error (failed e), rfl, rfl⟩

theorem Looks.bind {c : Call (StateM Workspace) α} {next : α → Call (StateM Workspace) β}
    (h : Looks w v c) (hnext : ∀ a, Looks w v (next a)) : Looks w v (c >>= next) := by
  intro t
  obtain ⟨outcome, hw, hv⟩ := h t
  cases outcome with
  | error e => exact ⟨.error e, perform_bind_of_error hw, perform_bind_of_error hv⟩
  | ok a =>
      obtain ⟨last, hw', hv'⟩ := hnext a t
      exact ⟨last, (perform_bind_of_ok hw).trans hw', (perform_bind_of_ok hv).trans hv'⟩

theorem Looks.mapM {f : α → Call (StateM Workspace) β} (h : ∀ a, Looks w v (f a)) (l : List α) :
    Looks w v (l.mapM f) := by
  induction l with
  | nil => exact .pure []
  | cons a l ih =>
      rw [List.mapM_cons]
      exact (h a).bind fun b => ih.bind fun rest => .pure (b :: rest)

/-- How a call that looks ends in the one workspace is how it ends in the other. -/
theorem Looks.answer {c : Call (StateM Workspace) α} (h : Looks w v c) {outcome : Except Failed α}
    (hw : perform c t w = ((outcome, t'), w')) :
    t' = t ∧ w' = w ∧ perform c t v = ((outcome, t), v) := by
  obtain ⟨outcome', hw', hv⟩ := h t
  rw [hw'] at hw
  cases hw
  exact ⟨rfl, rfl, hv⟩

end SuiteBalance.Command.Call
