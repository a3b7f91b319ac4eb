import Mathlib
import SuiteBalance.Proofs.Command.Failures

/-!
# Proofs — Commands — two calls side by side

Two calls are made in two workspaces, and compared as they go.  They end together where both succeed
or both fail for the same reason, after having shown the same; what is noted on the side may differ.

* `SameShown`, **`Ends`**: how two calls end together.
* **`Together`**: two calls end together, whatever was shown and noted before.
* `Together.bind`: one pair of calls after the other.
* **`Agree`**: two calls that end together and change nothing, with `Agree.bind`, `Agree.mapM` and
  `Agree.asUsage`.
-/

namespace SuiteBalance.Command.Call

open Terminal

variable {α β : Type} {t t' : Transcript} {w v w' v' : Workspace} {c c' : Call (StateM Workspace) α}

/-- Two transcripts show the same, whatever their notices are. -/
structure SameShown (t t' : Transcript) : Prop where
  output : t'.output = t.output
  printed : t'.printed = t.printed

/-- Two calls end together: both with a result, or for the same reason, and what they show is the
same.  Their results and workspaces are related, or their workspaces alone. -/
inductive Ends (Both : α → α → Workspace → Workspace → Prop)
    (Left : Workspace → Workspace → Prop) :
    (Except Failed α × Transcript) × Workspace → (Except Failed α × Transcript) × Workspace → Prop
  | ok {a a' : α} {t t' : Transcript} {w v : Workspace} (shown : SameShown t t')
      (both : Both a a' w v) : Ends Both Left ((.ok a, t), w) ((.ok a', t'), v)
  | error {t t' : Transcript} {w v : Workspace} (shown : SameShown t t') (left : Left w v)
      (e : Failed) : Ends Both Left ((.error e, t), w) ((.error e, t'), v)

/-- Two calls end together, after the same was shown. -/
def Together (Both : α → α → Workspace → Workspace → Prop) (Left : Workspace → Workspace → Prop)
    (w v : Workspace) (c c' : Call (StateM Workspace) α) : Prop :=
  ∀ t t', SameShown t t' → Ends Both Left (perform c t w) (perform c' t' v)

variable {Both : α → α → Workspace → Workspace → Prop}
  {Later : β → β → Workspace → Workspace → Prop} {Left Left' : Workspace → Workspace → Prop}
  {next next' : α → Call (StateM Workspace) β}

/-- **One pair of calls after the other.** -/
theorem Together.bind (h : Together Both Left w v c c')
    (hnext : ∀ a a' w' v', Both a a' w' v' → Together Later Left' w' v' (next a) (next' a'))
    (hleft : ∀ w' v', Left w' v' → Left' w' v') :
    Together Later Left' w v (c >>= next) (c' >>= next') := by
  intro t t' hshown
  have hends := h t t' hshown
  rw [perform_bind, perform_bind]
  generalize perform c t w = left, perform c' t' v = left' at hends
  cases hends with
  | ok hshown hboth => exact hnext _ _ _ _ hboth _ _ hshown
  | error hshown hsame e => exact .error hshown (hleft _ _ hsame) e

/-- Two calls end together and change nothing, with results that are related. -/
def Agree (Q : α → α → Prop) (w v : Workspace) (c c' : Call (StateM Workspace) α) : Prop :=
  Together (fun a a' w' v' => Q a a' ∧ w' = w ∧ v' = v) (fun w' v' => w' = w ∧ v' = v) w v c c'

namespace Agree

variable {Q : α → α → Prop} {R : β → β → Prop}

/-- Two calls that agree leave what they were made in. -/
theorem together (h : Agree Q w v c c') (hboth : ∀ a a', Q a a' → Both a a' w v)
    (hleft : Left w v) : Together Both Left w v c c' := by
  intro t t' hshown
  have hends := h t t' hshown
  generalize perform c t w = left, perform c' t' v = left' at hends
  cases hends with
  | ok hshown h =>
      obtain ⟨hQ, rfl, rfl⟩ := h
      exact .ok hshown (hboth _ _ hQ)
  | error hshown h e =>
      obtain ⟨rfl, rfl⟩ := h
      exact .error hshown hleft e

/-- A call that follows two that agree. -/
theorem bind_together (h : Agree Q w v c c')
    (hnext : ∀ a a', Q a a' → Together Later Left w v (next a) (next' a')) (hleft : Left w v) :
    Together Later Left w v (c >>= next) (c' >>= next') := by
  refine Together.bind h ?_ ?_
  · rintro a a' _ _ ⟨hQ, rfl, rfl⟩
    exact hnext a a' hQ
  · rintro _ _ ⟨rfl, rfl⟩
    exact hleft

theorem bind (h : Agree Q w v c c') (hnext : ∀ a a', Q a a' → Agree R w v (next a) (next' a')) :
    Agree R w v (c >>= next) (c' >>= next') :=
  bind_together h hnext ⟨rfl, rfl⟩

/-- A result of the one call is related to one of the other. -/
theorem of_ok (h : Agree Q w v c c') {a : α} (hw : perform c t w = ((.ok a, t'), w')) :
    ∃ a', Q a a' := by
  have hends := h t t ⟨rfl, rfl⟩
  rw [hw] at hends
  generalize perform c' t v = left at hends
  cases hends with
  | ok _ hboth => exact ⟨_, hboth.1⟩

/-- What follows is told the one result, where both are the same. -/
theorem bind_same (h : Agree Eq w v c c') (hnext : ∀ a, Agree R w v (next a) (next' a)) :
    Agree R w v (c >>= next) (c' >>= next') :=
  h.bind fun a _ heq => heq ▸ hnext a

theorem pure {a a' : α} (h : Q a a') : Agree Q w v (Pure.pure a) (Pure.pure a') :=
  fun _ _ hshown => .ok hshown ⟨h, rfl, rfl⟩

theorem throw (e : Failed) :
    Agree Q w v (MonadExcept.throw e) (MonadExcept.throw e) :=
  fun _ _ hshown => .error hshown ⟨rfl, rfl⟩ e

/-- What is done outside of the transcripts. -/
theorem lift_of_ask {x x' : StateM Workspace α} {a a' : α} (hw : ask x w = (a, w))
    (hv : ask x' v = (a', v)) (h : Q a a') : Agree Q w v (Call.lift x) (Call.lift x') := by
  intro t t' hshown
  rw [perform_lift_of_ask hw, perform_lift_of_ask hv]
  exact .ok hshown ⟨h, rfl, rfl⟩

theorem lift {x : StateM Workspace α} (h : w.Alike v x) :
    Agree Eq w v (Call.lift x) (Call.lift x) := by
  obtain ⟨a, hw, hv⟩ := h
  exact lift_of_ask hw hv rfl

/-- What is noted may differ. -/
theorem note (notices notices' : List Notice) :
    Agree Eq w v (Call.note notices) (Call.note notices') :=
  fun _ _ hshown => .ok ⟨hshown.output, hshown.printed⟩ ⟨rfl, rfl, rfl⟩

theorem echo (line : Text) : Agree Eq w v (Call.echo line) (Call.echo line) := by
  unfold Call.echo
  cases line.toString? with
  | none => exact throw _
  | some s =>
      exact fun _ _ hshown =>
        .ok ⟨congrArg (· ++ withoutControls s ++ "\n") hshown.output, hshown.printed⟩
          ⟨rfl, rfl, rfl⟩

theorem ofExcept {ε : Type} (failed : ε → Failed) (outcome : Except ε α) :
    Agree Eq w v (Call.ofExcept failed outcome) (Call.ofExcept failed outcome) := by
  cases outcome with
  | ok a => exact pure rfl
  | error e => exact throw _

/-- **Calls for each member of a list**, with results that are known. -/
theorem mapM {ι : Type} {f : ι → Call (StateM Workspace) β} {g : ι → β}
    (h : ∀ i, Agree (fun b b' => b = g i ∧ b' = g i) w v (f i) (f i)) (l : List ι) :
    Agree (fun bs bs' => bs = l.map g ∧ bs' = l.map g) w v (l.mapM f) (l.mapM f) := by
  induction l with
  | nil => exact pure ⟨rfl, rfl⟩
  | cons i l ih =>
      rw [List.mapM_cons]
      refine (h i).bind ?_
      rintro _ _ ⟨rfl, rfl⟩
      refine ih.bind ?_
      rintro _ _ ⟨rfl, rfl⟩
      exact pure ⟨rfl, rfl⟩

theorem forM {ι : Type} {f : ι → Call (StateM Workspace) Unit}
    (h : ∀ i, Agree Eq w v (f i) (f i)) (l : List ι) : Agree Eq w v (l.forM f) (l.forM f) := by
  induction l with
  | nil => exact pure rfl
  | cons i l ih =>
      exact (h i).bind_same fun _ => ih

/-- What fails for a fault of usage does so in both. -/
theorem asUsage (h : Agree Q w v c c') : Agree Q w v c.asUsage c'.asUsage := by
  intro t t' hshown
  have hends := h t t' hshown
  rw [perform_asUsage, perform_asUsage]
  generalize perform c t w = left, perform c' t' v = left' at hends
  cases hends with
  | ok hshown hboth => exact .ok hshown hboth
  | error hshown hsame e => exact .error hshown hsame e.asUsage

section Printing

variable [Console]

/-- What is printed is accepted in both or refused in both. -/
theorem print (printed : List Printed) : Agree Eq w v (Call.print printed) (Call.print printed) := by
  refine forM (fun item => ?_) printed
  unfold Call.printOne
  cases Console.refusal? item with
  | some e => exact throw _
  | none =>
    exact fun _ _ hshown =>
      .ok ⟨hshown.output, congrArg (· ++ [item]) hshown.printed⟩ ⟨rfl, rfl, rfl⟩

theorem abort (reason : Text) :
    Agree Q w v (Call.abort reason) (Call.abort reason) :=
  (print _).bind_same fun _ => throw _

end Printing

end Agree

end SuiteBalance.Command.Call
