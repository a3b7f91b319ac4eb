import Mathlib
import SuiteBalance.Proofs.Planner.Replay
import SuiteBalance.Proofs.Workspace

/-!
# Proofs — Workspace — calls

A file is written into directories that are made, and nothing else changes.  A call that only looks
at what stands at some paths, at the working directory and at the environment answers alike in two
workspaces that agree there.

* `keeps_writeUnder`: what is kept where a file is written.
* **`Alike`**: a call answers alike in two workspaces and changes neither.
* `Alike.bind`: one call after the other.
* `alike_isFile`, `alike_read`, `Alike.kind_bind`: looking at a path.
-/

namespace SuiteBalance.Workspace

variable {w v : Workspace} {p : Path} {target : List Text} {α β : Type}

/-! ### Writing -/

/-- A change takes place, or nothing does. -/
theorem ask_update (change : Workspace → Except FileError Workspace) (w : Workspace) :
    ask (update change) w = match change w with
      | .ok v => (.ok (), v)
      | .error e => (.error e, w) := by
  rfl

theorem keeps_ask_makeDirectory (target : List Text) (p : Path) (w : Workspace) :
    Keeps target w (ask (Host.makeDirectory p : StateM Workspace _) w).2 := by
  change Keeps target w (ask (update (·.makeDirectory p)) w).2
  rw [ask_update]
  cases hmake : w.makeDirectory p with
  | error e => exact .refl target w
  | ok v => exact keeps_makeDirectory hmake target

/-- Looking for the directory that could not be made changes nothing. -/
theorem ask_orExists (p : Path) (outcome : Except FileError Unit) (w : Workspace) :
    (ask (Host.orExists p outcome : StateM Workspace _) w).2 = w := by
  unfold Host.orExists
  cases outcome with
  | ok _ => rfl
  | error e =>
      dsimp only
      split_ifs
      · rfl
      · rfl

/-- Making directories keeps everything. -/
theorem keeps_makeDirectoriesFrom (target : List Text) (anchor : Anchor) (parts : List Text)
    (w : Workspace) :
    Keeps target w (ask (Host.makeDirectoriesFrom anchor parts : StateM Workspace _) w).2 := by
  induction parts generalizing w with
  | nil =>
      rw [Host.makeDirectoriesFrom, ask_bind, ask_orExists]
      exact keeps_ask_makeDirectory target _ w
  | cons part before ih =>
      rw [Host.makeDirectoriesFrom, ask_bind]
      have hfirst := keeps_ask_makeDirectory target ⟨anchor, (part :: before).reverse⟩ w
      generalize ask (Host.makeDirectory ⟨anchor, (part :: before).reverse⟩ : StateM Workspace _) w =
        made at hfirst
      split
      · -- those above are made first, and then this one again
        rw [ask_bind]
        have hbefore := ih made.2
        generalize ask (Host.makeDirectoriesFrom anchor before : StateM Workspace _) made.2 =
          above at hbefore
        cases above.1 with
        | error e => exact hfirst.trans hbefore
        | ok _ =>
            rw [ask_bind, ask_orExists]
            exact (hfirst.trans hbefore).trans (keeps_ask_makeDirectory target _ _)
      · rw [ask_orExists]
        exact hfirst

/-- **Writing a file into directories that are made keeps all but the file.** -/
theorem keeps_writeUnder {bytes : List UInt8}
    (h : ask (Host.writeUnder p bytes : StateM Workspace _) w = (.ok (), v)) :
    ∃ place, v.place p = .ok place ∧ Keeps place w v := by
  rw [Host.writeUnder, ask_bind] at h
  have hmade (target : List Text) := keeps_makeDirectoriesFrom target p.parent.anchor
    p.parent.parts.reverse w
  rw [← Host.makeDirectories] at hmade
  generalize ask (Host.makeDirectories p.parent : StateM Workspace _) w = made at h hmade
  obtain ⟨outcome, made⟩ := made
  cases outcome with
  | error e => cases congrArg Prod.fst h
  | ok _ =>
      change ask (update (·.write p bytes)) made = _ at h
      rw [ask_update] at h
      cases hwrite : made.write p bytes with
      | error e =>
          rw [hwrite] at h
          cases congrArg Prod.fst h
      | ok left =>
          rw [hwrite] at h
          obtain rfl : left = v := congrArg Prod.snd h
          obtain ⟨place, -, hplace, hkeeps⟩ := keeps_write hwrite
          exact ⟨place, hplace, (hmade place).trans hkeeps⟩

/-! ### Looking -/

/-- A call answers alike in two workspaces and changes neither. -/
def Alike (w v : Workspace) (call : StateM Workspace α) : Prop :=
  ∃ a, ask call w = (a, w) ∧ ask call v = (a, v)

theorem Alike.pure (a : α) : Alike w v (Pure.pure a) := ⟨a, rfl, rfl⟩

/-- **One call after the other.** -/
theorem Alike.bind {call : StateM Workspace α} {next : α → StateM Workspace β}
    (h : Alike w v call) (hnext : ∀ a, ask call w = (a, w) → Alike w v (next a)) :
    Alike w v (call >>= next) := by
  obtain ⟨a, hw, hv⟩ := h
  obtain ⟨b, hw', hv'⟩ := hnext a hw
  refine ⟨b, ?_, ?_⟩
  · rw [ask_bind, hw]
    exact hw'
  · rw [ask_bind, hv]
    exact hv'

/-- What is known of the answer in the one workspace is known of it in the other. -/
theorem Alike.answer {call : StateM Workspace α} (h : Alike w v call) {a : α} {u : Workspace}
    (hw : ask call w = (a, u)) : u = w ∧ ask call v = (a, v) := by
  obtain ⟨b, hw', hv⟩ := h
  obtain ⟨rfl, rfl⟩ := Prod.mk.inj (hw'.symm.trans hw)
  exact ⟨rfl, hv⟩

theorem Alike.mapM {f : α → StateM Workspace β} {l : List α} (h : ∀ a ∈ l, Alike w v (f a)) :
    Alike w v (l.mapM f) := by
  induction l with
  | nil => exact .pure []
  | cons a l ih =>
      rw [List.forall_mem_cons] at h
      rw [List.mapM_cons]
      exact h.1.bind fun b _ => (ih h.2).bind fun rest _ => .pure (b :: rest)

theorem alike_lookup? (h : v.environment = w.environment) (name : String) :
    Alike w v (Host.lookup? name) := by
  refine ⟨w.environment.get? name, rfl, ?_⟩
  rw [← h]
  rfl

theorem alike_workingDirectory (h : v.directory = w.directory) :
    Alike w v Host.workingDirectory := by
  refine ⟨w.directory, rfl, ?_⟩
  rw [← h]
  rfl

/-- The path from the root depends on the working directory alone. -/
theorem alike_resolve (h : v.directory = w.directory) (p : Path) : Alike w v (Host.resolve p) := by
  unfold Host.resolve
  cases p.refusal? with
  | some problem => exact .pure _
  | none => exact (alike_workingDirectory h).bind fun _ _ => .pure _

/-- Whether a file stands at a path. -/
theorem ask_isFile (w : Workspace) (p : Path) :
    ask (Host.isFile p : StateM Workspace _) w =
      ((w.standing p).map fun node? => decide (node?.map Node.kind = some .file), w) := by
  have hask : ask (Host.kind p : StateM Workspace _) w = (w.kind p, w) := rfl
  rw [Host.isFile, ask_bind, hask]
  unfold kind standing
  cases w.place p with
  | error problem =>
      dsimp only
      cases problem <;> rfl
  | ok place =>
      dsimp only
      cases w.node? place with
      | none => rfl
      | some node => cases node <;> rfl

theorem alike_isFile (h : v.standing p = w.standing p) : Alike w v (Host.isFile p) :=
  ⟨_, ask_isFile w p, by rw [ask_isFile, h]⟩

/-- What stands at a path decides what kind is found there, errors apart. -/
theorem toOption_kind_of_standing (h : v.standing p = w.standing p) :
    (v.kind p).toOption = (w.kind p).toOption := by
  rw [toOption_kind, toOption_kind, h]

/-- Looking at the kind of what stands at a path, if errors are not told apart. -/
theorem Alike.kind_bind (h : (v.kind p).toOption = (w.kind p).toOption)
    {next : Except FileError FileKind → StateM Workspace α}
    (hsame : ∀ a b, a.toOption = b.toOption → next a = next b)
    (hnext : ∀ found, Alike w v (next found)) : Alike w v (Host.kind p >>= next) := by
  obtain ⟨a, hw, hv⟩ := hnext (w.kind p)
  refine ⟨a, hw, ?_⟩
  rw [hsame _ _ h.symm] at hv
  exact hv

theorem alike_read {node : Node} (hw : w.standing p = .ok (some node))
    (h : v.standing p = w.standing p) : Alike w v (Host.read p) := by
  refine ⟨w.read p, rfl, ?_⟩
  rw [← read_eq_of_standing hw (h.trans hw)]
  rfl

/-- Bytes that can be read at a path are what is read there. -/
theorem ask_read {bytes : List UInt8} (h : w.read p = .ok bytes) :
    ask (Host.read p : StateM Workspace _) w = (.ok bytes, w) := by
  rw [← h]
  rfl

end SuiteBalance.Workspace
