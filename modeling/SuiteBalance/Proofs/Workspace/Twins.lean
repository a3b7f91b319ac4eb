import Mathlib
import SuiteBalance.Proofs.Workspace.Calls

/-!
# Proofs — Workspace — twins

Two workspaces that hold the same, but for what is in one file, are told apart only by reading that
file.  All paths lead to the same places and to the same kinds of things there, and whatever is
written is written in both, so that they stay what they are.

* **`Twins`**: two workspaces that hold the same, but for one file.
* `Twins.node_cases`: the same stands at a place, or two files do.
* `Twins.place_eq`, `Twins.kind_eq`, `Twins.standing_eq`, `Twins.read_eq`: looking at a path.
* **`InStep`**: a call that answers the same in twins and leaves twins.
* `inStep_makeDirectoriesFrom`, **`Twins.writeUnder`**: what is written to a file is in both.
-/

namespace SuiteBalance.Workspace

variable {w v : Workspace} {p : Path} {site place : List Text} {first second bytes : List UInt8}
  {α β : Type}

/-- Two workspaces hold the same, but for the file at one place: it holds the first bytes in the one
and the second in the other, or the same in both. -/
structure Twins (site : List Text) (first second : List UInt8) (w v : Workspace) : Prop where
  node : ∀ {place}, place ≠ site → v.node? place = w.node? place
  file : ∃ here there, w.node? site = some (.file here) ∧ v.node? site = some (.file there) ∧
    (there = here ∨ here = first ∧ there = second)
  directory : v.directory = w.directory
  environment : v.environment = w.environment

/-- A way depends on the kinds of what it goes through. -/
theorem walk_cons (w : Workspace) (start rest : List Text) (part : Text) :
    w.walk start (part :: rest) =
      match (w.node? start).map Node.kind with
      | none => .error .missing
      | some .directory =>
        if Path.partLimit < Path.byteLength part then .error .tooLong
        else w.walk (if part = Path.above then start.dropLast else start ++ [part]) rest
      | some _ => .error .notDirectory := by
  rw [walk]
  rcases w.node? start with - | (- | - | -) <;> rfl

namespace Twins

/-! ### Looking -/

/-- The same stands at a place, or two files do. -/
theorem node_cases (h : Twins site first second w v) (place : List Text) :
    v.node? place = w.node? place ∨ ∃ here there,
      w.node? place = some (.file here) ∧ v.node? place = some (.file there) := by
  by_cases hplace : place = site
  · obtain ⟨here, there, hw, hv, -⟩ := h.file
    rw [hplace]
    exact .inr ⟨here, there, hw, hv⟩
  · exact .inl (h.node hplace)

/-- What stands at a place is of the same kind. -/
theorem kind_node (h : Twins site first second w v) (place : List Text) :
    (v.node? place).map Node.kind = (w.node? place).map Node.kind := by
  rcases h.node_cases place with hv | ⟨here, there, hw, hv⟩
  · rw [hv]
  · rw [hw, hv]
    rfl

theorem walk_eq (h : Twins site first second w v) (start parts : List Text) :
    v.walk start parts = w.walk start parts := by
  induction parts generalizing start with
  | nil => rfl
  | cons part rest ih => simp only [walk_cons, h.kind_node, ih]

/-- **A path leads to the same place.** -/
theorem place_eq (h : Twins site first second w v) (p : Path) : v.place p = w.place p := by
  unfold Workspace.place
  simp only [h.walk_eq, h.directory]

theorem kind_eq (h : Twins site first second w v) (p : Path) : v.kind p = w.kind p := by
  unfold Workspace.kind
  rw [h.place_eq]
  cases w.place p with
  | error problem => rfl
  | ok place =>
      dsimp only
      rcases h.node_cases place with hv | ⟨here, there, hw, hv⟩
      · rw [hv]
      · rw [hw, hv]
        rfl

/-- **What stands at a path is the same**, unless the path leads to the file. -/
theorem standing_eq (h : Twins site first second w v) (hapart : w.place p ≠ .ok site) :
    v.standing p = w.standing p := by
  unfold standing
  rw [h.place_eq]
  cases hplace : w.place p with
  | error problem => rfl
  | ok place =>
      have hne : place ≠ site := by
        rintro rfl
        exact hapart hplace
      exact congrArg Except.ok (h.node hne)

theorem read_eq (h : Twins site first second w v) (hapart : w.place p ≠ .ok site) :
    v.read p = w.read p := by
  unfold Workspace.read
  rw [h.place_eq]
  cases hplace : w.place p with
  | error problem => rfl
  | ok place =>
      have hne : place ≠ site := by
        rintro rfl
        exact hapart hplace
      dsimp only
      rw [h.node hne]

theorem alike_kind (h : Twins site first second w v) (p : Path) : Alike w v (Host.kind p) :=
  ⟨w.kind p, rfl, by rw [← h.kind_eq p]; rfl⟩

theorem alike_read (h : Twins site first second w v) (hapart : w.place p ≠ .ok site) :
    Alike w v (Host.read p) :=
  ⟨w.read p, rfl, by rw [← h.read_eq hapart]; rfl⟩

/-! ### Changing -/

/-- The same node is put in both; at the place of the file, it is a file. -/
theorem withNode (h : Twins site first second w v) {node : Node} (hne : place ≠ [])
    (hnode : place = site → node.kind = .file) :
    Twins site first second (w.withNode place node) (v.withNode place node) := by
  refine ⟨fun {other} hother => ?_, ?_, h.directory, h.environment⟩
  · rw [node?_withNode hne, node?_withNode hne, h.node hother]
  · rw [node?_withNode hne, node?_withNode hne]
    by_cases hsite : site = place
    · rw [if_pos hsite, if_pos hsite]
      cases node with
      | file bytes => exact ⟨bytes, bytes, rfl, rfl, .inl rfl⟩
      | directory => cases hnode hsite.symm
      | device => cases hnode hsite.symm
    · rw [if_neg hsite, if_neg hsite]
      exact h.file

end Twins

/-- A call answers the same in twins, and leaves twins. -/
def InStep (site : List Text) (first second : List UInt8) (call : StateM Workspace α) : Prop :=
  ∀ w v, Twins site first second w v →
    (ask call v).1 = (ask call w).1 ∧ Twins site first second (ask call w).2 (ask call v).2

namespace InStep

theorem pure (a : α) : InStep site first second (Pure.pure a) :=
  fun _ _ h => ⟨rfl, h⟩

/-- **One call after the other.** -/
theorem bind {call : StateM Workspace α} {next : α → StateM Workspace β}
    (h : InStep site first second call) (hnext : ∀ a, InStep site first second (next a)) :
    InStep site first second (call >>= next) := by
  intro w v htwins
  obtain ⟨hsame, hleft⟩ := h w v htwins
  rw [ask_bind, ask_bind, hsame]
  exact hnext _ _ _ hleft

/-- What is alike in all twins is in step. -/
theorem of_alike {call : StateM Workspace α}
    (h : ∀ w v, Twins site first second w v → Alike w v call) :
    InStep site first second call := by
  intro w v htwins
  obtain ⟨a, hw, hv⟩ := h w v htwins
  rw [hw, hv]
  exact ⟨rfl, htwins⟩

end InStep

theorem inStep_makeDirectory (p : Path) :
    InStep site first second (Host.makeDirectory p) := by
  intro w v h
  change (ask (update (·.makeDirectory p)) v).1 = (ask (update (·.makeDirectory p)) w).1 ∧
    Twins _ _ _ (ask (update (·.makeDirectory p)) w).2 (ask (update (·.makeDirectory p)) v).2
  rw [ask_update, ask_update, makeDirectory, makeDirectory, h.place_eq]
  cases w.place p with
  | error problem => exact ⟨rfl, h⟩
  | ok place =>
      dsimp only
      rcases h.node_cases place with hv | ⟨here, there, hw, hv⟩
      · rw [hv]
        cases hw : w.node? place with
        | some node => exact ⟨rfl, h⟩
        | none =>
            refine ⟨rfl, h.withNode (ne_nil_of_node? (w := w) (by simp [hw])) ?_⟩
            -- a file stands at the site, and nothing stands here
            rintro rfl
            obtain ⟨here, -, hhere, -⟩ := h.file
            cases hw.symm.trans hhere
      · rw [hw, hv]
        exact ⟨rfl, h⟩

theorem inStep_orExists (p : Path) (outcome : Except FileError Unit) :
    InStep site first second (Host.orExists p outcome) := by
  unfold Host.orExists
  cases outcome with
  | ok _ => exact .pure _
  | error e =>
      dsimp only
      split_ifs
      · exact (InStep.of_alike fun _ _ h => h.alike_kind p).bind fun _ => .pure _
      · exact .pure _

theorem inStep_makeDirectoriesFrom (anchor : Anchor) (parts : List Text) :
    InStep site first second (Host.makeDirectoriesFrom anchor parts) := by
  induction parts with
  | nil =>
      rw [Host.makeDirectoriesFrom]
      exact (inStep_makeDirectory _).bind fun _ => inStep_orExists _ _
  | cons part before ih =>
      rw [Host.makeDirectoriesFrom]
      refine (inStep_makeDirectory _).bind fun outcome => ?_
      split
      · refine ih.bind fun outcome => ?_
        cases outcome with
        | error e => exact .pure _
        | ok _ => exact (inStep_makeDirectory _).bind fun _ => inStep_orExists _ _
      · exact inStep_orExists _ _

namespace Twins

/-- What is written at a place is in both, whether or not it is the one that they differ in. -/
theorem write_at (h : Twins site first second w v) (hplace : w.place p = .ok place)
    (bytes : List UInt8) :
    (∃ e, w.write p bytes = .error e ∧ v.write p bytes = .error e) ∨
      ∃ w' v', w.write p bytes = .ok w' ∧ v.write p bytes = .ok v' ∧
        Twins site first second w' v' ∧ v'.node? place = w'.node? place := by
  have hput (hne : w.node? place ≠ some .directory) :
      Twins site first second (w.withNode place (.file bytes)) (v.withNode place (.file bytes)) ∧
        (v.withNode place (.file bytes)).node? place =
          (w.withNode place (.file bytes)).node? place := by
    have hnil : place ≠ [] := ne_nil_of_node? hne
    refine ⟨h.withNode hnil fun _ => rfl, ?_⟩
    rw [node?_withNode hnil, node?_withNode hnil, if_pos rfl, if_pos rfl]
  unfold Workspace.write
  rw [h.place_eq, hplace]
  dsimp only
  rcases h.node_cases place with hv | ⟨here, there, hw, hv⟩
  · rw [hv]
    rcases hw : w.node? place with - | (old | - | -)
    · exact .inr ⟨_, _, rfl, rfl, hput (by simp [hw])⟩
    · exact .inr ⟨_, _, rfl, rfl, hput (by simp [hw])⟩
    · exact .inl ⟨_, rfl, rfl⟩
    · exact .inr ⟨w, v, rfl, rfl, h, hv⟩
  · rw [hw, hv]
    exact .inr ⟨_, _, rfl, rfl, hput (by simp [hw])⟩

/-- What is written to a file is in both. -/
theorem write (h : Twins site first second w v) (p : Path) (bytes : List UInt8) :
    (∃ e, w.write p bytes = .error e ∧ v.write p bytes = .error e) ∨
      ∃ w' v', w.write p bytes = .ok w' ∧ v.write p bytes = .ok v' ∧
        Twins site first second w' v' ∧ v'.standing p = w'.standing p := by
  cases hplace : w.place p with
  | error problem =>
      refine .inl ⟨⟨problem, p.text⟩, ?_, ?_⟩
      · rw [Workspace.write, hplace]
      · rw [Workspace.write, h.place_eq, hplace]
  | ok place =>
      refine (h.write_at hplace bytes).imp_right ?_
      rintro ⟨w', v', hw, hv, htwins, hnode⟩
      -- the path leads where it did
      obtain ⟨_, hfound, hleft, -⟩ := keeps_write hw
      cases hplace.symm.trans hfound
      refine ⟨w', v', hw, hv, htwins, ?_⟩
      rw [standing, standing, htwins.place_eq, hleft]
      exact congrArg Except.ok hnode

/-- **What is written to a file, in directories that are made, is in both.** -/
theorem writeUnder (h : Twins site first second w v) (p : Path) (bytes : List UInt8) :
    ∃ outcome w' v', ask (Host.writeUnder p bytes : StateM Workspace _) w = (outcome, w') ∧
      ask (Host.writeUnder p bytes : StateM Workspace _) v = (outcome, v') ∧
      Twins site first second w' v' ∧ (outcome = .ok () → v'.standing p = w'.standing p) := by
  obtain ⟨hsame, hmade⟩ := inStep_makeDirectoriesFrom p.parent.anchor p.parent.parts.reverse w v h
  rw [Host.writeUnder, ask_bind, ask_bind, Host.makeDirectories, hsame]
  generalize ask (Host.makeDirectoriesFrom p.parent.anchor p.parent.parts.reverse :
    StateM Workspace _) w = made at hmade
  generalize (ask (Host.makeDirectoriesFrom p.parent.anchor p.parent.parts.reverse :
    StateM Workspace _) v).2 = made' at hmade
  obtain ⟨outcome, made⟩ := made
  cases outcome with
  | error e => exact ⟨_, made, made', rfl, rfl, hmade, fun hok => by cases hok⟩
  | ok _ =>
      have hask (u : Workspace) : ask (Host.write p bytes : StateM Workspace _) u =
        ask (update (·.write p bytes)) u := rfl
      dsimp only
      rw [hask, hask, ask_update, ask_update]
      rcases hmade.write p bytes with ⟨e, hw, hv⟩ | ⟨w', v', hw, hv, htwins, hstanding⟩
      · rw [hw, hv]
        exact ⟨_, made, made', rfl, rfl, hmade, fun hok => by cases hok⟩
      · rw [hw, hv]
        exact ⟨_, w', v', rfl, rfl, htwins, fun _ => hstanding⟩

end Twins

end SuiteBalance.Workspace
