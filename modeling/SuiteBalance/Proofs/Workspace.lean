import Mathlib
import SuiteBalance.Workspace

/-!
# Proofs — Workspace — files

What is written to a file is what is read from it.  Writing a file and making a directory change
one node, which is no directory, so that the way to all others stays the same.

* **`Keeps`**: a workspace keeps what stands in another, but for a file at one place.
* `Keeps.place`: a path leads to the same place.
* `keeps_write`, `keeps_makeDirectory`: what is kept by the two operations.
* **`read_write`**: the bytes of a file that was written.
* **`standing`**: what stands at a path, and `Keeps.standing`, when it is kept.
-/

namespace SuiteBalance

deriving instance DecidableEq for Node

namespace Workspace

variable {w v u : Workspace} {p : Path} {site target : List Text} {bytes : List UInt8}

/-- A workspace with a node put at a place. -/
def withNode (w : Workspace) (place : List Text) (node : Node) : Workspace :=
  { w with nodes := w.nodes.put place node }

/-- A workspace with a file put at a place. -/
def withFile (w : Workspace) (place : List Text) (bytes : List UInt8) : Workspace :=
  { w with nodes := w.nodes.put place (.file bytes) }

/-- The root is a directory. -/
theorem ne_nil_of_node? (h : w.node? site ≠ some .directory) : site ≠ [] := by
  rintro rfl
  exact h rfl

theorem node?_withNode {node : Node} (h : site ≠ []) (other : List Text) :
    (w.withNode site node).node? other = if other = site then some node else w.node? other := by
  cases other with
  | nil => rw [if_neg (Ne.symm h)]; rfl
  | cons part parts =>
      change (w.nodes.put site node).get? (part :: parts) = _
      rw [Entries.get?_put]
      by_cases heq : part :: parts = site
      · rw [if_pos heq, if_pos (beq_iff_eq.mpr heq)]
      · rw [if_neg heq, if_neg (mt beq_iff_eq.mp heq)]
        rfl

/-! ### What is kept -/

/-- A workspace keeps all that stands in another one, but for a file at the given place. -/
structure Keeps (target : List Text) (w v : Workspace) : Prop where
  node : ∀ {place node}, w.node? place = some node → (place = target → node.kind ≠ .file) →
    v.node? place = some node
  directory : v.directory = w.directory
  environment : v.environment = w.environment

namespace Keeps

theorem refl (target : List Text) (w : Workspace) : Keeps target w w := ⟨fun h _ => h, rfl, rfl⟩

theorem trans (h : Keeps target w v) (h' : Keeps target v u) : Keeps target w u :=
  ⟨fun hnode hkind => h'.node (h.node hnode hkind) hkind, h'.directory.trans h.directory,
    h'.environment.trans h.environment⟩

/-- A node is put where nothing stands that has to be kept. -/
theorem withNode {node : Node} (hne : site ≠ [])
    (h : ∀ old, w.node? site = some old → site = target ∧ old.kind = .file) :
    Keeps target w (w.withNode site node) := by
  refine ⟨fun {other old} hold hkind => ?_, rfl, rfl⟩
  rw [node?_withNode hne]
  by_cases heq : other = site
  · obtain rfl := heq
    obtain ⟨htarget, hfile⟩ := h old hold
    exact absurd hfile (hkind htarget)
  · rw [if_neg heq]
    exact hold

/-- A way that does not end at something missing goes through directories, which are kept. -/
theorem walk (h : Keeps target w v) {start parts : List Text}
    (hmissing : w.walk start parts ≠ .error .missing)
    (hdirectory : w.walk start parts ≠ .error .notDirectory) :
    v.walk start parts = w.walk start parts := by
  induction parts generalizing start with
  | nil => rfl
  | cons part parts ih =>
      rw [Workspace.walk] at hmissing hdirectory ⊢
      rw [Workspace.walk]
      cases hnode : w.node? start with
      | none =>
          rw [hnode] at hmissing
          exact absurd rfl hmissing
      | some node =>
          cases node with
          | file bytes =>
              rw [hnode] at hdirectory
              exact absurd rfl hdirectory
          | device =>
              rw [hnode] at hdirectory
              exact absurd rfl hdirectory
          | directory =>
              rw [hnode] at hmissing hdirectory
              rw [h.node hnode fun _ => nofun]
              dsimp only at hmissing hdirectory ⊢
              split_ifs at hmissing hdirectory ⊢ with hlong
              · rfl
              · exact ih hmissing hdirectory
              · exact ih hmissing hdirectory

/-- **A path leads to the same place.** -/
theorem place (h : Keeps target w v) (hmissing : w.place p ≠ .error .missing)
    (hdirectory : w.place p ≠ .error .notDirectory) : v.place p = w.place p := by
  unfold Workspace.place at hmissing hdirectory ⊢
  cases hrefusal : p.refusal? with
  | some problem => rfl
  | none =>
      rw [hrefusal] at hmissing hdirectory
      dsimp only at hmissing hdirectory ⊢
      rw [h.directory]
      split_ifs at hmissing hdirectory ⊢ with hlong
      · rfl
      · exact h.walk hmissing hdirectory
      · exact h.walk hmissing hdirectory

theorem place_ok (h : Keeps target w v) (hplace : w.place p = .ok site) : v.place p = .ok site :=
  (h.place (by rw [hplace]; exact nofun) (by rw [hplace]; exact nofun)).trans hplace

end Keeps

/-- Writing keeps all but the file that is written. -/
theorem keeps_write (h : w.write p bytes = .ok v) :
    ∃ place, w.place p = .ok place ∧ v.place p = .ok place ∧ Keeps place w v := by
  unfold write at h
  cases hplace : w.place p with
  | error problem =>
      rw [hplace] at h
      cases h
  | ok place =>
      suffices hkeeps : Keeps place w v from ⟨place, rfl, hkeeps.place_ok hplace, hkeeps⟩
      rw [hplace] at h
      dsimp only at h
      split at h
      case h_1 => cases h
      case h_2 =>
          obtain rfl := Except.ok.inj h
          exact .refl place w
      case h_3 hdirectory hdevice =>
          obtain rfl := Except.ok.inj h
          refine Keeps.withNode (ne_nil_of_node? hdirectory) fun old hold => ⟨rfl, ?_⟩
          cases old with
          | file bytes => rfl
          | directory => exact absurd hold hdirectory
          | device => exact absurd hold hdevice

/-- Making a directory keeps everything. -/
theorem keeps_makeDirectory (h : w.makeDirectory p = .ok v) (target : List Text) :
    Keeps target w v := by
  unfold makeDirectory at h
  cases hplace : w.place p with
  | error problem =>
      rw [hplace] at h
      cases h
  | ok place =>
      rw [hplace] at h
      dsimp only at h
      cases hnode : w.node? place with
      | some node =>
          rw [hnode] at h
          cases h
      | none =>
          rw [hnode] at h
          obtain rfl := Except.ok.inj h
          have hdirectory : w.node? place ≠ some .directory := by
            rw [hnode]
            exact nofun
          refine Keeps.withNode (ne_nil_of_node? hdirectory) fun old hold => ?_
          rw [hnode] at hold
          cases hold

/-- **What is written to a file is read from it.** -/
theorem read_write (h : w.write p bytes = .ok v) (hkind : v.kind p = .ok .file) :
    v.read p = .ok bytes := by
  obtain ⟨place, hplace, hplace', -⟩ := keeps_write h
  unfold write at h
  unfold kind at hkind
  unfold read
  rw [hplace'] at hkind ⊢
  rw [hplace] at h
  dsimp only at h hkind ⊢
  split at h
  case h_1 => cases h
  case h_2 hnode =>
      obtain rfl := Except.ok.inj h
      rw [hnode] at hkind
      cases hkind
  case h_3 hdirectory _ =>
      have hv : v = w.withNode place (.file bytes) := (Except.ok.inj h).symm
      rw [hv, node?_withNode (ne_nil_of_node? hdirectory), if_pos rfl]

/-! ### What stands at a path -/

/-- What stands at a path; nothing, where no more is said than that nothing is there. -/
def standing (w : Workspace) (p : Path) : Except FileError (Option Node) :=
  match w.place p with
  | .error problem => if problem.isAbsence then .ok none else .error ⟨problem, p.text⟩
  | .ok place => .ok (w.node? place)

/-- **What stands at a path is kept**, unless the path leads to the file that is not. -/
theorem Keeps.standing (h : Keeps target w v) (hthere : w.standing p ≠ .ok none)
    (hapart : v.place p ≠ .ok target) : v.standing p = w.standing p := by
  cases hplace : w.place p with
  | error problem =>
      have hpresent : problem.isAbsence ≠ true := by
        intro habsence
        rw [Workspace.standing, hplace] at hthere
        exact hthere (if_pos habsence)
      have hmissing : w.place p ≠ .error .missing := by
        rw [hplace]
        rintro ⟨⟩
        exact hpresent rfl
      have hdirectory : w.place p ≠ .error .notDirectory := by
        rw [hplace]
        rintro ⟨⟩
        exact hpresent rfl
      rw [Workspace.standing, Workspace.standing, h.place hmissing hdirectory, hplace]
  | ok place =>
      have hsame := h.place_ok hplace
      rw [Workspace.standing, hplace] at hthere
      rw [Workspace.standing, Workspace.standing, hsame, hplace]
      cases hnode : w.node? place with
      | none => exact absurd (congrArg Except.ok hnode) hthere
      | some node =>
          have hapart' : place ≠ target := by
            rintro rfl
            exact hapart hsame
          exact congrArg Except.ok ((h.node hnode fun heq => absurd heq hapart').trans hnode.symm)

/-- The kind of what stands at a path. -/
theorem toOption_kind (w : Workspace) (p : Path) :
    (w.kind p).toOption = ((w.standing p).toOption.join).map Node.kind := by
  unfold kind Workspace.standing
  cases w.place p with
  | error problem =>
      dsimp only
      split_ifs <;> rfl
  | ok place =>
      dsimp only
      cases w.node? place <;> rfl

theorem place_of_standing {node : Node} (h : w.standing p = .ok (some node)) :
    ∃ place, w.place p = .ok place ∧ w.node? place = some node := by
  unfold Workspace.standing at h
  cases hplace : w.place p with
  | error problem =>
      rw [hplace] at h
      dsimp only at h
      split_ifs at h
      cases h
  | ok place =>
      rw [hplace] at h
      exact ⟨place, rfl, Except.ok.inj h⟩

/-- What stands at a path and is no file is kept in any case. -/
theorem Keeps.standing_of_kind (h : Keeps target w v) {kind : FileKind}
    (hkind : (w.kind p).toOption = some kind) (hfile : kind ≠ .file) :
    v.standing p = w.standing p := by
  rw [toOption_kind, Option.map_eq_some_iff] at hkind
  obtain ⟨node, hnode, rfl⟩ := hkind
  have hstanding : w.standing p = .ok (some node) := by
    cases hw : w.standing p with
    | error e => rw [hw] at hnode; cases hnode
    | ok found => rw [hw] at hnode; exact congrArg Except.ok hnode
  obtain ⟨place, hplace, hnode⟩ := place_of_standing hstanding
  rw [hstanding, Workspace.standing, h.place_ok hplace]
  exact congrArg Except.ok (h.node hnode fun _ => hfile)

/-- What stands at a path decides what is read there. -/
theorem read_eq_of_standing {node : Node} (hw : w.standing p = .ok (some node))
    (hv : v.standing p = .ok (some node)) : v.read p = w.read p := by
  obtain ⟨place, hplace, hnode⟩ := place_of_standing hw
  obtain ⟨place', hplace', hnode'⟩ := place_of_standing hv
  unfold read
  rw [hplace, hplace']
  dsimp only
  rw [hnode, hnode']

/-- A file that stands at a path is read. -/
theorem read_of_standing (h : w.standing p = .ok (some (.file bytes))) : w.read p = .ok bytes := by
  obtain ⟨place, hplace, hnode⟩ := place_of_standing h
  unfold read
  rw [hplace]
  dsimp only
  rw [hnode]

/-- Why what stands at a path is not known is a problem of the system. -/
theorem isSystem_of_standing {e : FileError} (h : w.standing p = .error e) : e.isSystem = true := by
  unfold Workspace.standing at h
  cases hplace : w.place p with
  | ok place =>
      rw [hplace] at h
      cases h
  | error problem =>
      rw [hplace] at h
      dsimp only at h
      split_ifs at h with habsence
      obtain rfl := Except.error.inj h
      cases problem <;> first | rfl | exact absurd rfl habsence

end Workspace

end SuiteBalance
