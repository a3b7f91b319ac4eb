import Mathlib
import SuiteBalance.Proofs.Planner.Replay
import SuiteBalance.Proofs.Traversal

/-!
# Proofs — Planner — how planning fails

The timing history is asked for first, then the sources in the order of their registration.  The
first of them that fails decides how planning fails, where none of them changes the world that the
others live in.

* `Group.exists_ofPatterns_iff`, `Group.ofPattern_eq_error_iff`: which patterns make groups.
* **`Source.found`**: the groups that a source finds.
* `outcome_discover`: a discovery goes through the sources.
* **`generate_eq_error_iff`**: how planning fails.
-/

namespace SuiteBalance

variable {σ : Type} {world : σ} {e : Failure}

/-! ### Patterns that make groups -/

namespace Group

variable {pattern : String} {patterns : List String} {t : Task}

theorem exists_ofPattern_iff :
    (∃ g, ofPattern pattern t = .ok g) ↔ pattern.toList.getLast? = some wildcard := by
  unfold ofPattern
  split_ifs with h
  · exact iff_of_true ⟨_, rfl⟩ h
  · refine iff_of_false ?_ h
    rintro ⟨g, hg⟩
    cases hg

/-- A pattern makes no group if it does not end in the wildcard. -/
theorem ofPattern_eq_error_iff {e : GroupError} :
    ofPattern pattern t = .error e ↔
      pattern.toList.getLast? ≠ some wildcard ∧ e = .noWildcard pattern := by
  unfold ofPattern
  split_ifs with h
  · simp [h]
  · simp [h, eq_comm]

/-- Patterns make groups if they all end in the wildcard. -/
theorem exists_ofPatterns_iff :
    (∃ groups, ofPatterns patterns t = .ok groups) ↔
      ∀ pattern ∈ patterns, pattern.toList.getLast? = some wildcard := by
  unfold ofPatterns
  rw [exists_mapM_eq_ok_iff]
  exact forall₂_congr fun _ _ => exists_ofPattern_iff

end Group

/-! ### Sources -/

/-- The groups that a source finds in a world, or why it finds none. -/
def Source.found (source : Source (StateM σ)) (world : σ) : Except Failure (List Group) :=
  ((ask source.list world).1.groups source.task).outcome

namespace Planner

/-- **A discovery goes through the sources**, where they leave the world as it is. -/
theorem outcome_discover {sources : List (Source (StateM σ))}
    (h : ∀ source ∈ sources, (ask source.list world).2 = world) :
    (ask (discover sources) world).1.outcome =
      (sources.mapM (Source.found · world)).map List.flatten := by
  induction sources with
  | nil => rfl
  | cons source sources ih =>
      rw [List.forall_mem_cons] at h
      rw [discover, List.mapM_cons, ask_bind, h.1, Source.found]
      dsimp only
      cases hfound : ((ask source.list world).1.groups source.task).outcome with
      | error e => rfl
      | ok groups =>
          have hlater := ih h.2
          dsimp only
          rw [ask_bind]
          change ((ask (discover sources) world).1.outcome.map (groups ++ ·)) = _
          rw [hlater]
          cases sources.mapM (Source.found · world) <;> rfl

/-- **Planning fails as the first of the collaborators fails that does**: the history of durations,
or else a source. -/
theorem generate_eq_error_iff {p : Planner (StateM σ)} (htimings : (ask p.timings world).2 = world)
    (hsources : ∀ source ∈ p.sources, (ask source.list world).2 = world) :
    (ask p.generate world).1.1.outcome = .error e ↔
      (ask p.timings world).1.outcome = .error e ∨
        (∃ records, (ask p.timings world).1.outcome = .ok records) ∧
          ∃ before source behind, p.sources = before ++ source :: behind ∧
            (∀ earlier ∈ before, ∃ groups, earlier.found world = .ok groups) ∧
              source.found world = .error e := by
  have hdiscover := outcome_discover hsources
  unfold generate
  rw [ask_bind, htimings]
  cases (ask p.timings world).1.outcome with
  | error e' => simp
  | ok records =>
      have hfailed : (ask (discover p.sources) world).1.outcome = .error e ↔
          ∃ before source behind, p.sources = before ++ source :: behind ∧
            (∀ earlier ∈ before, ∃ groups, earlier.found world = .ok groups) ∧
              source.found world = .error e := by
        rw [hdiscover, ← mapM_eq_error_iff]
        cases p.sources.mapM (Source.found · world) <;> simp [Except.map]
      rw [← hfailed]
      dsimp only
      rw [ask_bind]
      cases (ask (discover p.sources) world).1.outcome with
      | error e' => simp
      | ok groups => simp

end Planner

end SuiteBalance
