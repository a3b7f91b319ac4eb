import SuiteBalance.Plan

/-!
# Snapshots

A **`Snapshot`** is what another job knows of a plan: for each fork its load and the patterns that
each task runs on it, tasks by their texts.  It answers the same questions as the plan.
-/

namespace SuiteBalance

/-- A fork in a snapshot. -/
structure SnapshotFork where
  index : Int
  load : Float
  tests : Entries Text (List Text)

/-- Forks that stand at their indices. -/
structure Snapshot where
  forks : List SnapshotFork
  numbered : forks.map SnapshotFork.index = (List.range forks.length).map Int.ofNat

namespace Snapshot

/-- The number of forks. -/
def forkCount (s : Snapshot) : Nat := s.forks.length

/-- The load of the slowest fork, zero without forks. -/
def makespan (s : Snapshot) : Float := (greatest? (s.forks.map SnapshotFork.load)).getD 0.0

/-- The patterns that a task runs on a fork. -/
def testsFor (s : Snapshot) (index : Int) (task : Text) : Except PlanError (List Text) :=
  (atWorker s.forks index).map fun fork => (fork.tests.get? task).getD []

end Snapshot

end SuiteBalance
