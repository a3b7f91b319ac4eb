import SuiteBalance.Allocation
import SuiteBalance.Plan

/-!
# Schedules

**`Plan.schedule`** makes the plan of some test groups for a number of forks: one bucket for each
group, costed by the timing records it covers, given out to fresh forks, which are then frozen.
-/

namespace SuiteBalance

/-- Forks without buckets, numbered from zero. -/
def Fork.fresh (count : Nat) : List Fork := (List.range count).map Fork.empty

theorem Fork.isFrozen_freeze (f : Fork) : f.freeze.isFrozen = true := rfl

namespace Plan

/-- The plan of forks that may still take buckets, which ends with it. -/
def freezing (forks : List Fork) : Plan :=
  ⟨forks.map Fork.freeze, by simp [Fork.isFrozen_freeze]⟩

/-- The plan that gives the groups' buckets out to a number of forks. -/
def schedule (forkCount : Nat) (groups : List Group) (records : List TimingRecord) :
    Plan × List Notice :=
  let (buckets, built) := Bucket.build groups records
  let allocation := allocate buckets (Fork.fresh forkCount)
  (freezing allocation.forks, built ++ allocation.notices)

end Plan

end SuiteBalance
