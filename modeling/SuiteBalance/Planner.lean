import SuiteBalance.Failure
import SuiteBalance.Schedule

/-!
# Planners

A **`Planner`** has a number of forks, a provider of timing records and registered sources of test
patterns.  Each `generate` asks the provider and then the sources in the order of their
registration, up to the first that fails, and makes a plan of what they answer.  The plan and its
forks take the place of those before; a failure leaves the planner as it was.
-/

namespace SuiteBalance

/-- A source of test patterns, and the task that runs the tests. -/
structure Source (m : Type → Type) where
  list : m (Reply (List String))
  task : Task

/-- A planner. -/
structure Planner (m : Type → Type) where
  forkCount : Nat
  at_least_one : 0 < forkCount
  timings : m (Reply (List TimingRecord))
  sources : List (Source m) := []
  /-- The forks of the latest plan, fresh ones before the first. -/
  forks : List Fork := Fork.fresh forkCount
  plan? : Option Plan := none

/-- Why a planner cannot be made or has no answer. -/
inductive PlannerError where
  | forkCount (count : Int)
  | noPlan
  | plan (e : PlanError)
  deriving DecidableEq, Repr

/-- The words for a planner's refusal. -/
def PlannerError.message : PlannerError → String
  | .forkCount count => s!"fork_count must be >= 1, got {count}"
  | .noPlan => "no test plan yet; call generate() first"
  | .plan e => e.message

/-- The groups of the patterns that a source answered. -/
def Reply.groups (reply : Reply (List String)) (task : Task) : Reply (List Group) :=
  match reply.outcome with
  | .error e => ⟨.error e, reply.notices⟩
  | .ok patterns => ⟨(Group.ofPatterns patterns task).mapError .group, reply.notices⟩

namespace Planner

variable {m : Type → Type} [Monad m]

/-- A planner without sources. -/
def make (forkCount : Int) (timings : m (Reply (List TimingRecord))) :
    Except PlannerError (Planner m) :=
  if h : 0 < forkCount.toNat then .ok { forkCount := forkCount.toNat, at_least_one := h, timings }
  else .error (.forkCount forkCount)

/-- Adds a source behind those registered before. -/
def register (p : Planner m) (source : Source m) : Planner m :=
  { p with sources := p.sources ++ [source] }

/-- The latest plan. -/
def plan (p : Planner m) : Except PlannerError Plan :=
  match p.plan? with
  | some plan => .ok plan
  | none => .error .noPlan

/-- The patterns that a task runs on a fork of the latest plan. -/
def testsFor (p : Planner m) (index : Int) (t : Task) : Except PlannerError (List String) := do
  let plan ← p.plan
  (plan.testsFor index t).mapError .plan

/-- The groups of all sources, or the first failure, up to which the sources are asked. -/
def discover : List (Source m) → m (Reply (List Group))
  | [] => return ⟨.ok [], []⟩
  | source :: rest => do
    let first := (← source.list).groups source.task
    match first.outcome with
    | .error e => return ⟨.error e, first.notices⟩
    | .ok groups =>
      let later ← discover rest
      return ⟨later.outcome.map (groups ++ ·), first.notices ++ later.notices⟩

/-- The notices around a plan that is made of groups and records. -/
def announced (p : Planner m) (groups : List Group) (records : List TimingRecord) :
    Plan × List Notice :=
  let (plan, notices) := Plan.schedule p.forkCount groups records
  let ready := plan.makespan.toOption.map Notice.planReady
  (plan, .planning groups.length p.sources.length records.length p.forkCount ::
    (notices ++ ready.toList))

/-- Puts a plan in the place of the one before. -/
def publish (p : Planner m) (plan : Plan) : Planner m :=
  { p with forks := plan.forks, plan? := some plan }

/-- Makes a plan of what the provider and the sources answer. -/
def generate (p : Planner m) : m (Reply Plan × Planner m) := do
  let timings ← p.timings
  match timings.outcome with
  | .error e => return (⟨.error e, timings.notices⟩, p)
  | .ok records =>
    let found ← discover p.sources
    match found.outcome with
    | .error e => return (⟨.error e, timings.notices ++ found.notices⟩, p)
    | .ok groups =>
      let (plan, notices) := p.announced groups records
      let earlier := timings.notices ++ found.notices
      return (⟨.ok plan, earlier ++ notices⟩, p.publish plan)

end Planner

end SuiteBalance
