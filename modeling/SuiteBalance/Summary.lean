import SuiteBalance.Json.Basic
import SuiteBalance.Plan

/-!
# Summaries

What a plan gives each fork to do, in the order of the assignments: **`Plan.summary`** as data,
**`ForkSummary.document`** as JSON and **`Plan.report`** as notices.
-/

namespace SuiteBalance

/-- A test group on a fork: its pattern, the text of its task, its cost and the records that it
covers. -/
structure GroupSummary where
  name : String
  task : Text := ""
  cost : Float := 0.0
  matched : List TimingRecord := []

/-- A fork with its load, the number of tests of earlier runs that it covers, and its groups. -/
structure ForkSummary where
  index : Int
  load : Float
  testCount : Int
  groups : List GroupSummary

/-- The summary of a bucket. -/
def Bucket.summary (b : Bucket) : GroupSummary := ⟨b.pattern, b.task.text, b.cost, b.matched⟩

/-- The summary of a fork. -/
def Fork.summary (f : Fork) : ForkSummary :=
  ⟨f.index, f.load, f.testCount, f.buckets.map Bucket.summary⟩

/-- The summaries of the forks, by index. -/
def Plan.summary (p : Plan) : List ForkSummary := p.forks.map Fork.summary

/-- The summaries of the forks, if all tasks can be written. -/
def Plan.summarize (p : Plan) : Except PlanError (List ForkSummary) :=
  if p.isWritable then .ok p.summary else .error .unwritable

/-- The document of a record. -/
def TimingRecord.document (r : TimingRecord) : Json :=
  .object [("name", .text r.name), ("duration", .real r.duration)]

/-- The document of a group. -/
def GroupSummary.document (g : GroupSummary) : Json :=
  .object [
    ("name", .text g.name),
    ("task", .text g.task),
    ("duration", .real g.cost),
    ("matched", .array (g.matched.map TimingRecord.document))]

/-- The document of a fork's summary. -/
def ForkSummary.document (s : ForkSummary) : Json :=
  .object [
    ("index", .integer s.index),
    ("duration", .real s.load),
    ("test_count", .integer s.testCount),
    ("groups", .array (s.groups.map GroupSummary.document))]

/-- The document of a plan's summary. -/
def Plan.summaryDocument (p : Plan) : Except PlanError Json := do
  let makespan ← p.makespan
  return .object [
    ("fork_count", .integer p.forkCount),
    ("makespan", .real makespan),
    ("workers", .array (p.summary.map ForkSummary.document))]

/-- The notices about a group and the records it covers. -/
def Bucket.report (level : Level) (b : Bucket) : List Notice :=
  .groupCost level b.pattern b.task.text b.cost ::
    b.matched.map fun r => .testDuration level r.name r.duration

/-- The notices about a fork and its groups. -/
def Fork.report (level : Level) (f : Fork) : List Notice :=
  .forkLoad level f.index f.load f.testCount f.buckets.length ::
    f.buckets.flatMap (Bucket.report level)

/-- The notices about a plan, all of one level. -/
def Plan.report (level : Level) (p : Plan) : List Notice := p.forks.flatMap (Fork.report level)

end SuiteBalance
