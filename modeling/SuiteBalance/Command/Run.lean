import SuiteBalance.Command.Request
import SuiteBalance.Discovery
import SuiteBalance.Planner
import SuiteBalance.Platform
import SuiteBalance.Settings.File
import SuiteBalance.Snapshot.File
import SuiteBalance.Terminal.Control
import SuiteBalance.Terminal.Table
import SuiteBalance.Timing.File

/-!
# Commands — what they do

* **`plan`** makes a plan for the project, writes it to a file if one is named, and shows its
  summary as a table or as JSON.
* **`tests`** prints the patterns that a task runs on a fork, by a plan that is made anew or read
  from a file.

What a call leaves behind is a **`Transcript`**: the text on the standard output, what was printed
for the user, and the notices.  It is kept where the call fails, too.
-/

namespace SuiteBalance.Command

open Terminal

/-- What a call leaves behind. -/
structure Transcript where
  output : String := ""
  printed : List Printed := []
  notices : List Notice := []
  /-- The level from which on notices are shown. -/
  least : Level := .warning

/-- Why a call fails. -/
inductive Failed where
  | usage (fault : UsageFault)
  /-- The reason was printed. -/
  | aborted
  | failure (e : SuiteBalance.Failure)
  | write (e : PlanWriteError)
  | plan (e : PlanError)
  | planFile (path : Path) (e : PlanFileError)
  | table (e : BarFault)
  /-- A line with surrogates, for which the standard output has no bytes. -/
  | unprintable (line : Text)

/-- A failure of the values that were given as a fault of usage. -/
def Failed.asUsage : Failed → Failed
  | .failure e => if e.isOfValues then .usage (.refused e.message) else .failure e
  | failed => failed

/-- A call that works on files and leaves a transcript. -/
abbrev Call (m : Type → Type) := ExceptT Failed (StateT Transcript m)

namespace Call

variable {m : Type → Type} [Monad m]

/-- Does something outside of the transcript. -/
def lift {α : Type} (x : m α) : Call m α := ExceptT.lift (StateT.lift x)

/-- Adds notices to the transcript. -/
def note (notices : List Notice) : Call m Unit :=
  modify fun t => { t with notices := t.notices ++ notices }

/-- Prints something for the user, unless the console refuses it. -/
def printOne [Console] (item : Printed) : Call m Unit :=
  match Console.refusal? item with
  | some e => throw (.failure e)
  | none => modify fun t => { t with printed := t.printed ++ [item] }

/-- Prints one thing after the other for the user. -/
def print [Console] (printed : List Printed) : Call m Unit := printed.forM printOne

/-- Adds a line to the standard output, which is read by other programs: control sequences are
left out, and surrogates are refused. -/
def echo (line : Text) : Call m Unit := do
  match line.toString? with
  | some s => modify fun t => { t with output := t.output ++ withoutControls s ++ "\n" }
  | none => throw (.unprintable line)

/-- Prints the reason and gives up. -/
def abort [Console] {α : Type} (reason : Text) : Call m α := do
  print [message .error reason]
  throw .aborted

/-- Takes a result, or fails. -/
def ofExcept {ε α : Type} (failed : ε → Failed) : Except ε α → Call m α
  | .ok a => return a
  | .error e => throw (failed e)

/-- Takes a failure of the values that were given for a fault of usage. -/
def asUsage {α : Type} (call : Call m α) : Call m α :=
  tryCatch call fun failed => throw failed.asUsage

end Call

variable {m : Type → Type} [Monad m] [Host m] [Platform]

/-- The absolute form of a path that a request names. -/
def absolutePath (path : Text) : Call m Text := do
  let resolved ← Call.lift (Host.resolve (Path.ofText path))
  return (← Call.ofExcept (fun e => .failure (.file e)) resolved).text

/-- Settings with what a request sets instead; paths in a request are seen from the working
directory. -/
def Request.override (r : Request) (s : Settings) : Call m Settings := do
  let timings ← match r.timings? with
    | some path => pure { s.timings with path := ← absolutePath path }
    | none => pure s.timings
  let sources ← if r.sources.isEmpty then pure s.sources
    else r.sources.mapM fun source => return { source with path := ← absolutePath source.path }
  return { s with forks := r.forks?.getD s.forks, timings, sources }

/-- The settings for a request, if nothing is wrong with them. -/
def loadSettings (r : Request) : Call m Settings := do
  let (outcome, notices) ← Call.lift (Settings.load r.root)
  Call.note notices
  match outcome with
  | .error e => Call.abort ("Failed to load configuration: " ++ Console.escape e.message)
  | .ok loaded =>
    let settings ← r.override loaded
    match ← Call.ofExcept .failure (← Call.lift settings.check) with
    | [] => return settings
    | problems => throw (.usage (.settings problems))

/-- The planner of a project. -/
def plannerOf (s : Settings) : Except PlannerError (Planner m) :=
  let timings : TimingFile :=
    ⟨s.resolve s.timings.path, s.timings.nameColumn, s.timings.durationColumn⟩
  (Planner.make s.forks timings.load).map fun planner =>
    s.sources.foldl (fun p source =>
      p.register ⟨Discovery.load (s.resolve source.path), .name source.task⟩) planner

/-- The plan of a project. -/
def makePlan (s : Settings) : Call m Plan := do
  let planner ← Call.ofExcept (fun e => .usage (.refused e.message)) (plannerOf s)
  let (reply, _) ← Call.lift planner.generate
  Call.note reply.notices
  match reply.outcome with
  | .error e =>
    if e.isReported then Call.abort ("Test plan generation failed: " ++ Console.escape e.message)
    else throw (.failure e)
  | .ok plan =>
    Call.note (plan.report .debug)
    return plan

/-- The file that a plan is written to, if one is named. -/
def outputPath? (r : Request) (s : Settings) : Option Path :=
  match r.output? with
  | some path => if path = "" then configured else some (Path.ofText path)
  | none => configured
where
  /-- The file that the settings name. -/
  configured : Option Path :=
    if s.output.planFile = "" then none else some (s.resolve s.output.planFile)

/-- Shows the summary of a plan as a table. -/
def showTable (plan : Plan) (written : Option Path) : Call m Unit := do
  Call.print [message .header "forkplan plan"]
  Call.print (← Call.ofExcept .table (Terminal.summary plan.summary))
  match written with
  | some path => Call.print [message .info ("Plan written to " ++ Console.escape path.text)]
  | none => pure ()
  let groups := (plan.forks.flatMap Fork.buckets).length
  Call.print [message .success s!"Planned {groups} test groups across {plan.forkCount} forks"]

/-- Makes a plan and shows its summary. -/
def runPlan (r : Request) : Call m Unit := do
  let settings ← loadSettings r
  let output := outputPath? r settings
  let plan ← makePlan settings
  match output with
  | some path => Call.ofExcept .write (← Call.lift (plan.save path))
  | none => pure ()
  if r.asJson || settings.output.format = "json" then
    let document ← Call.ofExcept .plan plan.summaryDocument
    Call.echo document.document
  else showTable plan output

/-- Whether a plan file fails in a way that is told to the user. -/
def isTold : PlanFileError → Bool
  | .notJson e => e.problem ≠ .tooDeep
  | .document .wrongShape | .document .notMapping => false
  | .document (.number .wrongShape) | .document (.number .tooLarge) => false
  | .document (.number (.unbounded .infinite)) => false
  | _ => true

/-- The patterns of a task on a fork, by a plan file. -/
def testsOfFile (file task : String) (worker : Int) : Call m (List Text) := do
  let path := Path.ofText file
  match ← Call.lift (Snapshot.load path) with
  | .error e =>
    if isTold e then
      Call.abort ("Failed to read plan file " ++ Console.escape file ++ ": " ++
        Console.escape (e.message path))
    else throw (.planFile path e)
  | .ok snapshot => Call.ofExcept refusedPlan (snapshot.testsFor worker task)
where
  /-- A plan that has no answer. -/
  refusedPlan (e : PlanError) : Failed := .usage (.refused e.message)

/-- The patterns of a task on a fork, by a plan that is made anew. -/
def testsOfProject (r : Request) (task : String) (worker : Int) : Call m (List Text) := do
  let plan ← loadSettings r >>= makePlan
  let names ← Call.ofExcept (fun e => .usage (.refused e.message))
    (plan.testsFor worker (.name task))
  return names.map Text.ofString

/-- Prints the patterns of a task on a fork. -/
def runTests (r : Request) : Call m Unit := do
  let worker := r.worker?.getD 0
  let task := r.task?.getD ""
  let names ← Call.asUsage <| match r.planFile? with
    | some file => testsOfFile file task worker
    | none => testsOfProject r task worker
  Call.note [.running worker names.length task]
  names.forM Call.echo

/-- The options in front of the command. -/
def generalOptions : List OptionSpec :=
  [⟨"--verbose", some 'v', false⟩, ⟨"--version", none, false⟩]

/-- What the version option prints. -/
def versionLine : String := "forkplan, version 0.1.0"

/-- Runs a command by its name.  If there is none of that name, it is taken for an option in front
of the command first. -/
def runCommand (name : String) (arguments : List String) : Call m Unit := do
  match commands.lookup name with
  | none =>
    let general ← Call.ofExcept .usage (Arguments.read generalOptions false (name :: arguments))
    if general.has "--version" then Call.echo versionLine
    else throw (.usage (.unknownCommand name (Text.closest (commands.map Prod.fst) name)))
  | some command =>
    let request ← Call.ofExcept .usage (← Call.lift (Request.ofArguments command arguments))
    match command with
    | .plan => runPlan request
    | .tests => runTests request

/-- Runs the program with the given arguments. -/
def runArguments (arguments : List String) : Call m Unit := do
  let general ← Call.ofExcept .usage (Arguments.read generalOptions false arguments)
  if general.has "--version" then Call.echo versionLine
  else
    match general.others with
    | [] => throw (.usage .commandMissing)
    | name :: rest =>
      if general.has "--verbose" then modify fun t => { t with least := .debug }
      runCommand name rest

/-- Runs the program: how it ends, and what it leaves behind. -/
def run (arguments : List String) : m (Except Failed Unit × Transcript) :=
  (runArguments arguments).run {}

end SuiteBalance.Command
