import SuiteBalance.Command.Arguments
import SuiteBalance.Text.Blank

/-!
# Commands — requests

A **`Request`** is what a call asks for.  The options are checked in the order in which they were
given, then it is seen to that none is missing; of the values of an option the last counts, but
for sources, which are all taken.
-/

namespace SuiteBalance.Command

/-- A command. -/
inductive CommandName where
  | plan
  | tests
  deriving DecidableEq, Repr

/-- The commands by their names. -/
def commands : List (String × CommandName) := [("plan", .plan), ("tests", .tests)]

/-- What a call asks for. -/
structure Request where
  root : String := "."
  forks? : Option Int := none
  timings? : Option String := none
  sources : List SourceSettings := []
  output? : Option String := none
  asJson : Bool := false
  worker? : Option Int := none
  task? : Option String := none
  planFile? : Option String := none
  deriving DecidableEq, Repr

/-- The options of all commands. -/
def planningOptions : List OptionSpec :=
  [⟨"--path", none, true⟩, ⟨"--forks", none, true⟩, ⟨"--timings", none, true⟩,
    ⟨"--source", none, true⟩]

/-- The options of a command. -/
def CommandName.options : CommandName → List OptionSpec
  | .plan => planningOptions ++ [⟨"--output", none, true⟩, ⟨"--json", none, false⟩]
  | .tests => planningOptions ++
    [⟨"--worker", none, true⟩, ⟨"--task", none, true⟩, ⟨"--plan", none, true⟩]

/-- The options that a command cannot do without. -/
def CommandName.required : CommandName → List String
  | .plan => []
  | .tests => ["--worker", "--task"]

/-- The integer that a value spells. -/
def integerValue (s : String) : Except BadValue Int :=
  (Number.readInteger s).mapError fun _ => .notInteger s

/-- The source that a value names: a task, an equals sign and a file. -/
def sourceValue (s : String) : Except BadValue SourceSettings :=
  match splitEquals s with
  | (_, none) => .error (.notSource s)
  | (task, some path) =>
    let task := Text.trim task
    let path := Text.trim path
    if task = "" ∨ path = "" then .error (.notSource s) else .ok ⟨task, path⟩

section Files

variable {m : Type → Type} [Monad m] [Host m]

/-- What stands at the path that a value names, if the system can be asked for it; behind a slash
only a directory counts. -/
def kindOfValue (s : String) : m (Except BadValue (Option FileKind)) := do
  let path := Path.ofText s
  if !path.isNameable then return .error (.unnameable s)
  else if s = "" then return .ok none
  else
    let kind := (← Host.kind path).toOption
    let asDirectory := "/".toList.isSuffixOf s.toList || "/.".toList.isSuffixOf s.toList
    return .ok (if asDirectory && kind != some .directory then none else kind)

/-- Checks that a value names what stands there and is no file. -/
def directoryValue (s : String) : m (Except BadValue String) := do
  match ← Host.resolve (Path.ofText s) with
  | .error _ => return .error (.unnameable s)
  | .ok path =>
    match (← Host.kind path).toOption with
    | some .directory | some .device => return .ok s
    | some .file => return .error (.directoryIsFile s)
    | none => return .error (.noDirectory s)

/-- Checks that a value names no directory. -/
def fileValue (s : String) : m (Except BadValue String) := do
  match ← kindOfValue s with
  | .error why => return .error why
  | .ok (some .directory) => return .error (.fileIsDirectory s)
  | .ok _ => return .ok s

/-- Checks that a value names what stands there and is no directory. -/
def existingFileValue (s : String) : m (Except BadValue String) := do
  match ← kindOfValue s with
  | .error why => return .error why
  | .ok (some .file) | .ok (some .device) => return .ok s
  | .ok (some .directory) => return .error (.fileIsDirectory s)
  | .ok none => return .error (.noFile s)

/-- A request with the values of an option. -/
def Request.set (r : Request) (name : String) (values : List String) :
    m (Except BadValue Request) := do
  let value := values.getLastD ""
  match name with
  | "--path" => return (← directoryValue value).map fun s => { r with root := s }
  | "--forks" => return (integerValue value).map fun n => { r with forks? := some n }
  | "--timings" => return (← fileValue value).map fun s => { r with timings? := some s }
  | "--source" => return (values.mapM sourceValue).map fun sources => { r with sources }
  | "--output" => return (← fileValue value).map fun s => { r with output? := some s }
  | "--json" => return .ok { r with asJson := true }
  | "--worker" => return (integerValue value).map fun n => { r with worker? := some n }
  | "--task" => return .ok { r with task? := some value }
  | "--plan" => return (← existingFileValue value).map fun s => { r with planFile? := some s }
  | _ => return .ok r

/-- A request with the values of some options, up to the first that is refused. -/
def Request.setAll (a : Arguments) : Request → List String → m (Except UsageFault Request)
  | r, [] => return .ok r
  | r, name :: rest => do
    match ← r.set name (a.values name) with
    | .error why => return .error (.badValue name why)
    | .ok r' => Request.setAll a r' rest

/-- The request of a command with the given arguments. -/
def Request.ofArguments (command : CommandName) (arguments : List String) :
    m (Except UsageFault Request) := do
  match Arguments.read command.options true arguments with
  | .error e => return .error e
  | .ok a =>
    match ← Request.setAll a {} a.names with
    | .error e => return .error e
    | .ok r =>
      match command.required.find? (!a.has ·), a.others with
      | some name, _ => return .error (.optionMissing name)
      | none, [] => return .ok r
      | none, others => return .error (.extraArguments others)

end Files

end SuiteBalance.Command
