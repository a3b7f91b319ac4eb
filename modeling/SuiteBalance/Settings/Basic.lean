import SuiteBalance.Disk
import SuiteBalance.Log
import SuiteBalance.Settings.Placeholder
import SuiteBalance.Value.Number
import SuiteBalance.Value.Text
import SuiteBalance.Yaml.Token

/-!
# Settings

What a project sets: the number of forks, the file of durations, the sources of test patterns and
the output.  **`Settings.ofFields`** takes the settings out of the mapping that a configuration
file holds, with environment variables and defaults for what is not there, and
**`Settings.problems`** says what is wrong with them.
-/

namespace SuiteBalance

/-- The file of durations. -/
structure TimingSettings where
  path : Text := "test-timings.csv"
  nameColumn : Text := "Test Name"
  durationColumn : Text := "Duration"
  deriving DecidableEq, Repr

/-- A source: a task and the file of its patterns. -/
structure SourceSettings where
  task : Text
  path : Text
  deriving DecidableEq, Repr

/-- The file that a plan is written to, if it is named, and the form of the summary. -/
structure OutputSettings where
  planFile : Text := ""
  format : Text := "terminal"
  deriving DecidableEq, Repr

/-- The settings of a project. -/
structure Settings where
  root : Path
  forks : Int := 1
  timings : TimingSettings := {}
  sources : List SourceSettings := []
  output : OutputSettings := {}
  /-- What the configuration file holds. -/
  raw : List (Value × Value) := []

/-- The environment variables that stand in for settings. -/
structure Fallbacks where
  forks? : Option String := none
  timings? : Option String := none
  deriving DecidableEq, Repr

/-- Why a configuration file cannot be used. -/
inductive SettingsError where
  | file (e : FileError)
  | encoding (fault : Text.Utf8.Fault)
  | yaml (fault : Yaml.Fault)
  /-- A value that is nested too deeply, or stands inside itself. -/
  | endless
  | number (e : NumberFault)
  deriving DecidableEq, Repr

/-- The words for a configuration file that cannot be used. -/
def SettingsError.message : SettingsError → String
  | .file e => e.message
  | .encoding fault => fault.message
  | .yaml fault => fault.message
  | .endless => Yaml.Fault.depth.message
  | .number e => e.message

namespace Settings

/-- A path seen from the project's root. -/
def resolve (s : Settings) (path : Text) : Path := s.root.under (Path.ofText path)

/-- The fields of a section, which has none where something else stands. -/
def sectionFields (fields : List (Value × Value)) (name : Text) : List (Value × Value) :=
  match Value.field? fields name with
  | some (.mapping inner) => inner
  | _ => []

/-- A computation that takes settings out of values: it gives notices, and it fails where a value
cannot be written as a text. -/
abbrev Taking := ExceptT SettingsError (StateM (List Notice))

/-- Gives a notice. -/
def note (n : Notice) : Taking Unit := modify (· ++ [n])

variable [Value.Stack]

/-- A value as it is written in one of its forms. -/
def written {α : Type} (form : Value → α) (v : Value) : Taking α :=
  if !v.fits then throw .endless
  else if v.isWritable then return form v else throw (.number .unwritable)

/-- A value as it is written in a notice, which is given also where it cannot be written for the
numbers in it. -/
def noticed (v : Value) : Taking (Option String) :=
  if !v.fits then throw .endless else return if v.isWritable then some v.literal else none

/-- The text of a field, or what stands in for it. -/
def textOr (fields : List (Value × Value)) (name standIn : Text) : Taking Text :=
  match Value.field? fields name with
  | some value => written Value.plain value
  | none => return standIn

/-- The number of forks; there is a notice if what is set is no number. -/
def forksOf (fallbacks : Fallbacks) (fields : List (Value × Value)) : Taking Int := do
  let standard := 1
  let value := match Value.field? fields "forks", fallbacks.forks? with
    | some value, _ => value
    | none, some text => .text text
    | none, none => .integer standard
  match value.toInteger with
  | .ok n => return n
  | .error (.unbounded .infinite) => throw (.number (.unbounded .infinite))
  | .error _ =>
    note (.invalidForks (← noticed value) standard)
    return standard

/-- The file of durations: a mapping, or the path alone. -/
def timingsOf (fallbacks : Fallbacks) (fields : List (Value × Value)) : Taking TimingSettings := do
  let standard : TimingSettings := {}
  let timings := match Value.field? fields "timings" with
    | some (.text path) => [(.text "path", .text path)]
    | _ => sectionFields fields "timings"
  return ⟨← textOr timings "path" ((fallbacks.timings?.map Text.ofString).getD standard.path),
    ← textOr timings "name_column" standard.nameColumn,
    ← textOr timings "duration_column" standard.durationColumn⟩

/-- The task and the path that an entry names. -/
def sourceFields? : Value → Option (Value × Value)
  | .mapping fields =>
    match Value.field? fields "task", Value.field? fields "path" with
    | some task, some path => if task.isTruthy && path.isTruthy then some (task, path) else none
    | _, _ => none
  | _ => none

/-- The source that an entry sets; there is a notice if it names no task or no path. -/
def sourceOf (entry : Value) : Taking (Option SourceSettings) := do
  match sourceFields? entry with
  | some (task, path) => return some ⟨← written Value.plain task, ← written Value.plain path⟩
  | none =>
    note (.invalidSource (← noticed entry))
    return none

/-- The entries of the list of sources. -/
def sourceEntries (fields : List (Value × Value)) : List Value :=
  match Value.field? fields "sources" with
  | some (.list entries) => entries
  | _ => []

/-- The sources. -/
def sourcesOf (fields : List (Value × Value)) : Taking (List SourceSettings) := do
  return (← (sourceEntries fields).mapM sourceOf).filterMap id

/-- Where the plan goes. -/
def outputOf (fields : List (Value × Value)) : Taking OutputSettings := do
  let standard : OutputSettings := {}
  let output := sectionFields fields "output"
  return ⟨← textOr output "plan_file" standard.planFile, ← textOr output "format" standard.format⟩

/-- Takes the settings out of a mapping.  An infinite number of forks is refused. -/
def take (root : Path) (fallbacks : Fallbacks) (fields : List (Value × Value)) :
    Taking Settings := do
  return {
    root
    forks := ← forksOf fallbacks fields
    timings := ← timingsOf fallbacks fields
    sources := ← sourcesOf fields
    output := ← outputOf fields
    raw := fields }

/-- The settings in a mapping, and the notices given on the way. -/
def ofFields (root : Path) (fallbacks : Fallbacks) (fields : List (Value × Value)) :
    Except SettingsError Settings × List Notice :=
  (take root fallbacks fields).run []

/-- The formats of summaries. -/
def formats : List Text := ["terminal", "json"]

/-- What can be wrong with settings. -/
inductive Problem where
  | forks (n : Int)
  | noTimings
  | noSources
  | missingSource (position : Nat) (path : Text)
  | format (name : Text)
  deriving DecidableEq, Repr

/-- The words for a problem. -/
def Problem.message : Problem → Text
  | .forks n => s!"forks must be >= 1 (got {n})"
  | .noTimings => "timings.path is required"
  | .noSources => "at least one source is required"
  | .missingSource position path => s!"sources[{position}].path does not exist: " ++ path
  | .format name => "output.format must be 'terminal' or 'json' (got '" ++ name ++ "')"

/-- The sources, from a position on, whose files are missing. -/
def missingSources (s : Settings) (isFile : Path → Bool) (position : Nat) :
    List SourceSettings → List Problem
  | [] => []
  | source :: rest =>
    let later := missingSources s isFile (position + 1) rest
    if isFile (s.resolve source.path) then later
    else .missingSource position source.path :: later

/-- What is wrong with settings, given which paths lead to files. -/
def problems (s : Settings) (isFile : Path → Bool) : List Problem :=
  (if s.forks < 1 then [.forks s.forks] else []) ++
    (if s.timings.path = "" then [.noTimings] else []) ++
    (if s.sources.isEmpty then [.noSources] else []) ++
    s.missingSources isFile 0 s.sources ++
    (if formats.contains s.output.format then [] else [.format s.output.format])

end Settings

end SuiteBalance
