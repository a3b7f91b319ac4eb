import SuiteBalance.Failure
import SuiteBalance.Settings.Basic
import SuiteBalance.Text.Lines

/-!
# Settings — the configuration file

The settings of a project stand in a YAML file in its root.  Placeholders in it are expanded
before the settings are taken out of it; a file that is missing, or holds no mapping, sets
nothing.
-/

namespace SuiteBalance

/-- What reads YAML documents. -/
class Yaml.Loader where
  /-- The value of a document, or what is wrong with it. -/
  load : List Char → Except Yaml.Fault Value

namespace Settings

/-- The name of the configuration file. -/
def fileName : String := ".forkplan.yml"

/-- The value that a configuration file with the given bytes holds. -/
def valueOfBytes [Yaml.Loader] (bytes : List UInt8) : Except SettingsError Value := do
  let text ← (Text.Utf8.decode bytes).mapError .encoding
  (Yaml.Loader.load (Text.unifyBreaks text)).mapError .yaml

variable [Value.Stack]

/-- Settings or an error, and the notices given on the way. -/
abbrev Loaded := Except SettingsError Settings × List Notice

/-- The settings in the fields of a configuration file, behind earlier notices. -/
def ofExpanded (root : Path) (fallbacks : Fallbacks) (earlier : List Notice)
    (fields : List (Value × Value)) : Loaded :=
  let (outcome, notices) := ofFields root fallbacks fields
  (outcome, earlier ++ notices)

/-- The settings in a value, given the values of environment variables. -/
def ofValue (root : Path) (fallbacks : Fallbacks) (lookup : String → Option String) (v : Value) :
    Loaded :=
  match v with
  | .mapping _ =>
    match v.expand? lookup with
    | some (.mapping fields) => ofExpanded root fallbacks (v.unsetNotices lookup) fields
    | _ => (.error .endless, v.unsetNotices lookup)
  | _ => ofExpanded root fallbacks [] []

variable {m : Type → Type} [Monad m] [Host m] [Yaml.Loader]

/-- The variables that stand in for settings. -/
def fallbacks : m Fallbacks := do
  return ⟨← Host.lookup? "FORKPLAN_FORKS", ← Host.lookup? "FORKPLAN_TIMINGS"⟩

/-- The values of some variables. -/
def lookups (names : List String) : m (String → Option String) := do
  let values ← names.mapM fun name => return (name, ← Host.lookup? name)
  return fun name => (values.lookup name).join

/-- The value of the configuration file at a path; a file that is missing holds nothing. -/
def valueAt (path : Path) : m (Except SettingsError Value) := do
  match ← Host.isFile path with
  | .error e => return .error (.file e)
  | .ok false => return .ok .null
  | .ok true =>
    match ← Host.read path with
    | .error e => return .error (.file e)
    | .ok bytes => return valueOfBytes bytes

/-- Loads the settings of the project in a directory. -/
def load (root : String) : m Loaded := do
  match ← Host.resolve (Path.ofText root) with
  | .error e => return (.error (.file e), [])
  | .ok root =>
    match ← valueAt (root.under (Path.ofText fileName)) with
    | .error e => return (.error e, [])
    | .ok v => return ofValue root (← fallbacks) (← lookups v.variableNames) v

/-- The sources whose files are there, or the first failure in looking for one. -/
def found (s : Settings) : List SourceSettings → m (Except FileError (List Path))
  | [] => return .ok []
  | source :: rest => do
    let path := s.resolve source.path
    match ← Host.isFile path with
    | .error e => return .error e
    | .ok here => return (← s.found rest).map fun paths => if here then path :: paths else paths

/-- What is wrong with settings. -/
def check (s : Settings) : m (Except Failure (List Problem)) := do
  if s.forks < 1 ∧ !Number.isWritable s.forks then return .error (.number .unwritable)
  else return ((← s.found s.sources).map fun paths => s.problems paths.contains).mapError .file

end Settings

end SuiteBalance
