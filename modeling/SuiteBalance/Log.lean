import SuiteBalance.Number.Fixed
import SuiteBalance.Number.Notation
import SuiteBalance.Text.Basic

/-!
# Log

What the library reports while it works is data: a list of **`Notice`**s beside the result.  Each
notice has a level and a text.
-/

namespace SuiteBalance

/-- How weighty a notice is. -/
inductive Level where
  | debug
  | info
  | warning
  | error
  deriving DecidableEq, Repr

namespace Level

/-- The rank of a level. -/
def rank : Level → Nat
  | .debug => 10
  | .info => 20
  | .warning => 30
  | .error => 40

/-- The name of a level. -/
def name : Level → String
  | .debug => "DEBUG"
  | .info => "INFO"
  | .warning => "WARNING"
  | .error => "ERROR"

/-- Whether notices of level `l` are kept from the level `least` on. -/
def reaches (l least : Level) : Bool := least.rank ≤ l.rank

end Level

/-- What is reported. -/
inductive Notice where
  /-- Records whose names are counted in more than one bucket: how many names, and the least. -/
  | shared (count : Nat) (first : String)
  | bucketsBuilt (buckets records : Nat)
  | assigned (pattern : String) (cost : Float) (fork : Nat) (load : Float)
  | planning (groups sources records forks : Nat)
  | planReady (makespan : Float)
  | discovered (count : Nat) (path : Text)
  | noHistory (path : Text)
  | emptyHistory (path : Text)
  | loaded (count : Nat) (path : Text)
  | forkLoad (level : Level) (fork : Nat) (load : Float) (tests groups : Nat)
  | groupCost (level : Level) (pattern : String) (task : Text) (cost : Float)
  | testDuration (level : Level) (name : String) (duration : Float)
  | unsetVariable (name : String)
  /-- An entry that names no source, as it is written, if it can be written. -/
  | invalidSource (entry : Option String)
  /-- A value that is no number of forks, as it is written, if it can be written. -/
  | invalidForks (value : Option String) (used : Int)
  | running (fork : Int) (groups : Nat) (task : Text)

namespace Notice

open Number

/-- The level of a notice. -/
def level : Notice → Level
  | .shared .. | .unsetVariable _ | .invalidSource _ | .invalidForks .. => .warning
  | .bucketsBuilt .. | .assigned .. | .discovered .. => .debug
  | .planning .. | .planReady _ | .noHistory _ | .emptyHistory _ | .loaded .. | .running .. => .info
  | .forkLoad l .. | .groupCost l .. | .testDuration l .. => l

/-- The text of a notice. -/
def text : Notice → Text
  | .shared count first =>
    s!"{count} timing record(s) matched more than one test group and are counted " ++
      s!"in each bucket (first: {first})"
  | .bucketsBuilt buckets records => s!"Built {buckets} buckets from {records} timing records"
  | .assigned pattern cost fork load =>
    s!"Assigned {pattern} ({oneDecimal cost}s) to fork {fork} (now {oneDecimal load}s)"
  | .planning groups sources records forks =>
    s!"Planning {groups} test groups from {sources} sources with {records} timing records " ++
      s!"across {forks} forks"
  | .planReady makespan => s!"Test plan ready, makespan {oneDecimal makespan}s"
  | .discovered count path => s!"Discovered {count} test groups in " ++ path
  | .noHistory path =>
    "No timing history at " ++ path ++ ", every group gets the minimum estimate"
  | .emptyHistory path => "Timing history " ++ path ++ " is empty"
  | .loaded count path => s!"Loaded {count} timing records from " ++ path
  | .forkLoad _ fork load tests groups =>
    s!"Fork {fork}: {oneDecimal load}s estimated, {tests} tests in {groups} groups"
  | .groupCost _ pattern task cost => s!"  {pattern} [" ++ task ++ s!"] {oneDecimal cost}s"
  | .testDuration _ name duration => s!"    {name}, {floatText duration}"
  | .unsetVariable name => s!"Environment variable {name} is not set (referenced in config)"
  | .invalidSource entry =>
    let written := entry.getD ""
    s!"Ignoring invalid source entry in config: {written}"
  | .invalidForks value used =>
    let written := value.getD ""
    s!"Invalid forks value {written}, using {used}"
  | .running fork groups task => s!"Fork {fork} runs {groups} groups for task " ++ task

/-- Whether a notice can be written. -/
def isWritable : Notice → Bool
  | .invalidSource entry => entry.isSome
  | .invalidForks value _ => value.isSome
  | _ => true

/-- A notice as a line of the log. -/
def line (n : Notice) : Text := s!"{n.level.name} " ++ n.text

end Notice

/-- The lines of the notices that reach a level and can be written. -/
def logLines (least : Level) (notices : List Notice) : List Text :=
  (notices.filter fun n => n.level.reaches least && n.isWritable).map Notice.line

end SuiteBalance
