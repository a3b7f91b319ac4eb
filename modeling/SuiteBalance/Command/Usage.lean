import SuiteBalance.Plan
import SuiteBalance.Settings.Basic

/-!
# Commands — usage

What can be wrong with the way a command is called, and the words for it.
-/

namespace SuiteBalance.Command

/-- Why the value of an option is refused. -/
inductive BadValue where
  | notInteger (value : String)
  | noDirectory (value : String)
  | directoryIsFile (value : String)
  | noFile (value : String)
  | fileIsDirectory (value : String)
  | notSource (value : String)
  /-- The system cannot be asked for the path. -/
  | unnameable (path : String)
  deriving DecidableEq, Repr

/-- The words for a value that is refused. -/
def BadValue.message : BadValue → String
  | .notInteger value => s!"{Text.quote value} is not a valid integer."
  | .noDirectory value => s!"Directory {Text.quote value} does not exist."
  | .directoryIsFile value => s!"Directory {Text.quote value} is a file."
  | .noFile value => s!"File {Text.quote value} does not exist."
  | .fileIsDirectory value => s!"File {Text.quote value} is a directory."
  | .notSource value => s!"expected TASK=FILE, got {Text.quote value}"
  | .unnameable path => FileError.message ⟨.unnameable, path⟩

/-- What is wrong with a call. -/
inductive UsageFault where
  /-- An option that the command does not have, and those that are like it. -/
  | unknownOption (name : String) (similar : List String)
  | valueMissing (name : String)
  | valueRefused (name : String)
  | badValue (name : String) (why : BadValue)
  | optionMissing (name : String)
  | extraArguments (arguments : List String)
  /-- A command that there is not, and those that are like it. -/
  | unknownCommand (name : String) (similar : List String)
  | commandMissing
  | settings (problems : List Settings.Problem)
  /-- The plan or the files cannot give what is asked for. -/
  | refused (text : Text)
  deriving DecidableEq, Repr

/-- A question after the names that may have been meant, with a blank in front, if there are
any. -/
def suggestion (similar : List String) : String :=
  match similar.mergeSort fun a b => a ≤ b with
  | [] => ""
  | [name] => s!" Did you mean {Text.quote name}?"
  | names => " (Did you mean one of: " ++ ", ".intercalate (names.map fun (name : String) => Text.quote name) ++ "?)"

/-- The words for what is wrong with a call. -/
def UsageFault.message : UsageFault → Text
  | .unknownOption name similar => s!"No such option {Text.quote name}." ++ suggestion similar
  | .valueMissing name => s!"Option {Text.quote name} requires an argument."
  | .valueRefused name => s!"Option {Text.quote name} does not take a value."
  | .badValue _ (.unnameable path) => BadValue.message (.unnameable path)
  | .badValue name why => s!"Invalid value for {Text.quote name}: {why.message}"
  | .optionMissing name => s!"Missing option {Text.quote name}."
  | .extraArguments arguments =>
    (if arguments.length = 1 then "Got unexpected extra argument ("
      else "Got unexpected extra arguments (") ++ " ".intercalate arguments ++ ")"
  | .unknownCommand name similar => s!"No such command {Text.quote name}." ++ suggestion similar
  | .commandMissing => "Missing command."
  | .settings problems =>
    "Invalid configuration:\n  " ++ Text.intercalate "\n  " (problems.map Settings.Problem.message)
  | .refused text => text

end SuiteBalance.Command
