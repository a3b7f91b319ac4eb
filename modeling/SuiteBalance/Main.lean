import SuiteBalance.Command.Report
import SuiteBalance.Platform.Usual

/-!
# The program

The commands on a real machine: its files, its working directory and its environment.  What a call
does and what it says is decided by `Command.run` and `Command.report`.
-/

namespace SuiteBalance

/-- The problem that the operating system reports. -/
def FileProblem.ofError : IO.Error → FileProblem
  | .noFileOrDirectory .. => .missing
  | .alreadyExists .. => .exists
  | .permissionDenied .. => .denied
  | .invalidArgument _ number _ => if number = 36 then .tooLong else .failed
  | .inappropriateType _ number _ =>
    if number = 20 then .notDirectory else if number = 21 then .isDirectory else .failed
  | _ => .failed

/-- Does something with a path; what the operating system reports is the outcome. -/
def attempt {α : Type} (p : Path) (action : String → IO α) : IO (Except FileError α) := do
  match p.refusal?, p.text.toString? with
  | some problem, _ => return .error ⟨problem, p.text⟩
  | none, none => return .error ⟨.unencodable, p.text⟩
  | none, some path =>
    match ← (action path).toBaseIO with
    | .ok a => return .ok a
    | .error e => return .error ⟨.ofError e, p.text⟩

instance : Host IO where
  lookup? name := IO.getEnv name
  workingDirectory := return (Path.ofText (← IO.currentDir).toString).parts
  kind p := do
    let type ← attempt p fun path => return (← (← IO.FS.realPath path).metadata).type
    return type.map fun
      | .dir => .directory
      | .file => .file
      | _ => .device
  read p := attempt p fun path => return (← IO.FS.readBinFile path).toList
  write p bytes := attempt p fun path => IO.FS.writeBinFile path ⟨bytes.toArray⟩
  makeDirectory p := attempt p fun path => IO.FS.createDir path

end SuiteBalance

/-- Runs the command that the arguments ask for. -/
def main (arguments : List String) : IO UInt32 := do
  let (outcome, transcript) ← SuiteBalance.Command.run arguments
  let report := SuiteBalance.Command.report outcome transcript
  (← IO.getStdout).putStr report.output
  (← IO.getStderr).putStr report.asides
  return report.code.toUInt32
