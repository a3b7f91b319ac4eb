import SuiteBalance.Path
import SuiteBalance.Text.Utf8

/-!
# The disk and the environment

Commands work on files and look at environment variables.  What they ask for is the class
**`Host`**, over any monad, so that they run on a real machine and on a
`Workspace` alike.  A failed access is a **`FileError`** with the path it was
tried on.
-/

namespace SuiteBalance

/-- What stands at a path. -/
inductive FileKind where
  | file
  | directory
  /-- What can be read and written but keeps nothing. -/
  | device
  deriving DecidableEq, Repr

/-- Why a file cannot be accessed. -/
inductive FileProblem where
  | missing
  | exists
  | notDirectory
  | isDirectory
  | denied
  /-- The path, or a part of it, is too long. -/
  | tooLong
  /-- The system cannot be asked for the path, which holds the character that would end it. -/
  | unnameable
  /-- The system cannot be asked for the path, for which it has no bytes. -/
  | unencodable
  /-- Anything else. -/
  | failed
  deriving DecidableEq, Repr

/-- A failed access. -/
structure FileError where
  problem : FileProblem
  path : Text
  deriving DecidableEq, Repr

/-- The number under which the operating system knows a problem, and its words; some problems show
before it is asked. -/
def FileProblem.text? : FileProblem → Option (Nat × String)
  | .missing => some (2, "No such file or directory")
  | .exists => some (17, "File exists")
  | .notDirectory => some (20, "Not a directory")
  | .isDirectory => some (21, "Is a directory")
  | .denied => some (13, "Permission denied")
  | .tooLong => some (36, "File name too long")
  | .failed => some (5, "Input/output error")
  | .unnameable | .unencodable => none

/-- The words for a failed access. -/
def FileError.message (e : FileError) : String :=
  match e.problem.text? with
  | some (number, words) => s!"[Errno {number}] {words}: {Text.quote e.path}"
  | none =>
    if e.problem = .unencodable then Text.Utf8.unencodableMessage Path.hasBytes e.path
    else "embedded null byte"

/-- Whether an access failed in the operating system. -/
def FileError.isSystem (e : FileError) : Bool := e.problem.text?.isSome

/-- Whether a problem says no more than that nothing is there. -/
def FileProblem.isAbsence : FileProblem → Bool
  | .missing | .notDirectory | .unnameable | .unencodable => true
  | _ => false

/-- Why the system cannot be asked for a path, if it cannot. -/
def Path.refusal? (p : Path) : Option FileProblem :=
  if !p.isEncodable then some .unencodable else if !p.isNameable then some .unnameable else none

/-- A place with files, a working directory and environment variables. -/
class Host (m : Type → Type) where
  /-- The value of an environment variable. -/
  lookup? : String → m (Option String)
  /-- The parts of the working directory's path from the root. -/
  workingDirectory : m (List Text)
  /-- What stands at a path. -/
  kind : Path → m (Except FileError FileKind)
  /-- The bytes of a file. -/
  read : Path → m (Except FileError (List UInt8))
  /-- Writes a file, in place of what it held. -/
  write : Path → List UInt8 → m (Except FileError Unit)
  /-- Makes a directory in one that exists. -/
  makeDirectory : Path → m (Except FileError Unit)

namespace Host

variable {m : Type → Type} [Monad m] [Host m]

/-- Whether a file stands at a path. -/
def isFile (p : Path) : m (Except FileError Bool) := do
  match ← kind p with
  | .ok found => return .ok (found = .file)
  | .error e => return if e.problem.isAbsence then .ok false else .error e

/-- The path from the root that is meant by a path. -/
def resolve (p : Path) : m (Except FileError Path) := do
  match p.refusal? with
  | some problem => return .error ⟨problem, p.text⟩
  | none => return .ok (p.resolve (← workingDirectory))

/-- Takes a directory that exists already for one that was made. -/
def orExists (p : Path) : Except FileError Unit → m (Except FileError Unit)
  | .ok () => return .ok ()
  | .error e =>
    if e.isSystem then return if (← kind p).toOption = some .directory then .ok () else .error e
    else return .error e

/-- Makes a directory and those above it that are missing; `parts` is its path, the last part
first. -/
def makeDirectoriesFrom (anchor : Anchor) : List Text → m (Except FileError Unit)
  | [] => do orExists ⟨anchor, []⟩ (← makeDirectory ⟨anchor, []⟩)
  | part :: before => do
    let p : Path := ⟨anchor, (part :: before).reverse⟩
    match ← makeDirectory p with
    | .error ⟨.missing, _⟩ =>
      match ← makeDirectoriesFrom anchor before with
      | .error e => return .error e
      | .ok () => orExists p (← makeDirectory p)
    | outcome => orExists p outcome

/-- Makes a directory and those above it that are missing, unless it exists. -/
def makeDirectories (p : Path) : m (Except FileError Unit) :=
  makeDirectoriesFrom p.anchor p.parts.reverse

/-- Writes a file into a directory that is made if it is missing. -/
def writeUnder (p : Path) (bytes : List UInt8) : m (Except FileError Unit) := do
  match ← makeDirectories p.parent with
  | .error e => return .error e
  | .ok () => write p bytes

end Host

/-- A state that is passed along besides does not get in the way of the files. -/
instance {m : Type → Type} {σ : Type} [Monad m] [Host m] : Host (StateT σ m) where
  lookup? name := (Host.lookup? name : m _)
  workingDirectory := (Host.workingDirectory : m _)
  kind p := (Host.kind p : m _)
  read p := (Host.read p : m _)
  write p bytes := (Host.write p bytes : m _)
  makeDirectory p := (Host.makeDirectory p : m _)

end SuiteBalance
