import SuiteBalance.Disk
import SuiteBalance.Entries
import SuiteBalance.Platform.Usual

/-!
# Workspaces

A **`Workspace`** is a place with files as a value: a tree of files and directories, a working
directory and environment variables.  What works on a `Host` works on it as a state that is passed
along, on the usual platform unless another is given.
-/

namespace SuiteBalance

/-- A file with its bytes, a directory, or a device, which is always empty. -/
inductive Node where
  | file (bytes : List UInt8)
  | directory
  | device
  deriving Repr

/-- The kind of a node. -/
def Node.kind : Node → FileKind
  | .file _ => .file
  | .directory => .directory
  | .device => .device

/-- Files and directories by the parts of their paths from the root, which itself needs no entry;
the working directory; and the environment. -/
structure Workspace where
  nodes : Entries (List Text) Node := []
  directory : List Text := []
  environment : Entries String String := []

namespace Workspace

/-- What stands at a place. -/
def node? (w : Workspace) : List Text → Option Node
  | [] => some .directory
  | place => w.nodes.get? place

/-- Goes down from a directory along parts that all have to be directories, but for the last. -/
def walk (w : Workspace) (place : List Text) : List Text → Except FileProblem (List Text)
  | [] => .ok place
  | part :: rest =>
    match w.node? place with
    | none => .error .missing
    | some (.file _) | some .device => .error .notDirectory
    | some .directory =>
      if Path.partLimit < Path.byteLength part then .error .tooLong
      else walk w (if part = Path.above then place.dropLast else place ++ [part]) rest

/-- The place that a path leads to, whether or not something stands there. -/
def place (w : Workspace) (p : Path) : Except FileProblem (List Text) :=
  match p.refusal? with
  | some problem => .error problem
  | none =>
    if Path.lengthLimit ≤ Path.byteLength p.text then .error .tooLong
    else w.walk (if p.isAbsolute then [] else w.directory) p.parts

/-- What a path leads to. -/
def kind (w : Workspace) (p : Path) : Except FileError FileKind :=
  match w.place p with
  | .error problem => .error ⟨problem, p.text⟩
  | .ok place =>
    match w.node? place with
    | none => .error ⟨.missing, p.text⟩
    | some node => .ok node.kind

/-- The bytes of the file that a path leads to. -/
def read (w : Workspace) (p : Path) : Except FileError (List UInt8) :=
  match w.place p with
  | .error problem => .error ⟨problem, p.text⟩
  | .ok place =>
    match w.node? place with
    | none => .error ⟨.missing, p.text⟩
    | some .directory => .error ⟨.isDirectory, p.text⟩
    | some (.file bytes) => .ok bytes
    | some .device => .ok []

/-- Writes a file into a directory that exists. -/
def write (w : Workspace) (p : Path) (bytes : List UInt8) : Except FileError Workspace :=
  match w.place p with
  | .error problem => .error ⟨problem, p.text⟩
  | .ok place =>
    match w.node? place with
    | some .directory => .error ⟨.isDirectory, p.text⟩
    | some .device => .ok w
    | _ => .ok { w with nodes := w.nodes.put place (.file bytes) }

/-- Makes a directory in one that exists. -/
def makeDirectory (w : Workspace) (p : Path) : Except FileError Workspace :=
  match w.place p with
  | .error problem => .error ⟨problem, p.text⟩
  | .ok place =>
    match w.node? place with
    | some _ => .error ⟨.exists, p.text⟩
    | none => .ok { w with nodes := w.nodes.put place .directory }

/-- Removes the file that a path leads to. -/
def delete (w : Workspace) (p : Path) : Except FileError Workspace :=
  match w.place p with
  | .error problem => .error ⟨problem, p.text⟩
  | .ok place =>
    match w.node? place with
    | none => .error ⟨.missing, p.text⟩
    | some .directory => .error ⟨.isDirectory, p.text⟩
    | some _ => .ok { w with nodes := w.nodes.filter (·.1 ≠ place) }

/-- Takes over the workspace that an operation leaves, if it succeeds. -/
def update (change : Workspace → Except FileError Workspace) :
    StateM Workspace (Except FileError Unit) := fun w =>
  match change w with
  | .ok w' => (.ok (), w')
  | .error e => (.error e, w)

instance : Host (StateM Workspace) where
  lookup? name := return (← get).environment.get? name
  workingDirectory := return (← get).directory
  kind p := return (← get).kind p
  read p := return (← get).read p
  write p bytes := update (·.write p bytes)
  makeDirectory p := update (·.makeDirectory p)

end Workspace

end SuiteBalance
