import SuiteBalance.Text.Basic

/-!
# Paths

A path is a list of parts, behind an anchor or on its own.  Empty parts and the part `.` carry no
meaning and are dropped as a path is read; the part `..` is kept, since what it names depends on
the files.  Two slashes in front are an anchor of their own, three or more are as good as one.
-/

namespace SuiteBalance

/-- Where a path starts. -/
inductive Anchor where
  /-- At the working directory. -/
  | here
  /-- At the root. -/
  | root
  /-- At the root, written with two slashes. -/
  | doubleRoot
  deriving DecidableEq, Repr

/-- How an anchor is written. -/
def Anchor.text : Anchor → String
  | .here => ""
  | .root => "/"
  | .doubleRoot => "//"

/-- A path. -/
structure Path where
  anchor : Anchor := .here
  parts : List Text := []
  deriving DecidableEq, Repr

namespace Path

/-- The part that names the directory above. -/
def above : Text := ".."

/-- The anchor at the front of a text. -/
def anchorOf : List CodePoint → Anchor
  | '/' :: '/' :: '/' :: _ => .root
  | '/' :: '/' :: _ => .doubleRoot
  | '/' :: _ => .root
  | _ => .here

/-- The path that a text names. -/
def ofText (s : Text) : Path :=
  let parts := (Text.stretches (.char '/') s.points).map Text.ofPoints
  ⟨anchorOf s.points, parts.filter fun part => part ≠ "" ∧ part ≠ "."⟩

/-- How a path is written; the working directory is a point. -/
def text (p : Path) : Text :=
  if p.anchor = .here ∧ p.parts = [] then "."
  else p.anchor.text ++ Text.intercalate "/" p.parts

/-- Whether a path does not depend on the working directory. -/
def isAbsolute (p : Path) : Bool := p.anchor ≠ .here

/-- The character that ends the name of a file for the system. -/
def endMark : Char := Char.ofNat 0

/-- Whether the system can be asked for a path: no part of it holds the character that ends it. -/
def isNameable (p : Path) : Bool := p.parts.all (!·.points.contains endMark)

/-- Whether the system has bytes for a code point: it has for characters, and for the surrogates
that each stand for a byte beyond ASCII. -/
def hasBytes : CodePoint → Bool
  | .char _ => true
  | .surrogate offset => 0x480 ≤ offset.val && offset.val < 0x500

/-- Whether the system has bytes for a path. -/
def isEncodable (p : Path) : Bool := p.parts.all (·.points.all hasBytes)

/-- The number of bytes of a code point for the system. -/
def byteCount : CodePoint → Nat
  | .char c => c.utf8Size
  | .surrogate _ => 1

/-- The number of bytes of a text for the system. -/
def byteLength (t : Text) : Nat := t.points.foldl (fun count c => count + byteCount c) 0

/-- The length of a path in bytes from which on the system does not take it. -/
def lengthLimit : Nat := 4096

/-- The greatest length of a part in bytes. -/
def partLimit : Nat := 255

/-- A path seen from a directory. -/
def under (base p : Path) : Path :=
  if p.isAbsolute then p else { base with parts := base.parts ++ p.parts }

/-- The path without its last part. -/
def parent (p : Path) : Path := { p with parts := p.parts.dropLast }

/-- Goes down from a directory along parts, where each `..` takes the last step back. -/
def descend (directory parts : List Text) : List Text :=
  parts.foldl (fun done part => if part = above then done.dropLast else done ++ [part]) directory

/-- The path from the root that is meant by `p` in the working directory `directory`. -/
def resolve (directory : List Text) (p : Path) : Path :=
  ⟨.root, descend (if p.isAbsolute then [] else directory) p.parts⟩

end Path

end SuiteBalance
