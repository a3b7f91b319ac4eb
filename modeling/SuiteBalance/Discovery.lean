import SuiteBalance.Failure
import SuiteBalance.Text.Blank
import SuiteBalance.Text.Lines

/-!
# Discovery

The patterns of a task stand in a text file, one a line.  Blanks around a pattern, empty lines and
lines that start with a number sign do not count.
-/

namespace SuiteBalance.Discovery

open Text

/-- The pattern on a line, if there is one. -/
def pattern? (line : List Char) : Option String :=
  match trimChars line with
  | [] => none
  | '#' :: _ => none
  | s => some (String.ofList s)

/-- The patterns in a text. -/
def patterns (s : List Char) : List String := (lines (unifyBreaks s)).filterMap pattern?

/-- Takes the patterns of a file. -/
def load {m : Type → Type} [Monad m] [Host m] (path : Path) : m (Reply (List String)) := do
  match ← Host.read path with
  | .error e => return ⟨.error (.file e), []⟩
  | .ok bytes =>
    match Utf8.decode bytes with
    | .error fault => return ⟨.error (.encoding fault), []⟩
    | .ok s =>
      let found := patterns s
      return ⟨.ok found, [.discovered found.length path.text]⟩

end SuiteBalance.Discovery
