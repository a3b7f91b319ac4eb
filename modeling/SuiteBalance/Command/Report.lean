import SuiteBalance.Command.Run
import SuiteBalance.Terminal.Plain

/-!
# Commands — what the user sees

A **`Report`** of a call is what it says on the standard output, what it says on the side, and the
code that it ends with: 0 for a call that succeeds, 2 for one that is not called as it should be,
1 for any other that fails.
-/

namespace SuiteBalance.Command

open Terminal

/-- What the user sees of a call. -/
structure Report where
  output : String
  asides : String
  code : Nat
  deriving DecidableEq, Repr

/-- The words for a call that fails. -/
def Failed.message : Failed → Text
  | .usage fault => "Error: " ++ fault.message
  | .aborted => "Aborted!"
  | .failure e => "Error: " ++ e.message
  | .write (.plan e) => s!"Error: {e.message}"
  | .write (.file e) => s!"Error: {e.message}"
  | .plan e => s!"Error: {e.message}"
  | .planFile path e => "Error: " ++ e.message path
  | .table e => s!"Error: {e.message}"
  | .unprintable line =>
    "Error: " ++ Text.Utf8.unencodableMessage (·.char?.isSome) line

/-- The code that a call ends with. -/
def exitCode : Except Failed Unit → Nat
  | .ok () => 0
  | .error (.usage _) => 2
  | .error _ => 1

/-- Lines as they are shown, surrogates by their escapes. -/
def textOfLines (lines : List Text) : String := String.join (lines.map (·.visible ++ "\n"))

/-- The report of a call. -/
def report (outcome : Except Failed Unit) (t : Transcript) : Report where
  output := t.output ++ textOfLines (t.printed.flatMap Printed.lines)
  asides := textOfLines <| logLines t.least t.notices ++
    match outcome with
    | .ok () => []
    | .error e => [e.message]
  code := exitCode outcome

end SuiteBalance.Command
