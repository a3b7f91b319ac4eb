import SuiteBalance.Task
import SuiteBalance.Text.Quoted

/-!
# Test groups

Discovery lists the tests of a task as patterns that end in a wildcard.  A **`Group`** is such a
pattern with its task; its *stem* is the pattern without the wildcard, and it covers the tests
whose names start with the stem.
-/

namespace SuiteBalance

/-- The wildcard at the end of every pattern. -/
def wildcard : Char := '*'

/-- A pattern of test names, owned by a task. -/
structure Group where
  pattern : String
  task : Task
  ends_with_wildcard : pattern.toList.getLast? = some wildcard

/-- Why a pattern makes no group. -/
inductive GroupError where
  | noWildcard (pattern : String)
  deriving DecidableEq, Repr

/-- The words for a pattern that makes no group. -/
def GroupError.message : GroupError → String
  | .noWildcard pattern =>
    s!"test group {Text.quote pattern} must end with {Text.quote (String.singleton wildcard)}"

namespace Group

/-- The group of a pattern. -/
def ofPattern (pattern : String) (task : Task) : Except GroupError Group :=
  if h : pattern.toList.getLast? = some wildcard then .ok ⟨pattern, task, h⟩
  else .error (.noWildcard pattern)

/-- The groups of a list of patterns, or the first pattern that makes none. -/
def ofPatterns (patterns : List String) (task : Task) : Except GroupError (List Group) :=
  patterns.mapM (ofPattern · task)

/-- The pattern without its wildcard. -/
def stem (g : Group) : String := String.ofList g.pattern.toList.dropLast

end Group

/-- Whether a name starts with a stem. -/
def startsWith (name stem : String) : Bool := stem.toList.isPrefixOf name.toList

end SuiteBalance
