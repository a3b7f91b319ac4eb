import SuiteBalance.Failure

/-!
# Terminal — the console

Texts and tables are printed on a **`Console`**, which takes markup.  It says how a text is written
so that it is no markup, and it may refuse what it is handed: a tag that closes none, or a character
that the terminal has no bytes for.
-/

namespace SuiteBalance.Terminal

/-- How a column is aligned. -/
inductive Justify where
  | left
  | right
  deriving DecidableEq, Repr

/-- A column's header and alignment. -/
structure Column where
  header : Text
  justify : Justify := .left
  deriving DecidableEq, Repr

/-- A table whose cells are markup. -/
structure Table where
  title : Text
  columns : List Column
  rows : List (List Text)
  deriving DecidableEq, Repr

/-- What is printed at a time. -/
inductive Printed where
  | line (markup : Text)
  | table (t : Table)
  deriving DecidableEq, Repr

/-- What prints markup for the user. -/
class Console where
  /-- The markup of a text. -/
  escape : Text → Text
  /-- Why something cannot be printed, if it cannot. -/
  refusal? : Printed → Option Failure

end SuiteBalance.Terminal
