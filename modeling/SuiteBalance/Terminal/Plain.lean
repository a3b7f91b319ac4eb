import SuiteBalance.Terminal.Console

/-!
# Terminal — plain text

What is printed, as lines of text: markup as it is written, and a table row by row.  What is shown
of markup is up to the console.
-/

namespace SuiteBalance.Terminal

/-- The lines of a table: the title, the headers and the rows. -/
def Table.lines (t : Table) : List Text :=
  t.title :: (t.columns.map Column.header :: t.rows).map (Text.intercalate "  ")

/-- The lines of what is printed. -/
def Printed.lines : Printed → List Text
  | .line markup => [markup]
  | .table t => t.lines

end SuiteBalance.Terminal
