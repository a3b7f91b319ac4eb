import SuiteBalance.Number.Fixed
import SuiteBalance.Summary
import SuiteBalance.Terminal.Console

/-!
# Terminal — messages and the table of forks

A command prints messages and a table of the forks.  The table has a row for each fork
with a bar for its load, whose filled part is the load's share of the greatest load and whose
colour says how even the plan is.
-/

namespace SuiteBalance.Terminal

open Number

/-- The kind of a message. -/
inductive MessageKind where
  | header
  | success
  | error
  | warning
  | info
  deriving DecidableEq, Repr

/-- A message of a kind, whose text is markup. -/
def message (kind : MessageKind) (text : Text) : Printed :=
  .line <| match kind with
    | .header => "\n[bold cyan]" ++ text ++ "[/bold cyan]\n"
    | .success => "[green]✓[/green] " ++ text
    | .error => "[red]✗[/red] " ++ text
    | .warning => "[yellow]⚠[/yellow] " ++ text
    | .info => "[dim]" ++ text ++ "[/dim]"

/-- A duration in seconds, or in minutes from one minute on. -/
def durationText (seconds : Float) : String :=
  if 60.0 ≤ seconds then oneDecimal (seconds / 60.0) ++ "m" else oneDecimal seconds ++ "s"

/-- The colour of a load that is the given share of the greatest. -/
inductive Colour where
  | green
  | yellow
  | red
  deriving DecidableEq, Repr

/-- The name of a colour. -/
def Colour.name : Colour → String
  | .green => "green"
  | .yellow => "yellow"
  | .red => "red"

/-- How even a share of the greatest load is. -/
def loadColour (share : Float) : Colour :=
  if 0.9 ≤ share then .green else if 0.6 ≤ share then .yellow else .red

/-- The number of cells of a bar. -/
def barWidth : Int := 30

/-- A bar: its colour, and how many of its cells are filled and how many are empty. -/
structure Bar where
  colour : Colour
  filled : Nat
  empty : Nat
  deriving DecidableEq, Repr

/-- Why there is no bar. -/
inductive BarFault where
  /-- The number of filled cells is none. -/
  | unbounded (e : Unbounded)
  /-- The width, or the number of cells of a kind, is beyond what can be counted with. -/
  | uncountable
  /-- There are more cells of a kind than can be held. -/
  | unstorable
  deriving DecidableEq, Repr

/-- The words for a bar that there is none of. -/
def BarFault.message : BarFault → String
  | .unbounded e => e.message
  | .uncountable => "cannot fit 'int' into an index-sized integer"
  | .unstorable => ""

/-- The number of cells of a kind from which on they cannot be held. -/
def cellLimit : Int := 10000000000

/-- The number of cells that a size stands for, which has to be a signed word; there are none below
zero. -/
def cellCount (n : Int) : Except BarFault Nat :=
  if n < -0x8000000000000000 ∨ 0x8000000000000000 ≤ n then .error .uncountable
  else if cellLimit ≤ n then .error .unstorable
  else .ok n.toNat

/-- The bar of the given width, which has to be a double too, for a share. -/
def Bar.ofShare (share : Float) (width : Int) : Except BarFault Bar := do
  let extent := Float.ofInt width
  if extent.isInf then throw .uncountable
  let filled := min width (← (nearest (share * extent)).mapError .unbounded)
  return ⟨loadColour share, ← cellCount filled, ← cellCount (width - filled)⟩

/-- A bar as markup. -/
def Bar.text (b : Bar) : String :=
  let colour := b.colour.name
  let filled := String.ofList (List.replicate b.filled '█')
  let empty := String.ofList (List.replicate b.empty '░')
  s!"[{colour}]{filled}[/{colour}][dim]{empty}[/dim]"

/-- How many groups of a fork are named. -/
def groupsShown : Nat := 5

variable [Console]

/-- The names of a fork's groups. -/
def groupsCell (s : ForkSummary) : Text :=
  let names := s.groups.map fun g => Console.escape g.name
  if groupsShown < names.length then
    Text.intercalate ", " (names.take groupsShown) ++
      s!" [dim](+{names.length - groupsShown} more)[/dim]"
  else Text.intercalate ", " names

/-- The share that a load has of the greatest; nothing is no share of nothing. -/
def shareOf (load makespan : Float) : Float := if makespan == 0.0 then 0.0 else load / makespan

/-- The row of a fork. -/
def row (makespan : Float) (s : ForkSummary) : Except BarFault (List Text) := do
  let bar ← Bar.ofShare (shareOf s.load makespan) barWidth
  return [toString s.index, bar.text, durationText s.load, toString s.testCount, groupsCell s]

/-- The columns of the table of forks. -/
def columns : List Column :=
  [⟨"Fork", .right⟩, ⟨"Load", .left⟩, ⟨"Duration", .right⟩, ⟨"Tests", .right⟩, ⟨"Groups", .left⟩]

/-- The table of forks and a line of totals. -/
def summary (forks : List ForkSummary) : Except BarFault (List Printed) := do
  let loads := forks.map ForkSummary.load
  let makespan := (greatest? loads).getD 0.0
  let rows ← forks.mapM (row makespan)
  let total := loads.foldl (· + ·) 0.0
  return [
    .table ⟨"Test Plan", columns, rows⟩,
    .line (s!"\n  [bold]{forks.length}[/bold] forks  " ++
      s!"makespan [bold]{durationText makespan}[/bold]  [dim]total {durationText total}[/dim]")]

/-- Why the summary of a plan is not shown. -/
inductive ShowFault where
  | plan (e : PlanError)
  | bar (e : BarFault)
  | refused (e : Failure)

/-- Prints one thing after the other, up to the first that the console refuses. -/
def display : List Printed → Except ShowFault Unit
  | [] => .ok ()
  | item :: rest =>
    match Console.refusal? item with
    | some e => .error (.refused e)
    | none => display rest

/-- Shows the summary of a plan. -/
def showPlan (p : Plan) : Except ShowFault Unit := do
  let forks ← p.summarize.mapError .plan
  let printed ← (summary forks).mapError .bar
  display printed

end SuiteBalance.Terminal
