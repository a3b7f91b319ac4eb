import SuiteBalance.Text.Lines
import SuiteBalance.Text.Utf8

/-!
# CSV

A table is a text of rows, one on each line, with commas between fields.  A field that starts with
a quote may hold commas and line breaks, and a quote that is written twice; what follows its
closing quote is part of the field.  A quoted field that is never closed runs to the end of the
text.

The reader is a **`Cursor`** that is moved over the characters of one physical line after the
other, so that each **`Row`** knows how many lines were read up to its end.  What goes wrong on
the way, a field that is too long or bytes that are no text, stands behind the rows before it.
-/

namespace SuiteBalance.Csv

open Text

/-- The most characters that a field may have. -/
def fieldLimit : Nat := 131072

/-- A row and the number of physical lines up to its end; a blank line is a row without fields. -/
structure Row where
  fields : List String
  line : Nat
  deriving DecidableEq, Repr

/-- Why a table cannot be read to its end. -/
inductive Fault where
  | oversized
  | encoding (fault : Utf8.Fault)
  deriving DecidableEq, Repr

/-- The words for a fault. -/
def Fault.message : Fault → String
  | .oversized => s!"field larger than field limit ({fieldLimit})"
  | .encoding fault => fault.message

/-- The rows that were read, and the fault that stopped the reader. -/
structure Table where
  rows : List Row
  fault : Option Fault
  deriving Repr

/-- What the next character belongs to. -/
inductive Mode where
  | rowStart
  | fieldStart
  | bare
  | quoted
  /-- Behind a quote in a quoted field, which closes the field or is the first of two. -/
  | quoteSeen
  /-- Behind the break that ends the row. -/
  | rowEnd
  deriving DecidableEq, Repr

/-- Where the reader stands: the fields before, reversed, and the one begun, reversed too, with
its length. -/
structure Cursor where
  mode : Mode := .rowStart
  fields : List String := []
  field : List Char := []
  length : Nat := 0

namespace Cursor

/-- Whether a character ends a row. -/
def isBreak (c : Char) : Bool := c == '\n' || c == '\r'

/-- Closes the field begun. -/
def save (s : Cursor) (mode : Mode) : Cursor :=
  { mode, fields := String.ofList s.field.reverse :: s.fields }

/-- Adds a character to the field begun. -/
def push (s : Cursor) (mode : Mode) (c : Char) : Except Fault Cursor :=
  if fieldLimit ≤ s.length then .error .oversized
  else .ok { s with mode, field := c :: s.field, length := s.length + 1 }

/-- Moves over a character outside of quotes; `quote` says what a quote does there. -/
def unquoted (s : Cursor) (c : Char) (quote : Except Fault Cursor) : Except Fault Cursor :=
  if isBreak c then .ok (s.save .rowEnd)
  else if c == ',' then .ok (s.save .fieldStart)
  else if c == '"' then quote
  else s.push .bare c

/-- Moves over a character. -/
def step (s : Cursor) (c : Char) : Except Fault Cursor :=
  match s.mode with
  | .rowStart =>
    if isBreak c then .ok { s with mode := .rowEnd }
    else s.unquoted c (.ok { s with mode := .quoted })
  | .fieldStart => s.unquoted c (.ok { s with mode := .quoted })
  | .bare => s.unquoted c (s.push .bare c)
  | .quoted => if c == '"' then .ok { s with mode := .quoteSeen } else s.push .quoted c
  | .quoteSeen => s.unquoted c (s.push .quoted c)
  | .rowEnd => .ok s

/-- The fields of the row, unless it goes on behind the end of the line. -/
def finish? (s : Cursor) : Option (List String) :=
  match s.mode with
  | .quoted => none
  | .rowStart | .rowEnd => some s.fields.reverse
  | .fieldStart | .bare | .quoteSeen => some (s.save .rowEnd).fields.reverse

end Cursor

/-- Reads line after line; `done` holds the rows before, reversed.  At the end of a text that is
whole, a row that is not closed is a row too. -/
def readLines (whole : Bool) (count : Nat) (s : Cursor) (done : List Row) :
    List (List Char) → Except Fault Unit × List Row
  | [] =>
    (.ok (), (if whole && s.mode == .quoted then ⟨(s.save .rowEnd).fields.reverse, count⟩ :: done
      else done).reverse)
  | line :: rest =>
    match line.foldlM Cursor.step s with
    | .error e => (.error e, done.reverse)
    | .ok s' =>
      match s'.finish? with
      | none => readLines whole (count + 1) s' done rest
      | some fields => readLines whole (count + 1) {} (⟨fields, count + 1⟩ :: done) rest

/-- The lines that are read before a fault in the bytes shows: those that are surely complete. -/
def completeLines (lines : List (List Char)) : List (List Char) :=
  match lines.getLast? with
  | some last => if last.getLast? = some '\n' then lines else lines.dropLast
  | none => []

/-- Reads a table from what was delivered of its bytes. -/
def read (delivered : Utf8.Delivered) : Table :=
  let lines := physicalLines delivered.text
  match delivered.fault with
  | none =>
    match readLines true 0 {} [] lines with
    | (.ok (), rows) => ⟨rows, none⟩
    | (.error e, rows) => ⟨rows, some e⟩
  | some fault =>
    match readLines false 0 {} [] (completeLines lines) with
    | (.ok (), rows) => ⟨rows, some (.encoding fault)⟩
    | (.error e, rows) => ⟨rows, some e⟩

end SuiteBalance.Csv
