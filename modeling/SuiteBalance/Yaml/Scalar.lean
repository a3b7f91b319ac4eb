import SuiteBalance.Text.Digit
import SuiteBalance.Yaml.Cursor
import SuiteBalance.Yaml.Token

/-!
# YAML — scalars

A scalar stands without quotes, between quotes of one of two kinds, or as a block of lines below
an indicator.  Line ends in the first two are folded: one becomes a blank, and further ones stay.
-/

namespace SuiteBalance.Yaml

/-! ### Without quotes -/

/-- The characters with a meaning between brackets. -/
def isFlowIndicator (c : Char) : Bool :=
  c == ',' || c == '[' || c == ']' || c == '{' || c == '}'

/-- Whether a plain scalar, between brackets or not, ends at `c` in front of `following`. -/
def endsPlain (flow : Bool) (c following : Char) : Bool :=
  separates c ||
    (c == ':' && (separates following || (flow && isFlowIndicator following))) ||
    (flow && (c == '?' || isFlowIndicator c))

/-- The length of the word of a plain scalar at the start of a text. -/
def plainLength (flow : Bool) : List Char → Nat
  | [] => 0
  | c :: rest => if endsPlain flow c (rest.headD nothing) then 0 else plainLength flow rest + 1

/-- The space behind a word: how it is folded, whether a line ended in it, and the cursor behind
it.  A line that separates documents ends the scalar. -/
structure Space where
  folded : List Char
  brokeLine : Bool
  cursor : Cursor

/-- The blank lines behind a line end; `done` holds the line ends, reversed. -/
def plainBreaks (done : List Char) (p : Position) : List Char → Option (List Char) × Cursor
  | [] => (some done.reverse, ⟨[], p⟩)
  | c :: rest =>
    if c == ' ' then plainBreaks done (p.after c) rest
    else if isBreak c then
      let behind : Cursor := ⟨rest, p.after c⟩
      if behind.seesSeparator then (none, behind)
      else plainBreaks (breakChar c :: done) (p.after c) rest
    else (some done.reverse, ⟨c :: rest, p⟩)

/-- A line end and the further ones behind it, folded. -/
def fold (first : List Char) (further : List Char) : List Char :=
  if first ≠ ['\n'] then first ++ further else if further.isEmpty then [' '] else further

/-- The space behind a word of a plain scalar. -/
def plainSpace (c : Cursor) : Space :=
  let (blanks, c) := c.span (· == ' ')
  if isBreak c.peek then
    let (first, c) := c.lineBreak
    if c.seesSeparator then ⟨[], true, c⟩
    else match plainBreaks [] c.position c.rest with
      | (none, c) => ⟨[], true, c⟩
      | (some further, c) => ⟨fold first further, true, c⟩
  else ⟨blanks, false, c⟩

/-- Reads a plain scalar in lines that are indented by at least `indent`; `done` holds the
characters before, reversed, and `space` the space in front.  The answer tells whether the scalar
ended at the end of a line; the fuel bounds the number of words. -/
def plainFrom (flow : Bool) (indent : Int) :
    Nat → List Char → Space → String × Bool × Cursor
  | 0, done, space => (String.ofList done.reverse, space.brokeLine, space.cursor)
  | fuel + 1, done, space =>
    let c := space.cursor
    let length := if c.peek == '#' then 0 else plainLength flow c.rest
    if length = 0 then (String.ofList done.reverse, space.brokeLine, c)
    else
      let done := (c.rest.take length).reverse ++ (space.folded.reverse ++ done)
      let space := plainSpace (c.advance length)
      let c := space.cursor
      if space.folded.isEmpty || c.peek == '#' || (!flow && (c.column : Int) < indent) then
        (String.ofList done.reverse, space.brokeLine, c)
      else plainFrom flow indent fuel done space

/-- Reads a plain scalar of at most `size` words. -/
def readPlain (size : Nat) (flow : Bool) (indent : Int) (c : Cursor) : String × Bool × Cursor :=
  plainFrom flow indent (size + 1) [] ⟨[], false, c⟩

/-! ### Between quotes -/

/-- The character that a letter behind a backslash stands for. -/
def unescape? : Char → Option Char
  | '0' => some (Char.ofNat 0)
  | 'a' => some (Char.ofNat 7)
  | 'b' => some (Char.ofNat 8)
  | 't' | '\t' => some '\t'
  | 'n' => some '\n'
  | 'v' => some (Char.ofNat 0xb)
  | 'f' => some (Char.ofNat 0xc)
  | 'r' => some '\r'
  | 'e' => some (Char.ofNat 0x1b)
  | ' ' => some ' '
  | '"' => some '"'
  | '\\' => some '\\'
  | '/' => some '/'
  | 'N' => some (Char.ofNat 0x85)
  | '_' => some (Char.ofNat 0xa0)
  | 'L' => some (Char.ofNat 0x2028)
  | 'P' => some (Char.ofNat 0x2029)
  | _ => none

/-- How many hexadecimal digits follow a letter behind a backslash. -/
def escapeLength? : Char → Option Nat
  | 'x' => some 2
  | 'u' => some 4
  | 'U' => some 8
  | _ => none

/-- The code point with a number, which may be too large for one. -/
def codePoint (n : Nat) : Except Fault CodePoint :=
  if n < 0x110000 then .ok (.ofNat n)
  else if n < 0x80000000 then .error .characterRange
  else .error .characterOverflow

/-- The number that hexadecimal digits spell. -/
def hexNumber? (digits : List Char) : Option Nat :=
  digits.foldlM (fun n c => (Text.hexValue? c).map (16 * n + ·)) 0

/-- The blank lines behind a line end between quotes; `done` holds the line ends, reversed. -/
def quotedBreaks (done : List Char) (p : Position) : List Char → Except Fault (List Char × Cursor)
  | [] => .ok (done.reverse, ⟨[], p⟩)
  | c :: rest =>
    if p.column = 0 ∧ (⟨c :: rest, p⟩ : Cursor).seesSeparator then .error .token
    else if c == ' ' || c == '\t' then quotedBreaks done (p.after c) rest
    else if isBreak c then quotedBreaks (breakChar c :: done) (p.after c) rest
    else .ok (done.reverse, ⟨c :: rest, p⟩)

/-- The space in a scalar between quotes, folded. -/
def quotedSpace (c : Cursor) : Except Fault (List Char × Cursor) := do
  let (blanks, c) := c.span fun ch => ch == ' ' || ch == '\t'
  if c.atEnd then throw .token
  else if isBreak c.peek then
    let (first, c) := c.lineBreak
    let (further, c) ← quotedBreaks [] c.position c.rest
    return (fold first further, c)
  else return (blanks, c)

/-- What an escape stands for; the cursor is behind the backslash. -/
def readEscape (c : Cursor) : Except Fault (List CodePoint × Cursor) := do
  match unescape? c.peek, escapeLength? c.peek with
  | some ch, _ => return ([ch], c.next)
  | none, some length =>
    let digits := c.next.rest.take length
    match hexNumber? digits with
    | some n =>
      if digits.length < length then throw .token
      else return ([← codePoint n], c.next.advance length)
    | none => throw .token
  | none, none =>
    if isBreak c.peek then
      let c := c.next
      let (breaks, c) ← quotedBreaks [] c.position c.rest
      return (breaks.map .char, c)
    else throw .token

/-- Reads a scalar up to its closing quote; `done` holds the code points before, reversed, and the
fuel bounds their number. -/
def quotedFrom (mark : Char) : Nat → List CodePoint → Cursor → Except Fault (Text × Cursor)
  | 0, _, _ => .error .token
  | fuel + 1, done, c => do
    let ch := c.peek
    if ch == mark then
      if mark == '\'' && c.look 1 == '\'' then quotedFrom mark fuel ('\'' :: done) (c.advance 2)
      else return (.ofPoints done.reverse, c.next)
    else if mark == '"' && ch == '\\' then
      let (points, c) ← readEscape c.next
      quotedFrom mark fuel (points.reverse ++ done) c
    else if separates ch then
      let (space, c) ← quotedSpace c
      quotedFrom mark fuel (space.reverse.map .char ++ done) c
    else quotedFrom mark fuel (ch :: done) c.next

/-- Reads a scalar of at most `size` characters between quotes; the cursor is in front of the
opening one. -/
def readQuoted (size : Nat) (c : Cursor) : Except Fault (Text × Cursor) :=
  quotedFrom c.peek (size + 1) [] c.next

/-! ### Blocks of lines -/

/-- What becomes of the line ends at the end of a block. -/
inductive Chomping where
  | strip
  | clip
  | keep
  deriving DecidableEq, Repr

/-- The chomping that an indicator asks for. -/
def chomping? : Char → Option Chomping
  | '+' => some .keep
  | '-' => some .strip
  | _ => none

/-- Reads the digit of an indentation indicator, if one follows. -/
def readIncrement (c : Cursor) : Except Fault (Option Nat × Cursor) :=
  if c.peek.isDigit then
    if c.peek == '0' then .error .token
    else .ok (some (c.peek.toNat - '0'.toNat), c.next)
  else .ok (none, c)

/-- Reads the indicators of a block, in either order. -/
def readIndicators (c : Cursor) : Except Fault (Chomping × Option Nat × Cursor) := do
  match chomping? c.peek with
  | some chomping =>
    let (increment, c) ← readIncrement c.next
    return (chomping, increment, c)
  | none =>
    let (increment, c) ← readIncrement c
    match increment, chomping? c.peek with
    | some _, some chomping => return (chomping, increment, c.next)
    | _, _ => return (.clip, increment, c)

/-- Moves to the next line over blanks and a comment; nothing else may follow. -/
def finishLine (c : Cursor) : Except Fault Cursor :=
  let c := c.skipBlanks.skipComment
  if endsLine c.peek then .ok c.lineBreak.2 else .error .token

/-- Moves to the first line of a block that is not blank: the line ends before it, the greatest
indentation seen, and the cursor. -/
def leadingBreaks (greatest : Nat) (done : List Char) (p : Position) :
    List Char → List Char × Nat × Cursor
  | [] => (done.reverse, greatest, ⟨[], p⟩)
  | c :: rest =>
    if c == ' ' then leadingBreaks (max greatest (p.column + 1)) done (p.after c) rest
    else if isBreak c then leadingBreaks greatest (breakChar c :: done) (p.after c) rest
    else (done.reverse, greatest, ⟨c :: rest, p⟩)

/-- Moves over line ends and at most `indent` blanks in front of each line; `done` holds the line
ends before, reversed. -/
def blockBreaks (indent : Nat) (done : List Char) (p : Position) : List Char → List Char × Cursor
  | [] => (done.reverse, ⟨[], p⟩)
  | c :: rest =>
    if c == ' ' && p.column < indent then blockBreaks indent done (p.after c) rest
    else if isBreak c then blockBreaks indent (breakChar c :: done) (p.after c) rest
    else (done.reverse, ⟨c :: rest, p⟩)

/-- Whether a line of a block starts here. -/
def startsBlockLine (indent : Nat) (c : Cursor) : Bool := c.column == indent && !c.atEnd

/-- Reads the lines of a block; `breaks` holds the blank lines in front, and `done` the characters
before, reversed.  The answer are the characters, reversed, the end of the last line, the blank
lines behind it, and the cursor; the fuel bounds the number of lines. -/
def blockFrom (folded : Bool) (indent : Nat) :
    Nat → List Char → List Char → Cursor → List Char × List Char × List Char × Cursor
  | 0, done, breaks, c => (done, [], breaks, c)
  | fuel + 1, done, breaks, c =>
    if !startsBlockLine indent c then (done, [], breaks, c)
    else
      let starts := !(c.peek == ' ' || c.peek == '\t')
      let (line, c) := c.span (!endsLine ·)
      let done := line.reverse ++ (breaks.reverse ++ done)
      let (lineEnd, c) := c.lineBreak
      let (further, c) := blockBreaks indent [] c.position c.rest
      if startsBlockLine indent c then
        let folds := folded && lineEnd == ['\n'] && starts && !(c.peek == ' ' || c.peek == '\t')
        let joint := if folds then (if further.isEmpty then [' '] else []) else lineEnd
        blockFrom folded indent fuel (joint.reverse ++ done) further c
      else (done, lineEnd, further, c)

/-- Reads a block of at most `size` lines; the cursor is in front of its indicator, and `outer` is
the indentation of what is around it. -/
def readBlock (size : Nat) (outer : Int) (c : Cursor) : Except Fault (String × Cursor) := do
  let folded := c.peek == '>'
  let (chomping, increment, c) ← readIndicators c.next
  if !endsWord c.peek then throw .token
  let c ← finishLine c
  let least := (max 1 (outer + 1)).toNat
  let (indent, breaks, c) := match increment with
    | some n =>
      let indent := least + n - 1
      let (breaks, c) := blockBreaks indent [] c.position c.rest
      (indent, breaks, c)
    | none =>
      let (breaks, greatest, c) := leadingBreaks 0 [] c.position c.rest
      (max least greatest, breaks, c)
  let (done, lineEnd, further, c) := blockFrom folded indent (size + 1) [] breaks c
  let tail := match chomping with
    | .strip => []
    | .clip => lineEnd
    | .keep => lineEnd ++ further
  return (String.ofList (done.reverse ++ tail), c)

end SuiteBalance.Yaml
