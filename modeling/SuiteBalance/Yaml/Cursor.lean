/-!
# YAML — the cursor

A document is read from left to right by a **`Cursor`** that knows what is still to be read and
where it stands.  Its lines are ended by `LF`, the next line character and the two separators of
Unicode; other line breaks are expected to be written `LF`.  Behind the end of the document the
cursor sees the character of code point zero, which no document may hold.
-/

namespace SuiteBalance.Yaml

/-- The character behind the end. -/
def nothing : Char := Char.ofNat 0

/-- The mark that may stand in front of a document and takes no column. -/
def byteOrderMark : Char := Char.ofNat 0xfeff

/-- Whether a character ends a line. -/
def isBreak (c : Char) : Bool :=
  c == '\n' || c.toNat == 0x85 || c.toNat == 0x2028 || c.toNat == 0x2029

/-- What a line end stands for in a text. -/
def breakChar (c : Char) : Char := if c.toNat == 0x85 then '\n' else c

/-- Whether a character ends a line or the document. -/
def endsLine (c : Char) : Bool := c == nothing || isBreak c

/-- Whether a character ends a word: a blank, or the end of a line or of the document. -/
def endsWord (c : Char) : Bool := c == ' ' || endsLine c

/-- Whether a character separates an indicator from what follows. -/
def separates (c : Char) : Bool := c == '\t' || endsWord c

/-- Whether a character may stand in a document. -/
def isAllowed (c : Char) : Bool :=
  let n := c.toNat
  n == 9 || n == 10 || n == 13 || (0x20 ≤ n && n ≤ 0x7e) || n == 0x85 ||
    (0xa0 ≤ n && n ≤ 0xd7ff) || (0xe000 ≤ n && n ≤ 0xfffd) || 0x10000 ≤ n

/-- A place in a document: how many characters stand before it, and its line and column. -/
structure Position where
  index : Nat := 0
  line : Nat := 0
  column : Nat := 0
  deriving DecidableEq, Repr

/-- The place behind a character. -/
def Position.after (p : Position) (c : Char) : Position :=
  if isBreak c then ⟨p.index + 1, p.line + 1, 0⟩
  else if c == byteOrderMark then { p with index := p.index + 1 }
  else { p with index := p.index + 1, column := p.column + 1 }

/-- A place in a document and what follows it. -/
structure Cursor where
  rest : List Char
  position : Position := {}
  deriving Repr

namespace Cursor

/-- The next character. -/
def peek (c : Cursor) : Char := c.rest.headD nothing

/-- The character behind the next `n`. -/
def look (c : Cursor) (n : Nat) : Char := c.rest.getD n nothing

/-- The column of the next character. -/
def column (c : Cursor) : Nat := c.position.column

/-- Whether the end of the document is reached. -/
def atEnd (c : Cursor) : Bool := c.rest.isEmpty

/-- Moves over one character. -/
def next (c : Cursor) : Cursor :=
  match c.rest with
  | [] => c
  | ch :: rest => ⟨rest, c.position.after ch⟩

/-- Moves over `n` characters. -/
def advance : Nat → Cursor → Cursor
  | 0, c => c
  | n + 1, c => advance n c.next

/-- Takes the characters of a kind that follow. -/
def span (kind : Char → Bool) (c : Cursor) : List Char × Cursor :=
  let taken := c.rest.takeWhile kind
  (taken, ⟨c.rest.dropWhile kind, taken.foldl Position.after c.position⟩)

/-- Moves over the characters of a kind that follow. -/
def skip (kind : Char → Bool) (c : Cursor) : Cursor := (c.span kind).2

/-- Moves over the blanks that follow. -/
def skipBlanks (c : Cursor) : Cursor := c.skip (· == ' ')

/-- Moves over a comment, if one follows. -/
def skipComment (c : Cursor) : Cursor :=
  if c.peek == '#' then c.skip (!endsLine ·) else c

/-- Moves over a line end, if one follows, and gives what it stands for. -/
def lineBreak (c : Cursor) : List Char × Cursor :=
  if isBreak c.peek then ([breakChar c.peek], c.next) else ([], c)

/-- Whether a line that separates documents follows: three times `mark`. -/
def seesLine (mark : Char) (c : Cursor) : Bool :=
  c.look 0 == mark && c.look 1 == mark && c.look 2 == mark && separates (c.look 3)

/-- Whether one of the two lines that separate documents follows. -/
def seesSeparator (c : Cursor) : Bool := c.seesLine '-' || c.seesLine '.'

end Cursor

end SuiteBalance.Yaml
