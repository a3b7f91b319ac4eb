/-!
# Text — lines

Three notions of a line meet in the files that the library reads.

* **`unifyBreaks`** turns the three line breaks of text files, `LF`, `CR LF` and `CR`, into `LF`.
* **`lines`** cuts a text at every character that Unicode lets end a line, and drops that
  character.  It is meant for text whose breaks are unified.
* **`physicalLines`** cuts at `LF`, `CR LF` and `CR` alone and keeps the break at the end of its
  line, so the lines concatenate to the text.
-/

namespace SuiteBalance.Text

/-- Replaces each of `CR LF` and `CR` by `LF`; `done` holds what stands before, reversed. -/
def unifyBreaksFrom (done : List Char) : List Char → List Char
  | [] => done.reverse
  | '\r' :: '\n' :: rest => unifyBreaksFrom ('\n' :: done) rest
  | '\r' :: rest => unifyBreaksFrom ('\n' :: done) rest
  | c :: rest => unifyBreaksFrom (c :: done) rest

/-- The text with every line break written `LF`. -/
def unifyBreaks (s : List Char) : List Char := unifyBreaksFrom [] s

/-- The characters at which a text is cut into lines: the line breaks, the vertical tabulation,
the form feed, the three larger information separators, and the line and paragraph separators. -/
def endsLine (c : Char) : Bool :=
  let n := c.toNat
  (0xa ≤ n && n ≤ 0xd) || (0x1c ≤ n && n ≤ 0x1e) || n == 0x85 || n == 0x2028 || n == 0x2029

/-- Cuts at every line end; `line` holds the line begun, `done` the lines before it, both
reversed. -/
def linesFrom (done : List (List Char)) (line : List Char) : List Char → List (List Char)
  | [] => (if line.isEmpty then done else line.reverse :: done).reverse
  | c :: rest =>
    if endsLine c then linesFrom (line.reverse :: done) [] rest
    else linesFrom done (c :: line) rest

/-- The lines of a text without their ends; a line end at the end of the text opens no further
line. -/
def lines (s : List Char) : List (List Char) := linesFrom [] [] s

/-- Cuts behind every line break; `line` holds the line begun, `done` the lines before it, both
reversed. -/
def physicalLinesFrom (done : List (List Char)) (line : List Char) : List Char → List (List Char)
  | [] => (if line.isEmpty then done else line.reverse :: done).reverse
  | '\r' :: '\n' :: rest => physicalLinesFrom (('\n' :: '\r' :: line).reverse :: done) [] rest
  | '\r' :: rest => physicalLinesFrom (('\r' :: line).reverse :: done) [] rest
  | '\n' :: rest => physicalLinesFrom (('\n' :: line).reverse :: done) [] rest
  | c :: rest => physicalLinesFrom done (c :: line) rest

/-- The lines of a text, each with the break that ends it. -/
def physicalLines (s : List Char) : List (List Char) := physicalLinesFrom [] [] s

end SuiteBalance.Text
