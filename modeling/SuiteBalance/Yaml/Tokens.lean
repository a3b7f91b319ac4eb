import SuiteBalance.Yaml.Property
import SuiteBalance.Yaml.Scalar

/-!
# YAML — from text to tokens

A key may stand without an indicator, so only the colon behind it tells that it is one: a
**`Candidate`** is a token that may turn out to be such a key, and until this is known the token
waits in a queue, where the tokens for the key and for the mapping that it opens can be put in
front of it.  A key has to stand on one line and in at most 1024 characters.

**`tokens`** gives the tokens that can be taken one after the other, and the fault that shows when
one more is asked for.
-/

namespace SuiteBalance.Yaml

/-- A token that may start a key without an indicator: its number, whether it has to be a key
because of its indentation, and where it stands. -/
structure Candidate where
  number : Nat
  required : Bool
  position : Position
  deriving DecidableEq, Repr

/-- The length from which on a token is no key. -/
def keyLimit : Nat := 1024

/-- How many brackets may be open.  Nodes may not stand inside one another on nearly as many levels,
and that shows before this does, since no token waits for more than `keyLimit` characters. -/
def bracketLimit : Nat := 2 * keyLimit

/-- What has been read, and the tokens that wait. -/
structure Reader where
  cursor : Cursor
  /-- The length of the document, which bounds that of each of its parts. -/
  size : Nat := cursor.rest.length
  /-- How many brackets are open. -/
  depth : Int := 0
  /-- The indentation of the innermost block collection. -/
  indent : Int := -1
  /-- The indentations around it. -/
  outer : List Int := []
  /-- Whether a key without an indicator may start here. -/
  keyAllowed : Bool := true
  /-- The candidates by the number of brackets around them. -/
  candidates : List (Int × Candidate) := []
  /-- How many tokens were taken. -/
  taken : Nat := 0
  /-- The tokens that wait. -/
  queue : List Token := []
  finished : Bool := false

namespace Reader

/-- Whether brackets are open. -/
def inFlow (r : Reader) : Bool := r.depth != 0

/-- The column of the next character. -/
def column (r : Reader) : Int := r.cursor.column

/-- Puts a token at the end of the queue. -/
def emit (r : Reader) (t : Token) : Reader := { r with queue := r.queue ++ [t] }

/-- Puts a token at the end of the queue and moves over its characters. -/
def emitOver (r : Reader) (t : Token) (length : Nat) : Reader :=
  { r.emit t with cursor := r.cursor.advance length }

/-- Whether a candidate can no longer be a key. -/
def isStale (r : Reader) (k : Candidate) : Bool :=
  k.position.line != r.cursor.position.line ||
    keyLimit < r.cursor.position.index - k.position.index

/-- Gives up the candidates that can no longer be keys. -/
def dropStale (r : Reader) : Except Fault Reader :=
  if r.candidates.any fun k => r.isStale k.2 && k.2.required then .error .token
  else .ok { r with candidates := r.candidates.filter fun k => !r.isStale k.2 }

/-- Gives up the candidate between the innermost brackets. -/
def dropCandidate (r : Reader) : Except Fault Reader :=
  match r.candidates.lookup r.depth with
  | none => .ok r
  | some k =>
    if k.required then .error .token
    else .ok { r with candidates := r.candidates.filter (·.1 != r.depth) }

/-- Makes the next token a candidate, if a key may start here. -/
def addCandidate (r : Reader) : Except Fault Reader := do
  if !r.keyAllowed then return r
  let required := !r.inFlow && r.indent == r.column
  let r ← r.dropCandidate
  let k : Candidate := ⟨r.taken + r.queue.length, required, r.cursor.position⟩
  return { r with candidates := (r.depth, k) :: r.candidates }

/-- The innermost indentation that is not greater than a column, the ones around it, and the
tokens for the ends of the collections that are left. -/
def closeBlocks (column : Int) (indent : Int) (ends : List Token) :
    List Int → Int × List Int × List Token
  | [] => (indent, [], ends)
  | around :: outer =>
    if column < indent then closeBlocks column around (.blockEnd :: ends) outer
    else (indent, around :: outer, ends)

/-- Ends the block collections that are indented by more than a column. -/
def unwind (r : Reader) (column : Int) : Reader :=
  if r.inFlow then r
  else
    let (indent, outer, ends) := closeBlocks column r.indent [] r.outer
    { r with indent, outer, queue := r.queue ++ ends }

/-- Opens a block collection, if a column is greater than the innermost indentation. -/
def openBlock (r : Reader) (column : Int) : Bool × Reader :=
  if r.indent < column then (true, { r with outer := r.indent :: r.outer, indent := column })
  else (false, r)

/-- Opens a block collection at the next character and puts the token for its start at the end of
the queue, if one has to be opened. -/
def openBlockHere (r : Reader) (t : Token) : Reader :=
  match r.openBlock r.column with
  | (true, r) => r.emit t
  | (false, r) => r

/-- Moves over blanks, comments and line ends; the fuel bounds the number of lines. -/
def skipSpace : Nat → Reader → Reader
  | 0, r => r
  | fuel + 1, r =>
    let cursor := r.cursor.skipBlanks.skipComment
    if isBreak cursor.peek then
      skipSpace fuel { r with cursor := cursor.next, keyAllowed := r.keyAllowed || !r.inFlow }
    else { r with cursor }

/-- Moves over a byte order mark at the start of the document. -/
def skipMark (r : Reader) : Reader :=
  if r.cursor.position.index = 0 ∧ r.cursor.peek = byteOrderMark then
    { r with cursor := r.cursor.next }
  else r

/-! ### The tokens by their kinds -/

/-- The end of the document. -/
def readEnd (r : Reader) : Except Fault Reader := do
  let r ← (r.unwind (-1)).dropCandidate
  return { r.emit .streamEnd with keyAllowed := false, candidates := [], finished := true }

/-- A directive. -/
def readDirective (r : Reader) : Except Fault Reader := do
  let r ← (r.unwind (-1)).dropCandidate
  let (name, c) ← readName r.cursor.next
  if !endsWord c.peek then throw .token
  let (d, c) ← readDirectiveValue name c
  let c ← finishLine c
  return { r.emit (.directive d) with keyAllowed := false, cursor := c }

/-- A line that separates documents. -/
def readSeparator (r : Reader) (t : Token) : Except Fault Reader := do
  let r ← (r.unwind (-1)).dropCandidate
  return { r.emitOver t 3 with keyAllowed := false }

/-- An opening bracket, which may start a key. -/
def readOpening (r : Reader) (t : Token) : Except Fault Reader := do
  if bracketLimit ≤ r.depth then throw .depth
  let r ← r.addCandidate
  return { r.emitOver t 1 with depth := r.depth + 1, keyAllowed := true }

/-- A closing bracket. -/
def readClosing (r : Reader) (t : Token) : Except Fault Reader := do
  let r ← r.dropCandidate
  return { r.emitOver t 1 with depth := r.depth - 1, keyAllowed := false }

/-- A comma between brackets. -/
def readFlowEntry (r : Reader) : Except Fault Reader := do
  let r ← r.dropCandidate
  return { r.emitOver .flowEntry 1 with keyAllowed := true }

/-- A hyphen in front of an item. -/
def readBlockEntry (r : Reader) : Except Fault Reader := do
  if !r.inFlow && !r.keyAllowed then throw .token
  let r := if r.inFlow then r else r.openBlockHere .blockSequenceStart
  let r ← r.dropCandidate
  return { r.emitOver .blockEntry 1 with keyAllowed := true }

/-- A question mark in front of a key. -/
def readKey (r : Reader) : Except Fault Reader := do
  if !r.inFlow && !r.keyAllowed then throw .token
  let r := if r.inFlow then r else r.openBlockHere .blockMappingStart
  let r ← r.dropCandidate
  return { r.emitOver .key 1 with keyAllowed := !r.inFlow }

/-- Puts tokens in front of a candidate. -/
def putBefore (r : Reader) (k : Candidate) (ts : List Token) : Reader :=
  let place := k.number - r.taken
  { r with queue := r.queue.take place ++ ts ++ r.queue.drop place }

/-- A colon behind a key. -/
def readValue (r : Reader) : Except Fault Reader := do
  match r.candidates.lookup r.depth with
  | some k =>
    let r := { r with candidates := r.candidates.filter (·.1 != r.depth) }
    let (opened, r) := if r.inFlow then (false, r) else r.openBlock k.position.column
    let r := r.putBefore k (if opened then [.blockMappingStart, .key] else [.key])
    return { r.emitOver .value 1 with keyAllowed := false }
  | none =>
    if !r.inFlow && !r.keyAllowed then throw .token
    let r := if r.inFlow then r else r.openBlockHere .blockMappingStart
    let r ← r.dropCandidate
    return { r.emitOver .value 1 with keyAllowed := !r.inFlow }

/-- A token that may be a key and is read by `read`. -/
def readNodeStart (r : Reader) (read : Cursor → Except Fault (Token × Cursor)) :
    Except Fault Reader := do
  let r ← r.addCandidate
  let (t, c) ← read r.cursor
  return { r.emit t with cursor := c, keyAllowed := false }

/-- A block of lines. -/
def readBlockScalar (r : Reader) : Except Fault Reader := do
  let r ← r.dropCandidate
  let (content, c) ← readBlock r.size r.indent r.cursor
  return { r.emit (.scalar content false) with cursor := c, keyAllowed := true }

/-- A scalar without quotes. -/
def readPlainScalar (r : Reader) : Except Fault Reader := do
  let r ← r.addCandidate
  let (content, brokeLine, c) := readPlain r.size r.inFlow (r.indent + 1) r.cursor
  return { r.emit (.scalar content true) with cursor := c, keyAllowed := brokeLine }

/-- Whether a scalar without quotes may start here. -/
def startsPlain (r : Reader) : Bool :=
  let c := r.cursor.peek
  !(separates c || "-?:,[]{}#&*!|>'\"%@`".toList.contains c) ||
    (!separates (r.cursor.look 1) && (c == '-' || (!r.inFlow && (c == '?' || c == ':'))))

/-- Reads the next token behind blanks. -/
def readToken (r : Reader) : Except Fault Reader :=
  let c := r.cursor.peek
  let atStart := r.cursor.column = 0
  let separated := separates (r.cursor.look 1)
  if r.cursor.atEnd then r.readEnd
  else if c == '%' && atStart then r.readDirective
  else if atStart && r.cursor.seesLine '-' then r.readSeparator .documentStart
  else if atStart && r.cursor.seesLine '.' then r.readSeparator .documentEnd
  else if c == '[' then r.readOpening .flowSequenceStart
  else if c == '{' then r.readOpening .flowMappingStart
  else if c == ']' then r.readClosing .flowSequenceEnd
  else if c == '}' then r.readClosing .flowMappingEnd
  else if c == ',' then r.readFlowEntry
  else if c == '-' && separated then r.readBlockEntry
  else if c == '?' && (r.inFlow || separated) then r.readKey
  else if c == ':' && (r.inFlow || separated) then r.readValue
  else if c == '*' then r.readNodeStart fun c => (readAnchor c).map fun (s, c) => (.alias s, c)
  else if c == '&' then r.readNodeStart fun c => (readAnchor c).map fun (s, c) => (.anchor s, c)
  else if c == '!' then r.readNodeStart readTag
  else if (c == '|' || c == '>') && !r.inFlow then r.readBlockScalar
  else if c == '\'' || c == '"' then
    r.readNodeStart fun c => (readQuoted r.size c).map fun (s, c) => (.scalar s false, c)
  else if r.startsPlain then r.readPlainScalar
  else .error .token

/-- Reads on to the next token and puts it, and what it implies, into the queue. -/
def readMore (r : Reader) : Except Fault Reader := do
  let r ← (skipSpace (r.size + 1) r.skipMark).dropStale
  (r.unwind r.column).readToken

/-- Whether the first token of the queue may still turn out to be a key, or there is none. -/
def needsMore (r : Reader) : Bool :=
  !r.finished && (r.queue.isEmpty || r.candidates.any (·.2.number == r.taken))

/-- Takes one token after the other, reading on as far as needed; `done` holds the tokens taken,
reversed, and the fuel bounds the number of steps. -/
def run : Nat → Reader → List Token → List Token × Option Fault
  | 0, _, done => (done.reverse, none)
  | fuel + 1, r, done =>
    let checked := if r.finished || r.queue.isEmpty then .ok r else r.dropStale
    match checked with
    | .error e => (done.reverse, some e)
    | .ok r =>
      if r.needsMore then
        match r.readMore with
        | .error e => (done.reverse, some e)
        | .ok r => run fuel r done
      else match r.queue with
        | [] => (done.reverse, none)
        | t :: queue => run fuel { r with queue, taken := r.taken + 1 } (t :: done)

end Reader

/-- The tokens of a document, and the fault behind them, if there is one. -/
def tokens (document : List Char) : List Token × Option Fault :=
  Reader.run (8 * (document.length + 4)) { cursor := ⟨document, {}⟩ } []

end SuiteBalance.Yaml
