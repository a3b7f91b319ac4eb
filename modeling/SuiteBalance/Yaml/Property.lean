import SuiteBalance.Json.Token
import SuiteBalance.Text.Utf8
import SuiteBalance.Yaml.Cursor
import SuiteBalance.Yaml.Token

/-!
# YAML — properties and directives

A node may have an anchor and a tag in front of it, and a document directives.  Anchors and
handles are made of letters, digits, hyphens and low lines; tags are made of the characters of
addresses, where a per cent sign and two hexadecimal digits stand for a byte.
-/

namespace SuiteBalance.Yaml

/-- The characters of names. -/
def isNameChar (c : Char) : Bool := c.isAlphanum || c == '-' || c == '_'

/-- The characters of addresses. -/
def isAddressChar (c : Char) : Bool :=
  c.isAlphanum || "-;/?:@&=+$,_.!~*'()[]%".toList.contains c

/-- Reads a name, which is not empty. -/
def readName (c : Cursor) : Except Fault (String × Cursor) :=
  let (name, c) := c.span isNameChar
  if name.isEmpty then .error .token else .ok (String.ofList name, c)

/-- The characters that may follow an anchor or an alias. -/
def followsAnchor (c : Char) : Bool :=
  separates c || c == '}' || "?:,]%@`".toList.contains c

/-- Reads the name of an anchor or an alias; the cursor is in front of its indicator. -/
def readAnchor (c : Cursor) : Except Fault (String × Cursor) := do
  let (name, c) ← readName c.next
  if followsAnchor c.peek then return (name, c) else throw .token

/-- The bytes of the escapes at the start of a text; `done` holds those before, reversed. -/
def escapedBytes (done : List UInt8) : List Char → Except Fault (List UInt8)
  | '%' :: a :: b :: rest =>
    match Json.hexUnit? '0' '0' a b with
    | some n => escapedBytes (UInt8.ofNat n :: done) rest
    | none => .error .token
  | '%' :: _ => .error .token
  | _ => .ok done.reverse

/-- The length of an escaped byte. -/
def escapeLength : Nat := 3

/-- Reads an address and counts its characters.  `escaped` is the number of those that follow and
belong to escapes that were read before, `length` the number of those before, and `done` holds
what they stand for, reversed. -/
def readAddressFrom (escaped length : Nat) (done : List Char) :
    List Char → Except Fault (List Char × Nat)
  | [] => .ok (done.reverse, length)
  | c :: rest =>
    match escaped with
    | left + 1 => readAddressFrom left (length + 1) done rest
    | 0 =>
      if c == '%' then
        match escapedBytes [] (c :: rest) with
        | .error e => .error e
        | .ok bytes =>
          match Text.Utf8.decode bytes with
          | .error _ => .error .token
          | .ok chars =>
            readAddressFrom (escapeLength * bytes.length - 1) (length + 1) (chars.reverse ++ done)
              rest
      else if isAddressChar c then readAddressFrom 0 (length + 1) (c :: done) rest
      else .ok (done.reverse, length)

/-- Reads an address, which is not empty. -/
def readAddress (c : Cursor) : Except Fault (String × Cursor) := do
  let (address, length) ← readAddressFrom 0 0 [] c.rest
  if length = 0 then throw .token
  else return (String.ofList address, c.advance length)

/-- Reads a handle: an exclamation mark alone in front of a blank, or two with a name between. -/
def readHandle (c : Cursor) : Except Fault (String × Cursor) :=
  if c.peek != '!' then .error .token
  else if c.look 1 == ' ' then .ok ("!", c.next)
  else
    let (name, behind) := c.next.span isNameChar
    if behind.peek == '!' then .ok (String.ofList ('!' :: (name ++ ['!'])), behind.next)
    else .error .token

/-- Whether a tag has a second exclamation mark. -/
def hasHandle (s : List Char) : Bool :=
  match s.dropWhile fun c => c != '!' && !endsWord c with
  | '!' :: _ => true
  | _ => false

/-- Reads a tag: its handle and what follows it. -/
def readTag (c : Cursor) : Except Fault (Token × Cursor) := do
  let following := c.look 1
  let (handle, suffix, c) ←
    if following == '<' then do
      let (suffix, c) ← readAddress (c.advance 2)
      if c.peek == '>' then pure (none, suffix, c.next) else throw .token
    else if separates following then pure (none, "!", c.next)
    else do
      let (handle, c) ← if hasHandle c.next.rest then readHandle c else pure ("!", c.next)
      let (suffix, c) ← readAddress c
      pure (some handle, suffix, c)
  if endsWord c.peek then return (.tag handle suffix, c) else throw .token

/-- Reads a number of a version. -/
def readVersionNumber (c : Cursor) : Except Fault (Nat × Cursor) :=
  let (digits, c) := c.span Char.isDigit
  if digits.isEmpty then .error .token
  else if Number.digitLimit < digits.length then
    .error (.number (.tooLong digits.length))
  else .ok (Number.digitsValue digits, c)

/-- Reads what follows the name of a directive. -/
def readDirectiveValue (name : String) (c : Cursor) : Except Fault (Directive × Cursor) := do
  if name = "YAML" then
    let (major, c) ← readVersionNumber c.skipBlanks
    if c.peek != '.' then throw .token
    let (_, c) ← readVersionNumber c.next
    if endsWord c.peek then return (.version major, c) else throw .token
  else if name = "TAG" then
    let (handle, c) ← readHandle c.skipBlanks
    if c.peek != ' ' then throw .token
    let (address, c) ← readAddress c.skipBlanks
    if endsWord c.peek then return (.tag handle address, c) else throw .token
  else return (.unknown, c.skip (!endsLine ·))

end SuiteBalance.Yaml
