import SuiteBalance.Yaml.Node
import SuiteBalance.Yaml.Tokens

/-!
# YAML — from tokens to a graph

The tokens are taken one after the other.  An alias stands for the node with its anchor, which may
be a node around it; each anchor may be used once.  A missing item, key or value is an empty
scalar.  Nodes stand inside one another on at most `levelLimit` levels.  **`graph`** is the graph
of a document and the number of its outermost node, if there is one, and refuses a second.
-/

namespace SuiteBalance.Yaml

/-- The tokens that follow and the fault behind them, the nodes so far, those with anchors by
their numbers, and what the handles of tags stand for. -/
structure Feed where
  tokens : List Token
  fault : Option Fault
  nodes : Graph := #[]
  anchors : List (String × Nat) := []
  handles : List (String × String) := []

/-- A computation that takes tokens. -/
abbrev Builder := StateT Feed (Except Fault)

namespace Builder

/-- The next token. -/
def peek : Builder Token := do
  let feed ← get
  match feed.tokens with
  | t :: _ => return t
  | [] => throw (feed.fault.getD .shape)

/-- Takes the next token. -/
def take : Builder Token := do
  let t ← peek
  modify fun feed => { feed with tokens := feed.tokens.tail }
  return t

/-- Takes the next token if it is the given one. -/
def takeIf (t : Token) : Builder Bool := do
  if (← peek) = t then
    let _ ← take
    return true
  else return false

/-- Adds a node and gives it an anchor, which may not be in use. -/
def add (anchor : Option String) (n : Node) : Builder Nat := do
  let feed ← get
  let number := feed.nodes.size
  match anchor with
  | none => set { feed with nodes := feed.nodes.push n }
  | some name =>
    if (feed.anchors.lookup name).isSome then throw .reference
    set { feed with nodes := feed.nodes.push n, anchors := (name, number) :: feed.anchors }
  return number

/-- Adds a node that stands for one that is missing. -/
def addMissing : Builder Nat := add none ⟨.null, .scalar ""⟩

/-- Adds a node, then what it consists of, which may stand for the node itself. -/
def addAround (anchor : Option String) (tag : Tag) (inside : Builder Content) : Builder Nat := do
  let number ← add anchor ⟨tag, .sequence []⟩
  let content ← inside
  modify fun feed => { feed with nodes := feed.nodes.setContent number content }
  return number

/-- The full name of a tag. -/
def tagName (handle : Option String) (suffix : String) : Builder String := do
  match handle with
  | none => return suffix
  | some handle =>
    match (← get).handles.lookup handle with
    | some start => return start ++ suffix
    | none => throw .shape

/-- Takes the anchor and the tag of a node, in either order. -/
def properties : Builder (Option String × Option String) := do
  let (anchor, tag) ← match ← peek with
    | .anchor name =>
      let _ ← take
      match ← peek with
      | .tag handle suffix =>
        let _ ← take
        pure (some name, some (handle, suffix))
      | _ => pure (some name, none)
    | .tag handle suffix =>
      let _ ← take
      match ← peek with
      | .anchor name =>
        let _ ← take
        pure (some name, some (handle, suffix))
      | _ => pure (none, some (handle, suffix))
    | _ => pure (none, none)
  match tag with
  | none => return (anchor, none)
  | some (handle, suffix) => return (anchor, some (← tagName handle suffix))

/-- The tag with a full name, where an exclamation mark alone asks for the tag that a node without
one has. -/
def tagOf (name : Option String) (without : Tag) : Tag :=
  match name with
  | none => without
  | some name => if name = "!" then without else Tag.ofName name

/-- The tag of a scalar. -/
def scalarTag (name : Option String) (content : Text) (plain : Bool) : Tag :=
  let spelled := if plain || name.isSome then content.toString?.map plainTag else none
  tagOf name (spelled.getD .text)

/-- How a node inside another is taken: in a block, or not; and in front of an item it may be a
sequence that is not indented. -/
abbrev Inner := Bool → Bool → Builder Nat

/-- Takes a node, unless one of the given tokens follows. -/
def innerUnless (inner : Inner) (block indentless : Bool) (ends : List Token) : Builder Nat := do
  if ends.contains (← peek) then addMissing else inner block indentless

/-- Takes the value of a key, if there is one. -/
def valueUnless (inner : Inner) (block indentless : Bool) (ends : List Token) : Builder Nat := do
  if ← takeIf .value then innerUnless inner block indentless ends else addMissing

/-- Takes the items of an indented sequence and its end; `done` holds those before, reversed, and
the fuel bounds their number. -/
def blockItems (inner : Inner) : Nat → List Nat → Builder Content
  | 0, _ => throw .shape
  | fuel + 1, done => do
    if ← takeIf .blockEntry then
      let n ← innerUnless inner true false [.blockEntry, .blockEnd]
      blockItems inner fuel (n :: done)
    else if ← takeIf .blockEnd then return .sequence done.reverse
    else throw .shape

/-- Takes the items of a sequence that is not indented. -/
def indentlessItems (inner : Inner) : Nat → List Nat → Builder Content
  | 0, _ => throw .shape
  | fuel + 1, done => do
    if ← takeIf .blockEntry then
      let n ← innerUnless inner true false [.blockEntry, .key, .value, .blockEnd]
      indentlessItems inner fuel (n :: done)
    else return .sequence done.reverse

/-- Takes the entries of an indented mapping and its end. -/
def blockEntries (inner : Inner) : Nat → List (Nat × Nat) → Builder Content
  | 0, _ => throw .shape
  | fuel + 1, done => do
    if ← takeIf .key then
      let k ← innerUnless inner true true [.key, .value, .blockEnd]
      let v ← valueUnless inner true true [.key, .value, .blockEnd]
      blockEntries inner fuel ((k, v) :: done)
    else if ← takeIf .blockEnd then return .mapping done.reverse
    else throw .shape

/-- Takes a key and a value that are an item of a sequence in brackets. -/
def pairContent (inner : Inner) : Builder Content := do
  let k ← innerUnless inner false false [.value, .flowEntry, .flowSequenceEnd]
  let v ← valueUnless inner false false [.flowEntry, .flowSequenceEnd]
  return .mapping [(k, v)]

/-- Takes the items of a sequence in brackets and its end; between two of them stands a comma, and
one may be a key and a value. -/
def flowItems (inner : Inner) : Nat → Bool → List Nat → Builder Content
  | 0, _, _ => throw .shape
  | fuel + 1, first, done => do
    if ← takeIf .flowSequenceEnd then return .sequence done.reverse
    if !first then
      if !(← takeIf .flowEntry) then throw .shape
    if ← takeIf .key then
      let n ← addAround none .mapping (pairContent inner)
      flowItems inner fuel false (n :: done)
    else if ← takeIf .flowSequenceEnd then return .sequence done.reverse
    else
      let n ← inner false false
      flowItems inner fuel false (n :: done)

/-- Takes the entries of a mapping in brackets and its end. -/
def flowEntries (inner : Inner) : Nat → Bool → List (Nat × Nat) → Builder Content
  | 0, _, _ => throw .shape
  | fuel + 1, first, done => do
    if ← takeIf .flowMappingEnd then return .mapping done.reverse
    if !first then
      if !(← takeIf .flowEntry) then throw .shape
    if ← takeIf .key then
      let k ← innerUnless inner false false [.value, .flowEntry, .flowMappingEnd]
      let v ← valueUnless inner false false [.flowEntry, .flowMappingEnd]
      flowEntries inner fuel false ((k, v) :: done)
    else if ← takeIf .flowMappingEnd then return .mapping done.reverse
    else
      let k ← inner false false
      let v ← addMissing
      flowEntries inner fuel false ((k, v) :: done)

/-- Takes a node that is no alias, given how the nodes inside it are taken. -/
def nodeAround (inner : Inner) (fuel : Nat) (block indentless : Bool) : Builder Nat := do
  let (anchor, name) ← properties
  match ← peek with
  | .scalar text plain =>
    let _ ← take
    add anchor ⟨scalarTag name text plain, .scalar text⟩
  | .flowSequenceStart =>
    addAround anchor (tagOf name .sequence) do
      let _ ← take
      flowItems inner fuel true []
  | .flowMappingStart =>
    addAround anchor (tagOf name .mapping) do
      let _ ← take
      flowEntries inner fuel true []
  | t =>
    if t = .blockEntry ∧ indentless then
      addAround anchor (tagOf name .sequence) (indentlessItems inner fuel [])
    else if t = .blockSequenceStart ∧ block then
      addAround anchor (tagOf name .sequence) do
        let _ ← take
        blockItems inner fuel []
    else if t = .blockMappingStart ∧ block then
      addAround anchor (tagOf name .mapping) do
        let _ ← take
        blockEntries inner fuel []
    else if anchor.isSome ∨ name.isSome then add anchor ⟨scalarTag name "" true, .scalar ""⟩
    else throw .shape

/-- Takes a node on one of the levels that are left. -/
def node (fuel : Nat) : Nat → Inner
  | 0, _, _ => throw .depth
  | levels + 1, block, indentless => do
    match ← peek with
    | .alias name =>
      let _ ← take
      match (← get).anchors.lookup name with
      | some n => return n
      | none => throw .reference
    | _ => nodeAround (node fuel levels) fuel block indentless

/-- On how many levels nodes may stand inside one another. -/
def levelLimit : Nat := 490

/-- What the handles stand for that no directive declares. -/
def standardHandles : List (String × String) := [("!", "!"), ("!!", standardTags)]

/-- Takes the directives of a document, and sets the handles that they declare. -/
def directives : Nat → Bool → List (String × String) → Builder Unit
  | 0, _, _ => throw .shape
  | fuel + 1, versioned, declared => do
    match ← peek with
    | .directive d =>
      let _ ← take
      match d with
      | .version major =>
        if versioned || major != 1 then throw .shape
        directives fuel true declared
      | .tag handle start =>
        if (declared.lookup handle).isSome then throw .shape
        directives fuel versioned ((handle, start) :: declared)
      | .unknown => directives fuel versioned declared
    | _ => modify fun feed => { feed with handles := declared ++ standardHandles }

/-- Takes the directives and the line in front of a document. -/
def documentStart (fuel : Nat) : Builder Unit := do
  directives fuel false []
  if !(← takeIf .documentStart) then throw .shape

/-- Takes the lines that end documents. -/
def documentEnds : Nat → Builder Unit
  | 0 => throw .shape
  | fuel + 1 => do if ← takeIf .documentEnd then documentEnds fuel

/-- Whether a document starts with directives or a line of its own. -/
def startsDocument : Token → Bool
  | .directive _ | .documentStart => true
  | _ => false

/-- Takes the content of a document behind its line, which may be missing. -/
def content (fuel : Nat) : Builder Nat := do
  let t ← peek
  if startsDocument t || t == .documentEnd || t == .streamEnd then addMissing
  else node fuel levelLimit true false

/-- Takes a document and refuses a second one. -/
def document (fuel : Nat) : Builder (Option Nat) := do
  let t ← peek
  if t = .streamEnd then return none
  let n ← if startsDocument t then do
      documentStart fuel
      content fuel
    else do
      modify fun feed => { feed with handles := standardHandles }
      node fuel levelLimit true false
  documentEnds fuel
  if (← peek) = .streamEnd then return some n
  documentStart fuel
  throw .reference

end Builder

/-- The graph of a document and its outermost node, if there is one. -/
def graph (document : List Char) : Except Fault (Graph × Option Nat) := do
  let (tokens, fault) := tokens document
  let (root, feed) ← (Builder.document (tokens.length + 4)).run { tokens, fault }
  return (feed.nodes, root)

end SuiteBalance.Yaml
