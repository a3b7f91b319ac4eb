import SuiteBalance.Yaml.Graph
import SuiteBalance.Yaml.Meaning

/-!
# YAML — from nodes to objects

Each node stands for an **`Object`** by its tag, and a node that stands in many places for one
and the same.  An object that holds others is begun when it is first met and filled later, in the
order in which the objects were begun: so one that stands inside itself is there when it is met
again, and of several faults the one on the highest level shows.

A mapping takes over the entries of the mappings that it names as merged, in front of its own.
**`flatten`** moves them in the graph itself, where all who meet the node see them from then on.
Of two equal keys a mapping keeps the place of the first and the value of the last.
-/

namespace SuiteBalance.Yaml

/-- A value on its own, and the node that it comes from, which tells two keys apart that are not
numbers.  What is not a number by its name comes from no node: it is the same wherever it stands. -/
structure Single where
  origin : Option Nat
  value : Value
  deriving Inhabited

/-- Whether two values are one key. -/
def Single.sameKey (k l : Single) : Bool := k.origin == l.origin || k.value.sameKey l.value

/-- What a node stands for: a value on its own, or objects told by the numbers of their nodes. -/
inductive Object where
  | single (v : Single)
  | list (items : List Nat)
  | mapping (fields : List (Single × Nat))
  | set (keys : List Single)
  | pairs (items : List (Nat × Nat))
  deriving Inhabited

/-- Sets the object of a key, in place or at the end. -/
def putField : List (Single × Nat) → Single → Nat → List (Single × Nat)
  | [], key, n => [(key, n)]
  | (k, m) :: rest, key, n =>
    if k.sameKey key then (k, n) :: rest else (k, m) :: putField rest key n

/-- The nodes, the number of entries that their mappings had at first, the objects that were begun,
and the numbers of those that are to be filled, the last first. -/
structure Making where
  nodes : Graph
  entryCount : Nat
  objects : Array (Option Object)
  begun : List Nat := []

/-- A computation that makes objects. -/
abbrev Maker := StateT Making (Except Fault)

namespace Maker

/-- The nodes as they are now. -/
def nodes : Maker Graph := return (← get).nodes

/-- Changes the nodes. -/
def change (f : Graph → Graph) : Maker Unit :=
  modify fun making => { making with nodes := f making.nodes }

/-- Sets the object of a node. -/
def store (n : Nat) (o : Object) : Maker Unit :=
  modify fun making => { making with objects := making.objects.setIfInBounds n (some o) }

/-- Begins an object that is filled later. -/
def start (n : Nat) (o : Object) : Maker Unit := do
  store n o
  modify fun making => { making with begun := n :: making.begun }

/-! ### Merged mappings -/

/-- Makes texts of keys that are the sign for a default. -/
def settleKeys (entries : List (Nat × Nat)) : Maker Unit :=
  change fun g => entries.foldl (fun g entry =>
    if g.tag entry.1 = .default then g.setTag entry.1 .text else g) g

mutual

/-- Moves the entries that a mapping merges in front of its own, from its entry `index` on;
`merged` holds those that were met before.  The fuel bounds how many merges follow one another. -/
def flattenFrom : Nat → Nat → Nat → List (Nat × Nat) → Maker Unit
  | 0, _, _, _ => throw .depth
  | fuel + 1, n, index, merged => do
    let g ← nodes
    let entries := g.entries n
    let passed := (entries.drop index).takeWhile fun entry => g.tag entry.1 ≠ .merge
    settleKeys passed
    let next := index + passed.length
    match entries[next]? with
    | none => change (·.setContent n (.mapping (merged ++ entries)))
    | some (_, source) =>
      change (·.setContent n (.mapping (entries.eraseIdx next)))
      flattenFrom fuel n next (merged ++ (← mergedEntries fuel source))

/-- The entries of a mapping that is merged, or of several, those of the last in front. -/
def mergedEntries : Nat → Nat → Maker (List (Nat × Nat))
  | 0, _ => throw .depth
  | fuel + 1, source => do
    match ((← nodes).node source).content with
    | .mapping _ =>
      flattenFrom fuel source 0 []
      return (← nodes).entries source
    | .sequence items =>
      let merged ← items.mapM fun item => do
        match ((← nodes).node item).content with
        | .mapping _ =>
          flattenFrom fuel item 0 []
          return (← nodes).entries item
        | _ => throw .content
      return merged.reverse.flatten
    | .scalar _ => throw .content

end

/-- Moves the entries that a mapping merges in front of its own. -/
def flatten (n : Nat) : Maker Unit := do flattenFrom (2 * (← get).entryCount + 2) n 0 []

/-! ### Objects -/

/-- The characters of a node that is taken for a scalar; of a mapping the default counts.  The
fuel bounds how often a default is a mapping again. -/
def scalarText : Nat → Nat → Maker Text
  | 0, _ => throw .depth
  | fuel + 1, n => do
    let g ← nodes
    match (g.node n).content with
    | .scalar text => return text
    | .mapping entries =>
      match entries.find? fun entry => g.tag entry.1 = .default with
      | some (_, value) => scalarText fuel value
      | none => throw .content
    | .sequence _ => throw .content

/-- Begins the object of a node, unless this was done before. -/
def begin (n : Nat) : Maker Unit := do
  let making ← get
  if (making.objects.getD n none).isSome then return ()
  match making.nodes.tag n with
  | .sequence => start n (.list [])
  | .mapping => start n (.mapping [])
  | .set => start n (.set [])
  | .pairs => start n (.pairs [])
  | tag =>
    let text ← scalarText (making.nodes.size + 1) n
    match tag, (making.nodes.node n).content with
    | .time, .mapping _ => throw .timeOfMapping
    | _, _ =>
      let origin := if namesNoNumber tag text then none else some n
      store n (.single ⟨origin, ← scalarValue tag text⟩)

/-- The key that a node is, which has to be a value on its own. -/
def key (n : Nat) : Maker Single := do
  match (← get).objects.getD n none with
  | some (.single v) => return v
  | _ => throw .content

/-- The fields of a mapping. -/
def fields (n : Nat) : Maker (List (Single × Nat)) := do
  match ((← nodes).node n).content with
  | .mapping _ =>
    flatten n
    ((← nodes).entries n).foldlM (fun done (k, v) => do
      begin k
      let key ← key k
      begin v
      return putField done key v) []
  | _ => throw .content

/-- The pair of nodes that an item is, which has to be a mapping with one entry. -/
def pair (n : Nat) : Maker (Nat × Nat) := do
  match ((← nodes).node n).content with
  | .mapping [(k, v)] =>
    begin k
    begin v
    return (k, v)
  | _ => throw .content

/-- The items of a sequence. -/
def items (n : Nat) : Maker (List Nat) := do
  match ((← nodes).node n).content with
  | .sequence items => return items
  | _ => throw .content

/-- Fills an object that was begun. -/
def fill (n : Nat) : Maker Unit := do
  match (← nodes).tag n with
  | .sequence =>
    let items ← items n
    items.forM begin
    store n (.list items)
  | .mapping => store n (.mapping (← fields n))
  | .set => store n (.set ((← fields n).map Prod.fst))
  | _ => store n (.pairs (← (← items n).mapM pair))

/-- Fills all objects that were begun, and those that are begun on the way; the fuel bounds the
number of levels. -/
def fillAll : Nat → Maker Unit
  | 0 => return ()
  | fuel + 1 => do
    match (← get).begun with
    | [] => return ()
    | begun =>
      modify fun making => { making with begun := [] }
      begun.reverse.forM fill
      fillAll fuel

/-- Makes the object of a node with all that it holds. -/
def make (n : Nat) : Maker Unit := do
  begin n
  fillAll ((← nodes).size + 1)

end Maker

/-- The number of entries of all mappings. -/
def entryCount (g : Graph) : Nat := (List.range g.size).foldl (fun k n => k + (g.entries n).length) 0

/-- The objects of the nodes that are met from the given one on. -/
def objects (g : Graph) (n : Nat) : Except Fault (Array (Option Object)) := do
  let making : Making := { nodes := g, entryCount := entryCount g, objects := .replicate g.size none }
  return (← (Maker.make n).run making).2.objects

end SuiteBalance.Yaml
