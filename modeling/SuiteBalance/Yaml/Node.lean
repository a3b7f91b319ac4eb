import SuiteBalance.Yaml.Timestamp

/-!
# YAML — nodes

A document is a graph of **`Node`**s, each with a **`Tag`** that says what it stands for; a node
that holds others knows them by their numbers, so that one node can stand in many places, and
inside itself.  A scalar without quotes and without a tag is tagged by its spelling:
**`plainTag`** knows truth values, numbers, nothing, dates and times, and the two keys with a
meaning of their own.
-/

namespace SuiteBalance.Yaml

/-- What a node stands for. -/
inductive Tag where
  | null
  | bool
  | integer
  | real
  | bytes
  | time
  | text
  | sequence
  | mapping
  | set
  | pairs
  | merge
  | default
  | other
  deriving DecidableEq, Repr

/-- What the tags of the format start with. -/
def standardTags : String := "tag:yaml.org,2002:"

/-- The tags of the format by their names. -/
def tagNames : List (String × Tag) := [
  ("null", .null), ("bool", .bool), ("int", .integer), ("float", .real), ("binary", .bytes),
  ("timestamp", .time), ("str", .text), ("seq", .sequence), ("map", .mapping), ("set", .set),
  ("omap", .pairs), ("pairs", .pairs), ("merge", .merge), ("value", .default)]

/-- The tag with a full name. -/
def Tag.ofName (name : String) : Tag :=
  ((tagNames.find? fun t => standardTags ++ t.1 == name).map Prod.snd).getD .other

/-- What a node consists of: characters, or other nodes. -/
inductive Content where
  | scalar (text : Text)
  | sequence (items : List Nat)
  | mapping (entries : List (Nat × Nat))
  deriving DecidableEq, Repr

/-- A node. -/
structure Node where
  tag : Tag
  content : Content
  deriving DecidableEq, Repr

instance : Inhabited Node := ⟨⟨.null, .scalar ""⟩⟩

/-- Nodes by their numbers. -/
abbrev Graph := Array Node

namespace Graph

/-- The node with a number. -/
def node (g : Graph) (n : Nat) : Node := g.getD n default

/-- The tag of a node. -/
def tag (g : Graph) (n : Nat) : Tag := (g.node n).tag

/-- The entries of a node, if it is a mapping. -/
def entries (g : Graph) (n : Nat) : List (Nat × Nat) :=
  match (g.node n).content with
  | .mapping entries => entries
  | _ => []

/-- Gives a node another content. -/
def setContent (g : Graph) (n : Nat) (content : Content) : Graph :=
  g.modify n fun node => { node with content }

/-- Gives a node another tag. -/
def setTag (g : Graph) (n : Nat) (tag : Tag) : Graph := g.modify n fun node => { node with tag }

end Graph

/-! ### Spellings -/

/-- The spellings of truth values. -/
def truthWords : List (String × Bool) :=
  [("yes", true), ("no", false), ("true", true), ("false", false), ("on", true), ("off", false)]

/-- A word in lower case, in upper case and with a capital. -/
def casings (word : String) : List String := [word, word.toUpper, word.capitalize]

/-- Whether a text is a truth value. -/
def isTruthWord (s : String) : Bool := truthWords.any fun w => (casings w.1).contains s

/-- Whether a text with characters is one of the spellings of nothing. -/
def isNullWord (s : String) : Bool := s == "~" || (casings "null").contains s

/-- The characters behind a sign, if there is one. -/
def afterSign : List Char → List Char
  | '+' :: rest | '-' :: rest => rest
  | s => s

/-- Whether a text is a digit and further digits and low lines. -/
def isNumeral : List Char → Bool
  | [] => false
  | c :: rest => c.isDigit && rest.all fun d => d.isDigit || d == '_'

/-- Whether a text is a number of minutes or seconds. -/
def isSixtieth : List Char → Bool
  | [c] => c.isDigit
  | [c, d] => '0' ≤ c && c ≤ '5' && d.isDigit
  | _ => false

/-- Whether a text spells an integer behind its sign. -/
def isIntegerBody (s : List Char) : Bool :=
  match s with
  | '0' :: 'b' :: digits => !digits.isEmpty && digits.all fun c => c == '0' || c == '1' || c == '_'
  | '0' :: 'x' :: digits =>
    !digits.isEmpty && digits.all fun c => (Text.hexValue? c).isSome || c == '_'
  | ['0'] => true
  | '0' :: digits => digits.all fun c => ('0' ≤ c && c ≤ '7') || c == '_'
  | s =>
    match Text.stretches ':' s with
    | first :: rest => isNumeral first && rest.all isSixtieth
    | [] => false

/-- Whether a text is an exponent with a sign, or nothing. -/
def isExponent (s : List Char) : Bool :=
  match s with
  | [] => true
  | e :: sign :: digits =>
    (e == 'e' || e == 'E') && (sign == '+' || sign == '-') && !digits.isEmpty &&
      digits.all Char.isDigit
  | _ => false

/-- The characters in front of the first point, and those behind it. -/
def splitPoint? (s : List Char) : Option (List Char × List Char) :=
  match s.dropWhile (· != '.') with
  | [] => none
  | _ :: rest => some (s.takeWhile (· != '.'), rest)

/-- Whether a text spells a double with a point behind its sign. -/
def isRealBody (signed : Bool) (s : List Char) : Bool :=
  match splitPoint? s with
  | none => false
  | some (whole, fraction) =>
    let behind := fraction.dropWhile fun c => c.isDigit || c == '_'
    if whole.isEmpty then
      !signed && fraction.head?.any Char.isDigit && isExponent behind
    else match Text.stretches ':' whole with
      | [first] => isNumeral first && isExponent behind
      | first :: rest => isNumeral first && rest.all isSixtieth && behind.isEmpty
      | [] => false

/-- Whether a text spells a double. -/
def isReal (s : List Char) : Bool :=
  let body := afterSign s
  let signed := body.length < s.length
  isRealBody signed body ||
    [".inf", ".Inf", ".INF"].contains (String.ofList body) ||
    [".nan", ".NaN", ".NAN"].contains (String.ofList s)

/-- The tag of a scalar without quotes and without a tag.  A line end may stand behind a spelling,
but does not make one of no characters; the indicators of nodes stand for nothing. -/
def plainTag (content : String) : Tag :=
  let s := withoutLineEnd content.toList
  let spelling := String.ofList s
  if content == "" then .null
  else if isTruthWord spelling then .bool
  else if isReal s then .real
  else if isIntegerBody (afterSign s) then .integer
  else if spelling == "<<" then .merge
  else if isNullWord spelling then .null
  else if (Timestamp.read? content.toList).any Timestamp.isPlain then .time
  else if spelling == "=" then .default
  else if ["!", "&", "*"].contains spelling then .other
  else .text

end SuiteBalance.Yaml
