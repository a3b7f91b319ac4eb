import SuiteBalance.Calendar
import SuiteBalance.Value.Number

/-!
# YAML — tokens and faults

A document is a sequence of **`Token`**s.  Block collections, which are told by their indentation
alone, have tokens for their starts and ends like the collections in brackets.  A **`Fault`** says
what kind of rule a document breaks.
-/

namespace SuiteBalance.Yaml

/-- What a line that starts with a per cent sign says. -/
inductive Directive where
  | version (major : Nat)
  | tag (handle namespaceText : String)
  | unknown
  deriving DecidableEq, Repr

/-- A token of a document. -/
inductive Token where
  | streamEnd
  | directive (d : Directive)
  | documentStart
  | documentEnd
  | blockSequenceStart
  | blockMappingStart
  | blockEnd
  | flowSequenceStart
  | flowMappingStart
  | flowSequenceEnd
  | flowMappingEnd
  | blockEntry
  | flowEntry
  | key
  | value
  | alias (name : String)
  | anchor (name : String)
  | tag (handle : Option String) (suffix : String)
  /-- A scalar and whether it stands without quotes. -/
  | scalar (content : Text) (plain : Bool)
  deriving DecidableEq, Repr

/-- What is wrong with a document. -/
inductive Fault where
  /-- A character that may not stand in a document. -/
  | unprintable
  /-- Characters that make no token. -/
  | token
  /-- Tokens that make no tree. -/
  | shape
  /-- An alias without an anchor, an anchor that is used twice, or a second document. -/
  | reference
  /-- A node that stands for no value. -/
  | content
  /-- A node that is nested too deeply, or that has no end. -/
  | depth
  /-- A scalar that is tagged as a number and spells none. -/
  | number (e : NumberFault)
  /-- A scalar that is tagged as a number and has no characters. -/
  | emptyNumber
  /-- A scalar that is tagged as a truth value and is none. -/
  | truthValue (word : Text)
  /-- A scalar that is tagged as a time and is none. -/
  | time
  /-- A mapping that is tagged as a time. -/
  | timeOfMapping
  /-- Numbers that make no date or no time. -/
  | calendar (e : CalendarError)
  /-- An escape beyond the last character. -/
  | characterRange
  /-- An escape whose number is too large to be looked at. -/
  | characterOverflow
  deriving DecidableEq, Repr

/-- The words for a fault. -/
def Fault.message : Fault → String
  | .unprintable => "special characters are not allowed"
  | .token => "found characters that make no token"
  | .shape => "did not find the expected node content"
  | .reference => "found an anchor, an alias or a document that is not expected"
  | .content => "could not determine a value for a node"
  | .depth => "maximum recursion depth exceeded"
  | .number e => e.message
  | .emptyNumber => "string index out of range"
  | .truthValue word => Text.quote word
  | .time => "not a time"
  | .timeOfMapping => "a mapping is not a time"
  | .calendar e => e.message
  | .characterRange => "chr() arg not in range(0x110000)"
  | .characterOverflow => "Python int too large to convert to C int"

end SuiteBalance.Yaml
