import SuiteBalance.Text.Basic

/-!
# Terminal — markup

Text for the terminal is marked up by tags in brackets: a bracket, a lower-case letter or one of
`#`, `/` and `@`, and everything up to the closing bracket.  A backslash in front makes a tag
plain text, and two backslashes in front of a tag are one.  **`escape`** writes a text so that
none of it is a tag.
-/

namespace SuiteBalance.Terminal

/-- Whether a tag may start with a character. -/
def startsTag (c : Char) : Bool :=
  ('a' ≤ c && c ≤ 'z') || c == '#' || c == '/' || c == '@'

/-- Whether a bracket closes before another opens. -/
def closes : List CodePoint → Bool
  | [] => false
  | p :: rest => p == ']' || (p != '[' && closes rest)

/-- Whether what follows an opening bracket makes a tag of it. -/
def opensTag : List CodePoint → Bool
  | [] => false
  | p :: rest => p.isOf startsTag && closes rest

/-- Backslashes in a row. -/
def backslashes (count : Nat) : List CodePoint := List.replicate count '\\'

/-- Escapes what follows a number of backslashes. -/
def escapeFrom (slashes : Nat) : List CodePoint → List CodePoint
  | [] => backslashes slashes
  | '\\' :: rest => escapeFrom (slashes + 1) rest
  | p :: rest =>
    let before := if p == '[' && opensTag rest then 2 * slashes + 1 else slashes
    backslashes before ++ p :: escapeFrom 0 rest

/-- Doubles a backslash that stands alone at the end. -/
def closeSlash (s : List CodePoint) : List CodePoint :=
  match s.reverse with
  | '\\' :: '\\' :: _ => s
  | '\\' :: _ => s ++ backslashes 1
  | _ => s

/-- The markup that shows a text as it is. -/
def escape (s : Text) : Text := .ofPoints (closeSlash (escapeFrom 0 s.points))

end SuiteBalance.Terminal
