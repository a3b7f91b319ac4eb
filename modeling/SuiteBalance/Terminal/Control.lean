/-!
# Terminal — control sequences

A *control sequence* tells a terminal to move or to change colours: an escape character and a
bracket, parameters, intermediate characters, and a final character that ends it.
**`withoutControls`** takes the control sequences out of a text, for readers that are no terminals.
-/

namespace SuiteBalance.Terminal

/-- The character that starts a control sequence. -/
def escapeMark : Char := Char.ofNat 0x1b

/-- Whether a character is a parameter of a control sequence. -/
def isParameter (c : Char) : Bool := '0' ≤ c && c ≤ '?'

/-- Whether a character may stand between the parameters and the end of a control sequence. -/
def isIntermediate (c : Char) : Bool := ' ' ≤ c && c ≤ '/'

/-- Whether a character ends a control sequence. -/
def isFinal (c : Char) : Bool := '@' ≤ c && c ≤ '~'

/-- What follows a control sequence behind its bracket, if one is there. -/
def afterControl? (s : List Char) : Option (List Char) :=
  match (s.dropWhile isParameter).dropWhile isIntermediate with
  | c :: rest => if isFinal c then some rest else none
  | [] => none

theorem length_afterControl? {s rest : List Char} (h : afterControl? s = some rest) :
    rest.length < s.length := by
  have outer := (List.dropWhile_sublist (l := s.dropWhile isParameter) isIntermediate).length_le
  have inner := (List.dropWhile_sublist (l := s) isParameter).length_le
  unfold afterControl? at h
  split at h <;> grind

/-- The characters of a text without control sequences. -/
def dropControls : List Char → List Char
  | [] => []
  | c :: rest =>
    match rest with
    | '[' :: body =>
      if c == escapeMark then
        match h : afterControl? body with
        | some behind =>
          have := length_afterControl? h
          dropControls behind
        | none => c :: dropControls ('[' :: body)
      else c :: dropControls ('[' :: body)
    | rest => c :: dropControls rest
termination_by s => s.length
decreasing_by all_goals simp only [List.length_cons]; omega

/-- A text without control sequences. -/
def withoutControls (s : String) : String := String.ofList (dropControls s.toList)

end SuiteBalance.Terminal
