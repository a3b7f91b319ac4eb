import SuiteBalance.Command.Usage
import SuiteBalance.Text.Likeness

/-!
# Commands — arguments

The arguments of a call are options, with or without values, and others.  An option's value stands
behind an equals sign or is the next argument, whatever that is.  Behind two hyphens alone, all
arguments are others.
-/

namespace SuiteBalance.Command

/-- An option: its names, of two hyphens and a word or of a hyphen and a letter, and whether it
takes a value. -/
structure OptionSpec where
  name : String
  letter? : Option Char := none
  takesValue : Bool := true
  deriving DecidableEq, Repr

/-- An option as it was given. -/
structure Given where
  name : String
  value? : Option String := none
  deriving DecidableEq, Repr

/-- The arguments of a call: the options in the order given, and the others. -/
structure Arguments where
  given : List Given := []
  others : List String := []
  deriving DecidableEq, Repr

/-- The part of an argument before its first equals sign, and what stands behind it. -/
def splitEquals (argument : String) : String × Option String :=
  let s := argument.toList
  match s.dropWhile (· != '=') with
  | _ :: value => (String.ofList (s.takeWhile (· != '=')), some (String.ofList value))
  | [] => (argument, none)

/-- Reads letters behind one hyphen as options without values. -/
def readLetters (options : List OptionSpec) (letters : List Char) :
    Except UsageFault (List Given) :=
  letters.mapM fun c =>
    match options.find? (·.letter? = some c) with
    | some option => .ok ⟨option.name, none⟩
    | none => .error (.unknownOption (String.ofList ['-', c]) [])

/-- The option of every command that asks for help. -/
def helpName : String := "--help"

/-- The names of options that are like a word. -/
def similarOptions (options : List OptionSpec) (word : String) : List String :=
  Text.closest (options.map OptionSpec.name ++ [helpName]) word

/-- Whether an argument is an option: a hyphen and something behind it. -/
def isOption (argument : String) : Bool :=
  match argument.toList with
  | '-' :: _ :: _ => true
  | _ => false

/-- Arguments with options in front. -/
def Arguments.withGiven (given : List Given) (a : Arguments) : Arguments :=
  { a with given := given ++ a.given }

/-- Reads arguments behind an option that waits for its value, or behind none. -/
def Arguments.readFrom (options : List OptionSpec) (mixed : Bool) :
    Option String → List String → Except UsageFault Arguments
  | some name, [] => .error (.valueMissing name)
  | some name, value :: rest => (readFrom options mixed none rest).map (withGiven [⟨name, value⟩])
  | none, [] => .ok {}
  | none, argument :: rest =>
    if argument = "--" then .ok { others := rest }
    else if isOption argument then
      let (name, value?) := splitEquals argument
      match options.find? (·.name = name), value? with
      | some option, some value =>
        if option.takesValue then
          (readFrom options mixed none rest).map (withGiven [⟨name, value⟩])
        else .error (.valueRefused name)
      | some option, none =>
        if option.takesValue then readFrom options mixed (some name) rest
        else (readFrom options mixed none rest).map (withGiven [⟨name, none⟩])
      | none, _ =>
        if "--".toList.isPrefixOf argument.toList then
          .error (.unknownOption name (similarOptions options name))
        else match readLetters options (argument.toList.drop 1) with
          | .error e => .error e
          | .ok letters => (readFrom options mixed none rest).map (withGiven letters)
    else if mixed then
      (readFrom options mixed none rest).map fun a => { a with others := argument :: a.others }
    else .ok { others := argument :: rest }

/-- Reads arguments; where `mixed` is false, the first that is no option ends the options. -/
def Arguments.read (options : List OptionSpec) (mixed : Bool) (arguments : List String) :
    Except UsageFault Arguments :=
  readFrom options mixed none arguments

/-- The names of the options that were given, each where it was given first. -/
def Arguments.names (a : Arguments) : List String := (a.given.map Given.name).eraseDups

/-- The values of an option, in the order given. -/
def Arguments.values (a : Arguments) (name : String) : List String :=
  (a.given.filter (·.name = name)).filterMap Given.value?

/-- Whether an option was given. -/
def Arguments.has (a : Arguments) (name : String) : Bool := a.given.any (·.name = name)

end SuiteBalance.Command
