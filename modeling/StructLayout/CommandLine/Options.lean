import StructLayout.Text.Lines

/-!
# Options of a command line

An argument that starts with a hyphen gives options: a long one by its name, with a value behind an
equals sign or in the next argument, or any number of short ones by a letter each, where the first
that takes a value takes the rest of the argument, or else the next one.  Two hyphens alone end the
options, and a hyphen alone is an ordinary argument.
-/

namespace StructLayout.CommandLine

/-- An option: its long name, its letter if it has one, and whether it takes a value. -/
structure OptionSpec where
  name : String
  letter : Option Char
  takesValue : Bool
deriving DecidableEq, Repr

/-- What a command line gives: options by name, with their values, and ordinary arguments. -/
structure Parsed where
  options : List (String × String)
  arguments : List String
deriving DecidableEq, Repr

namespace Parsed

def empty : Parsed where
  options := []
  arguments := []

def withOptions (options : List (String × String)) (p : Parsed) : Parsed :=
  { p with options := options ++ p.options }

def withArgument (argument : String) (p : Parsed) : Parsed :=
  { p with arguments := argument :: p.arguments }

def has (p : Parsed) (name : String) : Bool := p.options.any fun o => o.1 = name

/-- The value of an option, the last one if it is repeated. -/
def value? (p : Parsed) (name : String) : Option String := p.options.reverse.lookup name

def firstPlace (p : Parsed) (name : String) : Nat := p.options.findIdx fun o => o.1 = name

end Parsed

/-- What one argument gives: options, and the name of an option that still waits for its value. -/
structure ArgumentOptions where
  options : List (String × String)
  waiting : Option String
deriving DecidableEq, Repr

def ArgumentOptions.single (name value : String) : ArgumentOptions where
  options := [(name, value)]
  waiting := none

def ArgumentOptions.wait (name : String) : ArgumentOptions where
  options := []
  waiting := some name

/-- Reads the letters of an argument; one that is no option is refused. -/
def readLetters (specs : List OptionSpec) : List Char → Option ArgumentOptions
  | [] => some { options := [], waiting := none }
  | c :: rest =>
    match specs.find? fun o => o.letter = some c with
    | none => none
    | some o =>
      if o.takesValue then
        if rest.isEmpty then some (.wait o.name) else some (.single o.name (String.ofList rest))
      else
        (readLetters specs rest).map fun found =>
          { found with options := (o.name, "") :: found.options }

/-- Reads a long option; a value is refused where none is taken. -/
def readLong (o : OptionSpec) (value : Option String) : Option ArgumentOptions :=
  match o.takesValue, value with
  | true, some v => some (.single o.name v)
  | true, none => some (.wait o.name)
  | false, none => some (.single o.name "")
  | false, some _ => none

/-- The text before the first equals sign, and the text behind it if there is one. -/
def splitEquals (cs : List Char) : List Char × Option String :=
  match cs.dropWhile (· != '=') with
  | _ :: value => (cs.takeWhile (· != '='), some (String.ofList value))
  | [] => (cs, none)

def readArgument (specs : List OptionSpec) (argument : String) : Option ArgumentOptions :=
  match argument.toList with
  | '-' :: '-' :: cs =>
    let split := splitEquals cs
    (specs.find? fun o => o.name.toList = split.1).bind fun o => readLong o split.2
  | '-' :: letters => readLetters specs letters
  | _ => none

def givesOptions (argument : String) : Bool :=
  match argument.toList with
  | '-' :: _ :: _ => true
  | _ => false

/-- Reads a command line.  Unless options may be mixed with arguments, the first ordinary argument
ends them. -/
def parse (specs : List OptionSpec) (mixed : Bool) : List String → Option Parsed
  | [] => some Parsed.empty
  | argument :: rest =>
    if argument = "--" then some { options := [], arguments := rest }
    else if givesOptions argument then
      match readArgument specs argument with
      | none => none
      | some { options, waiting := none } => (parse specs mixed rest).map (·.withOptions options)
      | some { options, waiting := some name } =>
        match rest with
        | [] => none
        | value :: rest => (parse specs mixed rest).map (·.withOptions (options ++ [(name, value)]))
    else if mixed then (parse specs mixed rest).map (·.withArgument argument)
    else some { options := [], arguments := argument :: rest }

end StructLayout.CommandLine
