import StructLayout.CommandLine.Options
import StructLayout.Files.Tree
import StructLayout.Output.Format
import StructLayout.Text.Integer

/-!
# What a command line asks for

Options of the program come first, then a command with its own options and the inputs, in any order.
A request for help or for the version wins over what stands behind it.  What makes no sense is a
usage error, represented by `none`.  Options are read in the order in which they are first given, and
a settings file whose path has a null character ends the run when it is looked up.

The number of workers is within its bounds (`readWorkers_bounds`).
-/

namespace StructLayout.CommandLine

open Files

structure ProgramOptions where
  verbose : Bool
  noColor : Bool
  file : Option Path
  workers : Option Int
deriving DecidableEq, Repr, Inhabited

structure Command where
  purpose : Report.Purpose
  arch : Option String
  name : Option String
  detailed : Bool
  format : Output.Format
  inputs : List String
deriving DecidableEq, Repr

/-- What a command line asks for. -/
inductive Invocation where
  | help
  | version
  | nullPath
  | command (options : ProgramOptions) (command : Command)
deriving DecidableEq, Repr

/-! ### Options -/

def helpOption : OptionSpec := { name := "help", letter := none, takesValue := false }

/-- The options that come before the command. -/
def programSpecs : List OptionSpec := [
  { name := "verbose", letter := some 'v', takesValue := false },
  { name := "no-color", letter := none, takesValue := false },
  { name := "config", letter := some 'c', takesValue := true },
  { name := "workers", letter := some 'w', takesValue := true },
  { name := "version", letter := none, takesValue := false },
  helpOption]

def commandSpecs : List OptionSpec := [
  { name := "arch", letter := some 'a', takesValue := true },
  { name := "struct", letter := some 's', takesValue := true },
  { name := "detailed", letter := some 'd', takesValue := false },
  { name := "format", letter := some 'f', takesValue := true },
  helpOption]

def mostWorkers : Int := 32

def readOption {α : Type} (read : String → Option α) (value : Option String) : Option (Option α) :=
  match value with
  | none => some none
  | some text => (read text).map some

def readWorkers (text : String) : Option Int :=
  (Text.readDecimal? text.toList).bind fun n => if 1 ≤ n && n ≤ mostWorkers then some n else none

/-- Whether a text can name a file: what is behind its last slash means something. -/
def namesFile (text : String) : Bool :=
  let last := (text.toList.reverse.takeWhile (· != '/')).reverse
  Path.isMeaningful (String.ofList last)

def readFile (v : View) (text : String) : Option Path :=
  let path := Path.ofText text
  if namesFile text && v.isFile path then some path else none

/-- A letter for comparison without regard to case; the long s counts as an s. -/
def foldLetter (c : Char) : Char := if c = 'ſ' then 's' else c.toLower

/-- Reads the name of a format without regard to case. -/
def readFormat (text : String) : Option Output.Format :=
  Output.Format.ofName? (String.ofList (text.toList.map foldLetter))

def ProgramOptions.read (v : View) (p : Parsed) : Option ProgramOptions := do
  pure {
    verbose := p.has "verbose"
    noColor := p.has "no-color"
    file := ← readOption (readFile v) (p.value? "config")
    workers := ← readOption readWorkers (p.value? "workers") }

/-- Whether the settings file is looked up at a path with a null character: that is found out unless
the number of workers is read before and refused. -/
def looksUpNullPath (p : Parsed) : Bool :=
  let hasNull := ((p.value? "config").map fun text => text.toList.contains '\x00').getD false
  let refusedBefore := (readOption readWorkers (p.value? "workers")).isNone &&
    p.firstPlace "workers" < p.firstPlace "config"
  hasNull && !refusedBefore

/-! ### Commands -/

def commandName : Report.Purpose → String
  | .view => "view"
  | .check => "check"

def commandOf? (name : String) : Option Report.Purpose :=
  [Report.Purpose.view, .check].find? fun purpose => commandName purpose = name

def Command.read (purpose : Report.Purpose) (p : Parsed) : Option Command := do
  let format ← readOption readFormat (p.value? "format")
  pure {
    purpose
    arch := p.value? "arch"
    name := p.value? "struct"
    detailed := p.has "detailed"
    format := format.getD .listing
    inputs := p.arguments }

def readCommand (options : ProgramOptions) (purpose : Report.Purpose) (arguments : List String) :
    Option Invocation := do
  let p ← parse commandSpecs true arguments
  -- a request for help wins over values that would be refused
  if p.has "help" then pure .help
  else (Command.read purpose p).map (.command options)

def Invocation.read (v : View) (arguments : List String) : Option Invocation := do
  let p ← parse programSpecs false arguments
  if p.has "help" then pure .help
  else if looksUpNullPath p then pure .nullPath
  else
    let options ← ProgramOptions.read v p
    match p.arguments with
    | [] => pure (if p.has "version" then .version else .help)
    | name :: rest =>
      -- an unknown command is refused even beside the option for the version
      let purpose ← commandOf? name
      if p.has "version" then pure .version else readCommand options purpose rest

/-! ### Paths -/

/-- The inputs that a command line mentions, the working directory if there are none. -/
def mentionedInputs (arguments : List String) : List String :=
  let command := (parse programSpecs false arguments).map fun p => p.arguments.drop 1
  let inputs := (command.bind (parse commandSpecs true)).map (·.arguments)
  match inputs with
  | none | some [] => ["."]
  | some inputs => inputs

def mentionedFile (arguments : List String) : Option String :=
  (parse programSpecs false arguments).bind (·.value? "config")

/-! ### Facts -/

theorem readWorkers_bounds {text : String} {n : Int} (h : readWorkers text = some n) :
    1 ≤ n ∧ n ≤ mostWorkers := by
  unfold readWorkers at h
  obtain ⟨m, _, hm⟩ := Option.bind_eq_some_iff.mp h
  split at hm
  · next hb =>
    cases hm
    simpa using hb
  · cases hm

end StructLayout.CommandLine
