import StructLayout.Analysis.Run
import StructLayout.CommandLine.Invocation
import StructLayout.Diagnostics
import StructLayout.Settings.Sources

/-!
# Running a command line

A run reads its settings, analyses its inputs and prints the report.  What goes wrong is printed in
place of the report, and what was printed before stays.  A check whose report shows a struct that can
be improved ends with status one, as does a run that fails; a usage error prints nothing and ends
with status two.
-/

namespace StructLayout.CommandLine

open Files

/-- What a program finds when it is started: files, the home directory, the name of the machine, the
variables that are assigned, what prints its listings, and how far it can go. -/
structure Environment where
  view : View
  home : List String
  machine : String
  assignments : List (String × String)
  printer : Output.Printer
  limits : Limits

/-- What a run leaves: the text it prints, its status, and the warnings that it shows. -/
structure Ending where
  output : String
  status : Nat
  warnings : List String
deriving DecidableEq, Repr

def Ending.plain (output : String) (status : Nat) : Ending where
  output := output
  status := status
  warnings := []

/-- The name of the program with its version. -/
def versionText : String := "align-insight version 0.1.0\n"

def helpText : String :=
  "Usage: align-insight [OPTIONS] view|check [OPTIONS] [PATHS]...\n"

/-! ### Failures -/

/-- The word in front of a failure. -/
def failureLabel : Failure → String
  | .error _ => "[red]Error:[/red] "
  | .fault _ => "[red]Unexpected error:[/red] "

def failureText (printer : Output.Printer) (e : Failure) : String :=
  match printer.line (failureLabel e ++ printer.escape e.text) with
  | .ok text => text
  | .error _ => ""

def Ending.failed (printer : Output.Printer) (printed : String) (warnings : List String) (e : Failure) :
    Ending where
  output := printed ++ failureText printer e
  status := 1
  warnings := warnings

/-! ### Runs -/

/-- The options of a run as settings; a flag that is not given says nothing. -/
def settingsOf (options : ProgramOptions) (command : Command) : Members := [
  ("arch", Report.optionalText command.arch),
  ("workers", Report.optionalInt options.workers),
  ("detailed", if command.detailed then .bool true else .null),
  ("color", if options.noColor then .bool false else .null),
  ("verbose", .bool options.verbose)]

def loadSettings (env : Environment) (options : ProgramOptions) (command : Command) :
    Outcome Settings :=
  Settings.load env.limits env.view {
    home := env.home
    file := options.file
    environment := env.assignments
    options := settingsOf options command }

def shownWarnings (verbosity : Verbosity) (warnings : List String) : List String :=
  if (Diagnostics.Level.ofVerbosity verbosity).shows .warning then warnings else []

def printResult (env : Environment) (settings : Settings) (command : Command)
    (warnings : List String) (result : Analysis.Result) : Ending :=
  let name := Report.optionalText command.name
  let request : Output.Request := {
    limits := env.limits
    abi := result.abi
    purpose := command.purpose
    detailed := settings.detailed.isTruthy
    name }
  match command.format.shown env.printer request result.report with
  | (printed, some e) => .failed env.printer printed warnings e
  | (printed, none) =>
    { output := printed, status := result.report.exitCode command.purpose name, warnings }

def runCommand (env : Environment) (options : ProgramOptions) (command : Command) : Ending :=
  match loadSettings env options command with
  | .error e => .failed env.printer "" [] e
  | .ok settings =>
    let analysed := Analysis.run env.limits env.view env.machine settings command.inputs
    let warnings := shownWarnings settings.verbosity analysed.2
    match analysed.1 with
    | .error e => .failed env.printer "" warnings e
    | .ok result => printResult env settings command warnings result

def run (env : Environment) (arguments : List String) : Ending :=
  match Invocation.read env.view arguments with
  | none => .plain "" 2
  | some .help => .plain helpText 0
  | some .version => .plain versionText 0
  | some .nullPath => .plain "" 1
  | some (.command options command) => runCommand env options command

end StructLayout.CommandLine
