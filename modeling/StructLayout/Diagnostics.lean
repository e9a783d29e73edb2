import StructLayout.Settings.Basic

/-!
# Diagnostic messages

Messages about a run are sent to a logger below one root.  The verbosity of a run selects the least
severe level that is shown; what is no verbosity selects warnings.
-/

namespace StructLayout.Diagnostics

inductive Level where
  | debug
  | warning
  | error
deriving DecidableEq, Repr, Inhabited

namespace Level

def name : Level → String
  | debug => "DEBUG"
  | warning => "WARNING"
  | error => "ERROR"

def rank : Level → Nat
  | debug => 0
  | warning => 1
  | error => 2

def ofVerbosity : Verbosity → Level
  | .quiet => error
  | .normal => warning
  | .verbose => debug

/-- The least severe level that is shown for the name of a verbosity. -/
def ofName (s : String) : Level := ((Verbosity.ofName? s).map ofVerbosity).getD warning

def shows (least l : Level) : Bool := least.rank ≤ l.rank

end Level

/-- The name of the logger above all others. -/
def rootName : String := "align_insight"

/-- The name of a logger below the root; none means the root itself. -/
def loggerName (name : Option String) : String :=
  match name with
  | none => rootName
  | some name =>
    if name.isEmpty || name = rootName then rootName
    else if (rootName ++ ".").toList.isPrefixOf name.toList then name
    else rootName ++ "." ++ name

/-- How the root logger is set up: what it shows, to how many places it writes, and whether its
messages also go to what is above it. -/
structure Setup where
  level : Level
  handlers : Nat
  propagates : Bool
deriving DecidableEq, Repr

/-- The set-up for the name of a verbosity: one place to write to, and nothing above. -/
def Setup.ofName (verbosity : String) : Setup where
  level := Level.ofName verbosity
  handlers := 1
  propagates := false

end StructLayout.Diagnostics
