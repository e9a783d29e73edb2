import StructLayout.Error
import StructLayout.Text.Blank
import StructLayout.Value.Display

/-!
# Settings of a run

Settings are read from members of a document: a key that is not a setting is refused, and a key that
is missing has its default.  The platform and the marker must not be blank, there must be at least
one worker, and the verbosity is one of three.  The other settings are kept as they were given, and
count as set or not set where they are used.
-/

namespace StructLayout

/-- How much a run tells about itself. -/
inductive Verbosity where
  | quiet
  | normal
  | verbose
deriving DecidableEq, Repr, Inhabited

namespace Verbosity

def name : Verbosity → String
  | quiet => "quiet"
  | normal => "normal"
  | verbose => "verbose"

def all : List Verbosity := [quiet, normal, verbose]

def ofName? (s : String) : Option Verbosity := all.find? fun v => v.name = s

end Verbosity

structure Settings where
  arch : Option String
  workers : Value
  ignoreMarker : String
  excludePatterns : Value
  includeTests : Value
  detailed : Value
  color : Value
  verbosity : Verbosity
deriving DecidableEq, Repr, Inhabited

namespace Settings

/-! ### Keys and defaults -/

/-- The keys of the settings, with their defaults. -/
def defaults : Members := [
  ("arch", .null),
  ("workers", .null),
  ("ignore_marker", .str "align:ignore"),
  ("exclude_patterns", .list [.str "vendor/*", .str "testdata/*", .str ".git/*", .str "_*"]),
  ("include_tests", .bool false),
  ("detailed", .bool false),
  ("color", .bool true),
  ("verbosity", .str "normal")]

def keys : List String := defaults.map (·.1)

def unknownKeys (given : Members) : List String :=
  (given.map (·.1)).filter fun key => !keys.contains key

/-- What was given for a key, or else its default. -/
def given (members : Members) (key : String) : Value :=
  Value.member members key (Value.member defaults key .null)

/-! ### Checks -/

/-- A refusal of a setting; a value that cannot be shown is reported as that. -/
def refuse {α : Type} (limit : Nat) (key : String) (v : Value) (reason : String) : Outcome α := do
  let text ← Outcome.ofFault (v.shown limit)
  throw (.error (.invalidSetting key text reason))

/-- A text that holds more than blanks. -/
def requireText (limit : Nat) (key : String) (v : Value) : Outcome String :=
  match v with
  | .str s => if Text.isAllBlank s.toList then refuse limit key v "must not be blank" else .ok s
  | v => .error (.fault (.noMember v.kindName "strip"))

/-- Reads the name of the platform; none means the one of the machine. -/
def readArch (limit : Nat) (v : Value) : Outcome (Option String) :=
  match v with
  | .null => .ok none
  | v => (requireText limit "arch" v).map some

/-- Whether a number is less than one; other values have no order. -/
def isLessThanOne (v : Value) : Except Fault Bool :=
  match v with
  | .float x => .ok (x.ltInt 1)
  | v =>
    match v.asInt? with
    | some n => .ok (n < 1)
    | none => .error (.notOrdered v.kindName "int")

/-- Reads the number of workers; none means that there is no pool. -/
def readWorkers (limit : Nat) (v : Value) : Outcome Value :=
  match v with
  | .null => .ok .null
  | v => do
    if ← Outcome.ofFault (isLessThanOne v) then refuse limit "workers" v "must be at least 1"
    else pure v

/-- Reads the comment text that takes a struct out of a check. -/
def readMarker (limit : Nat) (v : Value) : Outcome String := requireText limit "ignore_marker" v

def readVerbosity (limit : Nat) (v : Value) : Outcome Verbosity :=
  match v with
  | .str s =>
    match Verbosity.ofName? s with
    | some verbosity => .ok verbosity
    | none => refuse limit "verbosity" v "expected one of quiet, normal, verbose"
  | v => refuse limit "verbosity" v "expected one of quiet, normal, verbose"

def ofMembers (limit : Nat) (members : Members) : Outcome Settings := do
  match unknownKeys members with
  | key :: _ => throw (.fault (.unknownKey key))
  | [] =>
    pure {
      arch := ← readArch limit (given members "arch")
      workers := ← readWorkers limit (given members "workers")
      ignoreMarker := ← readMarker limit (given members "ignore_marker")
      excludePatterns := given members "exclude_patterns"
      includeTests := given members "include_tests"
      detailed := given members "detailed"
      color := given members "color"
      verbosity := ← readVerbosity limit (given members "verbosity") }

/-- The number of workers in a pool, if there is to be one. -/
def workerCount (s : Settings) : Option Int :=
  match s.workers with
  | .float x => x.truncate?
  | v => v.asInt?

end Settings

end StructLayout
