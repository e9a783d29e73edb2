import StructLayout.Files.Tree
import StructLayout.Limits
import StructLayout.Settings.Basic
import StructLayout.Text.Integer
import StructLayout.Text.Utf8
import StructLayout.Toml.Reader

/-!
# Where settings come from

Settings are merged from documents: a file in the home directory, one in the working directory, one
named for the run, the environment, and the options of the run, each taking precedence over those
before it.  Keys that are no settings are reported together.  The main statement says that merging
leaves what a later document does not mention (`get?_insertAll_of_notMem`).
-/

namespace StructLayout.Settings

open Files

/-- Where the settings of a run come from, besides the working directory. -/
structure Sources where
  home : List String
  file : Option Path
  environment : List (String × String)
  options : Members
deriving Repr, Inhabited

def complain {α : Type} (message : String) : Outcome α := .error (.error (.report message []))

/-! ### Files -/

def fileName : String := "align-insight.toml"

/-- The files that are there, those that take precedence last. -/
def settingsFiles (v : View) (s : Sources) : Outcome (List Path) := do
  let usual := [View.absolute (s.home ++ ["." ++ fileName]), View.absolute (v.working ++ [fileName])]
  let found := usual.filter v.isFile
  match s.file with
  | none => pure found
  | some file =>
    match ← Outcome.ofFault (v.find? file) with
    | some (.file _) => pure (found ++ [file])
    | _ => complain ("Config file not found: " ++ file.text)

def complainOf {α : Type} (file : Path) (reason : String) : Outcome α :=
  complain ("Invalid config file '" ++ file.text ++ "': " ++ reason)

def readFile (room : Nat) (v : View) (file : Path) : Outcome Members :=
  match v.readBytes file with
  | .error obstacle => complainOf file (obstacle.text file.text)
  | .ok bytes => do
    let text ← Outcome.ofFault (Text.decodeStrict bytes)
    match Toml.parse room text with
    | .ok members => pure members
    | .error .malformed => complainOf file "not a settings document"
    | .error (.tooManyDigits count) => .error (.fault (.tooManyDigits count))
    | .error (.tooDeep activity) => .error (.fault (.tooDeep activity))

/-! ### Environment -/

/-- A text in lower case, for comparison with words of ASCII letters. -/
def lowerCase (cs : List Char) : List Char := cs.map Char.toLower

def readWholeNumber (text : String) : Except Fault Value :=
  match Text.readDecimal text.toList with
  | .ok n => .ok (.int n)
  | .error flaw => .error (.ofNumber text flaw)

def readSwitch (text : String) : Except Fault Value :=
  let word := String.ofList (lowerCase (Text.trim text.toList))
  if ["1", "true", "yes", "on"].contains word then .ok (.bool true)
  else if ["0", "false", "no", "off"].contains word then .ok (.bool false)
  else .error (.badValue ("expected true/false, got " ++ Text.quoted text))

def commaParts : List Char → List (List Char)
  | [] => [[]]
  | c :: rest => if c = ',' then [] :: commaParts rest else Text.consHead c (commaParts rest)

/-- Reads a list of texts, trimmed, without the empty ones. -/
def readTexts (text : String) : Except Fault Value :=
  let parts := (commaParts text.toList).map Text.trim
  .ok (.list ((parts.filter fun part => !part.isEmpty).map fun part => .str (String.ofList part)))

/-- The settings that environment variables may hold, with how they are read. -/
def variableReaders : List (String × (String → Except Fault Value)) := [
  ("arch", fun text => .ok (.str text)),
  ("workers", readWholeNumber),
  ("ignore_marker", fun text => .ok (.str text)),
  ("exclude_patterns", readTexts),
  ("include_tests", readSwitch),
  ("detailed", readSwitch),
  ("color", readSwitch),
  ("verbosity", fun text => .ok (.str text))]

def variableName (key : String) : String :=
  "ALIGN_" ++ String.ofList (key.toList.map Char.toUpper)

def readVariable (environment : List (String × String))
    (setting : String × (String → Except Fault Value)) : Outcome Members :=
  match environment.lookup (variableName setting.1) with
  | none => .ok []
  | some text =>
    match setting.2 text with
    | .ok v => .ok [(setting.1, v)]
    | .error fault => complain ("Invalid " ++ variableName setting.1 ++ ": " ++ fault.text)

/-- The settings that an environment holds; the first variable that cannot be read is reported. -/
def readEnvironment (environment : List (String × String)) : Outcome Members := do
  let found ← variableReaders.mapM (readVariable environment)
  pure found.flatten

/-! ### Options -/

/-- Members with the verbosity set where a flag asks for it; the flag itself is no setting. -/
def applyFlag (flag : Verbosity) (options : Members) : Members :=
  let others := options.filter fun entry => entry.1 != flag.name
  if (Value.member options flag.name .null).isTruthy then
    Members.insert others "verbosity" (.str flag.name)
  else others

/-- The options of a run that say something. -/
def givenOptions (options : Members) : Members :=
  (applyFlag .verbose (applyFlag .quiet options)).filter fun entry => entry.2 != .null

/-! ### Merging -/

/-- Documents merged, later ones taking precedence. -/
def merge (documents : List Members) : Members := documents.foldl Members.insertAll []

/-- Settings from merged members; all keys that are no settings are reported together. -/
def ofMerged (limit : Nat) (members : Members) : Outcome Settings :=
  match unknownKeys members with
  | [] => ofMembers limit members
  | names => complain ("Unknown configuration keys: " ++ ", ".intercalate (Error.sortedNames names))

/-- Loads settings.  The order of precedence, and of the failures, is files, variables, options. -/
def load (limits : Limits) (v : View) (s : Sources) : Outcome Settings := do
  let files ← settingsFiles v s
  let documents ← files.mapM (readFile limits.settings v)
  let environment ← readEnvironment s.environment
  ofMerged limits.showing (merge (documents ++ [environment, givenOptions s.options]))

/-! ### Precedence -/

/-- What a later document does not mention stays as it was. -/
theorem get?_insertAll_of_notMem {members more : Members} {key : String}
    (h : key ∉ more.map Prod.fst) : (members.insertAll more).get? key = members.get? key := by
  unfold Members.insertAll
  induction more generalizing members with
  | nil => rfl
  | cons entry rest ih =>
    simp only [List.map_cons, List.mem_cons, not_or] at h
    rw [List.foldl_cons, ih h.2, Members.get?_insert_ne _ h.1]

end StructLayout.Settings
