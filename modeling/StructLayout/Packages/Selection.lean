import StructLayout.Files.Path
import StructLayout.Report.Document
import StructLayout.Settings.Basic
import StructLayout.Text.Glob

/-!
# What a search for packages leaves out

A selection has glob patterns for files and directories to leave out, and says whether files with
tests are wanted.  Some directories never hold packages: those whose names start with a dot or an
underscore, and two with names of their own.
-/

namespace StructLayout.Packages

open Files

/-- What a search for packages leaves out. -/
structure Selection where
  patterns : List Value
  includeTests : Bool
deriving Repr, Inhabited

/-- Whether one of some patterns matches a path relative to the start of a search, or its last
part. -/
def excludes (path : String) : List Value → Except Fault Bool
  | [] => .ok false
  | .str pattern :: rest =>
    if Text.Glob.isMatch pattern path || Text.Glob.isMatch pattern (Path.ofText path).name then
      .ok true
    else excludes path rest
  | v :: _ => .error (.notPath v.kindName)

/-- The names of directories that never hold packages. -/
def reservedNames : List String := ["testdata", "vendor"]

/-- Whether a directory of a name never holds packages. -/
def isReserved (name : String) : Bool :=
  (match name.toList with
    | c :: _ => c = '.' || c = '_'
    | [] => false) || reservedNames.contains name

def testEnding : List Char := "_test.go".toList

def isTestName (name : String) : Bool := testEnding.isSuffixOf name.toList

namespace Selection

def ofSettings (s : Settings) : Except Fault Selection := do
  let patterns ← s.excludePatterns.elements
  pure { patterns, includeTests := s.includeTests.isTruthy }

/-- Whether a search skips a directory, given by its parts from the start of the search. -/
def skips (s : Selection) (parts : List String) : Except Fault Bool :=
  if isReserved (parts.getLast?.getD "") then .ok true
  else excludes (Path.relativeText parts ++ "/") s.patterns

/-- Whether a search takes a file, given by its parts from the start of the search. -/
def takes (s : Selection) (parts : List String) : Except Fault Bool :=
  let name := parts.getLast?.getD ""
  -- the patterns come last, so that a bad one only shows for a file that could be taken
  if Path.extension name != ".go" then .ok false
  else if isTestName name && !s.includeTests then .ok false
  else (excludes (Path.relativeText parts) s.patterns).map (!·)

end Selection

end StructLayout.Packages
