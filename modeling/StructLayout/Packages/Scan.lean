import StructLayout.Packages.Discovery
import StructLayout.Source.Declarations

/-!
# Scanning the files of a package

The declarations of a package are those of its files, one file after the other.  Bytes that are no
text are replaced, and line breaks of all conventions are taken.  A file that cannot be read is
skipped with a warning.
-/

namespace StructLayout.Packages

open Files Source

def readSource (v : View) (file : Path) : Except Obstacle String :=
  (v.readBytes file).map fun bytes => String.ofList (Text.unifyNewlines (Text.decodeLossy bytes))

/-- The declarations in the text of a file; they are placed by the name of the file. -/
def scanText (marker : String) (file : Path) (text : String) : Declarations :=
  Scanner.scan { file := file.name, marker } text

def scanFile (v : View) (marker : String) (file : Path) : Outcome Declarations :=
  match readSource v file with
  | .ok text => .ok (scanText marker file text)
  | .error obstacle => .error (obstacle.failure file)

def scanOrSkip (v : View) (marker : String) (file : Path) : Declarations :=
  match readSource v file with
  | .ok text => scanText marker file text
  | .error obstacle =>
    let warning := "Skipping " ++ file.text ++ ": " ++ obstacle.reason file
    { Declarations.none with warnings := [warning] }

def scanFiles (v : View) (marker : String) (files : List Path) : Declarations :=
  files.foldl (fun found file => found.append (scanOrSkip v marker file)) Declarations.none

end StructLayout.Packages
