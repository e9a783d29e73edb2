import StructLayout.Files.Tree
import StructLayout.Text.Blank
import StructLayout.Text.Utf8

/-!
# Import paths

The import path of a directory is its path within the module that it belongs to, below the path that
the module declares in the nearest module file above.  A directory outside of modules is named by its
path from the working directory, or from the root if it is not below that.  What was found out about
a directory is remembered for the rest of a search.
-/

namespace StructLayout.Packages

open Files

/-- A module: where its file stands, and the path that it declares. -/
structure Module where
  root : List String
  path : String
deriving DecidableEq, Repr, Inhabited

/-! ### Module files -/

def moduleFileName : String := "go.mod"

/-- The path that a module declaration at the start of a text gives; blanks may come before it. -/
def declaredAt? (cs : List Char) : Option String :=
  (Text.afterWord? "module" (Text.trimStart cs)).bind fun rest =>
    let path := rest.takeWhile fun c => !Text.isBlank c
    if path.isEmpty then none else some (String.ofList path)

/-- The path that the first module declaration at the start of a line gives; `fresh` says whether the
text starts a line. -/
def declared? (fresh : Bool) : List Char → Option String
  | [] => none
  | c :: rest =>
    ((if fresh then declaredAt? (c :: rest) else none) <|> declared? (c = '\n') rest)

/-- A directory and those above it, the nearest first. -/
def ancestors (directory : List String) : List (List String) :=
  (List.range (directory.length + 1)).map fun n => directory.take (directory.length - n)

def moduleFile (directory : List String) : Path := View.absolute (directory ++ [moduleFileName])

/-- The module that a directory belongs to: the nearest module file decides. -/
def findModule (v : View) (directory : List String) : Option Module := do
  -- a module file without a declaration still hides those above it
  let root ← (ancestors directory).find? fun d => v.isFile (moduleFile d)
  let bytes ← (v.readBytes (moduleFile root)).toOption
  let path ← declared? true (Text.unifyNewlines (Text.decodeLossy bytes))
  pure { root, path }

/-! ### What is remembered -/

/-- The modules of the directories looked at so far. -/
abbrev Modules := List (List String × Option Module)

/-- Looks at a directory, unless that was done before. -/
def remember (v : View) (known : Modules) (directory : List String) : Modules :=
  match known.lookup directory with
  | some _ => known
  | none => (directory, findModule v directory) :: known

/-- Looks at a directory that need not be there, unless that was done before; the path of its module
file must not be too long. -/
def lookAt (v : View) (known : Modules) (directory : List String) : Except Fault Modules :=
  match known.lookup directory with
  | some _ => .ok known
  | none => (v.find? (moduleFile directory)).map fun _ => remember v known directory

def moduleOf? (known : Modules) (directory : List String) : Option Module :=
  (known.lookup directory).getD none

/-! ### Paths -/

def pathWithin (m : Module) (parts : List String) : String :=
  if parts.isEmpty then m.path else m.path ++ "/" ++ Path.joinParts parts

def outsidePath (v : View) (directory : List String) : String :=
  match Path.relativeTo? directory v.working with
  | some parts => Path.relativeText parts
  | none => Path.absoluteText directory

def importPath (v : View) (known : Modules) (directory : List String) : String :=
  match moduleOf? known directory with
  | some m => pathWithin m (directory.drop m.root.length)
  | none => outsidePath v directory

end StructLayout.Packages
