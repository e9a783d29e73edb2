import StructLayout.CommandLine.Run
import StructLayout.Output.Page

/-!
# The program

The program looks at the files that its arguments mention and at the settings and module files that
may apply to them, runs the command line on what it found, prints the result and ends with its
status.  Warnings go to the error stream.
-/

namespace StructLayout

open Files

/-- Whether the contents of a file of some name matter to a run. -/
def isRelevantName (name : String) : Bool :=
  name = Packages.moduleFileName || [".go", ".json"].contains (Path.extension name)

def readIfPresent (place : List String) : IO (Option Tree) := do
  try
    let bytes ← IO.FS.readBinFile (Path.absoluteText place)
    pure (some (.file bytes.toList))
  catch _ => pure none

/-- Reads a directory: its files, and all below it if `deep` is set. -/
partial def readDirectory (deep : Bool) (place : List String) : IO Tree := do
  let path := (← IO.currentDir) / Path.absoluteText place
  let mut entries : List (String × Tree) := []
  for entry in ← path.readDir do
    let inside := place ++ [entry.fileName]
    if ← entry.path.isDir then
      let tree ← if deep then readDirectory true inside else pure (.directory [])
      entries := (entry.fileName, tree) :: entries
    else if isRelevantName entry.fileName then
      if let some tree ← readIfPresent inside then
        entries := (entry.fileName, tree) :: entries
    else entries := (entry.fileName, .file []) :: entries
  pure (.directory entries)

/-- A tree with the file at a place, if there is one. -/
def withFile (root : Tree) (place : List String) : IO Tree := do
  match ← readIfPresent place with
  | some tree => pure (Tree.insert tree place root)
  | none => pure root

/-- A tree with what stands at a place, and the module files that may apply to it. -/
def withPlace (deep : Bool) (root : Tree) (place : List String) : IO Tree := do
  let path := (← IO.currentDir) / Path.absoluteText place
  let found ← if ← path.isDir then
      (try pure (Tree.insert (← readDirectory deep place) place root) catch _ => pure root)
    else withFile root place
  (Packages.ancestors place).foldlM
    (fun root directory => withFile root (directory ++ [Packages.moduleFileName])) found

/-- What a program that is started with some arguments can see. -/
def readView (home working arguments : List String) : IO View := do
  let place (path : Path) := path.resolve working
  let targets := (CommandLine.mentionedInputs arguments).map Packages.Target.ofInput
  let (deep, shallow) := targets.partition (·.recursive)
  let mut root := Tree.insert (.directory []) working (.directory [])
  for target in shallow do
    root ← withPlace false root (place target.path)
  for target in deep do
    root ← withPlace true root (place target.path)
  root ← withFile root (home ++ ["." ++ Settings.fileName])
  root ← withFile root (working ++ [Settings.fileName])
  if let some file := CommandLine.mentionedFile arguments then
    root ← withFile root (place (Path.ofText file))
  pure { root, working }

/-- The name that the system has for the machine; none is known if it does not say. -/
def readMachine : IO String := do
  try
    pure (Text.trimmed (← IO.FS.readFile "/proc/sys/kernel/arch"))
  catch _ => pure ""

def readVariables : IO (List (String × String)) := do
  let found ← Settings.variableReaders.mapM fun setting => do
    let name := Settings.variableName setting.1
    pure ((← IO.getEnv name).map fun text => (name, text))
  pure (found.filterMap id)

/-- About how far a stack of a thousand calls and the memory of a machine let the program go. -/
def programLimits : Limits where
  sizing := 988
  reading := 985
  showing := 985
  settings := 980
  drawing := 4294967296

/-- What the program finds when it is started with some arguments. -/
def readEnvironment (arguments : List String) : IO CommandLine.Environment := do
  let working := (Path.ofText (← IO.currentDir).toString).parts
  let home := (Path.ofText ((← IO.getEnv "HOME").getD "/")).parts
  pure {
    view := ← readView home working arguments
    home
    machine := ← readMachine
    assignments := ← readVariables
    printer := Output.Page.printer
    limits := programLimits }

end StructLayout

def main (arguments : List String) : IO UInt32 := do
  let ending := StructLayout.CommandLine.run (← StructLayout.readEnvironment arguments) arguments
  for warning in ending.warnings do
    IO.eprintln warning
  IO.print ending.output
  return ending.status.toUInt32
