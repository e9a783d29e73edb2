import StructLayout.Packages.ImportPath
import StructLayout.Packages.Selection

/-!
# Discovering packages

An input names the package in a directory, all packages at and below a directory when it ends in
three dots, or the package of one source file.  A package is a directory with the files found in it;
inputs that name the same directory add to the same package, each file once.

Adding a group keeps one group a directory (`pairwise_addGroup`).
-/

namespace StructLayout.Packages

open Files

structure Group where
  directory : List String
  files : List Path
deriving DecidableEq, Repr, Inhabited

structure SourcePackage where
  path : String
  directory : List String
  files : List Path
deriving DecidableEq, Repr, Inhabited

/-! ### Inputs -/

/-- What an input names: a path, and whether everything below it is meant. -/
structure Target where
  path : Path
  recursive : Bool
deriving DecidableEq, Repr

/-- The ending of an input that means everything below. -/
def below : List Char := "...".toList

/-- A text without the slashes at its end. -/
def dropSlashes (cs : List Char) : List Char := (cs.reverse.dropWhile (· = '/')).reverse

def Target.ofInput (input : String) : Target :=
  let cs := input.toList
  if cs = below || ('/' :: below).isSuffixOf cs then
    { path := Path.ofText (String.ofList (dropSlashes (cs.take (cs.length - below.length))))
      recursive := true }
  else { path := Path.ofText input, recursive := false }

/-! ### Directories and files -/

mutual

/-- A directory and those below it, each with its parts from the start of the search, in the order of
their names; skipped ones are left out with all below them. -/
def directories (s : Selection) (parts : List String) :
    Tree → Except Fault (List (List String × Tree))
  | .file _ => .ok []
  | .directory entries => do
    let found ← subdirectories s parts entries
    let ordered := found.mergeSort fun a b => decide (a.1 ≤ b.1)
    pure ((parts, .directory entries) :: ordered.flatMap (·.2))

/-- What is found in each of the directories among some entries, by name. -/
def subdirectories (s : Selection) (parts : List String) :
    List (String × Tree) → Except Fault (List (String × List (List String × Tree)))
  | [] => .ok []
  | (_, .file _) :: rest => subdirectories s parts rest
  | (name, .directory entries) :: rest => do
    let inside := parts ++ [name]
    if ← s.skips inside then subdirectories s parts rest
    else
      let found ← directories s inside (.directory entries)
      let others ← subdirectories s parts rest
      pure ((name, found) :: others)

end

/-- The names of the files of a directory that a search takes, in order. -/
def sourceNames (s : Selection) (parts : List String) (t : Tree) : Except Fault (List String) := do
  let names := Error.sortedNames ((t.entries.filter fun entry => entry.2.isFile).map (·.1))
  names.filterM fun name => s.takes (parts ++ [name])

/-- The source files of a directory found from the start of a search. -/
def groupOf (v : View) (s : Selection) (start : Path) (found : List String × Tree) :
    Except Fault (Option Group) := do
  let names ← sourceNames s found.1 found.2
  let directory := start.below found.1
  if names.isEmpty then pure none
  else pure (some { directory := v.place directory, files := names.map directory.child })

def groupsOf (v : View) (s : Selection) (input : String) : Outcome (List Group) := do
  let target := Target.ofInput input
  let path := target.path
  match ← Outcome.ofFault (v.find? path) with
  | none => throw (.error (.invalidPath path.text "does not exist"))
  | some (.file _) =>
    if Path.extension path.name = ".go" then
      pure [{ directory := v.place path.parent, files := [path] }]
    else throw (.error (.invalidPath path.text "not a Go source file"))
  | some tree =>
    let found ← if target.recursive then Outcome.ofFault (directories s [] tree)
      else pure [([], tree)]
    let groups ← Outcome.ofFault (found.mapM (groupOf v s path))
    pure (groups.filterMap id)

/-! ### Packages -/

/-- A group with the files of another one that it does not hold yet. -/
def Group.extend (v : View) (g more : Group) : Group :=
  let known := g.files.map v.place
  { g with files := g.files ++ more.files.filter fun file => !known.contains (v.place file) }

/-- Adds a group to those found before it; groups of one directory become one. -/
def addGroup (v : View) (more : Group) : List Group → List Group
  | [] => [more]
  | g :: rest =>
    if g.directory = more.directory then g.extend v more :: rest else g :: addGroup v more rest

/-- Groups of one directory put together, in the order in which the directories were found. -/
def merge (v : View) (groups : List Group) : List Group :=
  groups.foldl (fun seen g => addGroup v g seen) []

/-- The groups up to the first input that cannot be searched, and what was wrong with it. -/
def reached : List (Outcome (List Group)) → List Group × Option Failure
  | [] => ([], none)
  | .error e :: _ => ([], some e)
  | .ok groups :: rest => (groups ++ (reached rest).1, (reached rest).2)

def discover (v : View) (s : Selection) (inputs : List String) (known : Modules) :
    Outcome (List SourcePackage) × Modules :=
  let found := reached (inputs.map (groupsOf v s))
  let known := found.1.foldl (fun known g => remember v known g.directory) known
  match found.2 with
  | some e => (.error e, known)
  | none =>
    let packages := (merge v found.1).map fun g =>
      { path := importPath v known g.directory, directory := g.directory, files := g.files }
    (.ok packages, known)

/-! ### Facts -/

theorem directory_extend (v : View) (g more : Group) :
    (g.extend v more).directory = g.directory := rfl

theorem mem_directory_addGroup {v : View} {more : Group} {seen : List Group} {d : List String} :
    d ∈ (addGroup v more seen).map Group.directory ↔
      d = more.directory ∨ d ∈ seen.map Group.directory := by
  induction seen with
  | nil => simp [addGroup]
  | cons g rest ih =>
    unfold addGroup
    split
    · next h =>
      simp only [List.map_cons, directory_extend, List.mem_cons, h]
      exact ⟨fun m => m.elim .inl fun m => .inr (.inr m), fun m => m.elim .inl id⟩
    · simp only [List.map_cons, List.mem_cons, ih]
      exact ⟨fun m => m.elim (fun e => .inr (.inl e)) fun m => m.elim .inl fun m => .inr (.inr m),
        fun m => m.elim (fun e => .inr (.inl e)) fun m => m.elim .inl fun m => .inr (.inr m)⟩

theorem pairwise_addGroup {v : View} {more : Group} {seen : List Group}
    (h : (seen.map Group.directory).Nodup) :
    ((addGroup v more seen).map Group.directory).Nodup := by
  induction seen with
  | nil => simp [addGroup]
  | cons g rest ih =>
    rw [List.map_cons, List.nodup_cons] at h
    unfold addGroup
    split
    · simpa [directory_extend] using h
    · next hg =>
      rw [List.map_cons, List.nodup_cons, mem_directory_addGroup]
      exact ⟨fun m => m.elim hg h.1, ih h.2⟩

end StructLayout.Packages
