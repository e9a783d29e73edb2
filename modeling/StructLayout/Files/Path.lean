import StructLayout.Text.Lines

/-!
# Paths

A path is a list of parts, relative or starting at a root.  Empty parts and parts that are a single
dot are dropped when a path is read; two dots are kept, and cancelled only when the path is resolved
against a directory.  Resolving leaves no dots (`resolveParts_dots`).
-/

namespace StructLayout.Files

/-- A path: how many slashes its root is written with, none for a relative path, and its parts. -/
structure Path where
  slashes : Nat
  parts : List String
deriving DecidableEq, Repr, Inhabited

namespace Path

/-- Whether a part of a path means something. -/
def isMeaningful (part : String) : Bool := part != "" && part != "."

/-- The number of slashes that the root of a path with some leading slashes is written with. -/
def rootSlashes (leading : Nat) : Nat := if leading = 0 then 0 else if leading = 2 then 2 else 1

def pieces : List Char → List (List Char)
  | [] => [[]]
  | c :: rest => if c = '/' then [] :: pieces rest else Text.consHead c (pieces rest)

def ofText (s : String) : Path where
  slashes := rootSlashes (s.toList.takeWhile (· = '/')).length
  parts := ((pieces s.toList).map String.ofList).filter isMeaningful

def hasNull (p : Path) : Bool := p.parts.any fun part => part.toList.contains '\x00'

/-- The path without its last part. -/
def parent (p : Path) : Path := { p with parts := p.parts.dropLast }

def child (p : Path) (name : String) : Path := { p with parts := p.parts ++ [name] }

def below (p : Path) (parts : List String) : Path := { p with parts := p.parts ++ parts }

def name (p : Path) : String := p.parts.getLast?.getD ""

def joinParts (parts : List String) : String := "/".intercalate parts

/-- A relative path as text; no parts mean the directory itself. -/
def relativeText (parts : List String) : String := if parts.isEmpty then "." else joinParts parts

def text (p : Path) : String :=
  if p.slashes = 0 then relativeText p.parts
  else String.ofList (List.replicate p.slashes '/') ++ joinParts p.parts

/-- The extension of a name: from its last dot, unless that is its first or last character. -/
def extension (name : String) : String :=
  let cs := name.toList
  let tail := (cs.reverse.takeWhile (· != '.')).reverse
  let dot := cs.length - tail.length
  if tail.length < cs.length && 1 < dot && !tail.isEmpty then String.ofList ('.' :: tail) else ""

/-- Parts added to those of a directory, two dots cancelling the part before them. -/
def resolveParts (directory parts : List String) : List String :=
  parts.foldl (fun acc part => if part = ".." then acc.dropLast else acc ++ [part]) directory

/-- The parts of the place that a path denotes in a working directory. -/
def resolve (p : Path) (working : List String) : List String :=
  resolveParts (if p.slashes = 0 then working else []) p.parts

def absoluteText (parts : List String) : String := "/" ++ joinParts parts

def relativeTo? (place directory : List String) : Option (List String) :=
  if directory.isPrefixOf place then some (place.drop directory.length) else none

/-- A place holds no two dots. -/
theorem resolveParts_dots {directory parts : List String} (h : ".." ∉ directory) :
    ".." ∉ resolveParts directory parts := by
  unfold resolveParts
  induction parts generalizing directory with
  | nil => exact h
  | cons part rest ih =>
    rw [List.foldl_cons]
    refine ih ?_
    split
    · exact fun hm => h ((List.dropLast_sublist directory).mem hm)
    · next hp =>
      simp only [List.mem_append, List.mem_singleton, not_or]
      exact ⟨h, fun he => hp he.symm⟩

end Path

end StructLayout.Files
