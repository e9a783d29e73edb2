import StructLayout.Error
import StructLayout.Files.Path

/-!
# File trees

What a program can see of the file system is a tree of directories and files together with a working
directory.  Looking a path up walks from directory to directory; what is in the way is reported as
the system reports it.  A part of a path has at most 255 bytes, and a whole path less than 4096.
-/

namespace StructLayout.Files

/-- A file with its bytes, or a directory with its entries. -/
inductive Tree where
  | file (bytes : List UInt8)
  | directory (entries : List (String × Tree))
deriving Repr, Inhabited

namespace Tree

def isFile : Tree → Bool
  | .file _ => true
  | .directory _ => false

def entries : Tree → List (String × Tree)
  | .file _ => []
  | .directory es => es

def entry? (t : Tree) (name : String) : Option Tree := t.entries.lookup name

mutual

/-- The tree with another one put at a place below it; missing directories are created. -/
def insert (new : Tree) : List String → Tree → Tree
  | [], old =>
    match new, old with
    | .directory [], .directory es => .directory es
    | new, _ => new
  | name :: rest, t => .directory (insertEntry new name rest t.entries)
termination_by parts t => (parts.length, 1, sizeOf t)

/-- Entries with a tree put at a place below one of them. -/
def insertEntry (new : Tree) (name : String) (rest : List String) :
    List (String × Tree) → List (String × Tree)
  | [] => [(name, insert new rest (.directory []))]
  | (k, t) :: es =>
    if k = name then (k, insert new rest t) :: es else (k, t) :: insertEntry new name rest es
termination_by es => (rest.length, 2, es.length)

end

end Tree

/-- Why a place cannot be read. -/
inductive Obstacle where
  | missing
  | notDirectory
  | isDirectory
  | nameTooLong
  | nullCharacter
deriving DecidableEq, Repr, Inhabited

def Obstacle.text (o : Obstacle) (path : String) : String :=
  match o with
  | .missing => "[Errno 2] No such file or directory: " ++ Text.quoted path
  | .notDirectory => "[Errno 20] Not a directory: " ++ Text.quoted path
  | .isDirectory => "[Errno 21] Is a directory: " ++ Text.quoted path
  | .nameTooLong => "[Errno 36] File name too long: " ++ Text.quoted path
  | .nullCharacter => "embedded null byte"

/-- Why the file at a path cannot be read. -/
def Obstacle.reason (o : Obstacle) (p : Path) : String := "Cannot read file: " ++ o.text p.text

/-- The failure to read the file at a path.  A null character is refused before the system is asked. -/
def Obstacle.failure (o : Obstacle) (p : Path) : Failure :=
  match o with
  | .nullCharacter => .fault (.badValue (o.text p.text))
  | o => .error (.fileAccess p.text (o.reason p))

/-- The most bytes of a part of a path. -/
def longestPart : Nat := 255

/-- The number of bytes that a whole path stays below. -/
def pathBytes : Nat := 4096

/-- Walks from a tree along parts; the trees passed through lead back up. -/
def walk (above : List Tree) (here : Tree) : List String → Except Obstacle Tree
  | [] => .ok here
  | part :: rest =>
    if here.isFile then .error .notDirectory
    else if longestPart < part.utf8ByteSize then .error .nameTooLong
    else if part = ".." then
      match above with
      | up :: more => walk more up rest
      | [] => walk [] here rest
    else
      match here.entry? part with
      | some next => walk (here :: above) next rest
      | none => .error .missing

/-- What a program sees: the whole tree, and the parts of its working directory. -/
structure View where
  root : Tree
  working : List String
deriving Repr, Inhabited

namespace View

def locate (v : View) (p : Path) : Except Obstacle Tree :=
  if p.hasNull then .error .nullCharacter
  else if pathBytes ≤ p.text.utf8ByteSize then .error .nameTooLong
  else walk [] v.root (if p.slashes = 0 then v.working ++ p.parts else p.parts)

/-- What stands at a path if anything does; a path that is too long cannot be looked up. -/
def find? (v : View) (p : Path) : Except Fault (Option Tree) :=
  match v.locate p with
  | .ok t => .ok (some t)
  | .error .nameTooLong => .error (.system (Obstacle.nameTooLong.text p.text))
  | .error _ => .ok none

def isFile (v : View) (p : Path) : Bool :=
  match v.locate p with
  | .ok t => t.isFile
  | .error _ => false

def readBytes (v : View) (p : Path) : Except Obstacle (List UInt8) :=
  match v.locate p with
  | .ok (.file bytes) => .ok bytes
  | .ok (.directory _) => .error .isDirectory
  | .error o => .error o

def absolute (parts : List String) : Path := { slashes := 1, parts }

def place (v : View) (p : Path) : List String := p.resolve v.working

end View

end StructLayout.Files
