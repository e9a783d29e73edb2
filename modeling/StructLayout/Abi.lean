import StructLayout.Error
import StructLayout.Text.Blank

/-!
# Target platforms

A platform's data model is its word size and the greatest alignment it asks for.  `Abi.resolve`
selects a platform by name, or by the machine the program runs on.  Each platform of the table is
found by its own name (`resolve_known`).
-/

namespace StructLayout

/-- The data model of a target platform. -/
structure Abi where
  name : String
  wordSize : Int
  maxAlign : Int
  wordSize_pos : 0 < wordSize := by decide
  maxAlign_pos : 0 < maxAlign := by decide
deriving Repr, DecidableEq

namespace Abi

def amd64 : Abi := { name := "amd64", wordSize := 8, maxAlign := 8 }

/-- The platforms with sizing rules, by name. -/
def known : List Abi := [
  { name := "386", wordSize := 4, maxAlign := 4 },
  amd64,
  { name := "amd64p32", wordSize := 4, maxAlign := 8 },
  { name := "arm", wordSize := 4, maxAlign := 4 },
  { name := "arm64", wordSize := 8, maxAlign := 8 },
  { name := "loong64", wordSize := 8, maxAlign := 8 },
  { name := "mips", wordSize := 4, maxAlign := 4 },
  { name := "mips64", wordSize := 8, maxAlign := 8 },
  { name := "mips64le", wordSize := 8, maxAlign := 8 },
  { name := "mipsle", wordSize := 4, maxAlign := 4 },
  { name := "ppc64", wordSize := 8, maxAlign := 8 },
  { name := "ppc64le", wordSize := 8, maxAlign := 8 },
  { name := "riscv64", wordSize := 8, maxAlign := 8 },
  { name := "s390x", wordSize := 8, maxAlign := 8 },
  { name := "sparc64", wordSize := 8, maxAlign := 8 },
  { name := "wasm", wordSize := 8, maxAlign := 8 }]

def knownNames : List String := known.map (·.name)

/-- The platform of each machine name that operating systems report. -/
def machineNames : List (String × String) := [
  ("x86_64", "amd64"), ("amd64", "amd64"), ("i386", "386"), ("i486", "386"), ("i586", "386"),
  ("i686", "386"), ("x86", "386"), ("aarch64", "arm64"), ("arm64", "arm64"), ("armv6l", "arm"),
  ("armv7l", "arm"), ("ppc64", "ppc64"), ("ppc64le", "ppc64le"), ("riscv64", "riscv64"),
  ("s390x", "s390x"), ("loongarch64", "loong64"), ("mips", "mips"), ("mips64", "mips64")]

/-- The platform assumed for a machine that is not listed. -/
def fallbackName : String := amd64.name

/-- A name in lower case.  Every name in the tables is ASCII, and no other character has a
lower-case form that occurs in them. -/
def lowerCase (name : String) : String := String.ofList (name.toList.map Char.toLower)

def hostName (machine : String) : String :=
  (machineNames.lookup (lowerCase machine)).getD fallbackName

/-- A name as it stands in the table: trimmed and in lower case. -/
def normalize (name : String) : String := lowerCase (Text.trimmed name)

/-- The platform of a name that stands in the table. -/
def find? (name : String) : Option Abi := known.find? fun abi => abi.name = name

/-- Selects a platform by name, or the one of the machine if no name is given. -/
def resolve (machine : String) (name : Option String) : Except Error Abi :=
  let wanted := match name with
    | some name => normalize name
    | none => hostName machine
  match find? wanted with
  | some abi => .ok abi
  | none => .error (.unknownPlatform (name.getD wanted) knownNames)

/-- A platform with a data model of its own; both numbers have to be positive. -/
def custom (name : String) (wordSize maxAlign : Int) : Except Fault Abi :=
  if hw : 0 < wordSize then
    if hm : 0 < maxAlign then
      .ok { name, wordSize, maxAlign, wordSize_pos := hw, maxAlign_pos := hm }
    else .error (.notPositive "max_align")
  else .error (.notPositive "word_size")

/-! ### The table -/

/-- Every platform of the table is found by its own name. -/
theorem resolve_known (machine : String) :
    ∀ abi ∈ known, resolve machine (some abi.name) = .ok abi := by
  intro abi h
  have hf : find? (normalize abi.name) = some abi := by
    revert h abi
    decide +kernel
  simp [resolve, hf]

end Abi

end StructLayout
