import StructLayout.Files.Tree
import StructLayout.Json.Reader
import StructLayout.Layout.Field
import StructLayout.Report.Document
import StructLayout.Text.Utf8

/-!
# Descriptor documents

A descriptor document holds structs whose fields already have sizes, so that any reader of sources
can feed an analysis; it has the shape of a report.  Names have to be texts, lines, sizes and
alignments non-negative integers; a field with a size but no alignment gets alignment one.
-/

namespace StructLayout.Analysis

/-- The contents of a descriptor document: the platform it was sized for, and its packages. -/
structure DescriptorSet where
  platform : Option String
  packages : List PackageDef
deriving DecidableEq, Repr, Inhabited

namespace Descriptor

def complain {α : Type} (source reason : String) : Outcome α :=
  .error (.error (.parsing source reason))

def named? (v : Value) (key : String) : Option (Members × String) :=
  match v with
  | .object ms =>
    match Members.get? ms key with
    | some (.str s) => some (ms, s)
    | _ => none
  | _ => none

/-- The place of an element in messages. -/
def indexed (place : String) (i : Nat) : String := place ++ "[" ++ Text.intText i ++ "]"

/-- An integer that is not negative; a truth value is none. -/
def natural? : Value → Option Int
  | .int n => if 0 ≤ n then some n else none
  | _ => none

/-- An integer of a field that may be absent. -/
def optionalNatural (source place key : String) (v : Value) : Outcome (Option Int) :=
  match v with
  | .null => .ok none
  | v =>
    match natural? v with
    | some n => .ok (some n)
    | none => complain source (place ++ "." ++ key ++ " must be a non-negative integer")

/-- The alignment of a field: one where there is a size but no alignment. -/
def defaultAlign (size align : Option Int) : Option Int :=
  if size.isSome && align.isNone then some 1 else align

def readField (source place : String) (v : Value) : Outcome Field :=
  match named? v "name" with
  | none => complain source (place ++ " must be an object with a 'name'")
  | some (ms, name) => do
    let size ← optionalNatural source place "size" (Value.member ms "size" .null)
    let align ← optionalNatural source place "align" (Value.member ms "align" .null)
    pure {
      name
      typeExpr := (Value.member ms "type" (.str "")).display
      size
      align := defaultAlign size align
      tag := (Value.memberOr ms "tag" (.str "")).display
      comment := (Value.memberOr ms "comment" (.str "")).display }

/-- Reads the elements of a member, each with its place; an absent or empty member has none. -/
def readEach {α : Type} (ms : Members) (key place : String) (read : String → Value → Outcome α) :
    Outcome (List α) := do
  let xs ← Outcome.ofFault (Value.memberOr ms key (.list [])).elements
  xs.zipIdx.mapM fun p => read (indexed place p.2) p.1

def readPosition (source place : String) (v : Value) : Outcome Position :=
  match v with
  | .object ms =>
    match natural? (Value.member ms "line" (.int 0)) with
    | some line => .ok { file := (Value.member ms "file" (.str "")).display, line }
    | none => complain source (place ++ ".position.line must be a non-negative integer")
  | _ => complain source (place ++ ".position must be an object")

def readStruct (source place : String) (v : Value) : Outcome StructDef :=
  match named? v "name" with
  | none => complain source (place ++ " must be an object with a 'name'")
  | some (ms, name) => do
    let position ← readPosition source place (Value.memberOr ms "position" (.object []))
    let fields ← readEach ms "fields" (place ++ ".fields") (readField source)
    pure { name, position, fields, ignored := (Value.member ms "ignore" (.bool false)).isTruthy }

def readPackage (source place : String) (v : Value) : Outcome PackageDef :=
  match named? v "path" with
  | none => complain source (place ++ " must be an object with a 'path'")
  | some (ms, path) => do
    let structs ← readEach ms "structs" (place ++ ".structs") (readStruct source)
    pure { path, structs }

def readPlatform (source : String) (v : Value) : Outcome (Option String) :=
  match v with
  | .null => .ok none
  | .str s => .ok (some s)
  | _ => complain source "'platform' must be a string"

def read (source : String) (v : Value) : Outcome DescriptorSet :=
  match v with
  | .object ms => do
    let platform ← readPlatform source (Value.member ms "platform" .null)
    let packages ← readEach ms "packages" "packages" (readPackage source)
    pure { platform, packages }
  | _ => complain source "top level must be an object"

def readBytes (limit : Nat) (source : String) (bytes : List UInt8) : Outcome DescriptorSet := do
  let cs ← Outcome.ofFault (Text.decodeStrict bytes)
  match Json.parse limit (String.ofList (Text.unifyNewlines cs)) with
  | .ok v => read source v
  | .error .malformed => complain source "invalid JSON"
  | .error (.tooManyDigits count) => .error (.fault (.tooManyDigits count))
  | .error (.tooDeep activity) => .error (.fault (.tooDeep activity))

def load (limit : Nat) (v : Files.View) (path : Files.Path) : Outcome DescriptorSet :=
  match v.readBytes path with
  | .ok bytes => readBytes limit path.text bytes
  | .error obstacle => .error (obstacle.failure path)

end Descriptor

end StructLayout.Analysis
