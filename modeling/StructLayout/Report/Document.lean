import StructLayout.Report.Basic
import StructLayout.Text.Integer

/-!
# Reading and writing report documents

`toValue` writes a report as a document, `ofValue` reads one back.  Entries are passed through as
they are; what has to be iterated must be a list, and what has members must be an object.  A missing
or empty list of packages, structs or fields counts as none, and the line of a place is converted to
an integer.
-/

namespace StructLayout

namespace Value

def members : Value → Except Fault Members
  | .object members => .ok members
  | v => .error (.noMember v.kindName "get")

/-- The elements that a value yields one after the other: a list its elements, a text its
characters, an object its keys. -/
def elements : Value → Except Fault (List Value)
  | .list xs => .ok xs
  | .str s => .ok (s.toList.map fun c => .str (String.ofList [c]))
  | .object ms => .ok (ms.map fun entry => .str entry.1)
  | v => .error (.notIterable v.kindName)

/-- The value of a key, or `fallback` where the key is absent or its value counts as absent. -/
def memberOr (ms : Members) (key : String) (fallback : Value) : Value :=
  let v := member ms key .null
  if v.isTruthy then v else fallback

/-- The integer that a value stands for as a line number: a fraction is cut off, and a text is
read. -/
def lineNumber : Value → Except Fault Int
  | .int n => .ok n
  | .bool b => .ok (if b then 1 else 0)
  | .float x =>
    match x, x.truncate? with
    | _, some n => .ok n
    | .nan, none => .error (.badValue "cannot convert float NaN to integer")
    | _, none => .error .infiniteNumber
  | .str s =>
    match Text.readDecimal s.toList with
    | .ok n => .ok n
    | .error flaw => .error (.ofNumber s flaw)
  | v => .error (.notNumeric v.kindName)

end Value

namespace Report

/-! ### Writing -/

def Entry.toValue (e : Entry) : Value :=
  .object [("name", e.name), ("type", e.typeExpr), ("tag", e.tag), ("comment", e.comment),
    ("size", e.size), ("align", e.align)]

def Place.toValue (p : Place) : Value := .object [("file", p.file), ("line", p.line)]

/-- The document of a list of fields. -/
def entriesValue (entries : List Entry) : Value := .list (entries.map Entry.toValue)

def Record.toValue (r : Record) : Value :=
  .object [("name", r.name), ("position", r.place.toValue), ("fields", entriesValue r.fields),
    ("aligned_fields", (r.reordered.map entriesValue).getD .null), ("size", r.size),
    ("optimal_size", r.optimalSize), ("ignore", r.ignored), ("checked", .bool r.isChecked),
    ("reason", r.reason)]

def Package.toValue (p : Package) : Value :=
  .object [("path", p.path), ("structs", .list (p.records.map Record.toValue))]

def toValue (r : Report) : Value :=
  .object [("packages", .list (r.packages.map Package.toValue))]

/-! ### Reading -/

def readEach {α : Type} (read : Value → Except Fault α) (v : Value) : Except Fault (List α) := do
  let xs ← v.elements
  xs.mapM read

def Entry.ofValue (v : Value) : Except Fault Entry := do
  let ms ← v.members
  pure {
    name := Value.member ms "name" (.str "")
    typeExpr := Value.member ms "type" (.str "")
    tag := Value.memberOr ms "tag" (.str "")
    comment := Value.memberOr ms "comment" (.str "")
    size := Value.member ms "size" .null
    align := Value.member ms "align" .null }

def Place.ofValue (v : Value) : Except Fault Place := do
  let ms ← v.members
  let line ← (Value.member ms "line" (.int 0)).lineNumber
  pure { file := Value.member ms "file" (.str ""), line := .int line }

def readReordered : Value → Except Fault (Option (List Entry))
  | .null => .ok none
  | v => (readEach Entry.ofValue v).map some

def Record.ofValue (v : Value) : Except Fault Record := do
  let ms ← v.members
  let place ← Place.ofValue (Value.memberOr ms "position" (.object []))
  let fields ← readEach Entry.ofValue (Value.memberOr ms "fields" (.list []))
  let reordered ← readReordered (Value.member ms "aligned_fields" .null)
  pure {
    name := Value.member ms "name" (.str "")
    place, fields, reordered
    size := Value.member ms "size" .null
    optimalSize := Value.member ms "optimal_size" .null
    ignored := .bool (Value.member ms "ignore" (.bool false)).isTruthy
    reason := Value.member ms "reason" .null }

def Package.ofValue (v : Value) : Except Fault Package := do
  let ms ← v.members
  let records ← readEach Record.ofValue (Value.memberOr ms "structs" (.list []))
  pure { path := Value.member ms "path" (.str ""), records }

def ofValue (v : Value) : Except Fault Report := do
  let ms ← v.members
  let packages ← readEach Package.ofValue (Value.memberOr ms "packages" (.list []))
  pure { packages }

end Report

end StructLayout
