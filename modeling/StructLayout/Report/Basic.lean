import StructLayout.Layout.Finding
import StructLayout.Value.Number

/-!
# Reports as documents

A report is what an analysis hands on: to the output formats, and as a document to other programs.
Reports also come in as documents that someone else has written, so the entries of a report hold
document values: a name or a size is whatever the document says it is, and only what an operation
needs is checked.  The main statement says that the three facts about a record that an analysis has
just produced are those of its verdict (`checked_ofFinding`, `canBeOptimized_ofFinding`).
-/

namespace StructLayout

namespace Report

/-- A field as a report shows it. -/
structure Entry where
  name : Value
  typeExpr : Value
  tag : Value
  comment : Value
  size : Value
  align : Value
deriving Repr, Inhabited, DecidableEq

/-- A place in a source as a report shows it. -/
structure Place where
  file : Value
  line : Value
deriving Repr, Inhabited, DecidableEq

/-- A struct as a report shows it. -/
structure Record where
  name : Value
  place : Place
  fields : List Entry
  reordered : Option (List Entry)
  size : Value
  optimalSize : Value
  ignored : Value
  reason : Value
deriving Repr, Inhabited, DecidableEq

/-- A package as a report shows it. -/
structure Package where
  path : Value
  records : List Record
deriving Repr, Inhabited, DecidableEq

end Report

/-- A report on the structs of some packages. -/
structure Report where
  packages : List Report.Package
deriving Repr, Inhabited, DecidableEq

namespace Report

/-- A number that may be absent. -/
def optionalInt : Option Int → Value
  | some n => .int n
  | none => .null

/-- A text that may be absent. -/
def optionalText : Option String → Value
  | some s => .str s
  | none => .null

def Place.text (p : Place) : String := p.file.display ++ ":" ++ p.line.display

def Entry.ofField (f : Field) : Entry where
  name := .str f.name
  typeExpr := .str f.typeExpr
  tag := .str f.tag
  comment := .str f.comment
  size := optionalInt f.size
  align := optionalInt f.align

def Record.ofFinding (f : Finding) : Record where
  name := .str f.subject.name
  place := { file := .str f.subject.position.file, line := .int f.subject.position.line }
  fields := f.subject.fields.map Entry.ofField
  reordered := f.verdict.order?.map (·.map Entry.ofField)
  size := optionalInt f.verdict.size?
  optimalSize := optionalInt f.verdict.optimalSize?
  ignored := .bool f.subject.ignored
  reason := optionalText f.verdict.reason?

namespace Record

/-- Whether the layout of the struct could be computed. -/
def isChecked (r : Record) : Bool := r.size != .null && r.optimalSize != .null

/-- Whether reordering changes the size of the struct. -/
def canBeOptimized (r : Record) : Bool := r.isChecked && !r.size.same r.optimalSize

/-- Whether the struct never counts as a problem. -/
def isExempt (r : Record) : Bool := r.ignored.isTruthy

/-- Whether the struct can be improved and is not exempt. -/
def hasProblems (r : Record) : Bool := !r.isExempt && r.canBeOptimized

def isNamed (name : Value) (r : Record) : Bool := r.name.same name

/-- The bytes that reordering saves, none for a struct that was not checked. -/
def wastedBytes (r : Record) : Except Fault Value :=
  if r.isChecked then do
    let size ← Number.ofValue r.size
    let optimal ← Number.ofValue r.optimalSize
    pure (← size.sub optimal).toValue
  else .ok (.int 0)

end Record

namespace Package

def isEmpty (p : Package) : Bool := p.records.isEmpty

/-- Whether some struct of the package can be improved and is not exempt. -/
def hasProblems (p : Package) : Bool := p.records.any Record.hasProblems

end Package

def isEmpty (r : Report) : Bool := r.packages.all Package.isEmpty

def nonEmpty (r : Report) : List Package := r.packages.filter fun p => !p.isEmpty

def records (r : Report) : List (Package × Record) :=
  r.packages.flatMap fun p => p.records.map fun s => (p, s)

/-- Whether some struct can be improved and is not exempt. -/
def hasProblems (r : Report) : Bool := r.packages.any Package.hasProblems

/-! ### Records of findings -/

theorem checked_ofFinding (f : Finding) :
    (Record.ofFinding f).isChecked = f.verdict.isChecked := by
  cases f with
  | mk subject verdict => cases verdict <;> rfl

theorem canBeOptimized_ofFinding (f : Finding) :
    (Record.ofFinding f).canBeOptimized = f.verdict.canBeOptimized := by
  cases f with
  | mk subject verdict =>
    cases verdict with
    | unchecked reason => rfl
    | settled size =>
      simp [Record.canBeOptimized, Record.isChecked, Record.ofFinding, Verdict.canBeOptimized,
        Verdict.size?, Verdict.optimalSize?, optionalInt]
    | improvable size best order =>
      have hs : (Value.int size != Value.null) = true := rfl
      have hb : (Value.int best != Value.null) = true := rfl
      by_cases h : size = best <;> simp [hs, hb, h, Record.canBeOptimized, Record.isChecked, Record.ofFinding, Verdict.canBeOptimized,
        Verdict.isChecked, Verdict.size?, Verdict.optimalSize?, optionalInt]

end Report

end StructLayout
