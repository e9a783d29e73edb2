import StructLayout.Layout.RunInsertion
import StructLayout.Report.Placement

/-!
# Analysing structs of documents

A document may describe structs that have not been analysed, with entries whose names, sizes and
alignments are values of any kind.  They are analysed like structs with typed fields: the size is
computed, a smaller order of the entries is looked for, and a struct with a size that is null is left
unchecked.  A value of a kind that the arithmetic or the order cannot use is a fault.

The main statement is that entries made from fields are ordered as the fields are (`order_ofField`).
-/

namespace StructLayout

mutual

/-- Whether a value is greater than another one.  Numbers are compared with numbers, texts with texts
and lists with lists, element by element; other values have no order. -/
def Value.above : Value → Value → Except Fault Bool
  | .str s, .str t => .ok (t < s)
  | .list xs, .list ys => Value.elementsAbove xs ys
  | a, b => do
    match Number.ofValue a, Number.ofValue b with
    | .ok x, .ok y => pure (y.lt x)
    | _, _ => .error (.notOrdered a.kindName b.kindName)

/-- Whether a list is greater than another one. -/
def Value.elementsAbove : List Value → List Value → Except Fault Bool
  | [], _ => .ok false
  | _ :: _, [] => .ok true
  | x :: xs, y :: ys => if x.same y then Value.elementsAbove xs ys else Value.above x y

end

namespace Report

/-! ### Values with types -/

/-- The number of a value that is an integer or null. -/
def optionalInt? : Value → Option (Option Int)
  | .null => some none
  | .int n => some (some n)
  | _ => none

def integer? : Value → Option Int
  | .int n => some n
  | _ => none

def truth? : Value → Option Bool
  | .bool b => some b
  | _ => none

def text? : Value → Option String
  | .str s => some s
  | _ => none

/-! ### The order of entries -/

/-- A value, or zero if it counts as absent. -/
def orZero (v : Value) : Value := if v.isTruthy then v else .int 0

/-- The order of two values that may be absent, the greater one first. -/
def descending (a b : Value) : Except Fault Ordering :=
  let a := orZero a
  let b := orZero b
  if a.same b then .ok .eq else (a.above b).map fun above => if above then .lt else .gt

/-- Whether an entry takes up no space. -/
def Entry.isEmpty (e : Entry) : Bool := (orZero e.size).same (.int 0)

/-- The order of entries: greater alignment first, then greater size; an empty entry ties with one
that takes up space. -/
def Entry.order (a b : Entry) : Except Fault Ordering :=
  if a.isEmpty != b.isEmpty then .ok .eq
  else do
    match ← descending a.align b.align with
    | .eq => descending a.size b.size
    | o => pure o

/-- Whether an entry goes strictly before another one. -/
def Entry.precedes (a b : Entry) : Bool :=
  match a.order b with
  | .ok .lt => true
  | _ => false

def entriesSize (abi : Abi) (entries : List Entry) : Outcome Number :=
  (entryMap abi entries).map EntryMap.size

def atLeast (a b : Number) : Bool := b.lt a || a.toValue.same b.toValue

/-- Sorts as long as that makes the struct smaller than `size`, at most as often as the first
argument says. -/
def shrinkEntries (abi : Abi) : Nat → Number → List Entry → Outcome (List Entry)
  | 0, _, entries => .ok entries
  | steps + 1, size, entries => do
    let sorted := runInsertionSort Entry.precedes entries
    let next ← entriesSize abi sorted
    if atLeast next size then pure entries else shrinkEntries abi steps next sorted

def sortingLimit (entries : List Entry) : Nat := 100 + entries.length * entries.length

/-- The entries in an order with less padding, if sorting finds one. -/
def reorder (abi : Abi) (entries : List Entry) : Outcome (List Entry) := do
  let size ← entriesSize abi entries
  shrinkEntries abi (sortingLimit entries) size entries

/-! ### Layouts -/

/-- All bytes of padding of a layout, those at the end included. -/
def EntryMap.paddingBytes (m : EntryMap) : Except Fault Number := do
  let gaps ← m.slots.foldlM (fun (bytes : Number) slot => bytes.add slot.gap) (.whole 0)
  gaps.add m.trailing

def EntryMap.dataBytes (m : EntryMap) : Except Fault Number := do m.size.sub (← m.paddingBytes)

/-! ### Structs -/

/-- A struct as a document describes it, before its layout is analysed. -/
structure Subject where
  name : Value
  place : Place
  entries : List Entry
  ignored : Value
deriving Repr, Inhabited, DecidableEq

/-- The structs of one package of a document. -/
structure SubjectPackage where
  path : Value
  subjects : List Subject
deriving Repr, Inhabited, DecidableEq

/-- The size of a struct, the better order of its entries, and the size in that order. -/
def measure (abi : Abi) (entries : List Entry) : Outcome (Number × List Entry × Number) := do
  let size ← entriesSize abi entries
  let order ← reorder abi entries
  let best ← entriesSize abi order
  pure (size, order, best)

/-- The record of a struct of a document. -/
def Record.ofSubject (abi : Abi) (s : Subject) : Outcome Record :=
  let record : Record :=
    { name := s.name, place := s.place, fields := s.entries, reordered := none, size := .null,
      optimalSize := .null, ignored := s.ignored, reason := .null }
  match measure abi s.entries with
  | .ok (size, order, best) =>
    if atLeast best size then
      .ok { record with size := size.toValue, optimalSize := size.toValue }
    else
      .ok { record with
        size := size.toValue
        optimalSize := best.toValue
        reordered := some order }
  | .error (.error e) => .ok { record with reason := .str e.text }
  | .error (.fault fault) => .error (.fault fault)

/-- The report on a package of a document. -/
def Package.ofSubjects (abi : Abi) (p : SubjectPackage) : Outcome Package := do
  pure { path := p.path, records := ← p.subjects.mapM (Record.ofSubject abi) }

/-- Whether a value is at most another one, if the two have an order. -/
def atMost (a b : Value) : Bool :=
  match a.above b with
  | .ok above => !above
  | .error _ => false

def requireOrder : List Value → Except Fault Unit
  | [] => .ok ()
  | v :: rest => do
    rest.forM fun w => do let _ ← v.above w
    requireOrder rest

/-- Packages in the order of their paths, each two of which must have an order. -/
def sortByPath (packages : List Package) : Except Fault (List Package) := do
  let paths := packages.map (·.path)
  if (paths.mapM text?).isNone then requireOrder paths
  pure (packages.mergeSort fun a b => atMost a.path b.path)

/-- The report on packages of a document, sorted by path if `sorted` is set. -/
def ofSubjects (abi : Abi) (sorted : Bool) (packages : List SubjectPackage) : Outcome Report := do
  let found ← packages.mapM (Package.ofSubjects abi)
  pure { packages := ← if sorted then Outcome.ofFault (sortByPath found) else pure found }

/-! ### Entries with typed values -/

def Entry.toField? (e : Entry) : Option Field := do
  pure {
    name := ← text? e.name
    typeExpr := ← text? e.typeExpr
    size := ← optionalInt? e.size
    align := ← optionalInt? e.align
    tag := ← text? e.tag
    comment := ← text? e.comment }

/-- The struct that a document describes if its values have the types of a struct's. -/
def Subject.toStruct? (s : Subject) : Option StructDef := do
  pure {
    name := ← text? s.name
    position := { file := ← text? s.place.file, line := ← integer? s.place.line }
    fields := ← s.entries.mapM Entry.toField?
    ignored := ← truth? s.ignored }

/-- The package that a document describes if its values have the types of a package's. -/
def SubjectPackage.toPackage? (p : SubjectPackage) : Option PackageDef := do
  pure { path := ← text? p.path, structs := ← p.subjects.mapM Subject.toStruct? }

/-! ### Facts -/

theorem orZero_optionalInt (n : Option Int) : orZero (optionalInt n) = .int (n.getD 0) := by
  cases n with
  | none => rfl
  | some n => by_cases h : n = 0 <;> simp [optionalInt, orZero, Value.isTruthy, h]

theorem descending_optionalInt (m n : Option Int) :
    descending (optionalInt m) (optionalInt n) = .ok (compare (n.getD 0) (m.getD 0)) := by
  simp only [descending, orZero_optionalInt, Value.same_int, decide_eq_true_eq]
  split
  · next h => simp [h]
  · next h =>
    simp only [Value.above, Number.ofValue_int, pure, Except.pure, Except.map, Number.lt_whole,
      decide_eq_true_eq, Except.ok.injEq]
    split
    · next hl => exact (Int.compare_eq_lt.2 hl).symm
    · next hl => exact (Int.compare_eq_gt.2 (by omega)).symm

theorem isEmpty_ofField (f : Field) : (Entry.ofField f).isEmpty = f.isEmpty := by
  by_cases h : f.size.getD 0 = 0 <;>
    simp [Entry.isEmpty, Entry.ofField, orZero_optionalInt, Field.isEmpty, Field.bytes, h]

theorem order_ofField (a b : Field) :
    (Entry.ofField a).order (Entry.ofField b) = .ok (a.order b) := by
  unfold Entry.order Field.order
  rw [isEmpty_ofField, isEmpty_ofField]
  split
  · rfl
  · simp only [Entry.ofField, descending_optionalInt, bind, Except.bind, Field.alignment,
      Field.bytes]
    cases compare (b.align.getD 0) (a.align.getD 0) <;> rfl

end Report

end StructLayout
