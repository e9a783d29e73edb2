import StructLayout.Report.Placement
import StructLayout.Text.Lines

/-!
# Byte maps

The bytes of a struct are drawn in rows as wide as the platform's greatest alignment.  Every field
draws the bytes it uses and the padding behind it, up to the next field or to the end of the struct;
a long field is drawn up to a limit and the rest of it is told in a note.  A report that someone else
has written may ask for more bytes than can be drawn, or for a fraction of a byte; both are faults.

The main statements say that laying cells out in rows loses none and keeps their order
(`flatten_rows`) and that the entry of a field is drawn as the field is (`drawnCells_whole`).
-/

namespace StructLayout.Output

/-- What is drawn for a field: a byte in use, a byte of padding, a byte of padding at the end, or a
note about bytes that are not drawn. -/
inductive Cell where
  | used
  | gap
  | tail
  | more (bytes : Number)
deriving DecidableEq, Repr, Inhabited

def Cell.isByte : Cell → Bool
  | .more _ => false
  | _ => true

/-- The number of bytes up to which a field is drawn byte by byte. -/
def drawnBytes : Int := 64

def fieldCells (size paddingAfter : Int) (kind : Cell) : List Cell :=
  let behind := List.replicate paddingAfter.toNat kind
  if size > drawnBytes then
    List.replicate drawnBytes.toNat .used ++ .more (.whole (size - drawnBytes)) :: behind
  else List.replicate size.toNat .used ++ behind

/-- Lays cells out in rows of a width, the first row continuing from a column.  A note takes no
column. -/
def rows (width : Nat) : Nat → List Cell → List (List Cell)
  | _, [] => [[]]
  | column, cell :: rest =>
    if cell.isByte then
      -- a row that is full ends when a byte follows, so that notes stay on it
      if column = width then [] :: Text.consHead cell (rows width 1 rest)
      else Text.consHead cell (rows width (column + 1) rest)
    else Text.consHead cell (rows width column rest)

def paddingBehind (m : LayoutMap) : List (Int × Cell) :=
  (m.slots.drop 1).map (fun s => (s.gap, .gap)) ++ [(m.trailing, .tail)]

def slotCells (m : LayoutMap) : List (Slot × List Cell) :=
  m.slots.zipWith (fun s p => (s, fieldCells s.field.bytes p.1 p.2)) (paddingBehind m)

def startColumn (abi : Abi) (s : Slot) : Nat := (s.offset % abi.maxAlign).toNat

/-! ### Entries of a report -/

/-- The greatest number of times that something can be repeated. -/
def greatestCount : Int := 9223372036854775807

/-- A number of repetitions, of which there is memory for some; a negative number counts as none. -/
def repetitions (most : Nat) : Number → Except Fault Nat
  | .double _ => .error (.notNumeric "float")
  | .whole n =>
    if greatestCount < n || n < -greatestCount - 1 then .error .tooManyCells
    else if most < n then .error .outOfMemory
    else .ok n.toNat

def drawnCells (most : Nat) (size behind : Number) (kind : Cell) : Except Fault (List Cell) := do
  if (Number.whole drawnBytes).lt size then
    let rest ← size.sub (.whole drawnBytes)
    let after ← repetitions most behind
    pure (List.replicate drawnBytes.toNat .used ++ .more rest :: List.replicate after kind)
  else
    let own ← repetitions most size
    let after ← repetitions most behind
    pure (List.replicate own .used ++ List.replicate after kind)

def entryPaddingBehind (m : Report.EntryMap) : List (Number × Cell) :=
  (m.slots.drop 1).map (fun s => (s.gap, .gap)) ++ [(m.trailing, .tail)]

def entryCells (most : Nat) (s : Report.EntrySlot) (behind : Number × Cell) :
    Except Fault (List Cell) := do
  drawnCells most (← s.entry.bytes) behind.1 behind.2

def entryColumn (most : Nat) (abi : Abi) (s : Report.EntrySlot) : Except Fault Nat := do
  repetitions most (← s.offset.mod (.whole abi.maxAlign))

/-! ### Rows -/

/-- Rows hold all the cells, in order. -/
theorem flatten_rows (width column : Nat) (cells : List Cell) :
    (rows width column cells).flatten = cells := by
  induction cells generalizing column with
  | nil => rfl
  | cons cell rest ih =>
    unfold rows
    split
    · split
      · simp [ih]
      · simp [ih]
    · simp [ih]

/-! ### Entries of fields -/

theorem repetitions_whole {most : Nat} {n : Int} (h : n.natAbs ≤ min (most : Int) greatestCount) :
    repetitions most (.whole n) = .ok n.toNat := by
  have h1 : ¬ (greatestCount < n) := by omega
  have h2 : ¬ (n < -greatestCount - 1) := by omega
  have h3 : ¬ ((most : Int) < n) := by omega
  simp [repetitions, h1, h2, h3]

/-- The entry of a field is drawn as the field is, as long as there is memory for it. -/
theorem drawnCells_whole {most : Nat} {size behind : Int} (kind : Cell)
    (hs : size.natAbs ≤ min (most : Int) greatestCount)
    (hb : behind.natAbs ≤ min (most : Int) greatestCount) :
    drawnCells most (.whole size) (.whole behind) kind = .ok (fieldCells size behind kind) := by
  by_cases h : size > drawnBytes
  · simp [drawnCells, fieldCells, h, repetitions_whole hb, bind, Except.bind, pure, Except.pure]
  · simp [drawnCells, fieldCells, h, repetitions_whole hs, repetitions_whole hb, bind, Except.bind,
      pure, Except.pure]

end StructLayout.Output
