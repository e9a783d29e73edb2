import StructLayout.Output.Listing
import StructLayout.Output.Page
import StructLayout.Proofs.Layout.ExactSlots

/-!
# Byte maps that show every byte in its place

The byte map of a struct is drawn field by field: the bytes that a field uses, then the padding behind
it, up to the next field or to the end of the struct.  The cells of all fields, one after the other,
are one cell for each byte of the struct (`Maps`), a used one exactly where a slot holds the byte.
This goes along the slots, since the padding behind a field is the gap in front of the next one.

Each field's cells are laid out in lines as wide as the greatest alignment, the first one going on from
the column where the field starts.  Whatever has been drawn before, a cell then stands in the column
that its byte has in a row of that width (`IsLaidOut`).  The main statement is `byteMap_isFaithful`.
-/

namespace StructLayout

/-- The slot's field holds a byte. -/
def Slot.Holds (s : Slot) (byte : Int) : Prop := s.offset ≤ byte ∧ byte < s.stop

instance (s : Slot) (byte : Int) : Decidable (s.Holds byte) :=
  inferInstanceAs (Decidable (_ ∧ _))

namespace Output

variable {start middle stop : Int} {slots more : List Slot} {cells others : List Cell} {s : Slot}

/-! ### Cells and bytes -/

/-- The cells are those of the bytes from one offset up to another: one for each of them, and a used
one where one of the slots holds the byte. -/
structure Maps (start stop : Int) (slots : List Slot) (cells : List Cell) : Prop where
  count : start + cells.length = stop
  used_iff : ∀ k (h : k < cells.length), cells[k] = .used ↔ ∃ s ∈ slots, s.Holds (start + k)
  isByte : ∀ cell ∈ cells, cell.isByte = true

namespace Maps

theorem append (h : Maps start middle slots cells) (h' : Maps middle stop more others)
    (hs : ∀ s ∈ slots, s.stop ≤ middle) (hm : ∀ s ∈ more, middle ≤ s.offset) :
    Maps start stop (slots ++ more) (cells ++ others) where
  count := by
    have := h.count
    have := h'.count
    rw [List.length_append]
    omega
  used_iff := fun k hk => by
    have hcount := h.count
    rcases Nat.lt_or_ge k cells.length with hlt | hge
    · -- no slot that follows holds the byte
      rw [List.getElem_append_left hlt, h.used_iff k hlt]
      refine ⟨fun ⟨s, hs, hb⟩ => ⟨s, List.mem_append_left _ hs, hb⟩, fun ⟨s, hmem, hb⟩ => ?_⟩
      rcases List.mem_append.1 hmem with hmem | hmem
      · exact ⟨s, hmem, hb⟩
      · have := hm s hmem
        have := hb.1
        omega
    · -- no slot that comes before holds the byte
      have hlt : k - cells.length < others.length := by
        rw [List.length_append] at hk
        omega
      have hbyte : middle + (k - cells.length : Nat) = start + k := by omega
      rw [List.getElem_append_right hge, h'.used_iff _ hlt, hbyte]
      refine ⟨fun ⟨s, hs, hb⟩ => ⟨s, List.mem_append_right _ hs, hb⟩, fun ⟨s, hmem, hb⟩ => ?_⟩
      rcases List.mem_append.1 hmem with hmem | hmem
      · have := hs s hmem
        have := hb.2
        omega
      · exact ⟨s, hmem, hb⟩
  isByte := fun cell hc => (List.mem_append.1 hc).elim (h.isByte cell) (h'.isByte cell)

end Maps

theorem maps_fieldCells (s : Slot) {behind : Int} {kind : Cell} (hs : 0 ≤ s.field.bytes)
    (hd : s.field.bytes ≤ drawnBytes) (hb : 0 ≤ behind) (hk : kind.isByte = true)
    (hu : kind ≠ .used) :
    Maps s.offset (s.stop + behind) [s] (fieldCells s.field.bytes behind kind) := by
  have hcells : fieldCells s.field.bytes behind kind =
      List.replicate s.field.bytes.toNat .used ++ List.replicate behind.toNat kind := by
    have hn : ¬ s.field.bytes > drawnBytes := by omega
    simp [fieldCells, hn]
  rw [hcells]
  refine ⟨?_, fun k hk => ?_, fun cell hc => ?_⟩
  · simp only [List.length_append, List.length_replicate, Slot.stop]
    omega
  · simp only [List.mem_singleton, exists_eq_left, Slot.Holds, Slot.stop]
    rcases Nat.lt_or_ge k s.field.bytes.toNat with hlt | hge
    · rw [List.getElem_append_left (by simpa using hlt), List.getElem_replicate]
      simp only [true_iff]
      omega
    · rw [List.getElem_append_right (by simpa using hge), List.getElem_replicate]
      simp only [hu, false_iff]
      omega
  · rcases List.mem_append.1 hc with hc | hc
    · rw [List.eq_of_mem_replicate hc]
      rfl
    · rw [List.eq_of_mem_replicate hc]
      exact hk

/-! ### The cells of a layout -/

/-- The cells of all parts of a byte map, one after the other. -/
def cellsOf (parts : List (Slot × List Cell)) : List Cell := parts.flatMap Prod.snd

/-- The padding behind a slot is the gap in front of the next one. -/
theorem slotCells_cons (s t : Slot) (rest : List Slot) (size trailing : Int) :
    slotCells { slots := s :: t :: rest, size, trailing } =
      (s, fieldCells s.field.bytes t.gap .gap) ::
        slotCells { slots := t :: rest, size, trailing } :=
  rfl

/-- The padding behind the last slot is the one at the end. -/
theorem slotCells_singleton (s : Slot) (size trailing : Int) :
    slotCells { slots := [s], size, trailing } =
      [(s, fieldCells s.field.bytes trailing .tail)] :=
  rfl

theorem map_fst_slotCells (m : LayoutMap) : (slotCells m).map Prod.fst = m.slots := by
  obtain ⟨slots, size, trailing⟩ := m
  induction slots with
  | nil => rfl
  | cons s rest ih =>
    cases rest with
    | nil => rfl
    | cons t rest => rw [slotCells_cons, List.map_cons, ih]

section Fields

variable {f : Field} {rest : List Field} {offset size trailing : Int}

theorem first_le_offset (hb : ∀ g ∈ f :: rest, 0 ≤ g.bytes) (hs : s ∈ slotsFrom offset (f :: rest)) :
    offset + f.gapAfter offset ≤ s.offset := by
  obtain ⟨hf, hrest⟩ := List.forall_mem_cons.1 hb
  rcases List.mem_cons.1 hs with rfl | hs
  · exact Int.le_refl _
  · have := le_offset_of_mem hrest hs
    omega

/-- The cells of the first of several fields reach up to the slot of the next one. -/
theorem maps_firstCells (offset : Int) (g : Field) (hf : 0 ≤ f.bytes) (hd : f.bytes ≤ drawnBytes) :
    Maps (offset + f.gapAfter offset)
      (offset + f.gapAfter offset + f.bytes + g.gapAfter (offset + f.gapAfter offset + f.bytes))
      [{ field := f, offset := offset + f.gapAfter offset, gap := f.gapAfter offset }]
      (fieldCells f.bytes (g.gapAfter (offset + f.gapAfter offset + f.bytes)) .gap) :=
  maps_fieldCells { field := f, offset := offset + f.gapAfter offset, gap := f.gapAfter offset } hf hd
    (g.gapAfter_nonneg _) rfl (by decide)

/-- The cells of all fields are those of the bytes from the first field on. -/
theorem maps_slotCells (offset size : Int) (ht : 0 ≤ trailing)
    (hb : ∀ g ∈ f :: rest, 0 ≤ g.bytes ∧ g.bytes ≤ drawnBytes) :
    Maps (offset + f.gapAfter offset) (endFrom offset (f :: rest) + trailing)
      (slotsFrom offset (f :: rest))
      (cellsOf (slotCells { slots := slotsFrom offset (f :: rest), size, trailing })) := by
  induction rest generalizing f offset with
  | nil =>
    obtain ⟨hf, hd⟩ := hb f (List.mem_singleton.2 rfl)
    simp only [slotsFrom, slotCells_singleton, cellsOf, List.flatMap_cons, List.flatMap_nil,
      List.append_nil]
    exact maps_fieldCells { field := f, offset := _, gap := _ } hf hd ht rfl (by decide)
  | cons g rest ih =>
    obtain ⟨⟨hf, hd⟩, hrest⟩ := List.forall_mem_cons.1 hb
    have hg := g.gapAfter_nonneg (offset + f.gapAfter offset + f.bytes)
    refine (maps_firstCells offset g hf hd).append (ih _ hrest) (fun s hs => ?_) fun s hs => ?_
    · rw [List.mem_singleton.1 hs]
      exact Int.le_add_of_nonneg_right hg
    · exact first_le_offset (fun g hg => (hrest g hg).1) hs

/-- Each part starts with the cell of the byte at which its slot starts. -/
theorem offset_slotCells {before after : List (Slot × List Cell)}
    (hb : ∀ g ∈ f :: rest, 0 ≤ g.bytes ∧ g.bytes ≤ drawnBytes)
    (h : slotCells { slots := slotsFrom offset (f :: rest), size, trailing } =
      before ++ (s, cells) :: after) :
    s.offset = offset + f.gapAfter offset + (cellsOf before).length := by
  induction rest generalizing f offset before with
  | nil =>
    simp only [slotsFrom, slotCells_singleton] at h
    obtain ⟨rfl, h⟩ | ⟨before, rfl, h⟩ := List.cons_eq_append_iff.1 h
    · cases h
      simp [cellsOf]
    · simp at h
  | cons g rest ih =>
    obtain ⟨⟨hf, hd⟩, hrest⟩ := List.forall_mem_cons.1 hb
    rw [slotsFrom, slotsFrom, slotCells_cons, List.cons_eq_append_iff] at h
    obtain ⟨rfl, h⟩ | ⟨before, rfl, h⟩ := h
    · cases h
      simp [cellsOf]
    · have hnext := ih hrest h
      have hown := (maps_firstCells offset g hf hd).count
      simp only [cellsOf, List.flatMap_cons, List.length_append] at hnext ⊢
      omega

end Fields

theorem padding_zero (align : Int) : padding 0 align = 0 := by
  simp [padding]

theorem gapAfter_zero (f : Field) : f.gapAfter 0 = 0 := by
  simp [Field.gapAfter, padding_zero]

/-! ### Lines -/

/-- The column at which a line starts: the first one goes on from a column. -/
def lineStart (column : Nat) (above : List (List Cell)) : Nat := if above.isEmpty then column else 0

@[simp] theorem lineStart_zero (above : List (List Cell)) : lineStart 0 above = 0 := ite_self 0

/-- Every line but the last is full, the first one from a column on. -/
def Fills (width : Nat) : Nat → List (List Cell) → Prop
  | _, [] => False
  | column, [line] => column + line.length ≤ width
  | column, line :: lines => column + line.length = width ∧ Fills width 0 lines

/-- Cells laid out in lines, where the first cell is that of some byte: no cell is lost or repeated,
no line is longer than the width, and each cell stands in the column of its byte. -/
structure IsLaidOut (width first : Nat) (cells : List Cell) (lines : List (List Cell)) : Prop where
  flatten_eq : lines.flatten = cells
  length_le : ∀ above line below, lines = above ++ line :: below →
    lineStart (first % width) above + line.length ≤ width
  column_eq : ∀ above line below i, lines = above ++ line :: below → i < line.length →
    lineStart (first % width) above + i = (first + above.flatten.length + i) % width

namespace Fills

variable {width column : Nat} {lines above below : List (List Cell)} {line : List Cell} {cell : Cell}

theorem consHead (h : Fills width (column + 1) lines) :
    Fills width column (Text.consHead cell lines) := by
  match lines, h with
  | [line], h =>
    simp only [Fills, Text.consHead, List.length_cons] at h ⊢
    omega
  | line :: next :: lines, ⟨hl, hn⟩ =>
    refine ⟨?_, hn⟩
    simp only [List.length_cons]
    omega

theorem cons_nil (h : Fills width 0 lines) : Fills width width ([] :: lines) := by
  match lines, h with
  | line :: lines, h => exact ⟨rfl, h⟩

/-- No line is longer than the width, and a line starts in the column where the ones above it end. -/
theorem start_length (h : Fills width column (above ++ line :: below)) :
    lineStart column above + line.length ≤ width ∧
      lineStart column above % width = (column + above.flatten.length) % width := by
  induction above generalizing column with
  | nil =>
    refine ⟨?_, rfl⟩
    cases below with
    | nil => exact h
    | cons next below => exact Nat.le_of_eq h.1
  | cons head above ih =>
    obtain ⟨hhead, hrest⟩ : column + head.length = width ∧ Fills width 0 (above ++ line :: below) := by
      cases above <;> exact h
    obtain ⟨hline, hstart⟩ := ih hrest
    rw [lineStart_zero] at hline hstart
    refine ⟨hline, ?_⟩
    rw [List.flatten_cons, List.length_append, ← Nat.add_assoc, hhead, Nat.add_mod_left,
      ← Nat.zero_add above.flatten.length, ← hstart]
    rfl

end Fills

/-- Rows are full but for the last one. -/
theorem fills_rows {width column : Nat} {cells : List Cell} (hw : 0 < width) (hc : column ≤ width)
    (hb : ∀ cell ∈ cells, cell.isByte = true) : Fills width column (rows width column cells) := by
  induction cells generalizing column with
  | nil => exact hc
  | cons cell rest ih =>
    obtain ⟨hcell, hrest⟩ := List.forall_mem_cons.1 hb
    rw [rows, if_pos hcell]
    split
    · next he =>
      rw [he]
      exact (ih hw hrest).consHead.cons_nil
    · exact (ih (by omega) hrest).consHead

theorem isLaidOut_rows {width : Nat} (first : Nat) {cells : List Cell} (hw : 0 < width)
    (hb : ∀ cell ∈ cells, cell.isByte = true) :
    IsLaidOut width first cells (rows width (first % width) cells) := by
  have hfills := fills_rows hw (Nat.le_of_lt (Nat.mod_lt first hw)) hb
  refine ⟨flatten_rows _ _ _, fun above line below h => ?_, fun above line below i h hi => ?_⟩
  · rw [h] at hfills
    exact hfills.start_length.1
  · rw [h] at hfills
    obtain ⟨hline, hstart⟩ := hfills.start_length
    calc lineStart (first % width) above + i
        = (lineStart (first % width) above + i) % width := (Nat.mod_eq_of_lt (by omega)).symm
      _ = ((first % width + above.flatten.length) % width + i) % width := by
          rw [← hstart, Nat.mod_add_mod]
      _ = (first + above.flatten.length + i) % width := by
          rw [Nat.mod_add_mod, Nat.add_assoc, Nat.mod_add_mod, ← Nat.add_assoc]

section Layout

variable {fields : List Field}

theorem maps_layoutMap (abi : Abi) (hb : ∀ f ∈ fields, 0 ≤ f.bytes ∧ f.bytes ≤ drawnBytes) :
    Maps 0 (structSize abi fields) (slotsFrom 0 fields)
      (cellsOf (slotCells (layoutMap abi fields))) := by
  cases fields with
  | nil =>
    have hsize : structSize abi [] = 0 := by simp [structSize, endFrom, padding_zero]
    exact ⟨hsize.symm, fun k hk => absurd hk (Nat.not_lt_zero k),
      fun _ hc => absurd hc List.not_mem_nil⟩
  | cons f rest =>
    have h := maps_slotCells 0 (layoutMap abi (f :: rest)).size
      (padding_nonneg (endFrom 0 (f :: rest)) (effectiveAlignment abi (f :: rest))) hb
    rw [gapAfter_zero, endFrom_eq] at h
    rw [structSize, endFrom_eq]
    exact h

/-- The cells of a part start at the byte where its slot starts. -/
theorem offset_layoutMap {abi : Abi} {before after : List (Slot × List Cell)}
    (hb : ∀ f ∈ fields, 0 ≤ f.bytes ∧ f.bytes ≤ drawnBytes)
    (h : slotCells (layoutMap abi fields) = before ++ (s, cells) :: after) :
    s.offset = (cellsOf before).length := by
  cases fields with
  | nil => simp [layoutMap, slotsFrom, slotCells] at h
  | cons f rest =>
    have := offset_slotCells hb h
    rwa [gapAfter_zero, Int.add_zero, Int.zero_add] at this

end Layout

/-- The parts of a byte map show the bytes of a struct: one part for each slot in order, as many cells
in all as the struct has bytes, a used one exactly for each byte inside a slot, and the cells of each
part laid out by their bytes in lines as wide as the greatest alignment. -/
structure IsFaithful (abi : Abi) (fields : List Field) (parts : List (Slot × List Cell)) : Prop where
  slots_eq : parts.map Prod.fst = slotsFrom 0 fields
  size_eq : layoutSize abi fields = .ok (cellsOf parts).length
  used_iff : ∀ k (h : k < (cellsOf parts).length),
    (cellsOf parts)[k] = .used ↔ ∃ s ∈ slotsFrom 0 fields, s.Holds k
  isLaidOut : ∀ before s cells after, parts = before ++ (s, cells) :: after →
    IsLaidOut abi.maxAlign.toNat (cellsOf before).length cells
      (rows abi.maxAlign.toNat (startColumn abi s) cells)

theorem isFaithful_slotCells (abi : Abi) {fields : List Field}
    (h : ∀ f ∈ fields, f.isSized = true ∧ 0 ≤ f.bytes ∧ f.bytes ≤ drawnBytes) :
    IsFaithful abi fields (slotCells (layoutMap abi fields)) := by
  have hb : ∀ f ∈ fields, 0 ≤ f.bytes ∧ f.bytes ≤ drawnBytes := fun f hf => (h f hf).2
  have hmaps := maps_layoutMap abi hb
  refine ⟨map_fst_slotCells _, ?_, fun k hk => ?_, fun before s cells after hparts => ?_⟩
  · rw [layoutSize_of_isSized abi fun f hf => (h f hf).1, ← hmaps.count, Int.zero_add]
  · rw [hmaps.used_iff k hk, Int.zero_add]
  · have hw := abi.maxAlign_pos
    have hcolumn : startColumn abi s = (cellsOf before).length % abi.maxAlign.toNat := by
      have hcast : (abi.maxAlign.toNat : Int) = abi.maxAlign := Int.toNat_of_nonneg (by omega)
      rw [startColumn, offset_layoutMap hb hparts, ← hcast, ← Int.natCast_emod, Int.toNat_natCast,
        Int.toNat_natCast]
    rw [hcolumn]
    refine isLaidOut_rows _ (by omega) fun cell hc => hmaps.isByte cell ?_
    rw [hparts]
    exact List.mem_flatMap.2 ⟨(s, cells), by simp, hc⟩

/-! ### Printing -/

def shownType (typeExpr : String) : String :=
  if typeExpr.length ≤ shownTypeLength then typeExpr
  else String.ofList (typeExpr.toList.take (shownTypeLength - 1)) ++ "…"

/-- The widths that the fields of a struct need. -/
def Columns.ofFields (fields : List Field) : Columns where
  name := greatest (fields.map fun f => f.name.length)
  typeExpr := greatest (fields.map fun f => (shownType f.typeExpr).length)
  tag := greatest (fields.map fun f => (tagText (.ofField f)).length)

/-- The number of characters in front of a byte map. -/
def Columns.labelWidth (columns : Columns) : Nat :=
  2 + columns.name + 1 + columns.typeExpr + if columns.tag = 0 then 0 else 1 + columns.tag

def fieldLabel (printer : Printer) (columns : Columns) (f : Field) : String :=
  "  " ++ printer.escape (padRight columns.name f.name) ++ " " ++
    ("[bold]" ++ printer.escape (padRight columns.typeExpr (shownType f.typeExpr)) ++ "[/bold]") ++
    if columns.tag = 0 then ""
    else " [yellow]" ++ printer.escape (padRight columns.tag (tagText (.ofField f))) ++ "[/yellow]"

/-- A line of cells as it is drawn below other ones: behind the label, or behind as many blanks, two
characters for each column in front of its cells and for each of them. -/
def lineText (label : String) (labelWidth column : Nat) (above : List (List Cell))
    (line : List Cell) : String :=
  trimRight ((if above.isEmpty then label else blanks labelWidth) ++ "  " ++
    blanks (2 * lineStart column above) ++ String.join (line.map cellText))

def drawnLines (label : String) (labelWidth column : Nat) (lines : List (List Cell)) : List String :=
  lines.zipIdx.map fun p => lineText label labelWidth column (lines.take p.2) p.1

def mapLines (printer : Printer) (abi : Abi) (fields : List Field)
    (parts : List (Slot × List Cell)) : List String :=
  let columns := Columns.ofFields fields
  parts.flatMap fun p =>
    drawnLines (fieldLabel printer columns p.1.field) columns.labelWidth (startColumn abi p.1)
      (rows abi.maxAlign.toNat (startColumn abi p.1) p.2)

/-- A layout whose byte map can be drawn: no field, no padding and no first column is too long. -/
structure IsDrawable (most : Nat) (abi : Abi) (m : LayoutMap) : Prop where
  bytes_le : ∀ s ∈ m.slots, s.field.bytes.natAbs ≤ min (most : Int) greatestCount
  padding_le : ∀ p ∈ paddingBehind m, p.1.natAbs ≤ min (most : Int) greatestCount
  column_le : ∀ s ∈ m.slots, startColumn abi s ≤ min (most : Int) greatestCount

open Report

theorem mappedLines_eq (label : String) (labelWidth column width : Nat) (cells : List Cell) :
    mappedLines label labelWidth column width cells =
      drawnLines label labelWidth column (rows width column cells) := by
  unfold mappedLines
  cases rows width column cells with
  | nil => rfl
  | cons first rest =>
    have hnext : ∀ p ∈ rest.zipIdx 1, lineText label labelWidth column ((first :: rest).take p.2) p.1 =
        trimRight (blanks labelWidth ++ "  " ++ String.join (p.1.map cellText)) := by
      intro p hp
      have hn : ((first :: rest).take p.2).isEmpty = false := by
        have := List.le_snd_of_mem_zipIdx hp
        cases hk : p.2 with
        | zero => omega
        | succ k => rfl
      simp [lineText, lineStart, hn, blanks]
    have htail : (rest.zipIdx 1).map Prod.fst = rest := List.zipIdx_map_fst 1 rest
    rw [drawnLines, List.zipIdx_cons, List.map_cons, Nat.zero_add, List.map_congr_left hnext]
    dsimp only
    conv_lhs => rw [← htail, List.map_map]
    rfl

theorem shortenType_str (typeExpr : String) :
    shortenType (.str typeExpr) = .ok (.str (shownType typeExpr)) := by
  by_cases h : typeExpr.length ≤ shownTypeLength <;>
    simp [shortenType, shownType, lengthOf, requireText, h, bind, Except.bind, pure, Except.pure]

theorem columns_ofField (fields : List Field) :
    Columns.ofEntries (fields.map Entry.ofField) = .ok (Columns.ofFields fields) := by
  have hnames : (fields.map Entry.ofField).mapM (fun e => lengthOf e.name) =
      .ok (fields.map fun f => f.name.length) := by
    rw [List.mapM_map]
    exact Outcome.mapM_eq_ok fun f _ => rfl
  have htypes : ((fields.map Entry.ofField).mapM fun e => do lengthOf (← shortenType e.typeExpr)) =
      .ok (fields.map fun f => (shownType f.typeExpr).length) := by
    rw [List.mapM_map]
    refine Outcome.mapM_eq_ok fun f _ => ?_
    simp [Entry.ofField, shortenType_str, lengthOf, bind, Except.bind]
  simp only [Columns.ofEntries, hnames, htypes]
  simp [Columns.ofFields, Function.comp_def, bind, Except.bind, pure, Except.pure]

variable {printer : Printer} {most : Nat}

theorem mapLabel_ofField (columns : Columns) (f : Field) :
    mapLabel printer columns (.ofField f) = .ok (fieldLabel printer columns f) := by
  simp [mapLabel, nameCell, paddedType, Entry.ofField, shortenType_str, requirePaddable, fieldLabel,
    bind, Except.bind, pure, Except.pure]

theorem mappedField_ofSlot {abi : Abi} {columns : Columns} {behind : Int × Cell}
    (hs : s.field.isSized = true) (hn : s.field.bytes.natAbs ≤ min (most : Int) greatestCount)
    (hb : behind.1.natAbs ≤ min (most : Int) greatestCount)
    (hc : startColumn abi s ≤ min (most : Int) greatestCount) :
    mappedField printer most abi columns (.ofSlot s) (behind.map Number.whole id) =
      (drawnLines (fieldLabel printer columns s.field) columns.labelWidth (startColumn abi s)
        (rows abi.maxAlign.toNat (startColumn abi s)
          (fieldCells s.field.bytes behind.1 behind.2))).flatMap printLine := by
  have hcells : entryCells most (.ofSlot s) (behind.map Number.whole id) =
      .ok (fieldCells s.field.bytes behind.1 behind.2) := by
    simp only [entryCells, EntrySlot.ofSlot, bytes_ofField hs, bind, Except.bind]
    exact drawnCells_whole behind.2 hn hb
  have hcolumn : entryColumn most abi (.ofSlot s) = .ok (startColumn abi s) := by
    have hmod := Int.emod_nonneg s.offset (Int.ne_of_gt abi.maxAlign_pos)
    simp only [entryColumn, EntrySlot.ofSlot, Number.mod_whole, bind, Except.bind]
    refine repetitions_whole ?_
    simp only [startColumn] at hc
    omega
  have hlabel : mapLabel printer columns (EntrySlot.ofSlot s).entry =
      .ok (fieldLabel printer columns s.field) :=
    mapLabel_ofField columns s.field
  simp only [mappedField, hlabel, hcells, hcolumn, ← mappedLines_eq]
  rfl

theorem entryPaddingBehind_ofLayout (m : LayoutMap) :
    entryPaddingBehind (.ofLayout m) = (paddingBehind m).map (Prod.map Number.whole id) := by
  simp [entryPaddingBehind, paddingBehind, EntryMap.ofLayout, EntrySlot.ofSlot, ← List.map_drop,
    Function.comp_def]

theorem detailedFields_eq {abi : Abi} {fields : List Field}
    (h : ∀ f ∈ fields, f.isSized = true) (hm : IsDrawable most abi (layoutMap abi fields)) :
    detailedFields printer most abi (fields.map Entry.ofField) =
      (mapLines printer abi fields (slotCells (layoutMap abi fields))).flatMap printLine := by
  have hmap := entryMap_ofField abi h
  simp only [detailedFields, hmap, columns_ofField, Listing.attempt, Outcome.ofFault_ok,
    entryPaddingBehind_ofLayout]
  rw [EntryMap.ofLayout, List.zip_map, List.flatMap_map, mapLines, List.flatMap_assoc, slotCells,
    ← List.map_uncurry_zip_eq_zipWith, List.flatMap_map]
  refine List.flatMap_congr fun p hp => ?_
  obtain ⟨hslot, hbehind⟩ := List.of_mem_zip hp
  have hfield : p.1.field ∈ fields := by
    rw [← slotsFrom_fields 0 fields]
    exact List.mem_map_of_mem hslot
  exact mappedField_ofSlot (h _ hfield) (hm.bytes_le _ hslot) (hm.padding_le _ hbehind)
    (hm.column_le _ hslot)

/-- Fields of all kinds, the last one longer than two rows. -/
def spanningFields : List Field := oddFields ++
  [{ name := "b", typeExpr := "[20]byte", size := some 20, align := some 1, tag := "", comment := "" }]

example : (slotCells (layoutMap .amd64 spanningFields)).map
      (fun p => (p.1.field.name, startColumn .amd64 p.1, (rows 8 (startColumn .amd64 p.1) p.2).map
        fun line => line.count .used)) =
    [("a", 0, [1]), ("w", 0, [8]), ("e", 0, [0]), ("n", 0, [3]), ("z", 3, [2]), ("h", 6, [2]),
      ("b", 0, [8, 8, 4])] := by decide

end Output

end StructLayout
