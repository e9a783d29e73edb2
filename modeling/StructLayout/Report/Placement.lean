import StructLayout.Layout.Placement
import StructLayout.Report.Basic

/-!
# Placing the entries of a report

The fields of a report that someone else has written are placed by the rules for fields of a struct,
with the numbers that the document gives.  Sizes and alignments may be numbers of any kind; an
alignment that counts as absent is none, and anything else that is no number is a fault.  A size that
is null makes the layout indeterminate.  The first entry that cannot be placed decides.

The main statement says that entries made from sized fields are placed where the fields are
(`entryMap_ofField`).
-/

namespace StructLayout

/-- The bytes needed to advance an offset to a multiple of an alignment; none for an alignment that
is not positive. -/
def Number.padding (offset align : Number) : Except Fault Number :=
  if align.isNonPositive then .ok (.whole 0)
  else do
    let past ← offset.mod align
    let missing ← align.sub past
    missing.mod align

namespace Report

/-- The complaint about an entry of unknown size. -/
def Entry.unsized (e : Entry) : Indeterminate :=
  { typeExpr := e.typeExpr.display, reason := "size of field " ++ e.name.written ++ " is unknown" }

/-- The number of bytes of an entry; a size that counts as absent is none. -/
def Entry.bytes (e : Entry) : Except Fault Number :=
  if e.size.isTruthy then Number.ofValue e.size else .ok (.whole 0)

def Entry.gapAfter (e : Entry) (offset : Number) : Except Fault Number :=
  if e.size.same (.int 0) || !e.align.isTruthy then .ok (.whole 0)
  else do offset.padding (← Number.ofValue e.align)

/-- The place of one entry: where it starts, and the padding in front of it. -/
structure EntrySlot where
  entry : Entry
  offset : Number
  gap : Number
deriving DecidableEq, Repr, Inhabited

/-- The offset just after the entry. -/
def EntrySlot.stop (s : EntrySlot) : Except Fault Number := do s.offset.add (← s.entry.bytes)

/-- The slot of an entry that follows an offset, and the offset behind it. -/
def placeEntry (offset : Number) (e : Entry) : Outcome (EntrySlot × Number) :=
  if e.size = .null then .error (.error (.indeterminate e.unsized))
  else Outcome.ofFault do
    let gap ← e.gapAfter offset
    let start ← offset.add gap
    let stop ← start.add (← Number.ofValue e.size)
    pure ({ entry := e, offset := start, gap }, stop)

def entrySlots (offset : Number) : List Entry → Outcome (List EntrySlot)
  | [] => .ok []
  | e :: rest => do
    let (slot, stop) ← placeEntry offset e
    let slots ← entrySlots stop rest
    pure (slot :: slots)

/-- The greatest number, the first one of several that are equal; one if there are none. -/
def greatestNumber : List Number → Number
  | [] => .whole 1
  | first :: rest => rest.foldl Number.greater first

def alignmentsOf (entries : List Entry) : Except Fault (List Number) :=
  (entries.filter fun e => e.align.isTruthy).mapM fun e => Number.ofValue e.align

/-- The alignment that a whole struct is rounded up to. -/
def entriesAlignment (abi : Abi) (entries : List Entry) : Except Fault Number := do
  let largest := greatestNumber (← alignmentsOf entries)
  let limit := Number.whole abi.maxAlign
  pure (Number.greater (.whole 1) (if limit.lt largest then limit else largest))

/-- The layout of entries in their order: the slots, the size, and the padding at the end. -/
structure EntryMap where
  slots : List EntrySlot
  size : Number
  trailing : Number
deriving DecidableEq, Repr, Inhabited

def lastStop (slots : List EntrySlot) : Except Fault Number :=
  match slots.getLast? with
  | some slot => slot.stop
  | none => .ok (.whole 0)

/-- The layout of entries in their order. -/
def entryMap (abi : Abi) (entries : List Entry) : Outcome EntryMap := do
  let slots ← entrySlots (.whole 0) entries
  Outcome.ofFault do
    let stop ← lastStop slots
    let align ← entriesAlignment abi entries
    let trailing ← stop.padding align
    let size ← stop.add trailing
    pure { slots, size, trailing }

/-! ### Entries of fields -/

def EntrySlot.ofSlot (s : Slot) : EntrySlot where
  entry := Entry.ofField s.field
  offset := .whole s.offset
  gap := .whole s.gap

/-- The layout of the entries of fields. -/
def EntryMap.ofLayout (m : LayoutMap) : EntryMap where
  slots := m.slots.map EntrySlot.ofSlot
  size := .whole m.size
  trailing := .whole m.trailing

theorem padding_whole (offset align : Int) :
    Number.padding (.whole offset) (.whole align) = .ok (.whole (padding offset align)) := by
  unfold Number.padding padding
  by_cases h : align ≤ 0 <;> simp [h, bind, Except.bind]

theorem bytes_ofField {f : Field} (h : f.isSized) :
    (Entry.ofField f).bytes = .ok (.whole f.bytes) := by
  obtain ⟨size, hs⟩ := Option.isSome_iff_exists.1 h
  by_cases hz : size = 0 <;>
    simp [Entry.bytes, Entry.ofField, optionalInt, Field.bytes, hs, Value.isTruthy, hz]

theorem gapAfter_ofField {f : Field} (h : f.isSized) (offset : Int) :
    (Entry.ofField f).gapAfter (.whole offset) = .ok (.whole (f.gapAfter offset)) := by
  obtain ⟨size, hs⟩ := Option.isSome_iff_exists.1 h
  unfold Entry.gapAfter Field.gapAfter
  cases ha : f.align with
  | none =>
    simp [Entry.ofField, optionalInt, hs, ha, Value.isTruthy, Field.alignment, padding_of_nonpos]
  | some align =>
    by_cases hz : size = 0
    · simp [Entry.ofField, optionalInt, hs, hz, Field.isEmpty, Field.bytes]
    · by_cases hn : align = 0
      · simp [Entry.ofField, optionalInt, hs, ha, hn, Value.isTruthy, Field.alignment,
          padding_of_nonpos]
      · simp [Entry.ofField, optionalInt, hs, ha, hz, hn, Value.isTruthy, Field.isEmpty,
          Field.bytes, Field.alignment, padding_whole, bind, Except.bind]

theorem placeEntry_ofField {f : Field} (h : f.isSized) (offset : Int) :
    placeEntry (.whole offset) (Entry.ofField f) =
      .ok (.ofSlot { field := f, offset := offset + f.gapAfter offset, gap := f.gapAfter offset },
        .whole (offset + f.gapAfter offset + f.bytes)) := by
  obtain ⟨size, hs⟩ := Option.isSome_iff_exists.1 h
  have hv : (Entry.ofField f).size = .int size := by simp [Entry.ofField, optionalInt, hs]
  have hb : f.bytes = size := by simp [Field.bytes, hs]
  simp [placeEntry, gapAfter_ofField h, hv, hb, EntrySlot.ofSlot, bind, Except.bind, pure,
    Except.pure]

theorem entrySlots_ofField (offset : Int) {fields : List Field} (h : ∀ f ∈ fields, f.isSized) :
    entrySlots (.whole offset) (fields.map Entry.ofField) =
      .ok ((slotsFrom offset fields).map EntrySlot.ofSlot) := by
  induction fields generalizing offset with
  | nil => rfl
  | cons f rest ih =>
    simp [entrySlots, slotsFrom, placeEntry_ofField (h f (by simp)),
      ih _ fun g hg => h g (by simp [hg]), bind, Except.bind, pure, Except.pure]

/-- The greatest of some alignments, at least one. -/
theorem foldl_greater_whole (n : Int) (ns : List Int) :
    (ns.map Number.whole).foldl Number.greater (.whole n) = .whole (ns.foldl max n) := by
  induction ns generalizing n with
  | nil => rfl
  | cons m rest ih => simp [ih]

theorem alignmentsOf_ofField (fields : List Field) :
    alignmentsOf (fields.map Entry.ofField) =
      .ok (((fields.map Field.alignment).filter (· != 0)).map Number.whole) := by
  induction fields with
  | nil => rfl
  | cons f rest ih =>
    unfold alignmentsOf at ih ⊢
    rw [List.map_cons, List.filter_cons]
    cases ha : f.align with
    | none => simpa [Entry.ofField, optionalInt, ha, Value.isTruthy, Field.alignment] using ih
    | some align =>
      by_cases hn : align = 0
      · simpa [Entry.ofField, optionalInt, ha, hn, Value.isTruthy, Field.alignment] using ih
      · have ht : (Entry.ofField f).align.isTruthy = true := by
          simp [Entry.ofField, optionalInt, ha, Value.isTruthy, hn]
        have hv : (Entry.ofField f).align = .int align := by simp [Entry.ofField, optionalInt, ha]
        rw [if_pos ht, List.mapM_cons, ih, hv]
        simp [Field.alignment, ha, hn, bind, Except.bind, pure, Except.pure]

theorem max_one_foldl (n : Int) (ns : List Int) :
    max 1 (ns.foldl max n) = max n (ns.foldr max 1) := by
  induction ns generalizing n with
  | nil => simp only [List.foldl_nil, List.foldr_nil]; omega
  | cons m rest ih => simp only [List.foldl_cons, List.foldr_cons, ih]; omega

theorem largestAlignment_eq (fields : List Field) :
    largestAlignment fields =
      ((fields.map Field.alignment).filter (· != 0)).foldr max 1 := by
  induction fields with
  | nil => rfl
  | cons f rest ih =>
    have h1 := one_le_largestAlignment rest
    by_cases hz : f.alignment = 0
    · simp only [largestAlignment, List.map_cons, List.filter_cons, hz, bne_self_eq_false,
        Bool.false_eq_true, if_false, ← ih]
      omega
    · simp [largestAlignment, hz, ih]

theorem max_one_greatest (ns : List Int) :
    ∃ n, greatestNumber (ns.map Number.whole) = .whole n ∧ max 1 n = ns.foldr max 1 := by
  cases ns with
  | nil => exact ⟨1, rfl, by simp⟩
  | cons n rest =>
    refine ⟨rest.foldl max n, ?_, ?_⟩
    · simp [greatestNumber, foldl_greater_whole]
    · rw [max_one_foldl]; rfl

theorem entriesAlignment_ofField (abi : Abi) (fields : List Field) :
    entriesAlignment abi (fields.map Entry.ofField) =
      .ok (.whole (effectiveAlignment abi fields)) := by
  have hm := abi.maxAlign_pos
  obtain ⟨n, hn, hg⟩ := max_one_greatest ((fields.map Field.alignment).filter (· != 0))
  rw [← largestAlignment_eq] at hg
  simp only [entriesAlignment, alignmentsOf_ofField, hn, bind, Except.bind, pure, Except.pure,
    Number.lt_whole, decide_eq_true_eq]
  split <;> simp only [Number.greater_whole, effectiveAlignment, Except.ok.injEq,
    Number.whole.injEq] <;> omega

theorem lastStop_ofField {fields : List Field} (h : ∀ f ∈ fields, f.isSized) (offset : Int) :
    lastStop ((slotsFrom offset fields).map EntrySlot.ofSlot) =
      .ok (.whole (((slotsFrom offset fields).getLast?.map Slot.stop).getD 0)) := by
  unfold lastStop
  rw [List.getLast?_map]
  cases hl : (slotsFrom offset fields).getLast? with
  | none => rfl
  | some slot =>
    have hf : slot.field ∈ fields := by
      rw [← slotsFrom_fields offset fields]
      exact List.mem_map_of_mem (List.mem_of_getLast? hl)
    simp [EntrySlot.stop, EntrySlot.ofSlot, bytes_ofField (h _ hf), Slot.stop, bind, Except.bind]

/-- Entries made from sized fields are placed where the fields are. -/
theorem entryMap_ofField (abi : Abi) {fields : List Field} (h : ∀ f ∈ fields, f.isSized) :
    entryMap abi (fields.map Entry.ofField) = .ok (.ofLayout (layoutMap abi fields)) := by
  simp [entryMap, entrySlots_ofField 0 h, lastStop_ofField h, entriesAlignment_ofField,
    padding_whole, EntryMap.ofLayout, layoutMap, bind, Except.bind, pure, Except.pure]

end Report

end StructLayout
