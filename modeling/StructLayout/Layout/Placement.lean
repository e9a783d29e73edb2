import StructLayout.Abi
import StructLayout.Layout.Field
import StructLayout.Text.Quoted

/-!
# Placing fields one after the other

Fields are placed in order.  A field that takes up space starts at the next multiple of its
alignment; an empty field takes no padding.  The end of the last field is rounded up to the
alignment of the whole struct, which the platform limits.

The same placement is computed twice: `structSize` follows only the running end, and `annotate` keeps
a slot for every field.  The main statements are that padding reaches a multiple of the alignment
(`padding_dvd`) with less than one alignment (`padding_lt`), that the slots are one per field
(`slotsFrom_fields`), that both computations agree on the end (`endFrom_eq`), and that no layout is
smaller than its fields (`totalBytes_le_structSize`).
-/

namespace StructLayout

/-- The bytes needed to advance an offset to a multiple of an alignment; none for an alignment that
is not positive. -/
def padding (offset align : Int) : Int :=
  if align ≤ 0 then 0 else (align - offset % align) % align

def Field.gapAfter (f : Field) (offset : Int) : Int :=
  if f.isEmpty then 0 else padding offset f.alignment

/-- The greatest alignment among fields, at least one. -/
def largestAlignment : List Field → Int
  | [] => 1
  | f :: rest => max f.alignment (largestAlignment rest)

/-- The alignment that a whole struct is rounded up to. -/
def effectiveAlignment (abi : Abi) (fields : List Field) : Int :=
  min (largestAlignment fields) abi.maxAlign

/-- The place of one field: where it starts, and the padding in front of it. -/
structure Slot where
  field : Field
  offset : Int
  gap : Int
deriving DecidableEq, Repr, Inhabited

/-- The offset just after the field. -/
def Slot.stop (s : Slot) : Int := s.offset + s.field.bytes

def slotsFrom (offset : Int) : List Field → List Slot
  | [] => []
  | f :: rest =>
    let gap := f.gapAfter offset
    { field := f, offset := offset + gap, gap } :: slotsFrom (offset + gap + f.bytes) rest

def endFrom (offset : Int) : List Field → Int
  | [] => offset
  | f :: rest => endFrom (offset + f.gapAfter offset + f.bytes) rest

/-- The size of a struct with its fields in the given order, unknown sizes counted as zero. -/
def structSize (abi : Abi) (fields : List Field) : Int :=
  let stop := endFrom 0 fields
  stop + padding stop (effectiveAlignment abi fields)

/-- The sum of the sizes of fields. -/
def totalBytes : List Field → Int
  | [] => 0
  | f :: rest => f.bytes + totalBytes rest

/-- The layout of a field order: every field's slot, the size, and the padding at the end. -/
structure LayoutMap where
  slots : List Slot
  size : Int
  trailing : Int
deriving DecidableEq, Repr, Inhabited

namespace LayoutMap

/-- All bytes of padding, those at the end included. -/
def paddingBytes (m : LayoutMap) : Int :=
  m.slots.foldr (fun slot bytes => slot.gap + bytes) m.trailing

def dataBytes (m : LayoutMap) : Int := m.size - m.paddingBytes

end LayoutMap

/-- The layout of fields in the given order, unknown sizes counted as zero. -/
def layoutMap (abi : Abi) (fields : List Field) : LayoutMap :=
  let slots := slotsFrom 0 fields
  let stop := (slots.getLast?.map Slot.stop).getD 0
  let trailing := padding stop (effectiveAlignment abi fields)
  { slots, size := stop + trailing, trailing }

/-! ### Unknown sizes -/

/-- The complaint about a field of unknown size. -/
def Field.unsized (f : Field) : Indeterminate :=
  { typeExpr := f.typeExpr, reason := "size of field " ++ Text.quoted f.name ++ " is unknown" }

/-- Refuses fields of unknown size; the first one is named. -/
def requireSized (fields : List Field) : Except Indeterminate Unit :=
  match fields.find? fun f => !f.isSized with
  | some f => .error f.unsized
  | none => .ok ()

def layoutSize (abi : Abi) (fields : List Field) : Except Indeterminate Int :=
  (requireSized fields).map fun _ => structSize abi fields

/-- The slots of a struct with its fields in the given order. -/
def annotate (abi : Abi) (fields : List Field) : Except Indeterminate LayoutMap :=
  (requireSized fields).map fun _ => layoutMap abi fields

theorem requireSized_ok_iff (fields : List Field) :
    requireSized fields = .ok () ↔ ∀ f ∈ fields, f.isSized = true := by
  unfold requireSized
  split
  · next f hf =>
    have hm := List.mem_of_find?_eq_some hf
    have hs := List.find?_some hf
    simp only [Bool.not_eq_true'] at hs
    constructor
    · intro h
      cases h
    · intro h
      simp [h f hm] at hs
  · next hf =>
    simpa using hf

theorem requireSized_of_isSized {fields : List Field} (h : ∀ f ∈ fields, f.isSized = true) :
    requireSized fields = .ok () :=
  (requireSized_ok_iff fields).2 h

theorem layoutSize_of_isSized (abi : Abi) {fields : List Field}
    (h : ∀ f ∈ fields, f.isSized = true) : layoutSize abi fields = .ok (structSize abi fields) := by
  rw [layoutSize, requireSized_of_isSized h]
  rfl

theorem annotate_of_isSized (abi : Abi) {fields : List Field} (h : ∀ f ∈ fields, f.isSized = true) :
    annotate abi fields = .ok (layoutMap abi fields) := by
  rw [annotate, requireSized_of_isSized h]
  rfl

/-! ### Padding -/

theorem padding_of_nonpos {align : Int} (h : align ≤ 0) (offset : Int) : padding offset align = 0 := by
  simp [padding, h]

theorem padding_nonneg (offset align : Int) : 0 ≤ padding offset align := by
  unfold padding
  split
  · exact Int.le_refl 0
  · exact Int.emod_nonneg _ (by omega)

theorem padding_lt {align : Int} (h : 0 < align) (offset : Int) : padding offset align < align := by
  have hn : ¬ align ≤ 0 := by omega
  simpa [padding, hn] using Int.emod_lt_of_pos _ h

theorem padding_dvd {align : Int} (h : 0 < align) (offset : Int) :
    align ∣ offset + padding offset align := by
  have hn : ¬ align ≤ 0 := by omega
  have hm : (offset + (align - offset % align) % align) % align = 0 := by
    rw [Int.add_emod, Int.emod_emod_of_dvd _ (Int.dvd_refl align), ← Int.add_emod]
    have he : offset + (align - offset % align) = (offset - offset % align) + align := by omega
    have hd : align ∣ offset - offset % align := Int.dvd_self_sub_emod
    rw [he]
    exact Int.emod_eq_zero_of_dvd (Int.dvd_add hd (Int.dvd_refl align))
  simpa [padding, hn] using Int.dvd_of_emod_eq_zero hm

theorem Field.gapAfter_nonneg (f : Field) (offset : Int) : 0 ≤ f.gapAfter offset := by
  unfold gapAfter
  split
  · exact Int.le_refl 0
  · exact padding_nonneg _ _

/-! ### Slots and ends -/

theorem one_le_largestAlignment (fields : List Field) : 1 ≤ largestAlignment fields := by
  induction fields with
  | nil => exact Int.le_refl 1
  | cons f rest ih => exact Int.le_trans ih (Int.le_max_right _ _)

theorem one_le_effectiveAlignment (abi : Abi) (fields : List Field) :
    1 ≤ effectiveAlignment abi fields := by
  have h := abi.maxAlign_pos
  have := one_le_largestAlignment fields
  simp only [effectiveAlignment]
  omega

@[simp] theorem slotsFrom_fields (offset : Int) (fields : List Field) :
    (slotsFrom offset fields).map Slot.field = fields := by
  induction fields generalizing offset with
  | nil => rfl
  | cons f rest ih => simp [slotsFrom, ih]

/-- The running end is where the last slot stops. -/
theorem endFrom_eq (offset : Int) (fields : List Field) :
    endFrom offset fields = ((slotsFrom offset fields).getLast?.map Slot.stop).getD offset := by
  induction fields generalizing offset with
  | nil => rfl
  | cons f rest ih =>
    rw [endFrom, ih]
    cases rest with
    | nil => simp [slotsFrom, Slot.stop]
    | cons g rest => simp [slotsFrom, List.getLast?_cons]

/-- The two computations give one size. -/
theorem layoutMap_size (abi : Abi) (fields : List Field) :
    (layoutMap abi fields).size = structSize abi fields := by
  simp [layoutMap, structSize, endFrom_eq]

theorem add_totalBytes_le_endFrom (offset : Int) (fields : List Field) :
    offset + totalBytes fields ≤ endFrom offset fields := by
  induction fields generalizing offset with
  | nil => simp [totalBytes, endFrom]
  | cons f rest ih =>
    have h := ih (offset + f.gapAfter offset + f.bytes)
    have hg := f.gapAfter_nonneg offset
    simp only [totalBytes, endFrom] at h ⊢
    omega

theorem totalBytes_le_structSize (abi : Abi) (fields : List Field) :
    totalBytes fields ≤ structSize abi fields := by
  have h := add_totalBytes_le_endFrom 0 fields
  have hp := padding_nonneg (endFrom 0 fields) (effectiveAlignment abi fields)
  simp only [structSize]
  omega

/-- The sum of sizes does not depend on the order. -/
theorem totalBytes_perm {xs ys : List Field} (h : xs.Perm ys) : totalBytes xs = totalBytes ys := by
  induction h with
  | nil => rfl
  | cons f _ ih => simpa [totalBytes] using ih
  | swap f g rest => simp only [totalBytes]; omega
  | trans _ _ ih₁ ih₂ => exact ih₁.trans ih₂

end StructLayout
