import Mathlib.Data.List.Chain
import StructLayout.Layout.Placement

/-!
# Slots without overlap and without holes

A layout map is exact (`LayoutMap.IsExact`) if its slots follow one another with nothing between them
but the gaps that the alignments ask for, and nothing is left over: every byte of the struct belongs to
a field, to a gap, or to the padding at the end.

What holds of one slot is stated for the offset it is placed behind (`Slot.IsBehind`); from there it
goes along the slots of a list of fields by induction on the list.  The main statement is
`annotate_isExact`: annotating fields of known size gives an exact map of the size that the running end
gives, and both ways of placing refuse the first field of unknown size.
-/

namespace StructLayout

/-! ### One slot -/

/-- The slot is placed behind an offset: its gap starts there, and the field right after the gap. -/
structure Slot.IsBehind (s : Slot) (offset : Int) : Prop where
  gap_eq : s.gap = s.field.gapAfter offset
  offset_eq : s.offset = offset + s.gap

namespace Slot.IsBehind

variable {s : Slot} {offset : Int}

theorem gap_nonneg (h : s.IsBehind offset) : 0 ≤ s.gap := by
  rw [h.gap_eq]
  exact s.field.gapAfter_nonneg offset

theorem aligned (h : s.IsBehind offset) (hb : s.field.bytes ≠ 0) (ha : 0 < s.field.alignment) :
    s.field.alignment ∣ s.offset ∧ s.gap < s.field.alignment := by
  have hg : s.gap = padding offset s.field.alignment := by
    rw [h.gap_eq]
    simp [Field.gapAfter, Field.isEmpty, hb]
  rw [h.offset_eq, hg]
  exact ⟨padding_dvd ha offset, padding_lt ha offset⟩

theorem gap_eq_zero (h : s.IsBehind offset) (hs : s.field.bytes = 0 ∨ s.field.alignment ≤ 0) :
    s.gap = 0 := by
  rw [h.gap_eq]
  rcases hs with hb | ha
  · simp [Field.gapAfter, Field.isEmpty, hb]
  · simp [Field.gapAfter, padding_of_nonpos ha]

end Slot.IsBehind

/-! ### The slots of a list of fields -/

variable {fields : List Field} {s : Slot}

theorem exists_isBehind_of_mem {offset : Int} (h : s ∈ slotsFrom offset fields) :
    ∃ stop, s.IsBehind stop := by
  induction fields generalizing offset with
  | nil => cases h
  | cons f rest ih =>
      rcases List.mem_cons.1 h with rfl | h
      · exact ⟨offset, rfl, rfl⟩
      · exact ih h

theorem isBehind_of_head? {offset : Int} (h : s ∈ (slotsFrom offset fields).head?) :
    s.IsBehind offset := by
  cases fields with
  | nil => cases h
  | cons f rest =>
      cases h
      exact ⟨rfl, rfl⟩

theorem isChain_slotsFrom (offset : Int) (fields : List Field) :
    (slotsFrom offset fields).IsChain fun s t => t.IsBehind s.stop := by
  induction fields generalizing offset with
  | nil => exact .nil
  | cons f rest ih =>
      refine List.isChain_cons.2 ⟨fun t ht => ?_, ih _⟩
      exact isBehind_of_head? ht

/-- No slot starts before the offset that placing starts from. -/
theorem le_offset_of_mem {offset : Int} (hb : ∀ f ∈ fields, 0 ≤ f.bytes)
    (h : s ∈ slotsFrom offset fields) : offset ≤ s.offset := by
  induction fields generalizing offset with
  | nil => cases h
  | cons f rest ih =>
      have hg := f.gapAfter_nonneg offset
      rcases List.mem_cons.1 h with rfl | h
      · exact Int.le_add_of_nonneg_right hg
      · obtain ⟨hf, hrest⟩ := List.forall_mem_cons.1 hb
        have := ih hrest h
        omega

/-- Of two slots the first one stops before the other one starts. -/
theorem pairwise_slotsFrom (offset : Int) (hb : ∀ f ∈ fields, 0 ≤ f.bytes) :
    (slotsFrom offset fields).Pairwise fun s t => s.stop ≤ t.offset := by
  induction fields generalizing offset with
  | nil => exact .nil
  | cons f rest ih =>
      obtain ⟨-, hrest⟩ := List.forall_mem_cons.1 hb
      exact List.pairwise_cons.2 ⟨fun t ht => le_offset_of_mem hrest ht, ih _ hrest⟩

theorem endFrom_eq_add (offset trailing : Int) (fields : List Field) :
    endFrom offset fields + trailing =
      offset + totalBytes fields +
        (slotsFrom offset fields).foldr (fun s bytes => s.gap + bytes) trailing := by
  induction fields generalizing offset with
  | nil => simp [endFrom, slotsFrom, totalBytes]
  | cons f rest ih =>
      simp only [endFrom, slotsFrom, totalBytes, List.foldr_cons, ih]
      omega

/-! ### Layout maps -/

/-- The layout of fields with a slot for each of them in order, where every byte is accounted for:
slots start right behind the one before and their own gap, gaps are as small as the alignments allow,
and the end is padded up to the next multiple of the struct's alignment. -/
structure LayoutMap.IsExact (abi : Abi) (fields : List Field) (m : LayoutMap) : Prop where
  fields_eq : m.slots.map Slot.field = fields
  first_offset : ∀ s ∈ m.slots.head?, s.offset = s.gap
  next_offset : m.slots.IsChain fun s t => t.offset = s.stop + t.gap
  disjoint : m.slots.Pairwise fun s t => s.stop ≤ t.offset
  gap_nonneg : ∀ s ∈ m.slots, 0 ≤ s.gap
  aligned : ∀ s ∈ m.slots, s.field.bytes ≠ 0 → 0 < s.field.alignment →
    s.field.alignment ∣ s.offset ∧ s.gap < s.field.alignment
  unpadded : ∀ s ∈ m.slots, s.field.bytes = 0 ∨ s.field.alignment ≤ 0 → s.gap = 0
  trailing_nonneg : 0 ≤ m.trailing
  trailing_lt : m.trailing < effectiveAlignment abi fields
  dvd_size : effectiveAlignment abi fields ∣ m.size
  size_eq_stop : m.size = (m.slots.getLast?.map Slot.stop).getD 0 + m.trailing
  dataBytes_eq : m.dataBytes = totalBytes fields
  size_eq_sum : m.size = totalBytes fields + m.paddingBytes
  sum_le_size : totalBytes fields ≤ m.size

theorem layoutMap_size_eq_sum (abi : Abi) (fields : List Field) :
    (layoutMap abi fields).size = totalBytes fields + (layoutMap abi fields).paddingBytes := by
  have h := endFrom_eq_add 0 (layoutMap abi fields).trailing fields
  rw [endFrom_eq, Int.zero_add] at h
  exact h

theorem layoutMap_isExact (abi : Abi) (h : ∀ f ∈ fields, 0 ≤ f.bytes) :
    (layoutMap abi fields).IsExact abi fields := by
  have hone := one_le_effectiveAlignment abi fields
  have hsum := layoutMap_size_eq_sum abi fields
  exact {
    fields_eq := slotsFrom_fields 0 fields
    first_offset := fun s hs => by
      simpa using (isBehind_of_head? (show s ∈ (slotsFrom 0 fields).head? from hs)).offset_eq
    next_offset := (isChain_slotsFrom 0 fields).imp fun _ _ hb => hb.offset_eq
    disjoint := pairwise_slotsFrom 0 h
    gap_nonneg := fun s hs => (exists_isBehind_of_mem hs).elim fun _ hb => hb.gap_nonneg
    aligned := fun s hs => (exists_isBehind_of_mem hs).elim fun _ hb => hb.aligned
    unpadded := fun s hs => (exists_isBehind_of_mem hs).elim fun _ hb => hb.gap_eq_zero
    trailing_nonneg := padding_nonneg _ _
    trailing_lt := padding_lt hone _
    dvd_size := padding_dvd hone _
    size_eq_stop := rfl
    dataBytes_eq := by simp only [LayoutMap.dataBytes, hsum]; omega
    size_eq_sum := hsum
    sum_le_size := by
      rw [layoutMap_size]
      exact totalBytes_le_structSize abi fields }

/-! ### Unknown sizes -/

theorem requireSized_append {before after : List Field} {f : Field}
    (hb : ∀ g ∈ before, g.isSized = true) (hf : f.size = none) :
    requireSized (before ++ f :: after) = .error f.unsized := by
  have hfind : (before ++ f :: after).find? (fun g => !g.isSized) = some f := by
    rw [List.find?_append, List.find?_eq_none.2 (by simpa using hb)]
    simp [Field.isSized, hf]
  simp only [requireSized, hfind]

/-- Annotating fields of known sizes that are not negative, whatever their alignments, gives an exact
map, of the size that placing them gives; of fields with unknown sizes both refuse the first one. -/
theorem annotate_isExact (abi : Abi) (fields : List Field) :
    ((∀ f ∈ fields, f.isSized = true ∧ 0 ≤ f.bytes) →
      ∃ m : LayoutMap, annotate abi fields = .ok m ∧ layoutSize abi fields = .ok m.size ∧
        m.IsExact abi fields) ∧
    (∀ before f after, fields = before ++ f :: after → (∀ g ∈ before, g.isSized = true) →
      f.size = none →
      annotate abi fields = .error f.unsized ∧ layoutSize abi fields = .error f.unsized) := by
  constructor
  · intro h
    have hsized : ∀ f ∈ fields, f.isSized = true := fun f hf => (h f hf).1
    refine ⟨layoutMap abi fields, annotate_of_isSized abi hsized, ?_,
      layoutMap_isExact abi fun f hf => (h f hf).2⟩
    rw [layoutMap_size, layoutSize_of_isSized abi hsized]
  · rintro before f after rfl hb hf
    rw [annotate, layoutSize, requireSized_append hb hf]
    exact ⟨rfl, rfl⟩

/-- Fields of all kinds: aligned, empty, without an alignment, and with one that makes no sense. -/
def oddFields : List Field := [
  { name := "a", typeExpr := "bool", size := some 1, align := some 1, tag := "", comment := "" },
  { name := "w", typeExpr := "int64", size := some 8, align := some 8, tag := "", comment := "" },
  { name := "e", typeExpr := "T", size := some 0, align := some 16, tag := "", comment := "" },
  { name := "n", typeExpr := "U", size := some 3, align := none, tag := "", comment := "" },
  { name := "z", typeExpr := "V", size := some 2, align := some (-4), tag := "", comment := "" },
  { name := "h", typeExpr := "int16", size := some 2, align := some 2, tag := "", comment := "" }]

def unsizedField : Field :=
  { name := "x", typeExpr := "X", size := none, align := none, tag := "", comment := "" }

theorem annotate_isExact_oddFields :
    ((∀ f ∈ oddFields, f.isSized = true ∧ 0 ≤ f.bytes) ∧
      ∃ m : LayoutMap, annotate .amd64 oddFields = .ok m ∧
        layoutSize .amd64 oddFields = .ok m.size ∧ m.IsExact .amd64 oddFields) ∧
    ((∀ g ∈ oddFields, g.isSized = true) ∧ unsizedField.size = none ∧
      annotate .amd64 (oddFields ++ unsizedField :: oddFields) = .error unsizedField.unsized ∧
      layoutSize .amd64 (oddFields ++ unsizedField :: oddFields) = .error unsizedField.unsized) :=
  ⟨⟨by decide, (annotate_isExact .amd64 oddFields).1 (by decide)⟩,
    ⟨by decide, rfl, (annotate_isExact .amd64 (oddFields ++ unsizedField :: oddFields)).2
      oddFields unsizedField oddFields rfl (by decide) rfl⟩⟩

example : (layoutMap .amd64 oddFields).slots.map (fun s => (s.offset, s.gap)) =
    [(0, 0), (8, 7), (16, 0), (16, 0), (19, 0), (22, 1)] := by decide

end StructLayout
