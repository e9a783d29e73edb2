import Mathlib.Data.List.Forall2
import StructLayout.Proofs.Layout.ExactSlots
import StructLayout.Proofs.Layout.LeastSize

/-!
# No placement is tighter

Fields that keep their order can be placed in many ways, with room between them that no alignment asks
for (`IsPlacement`).  Placing each field at the first offset that suits it stays ahead of all of them:
the field starts no later than it does anywhere else, so the next one is not held up either
(`IsPlacement.stays_ahead`).  That is shown for any alignments, powers of two or not.

The same holds for the fields themselves.  A field that is left out holds up none of those behind it
(`endFrom_le_of_sublist`), and where alignments are powers of two, rounding up to a smaller one gives a
smaller struct.

The main statements are `annotate_isLeast` for the placements of one list of fields, and
`layoutSize_insert_le` for a list with a field more.
-/

namespace StructLayout

/-! ### Rounding up -/

theorem add_padding_mono {small large offset offset' : Int} (hsmall : 0 < small) (hlarge : 0 < large)
    (hdvd : small ∣ large) (hle : offset ≤ offset') :
    offset + padding offset small ≤ offset' + padding offset' large := by
  obtain ⟨hmultiple, hbelow⟩ := (isLeast_add_padding hlarge offset').1
  apply (isLeast_add_padding hsmall offset).2
  constructor
  · exact Int.dvd_trans hdvd hmultiple
  · exact Int.le_trans hle hbelow

namespace Field

variable {f : Field} {offset offset' : Int}

/-- The gap in front of a field leads to a multiple of its alignment. -/
theorem dvd_add_gapAfter (hb : f.bytes ≠ 0) (ha : 0 < f.alignment) :
    f.alignment ∣ offset + f.gapAfter offset := by
  have hgap : f.gapAfter offset = padding offset f.alignment := by
    simp [gapAfter, isEmpty, hb]
  rw [hgap]
  exact padding_dvd ha offset

/-- A field starts at the first offset that suits it. -/
theorem add_gapAfter_le (hle : offset ≤ offset')
    (hd : f.bytes ≠ 0 → 0 < f.alignment → f.alignment ∣ offset') :
    offset + f.gapAfter offset ≤ offset' := by
  unfold gapAfter
  split
  · omega
  · next he =>
    rcases Int.lt_or_le 0 f.alignment with ha | ha
    · have hb : f.bytes ≠ 0 := by simpa [isEmpty] using he
      exact (isLeast_add_padding ha offset).2 ⟨hd hb ha, hle⟩
    · rw [padding_of_nonpos ha]
      omega

/-- Behind a greater offset a field starts no earlier. -/
theorem add_gapAfter_mono (f : Field) (hle : offset ≤ offset') :
    offset + f.gapAfter offset ≤ offset' + f.gapAfter offset' := by
  apply add_gapAfter_le
  · have := f.gapAfter_nonneg offset'
    omega
  · exact fun hb ha => dvd_add_gapAfter hb ha

end Field

/-! ### Other placements -/

/-- A way to place fields in their order from an offset on: each field gets an offset, not before the end
of the field in front of it, and at a multiple of its alignment if it takes up space. -/
structure IsPlacement (start : Int) (fields : List Field) (placed : List (Field × Int)) : Prop where
  fields_eq : placed.map Prod.fst = fields
  start_le : ∀ p ∈ placed.head?, start ≤ p.2
  in_order : placed.IsChain fun p q => p.2 + p.1.bytes ≤ q.2
  aligned : ∀ p ∈ placed, p.1.bytes ≠ 0 → 0 < p.1.alignment → p.1.alignment ∣ p.2

/-- The end of the last field of a placement, or what is given if there is none. -/
def placedEnd (stop : Int) : List (Field × Int) → Int
  | [] => stop
  | p :: rest => placedEnd (p.2 + p.1.bytes) rest

def slotOffsets (slots : List Slot) : List (Field × Int) := slots.map fun s => (s.field, s.offset)

theorem placedEnd_offsets (start : Int) (fields : List Field) :
    placedEnd start (slotOffsets (slotsFrom start fields)) = endFrom start fields := by
  induction fields generalizing start with
  | nil => rfl
  | cons f rest ih => exact ih (start + f.gapAfter start + f.bytes)

theorem isPlacement_slotsFrom {start : Int} {fields : List Field} (h : ∀ f ∈ fields, 0 ≤ f.bytes) :
    IsPlacement start fields (slotOffsets (slotsFrom start fields)) where
  fields_eq := by
    rw [slotOffsets, List.map_map]
    exact slotsFrom_fields start fields
  start_le := by
    intro p hp
    obtain ⟨s, hs, rfl⟩ := List.mem_map.1 (List.mem_of_mem_head? hp)
    exact le_offset_of_mem h hs
  in_order := by
    rw [slotOffsets, List.isChain_map]
    refine (isChain_slotsFrom start fields).imp ?_
    intro s t ht
    have hgap := ht.gap_nonneg
    show s.stop ≤ t.offset
    rw [ht.offset_eq]
    omega
  aligned := by
    intro p hp hb ha
    obtain ⟨s, hs, rfl⟩ := List.mem_map.1 hp
    obtain ⟨stop, hstop⟩ := exists_isBehind_of_mem hs
    exact (hstop.aligned hb ha).1

namespace IsPlacement

variable {start stop : Int} {fields : List Field} {p : Field × Int} {placed : List (Field × Int)}

/-- A placement goes on behind the place that its first field gets when fields are placed one after the
other. -/
theorem of_cons (h : IsPlacement start fields (p :: placed)) :
    ∃ rest, fields = p.1 :: rest ∧ start + p.1.gapAfter start ≤ p.2 ∧
      IsPlacement (start + p.1.gapAfter start + p.1.bytes) rest placed := by
  obtain ⟨hnext, horder⟩ := List.isChain_cons.1 h.in_order
  obtain ⟨hp, haligned⟩ := List.forall_mem_cons.1 h.aligned
  have hle : start + p.1.gapAfter start ≤ p.2 := Field.add_gapAfter_le (h.start_le p rfl) hp
  refine ⟨placed.map Prod.fst, h.fields_eq.symm, hle, rfl, ?_, horder, haligned⟩
  intro q hq
  have := hnext q hq
  omega

/-- **Placing fields one after the other stays ahead**: no field starts earlier in a placement. -/
theorem stays_ahead (h : IsPlacement start fields placed) :
    List.Forall₂ (fun s p => s.field = p.1 ∧ s.offset ≤ p.2) (slotsFrom start fields) placed := by
  induction placed generalizing start fields with
  | nil =>
      obtain rfl := h.fields_eq
      exact .nil
  | cons p placed ih =>
      obtain ⟨rest, rfl, hle, hrest⟩ := h.of_cons
      exact .cons ⟨rfl, hle⟩ (ih hrest)

theorem endFrom_le (h : IsPlacement start fields placed) (hle : start ≤ stop) :
    endFrom start fields ≤ placedEnd stop placed := by
  induction placed generalizing start stop fields with
  | nil =>
      obtain rfl := h.fields_eq
      exact hle
  | cons p placed ih =>
      obtain ⟨rest, rfl, hp, hrest⟩ := h.of_cons
      apply ih hrest
      omega

end IsPlacement

/-- Placing fields of known sizes that are not negative one after the other is the tightest placement,
whatever their alignments: in any other one each field starts at the same offset or behind it, and no
multiple of the struct's alignment that holds a placement is smaller than the size. -/
theorem annotate_isLeast (abi : Abi) (fields : List Field)
    (h : ∀ f ∈ fields, f.isSized = true ∧ 0 ≤ f.bytes) :
    ∃ m : LayoutMap, annotate abi fields = .ok m ∧ layoutSize abi fields = .ok m.size ∧
      IsPlacement 0 fields (slotOffsets m.slots) ∧
      (∀ placed, IsPlacement 0 fields placed →
        List.Forall₂ (fun s p => s.field = p.1 ∧ s.offset ≤ p.2) m.slots placed) ∧
      IsLeast {n | ∃ placed, IsPlacement 0 fields placed ∧ effectiveAlignment abi fields ∣ n ∧
        placedEnd 0 placed ≤ n} m.size := by
  have hsized : ∀ f ∈ fields, f.isSized = true := fun f hf => (h f hf).1
  have hplaced : IsPlacement 0 fields (slotOffsets (slotsFrom 0 fields)) :=
    isPlacement_slotsFrom fun f hf => (h f hf).2
  obtain ⟨⟨hdvd, hend⟩, hleast⟩ :=
    isLeast_add_padding (one_le_effectiveAlignment abi fields) (endFrom 0 fields)
  refine ⟨layoutMap abi fields, annotate_of_isSized abi hsized, ?_, hplaced,
    fun placed hp => hp.stays_ahead, ?_⟩
  · rw [layoutMap_size, layoutSize_of_isSized abi hsized]
  · rw [layoutMap_size]
    constructor
    · exact ⟨_, hplaced, hdvd, (placedEnd_offsets 0 fields).trans_le hend⟩
    · rintro n ⟨placed, hp, hn, hle⟩
      have hahead := hp.endFrom_le (Int.le_refl 0)
      exact hleast ⟨hn, Int.le_trans hahead hle⟩

/-- Fields with an alignment that is no power of two, with none, and without a size. -/
def unevenFields : List Field := [
  { name := "a", typeExpr := "bool", size := some 1, align := some 1, tag := "", comment := "" },
  { name := "t", typeExpr := "T", size := some 5, align := some 3, tag := "", comment := "" },
  { name := "e", typeExpr := "E", size := some 0, align := some 16, tag := "", comment := "" },
  { name := "n", typeExpr := "U", size := some 2, align := none, tag := "", comment := "" },
  { name := "w", typeExpr := "int64", size := some 8, align := some 8, tag := "", comment := "" }]

theorem annotate_isLeast_unevenFields :
    (∀ f ∈ unevenFields, f.isSized = true ∧ 0 ≤ f.bytes) ∧
    ∃ m : LayoutMap, annotate .amd64 unevenFields = .ok m ∧
      layoutSize .amd64 unevenFields = .ok m.size ∧
      IsPlacement 0 unevenFields (slotOffsets m.slots) ∧
      (∀ placed, IsPlacement 0 unevenFields placed →
        List.Forall₂ (fun s p => s.field = p.1 ∧ s.offset ≤ p.2) m.slots placed) ∧
      IsLeast {n | ∃ placed, IsPlacement 0 unevenFields placed ∧
        effectiveAlignment .amd64 unevenFields ∣ n ∧ placedEnd 0 placed ≤ n} m.size :=
  ⟨by decide, annotate_isLeast .amd64 unevenFields (by decide)⟩

/-! ### Fewer fields -/

variable {fewer fields : List Field}

/-- Fields that are left out hold up none of those behind them. -/
theorem endFrom_le_of_sublist (hs : fewer.Sublist fields) (hb : ∀ f ∈ fields, 0 ≤ f.bytes)
    {offset offset' : Int} (hle : offset ≤ offset') :
    endFrom offset fewer ≤ endFrom offset' fields := by
  induction hs generalizing offset offset' with
  | slnil => exact hle
  | cons f _ ih =>
      obtain ⟨hf, hrest⟩ := List.forall_mem_cons.1 hb
      have hgap := f.gapAfter_nonneg offset'
      apply ih hrest
      omega
  | cons_cons f _ ih =>
      obtain ⟨-, hrest⟩ := List.forall_mem_cons.1 hb
      have hstart := f.add_gapAfter_mono hle
      apply ih hrest
      omega

theorem largestAlignment_le_of_sublist (hs : fewer.Sublist fields) :
    largestAlignment fewer ≤ largestAlignment fields := by
  induction hs with
  | slnil => exact Int.le_refl _
  | cons f _ ih => exact Int.le_trans ih (Int.le_max_right _ _)
  | cons_cons f _ ih =>
      simp only [largestAlignment]
      omega

/-- A field of known size, not negative, with no alignment or one that is zero or a power of two. -/
structure Field.IsBinary (f : Field) : Prop where
  isSized : f.isSized = true
  bytes_nonneg : 0 ≤ f.bytes
  align_eq : ∀ align, f.align = some align → align = 0 ∨ ∃ k : Nat, align = 2 ^ k

theorem Field.IsBinary.alignment_eq {f : Field} (h : f.IsBinary) :
    f.alignment = 0 ∨ ∃ k : Nat, f.alignment = 2 ^ k := by
  unfold Field.alignment
  cases ha : f.align with
  | none => exact .inl rfl
  | some align => exact h.align_eq align ha

theorem exists_largestAlignment_eq (h : ∀ f ∈ fields, f.IsBinary) :
    ∃ k : Nat, largestAlignment fields = 2 ^ k := by
  induction fields with
  | nil => exact ⟨0, rfl⟩
  | cons f rest ih =>
      obtain ⟨hf, hrest⟩ := List.forall_mem_cons.1 h
      obtain ⟨k, hk⟩ := ih hrest
      have hone := one_le_largestAlignment rest
      unfold largestAlignment
      rcases Int.le_total f.alignment (largestAlignment rest) with hle | hle
      · exact ⟨k, by rw [Int.max_eq_right hle, hk]⟩
      · rw [Int.max_eq_left hle]
        rcases hf.alignment_eq with hz | hpow
        · omega
        · exact hpow

theorem effectiveAlignment_dvd_of_sublist {abi : Abi} (hmax : ∃ k : Nat, abi.maxAlign = 2 ^ k)
    (hs : fewer.Sublist fields) (h : ∀ f ∈ fields, f.IsBinary) :
    effectiveAlignment abi fewer ∣ effectiveAlignment abi fields := by
  have hpow {some : List Field} (hsome : ∀ f ∈ some, f.IsBinary) :
      ∃ k : Nat, effectiveAlignment abi some = 2 ^ k := by
    unfold effectiveAlignment
    rcases Int.le_total (largestAlignment some) abi.maxAlign with hle | hle
    · rw [Int.min_eq_left hle]
      exact exists_largestAlignment_eq hsome
    · rw [Int.min_eq_right hle]
      exact hmax
  have hle : effectiveAlignment abi fewer ≤ effectiveAlignment abi fields := by
    have := largestAlignment_le_of_sublist hs
    unfold effectiveAlignment
    omega
  exact dvd_of_le_of_powers (hpow fun f hf => h f (hs.subset hf)) (hpow h) hle

theorem structSize_le_of_sublist {abi : Abi} (hmax : ∃ k : Nat, abi.maxAlign = 2 ^ k)
    (hs : fewer.Sublist fields) (h : ∀ f ∈ fields, f.IsBinary) :
    structSize abi fewer ≤ structSize abi fields := by
  have hend : endFrom 0 fewer ≤ endFrom 0 fields :=
    endFrom_le_of_sublist hs (fun f hf => (h f hf).bytes_nonneg) (Int.le_refl 0)
  exact add_padding_mono (one_le_effectiveAlignment abi fewer) (one_le_effectiveAlignment abi fields)
    (effectiveAlignment_dvd_of_sublist hmax hs h) hend

/-- A field more, wherever it is inserted and whether it takes up space or not, never makes a struct
smaller, where alignments are powers of two; so none that is removed makes it larger. -/
theorem layoutSize_insert_le (abi : Abi) (hmax : ∃ k : Nat, abi.maxAlign = 2 ^ k)
    (before after : List Field) (f : Field) (h : ∀ g ∈ before ++ f :: after, g.IsBinary) :
    ∃ size more, layoutSize abi (before ++ after) = .ok size ∧
      layoutSize abi (before ++ f :: after) = .ok more ∧ size ≤ more := by
  have hs : (before ++ after).Sublist (before ++ f :: after) :=
    (List.sublist_cons_self f after).append_left before
  refine ⟨_, _, layoutSize_of_isSized abi ?_, layoutSize_of_isSized abi ?_,
    structSize_le_of_sublist hmax hs h⟩
  · exact fun g hg => (h g (hs.subset hg)).isSized
  · exact fun g hg => (h g hg).isSized

def flag : Field :=
  { name := "f", typeExpr := "bool", size := some 1, align := some 1, tag := "", comment := "" }

def emptyWord : Field :=
  { name := "_", typeExpr := "E", size := some 0, align := some 8, tag := "", comment := "" }

def unaligned : Field :=
  { name := "n", typeExpr := "U", size := some 2, align := none, tag := "", comment := "" }

theorem layoutSize_insert_le_emptyWord :
    ((∃ k : Nat, Abi.amd64.maxAlign = 2 ^ k) ∧
      ∀ g ∈ [flag] ++ emptyWord :: [unaligned, flag], g.IsBinary) ∧
    ∃ size more, layoutSize .amd64 ([flag] ++ [unaligned, flag]) = .ok size ∧
      layoutSize .amd64 ([flag] ++ emptyWord :: [unaligned, flag]) = .ok more ∧ size ≤ more := by
  have hmax : ∃ k : Nat, Abi.amd64.maxAlign = 2 ^ k := ⟨3, rfl⟩
  have hflag : flag.IsBinary := ⟨rfl, by decide, by rintro _ ⟨⟩; exact .inr ⟨0, rfl⟩⟩
  have hword : emptyWord.IsBinary := ⟨rfl, by decide, by rintro _ ⟨⟩; exact .inr ⟨3, rfl⟩⟩
  have hnone : unaligned.IsBinary := ⟨rfl, by decide, by rintro _ ⟨⟩⟩
  have h : ∀ g ∈ [flag] ++ emptyWord :: [unaligned, flag], g.IsBinary := by
    simp [hflag, hword, hnone]
  exact ⟨⟨hmax, h⟩, layoutSize_insert_le .amd64 hmax [flag] [unaligned, flag] emptyWord h⟩

example : structSize .amd64 [flag, unaligned, flag] = 4 ∧
    structSize .amd64 [flag, emptyWord, unaligned, flag] = 8 := by decide

end StructLayout
