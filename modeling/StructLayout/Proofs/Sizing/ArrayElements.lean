import Mathlib.Tactic.Ring
import StructLayout.Proofs.Layout.LeastSize
import StructLayout.Proofs.Sizing.History

/-!
# Arrays and structs of one type

The elements of an array follow each other without padding, while the fields of a struct start at
multiples of their alignment.  The two agree where the size of the type is a multiple of its alignment.
On the known platforms a size is a multiple of the alignment as far as the platform goes
(`Sized.isRounded`), because the size of a struct is rounded up to an alignment that the platform
limits, and its own alignment is not limited.

The main statement is `layoutWithin_arrayText`: what an array is laid out like, what a struct of as many
fields is laid out like, and when the two have the same size.  They differ for structs that hold one of
the types aligned to eight bytes everywhere, on platforms that align to four
(`waitGroups_not_aligned`).
-/

namespace StructLayout

theorem Abi.known_bytes : ∀ abi ∈ Abi.known, (abi.wordSize = 4 ∨ abi.wordSize = 8) ∧
    (abi.maxAlign = 4 ∨ abi.maxAlign = 8) ∧ abi.wordSize ≤ abi.maxAlign := by decide

theorem padding_eq_zero_iff {offset align : Int} (h : 0 < align) :
    padding offset align = 0 ↔ align ∣ offset := by
  refine ⟨fun hp => ?_, padding_of_dvd⟩
  simpa [hp] using padding_dvd h offset

theorem padding_add {offset align : Int} (h : align ∣ offset) (bytes : Int) :
    padding (offset + bytes) align = padding bytes align := by
  obtain ⟨k, rfl⟩ := h
  simp only [padding, Int.mul_add_emod_self_left]

namespace Sizing

open Source

variable {abi : Abi} {scope : Scope} {l : TypeLayout}

@[simp] theorem TypeLayout.asField_bytes (l : TypeLayout) : l.asField.bytes = l.size := rfl

@[simp] theorem TypeLayout.asField_alignment (l : TypeLayout) : l.asField.alignment = l.align := rfl

/-! ### Rounded layouts -/

/-- A layout is aligned to a power of two up to eight, and its size is rounded up to its alignment as
far as the platform goes. -/
structure TypeLayout.IsRounded (abi : Abi) (l : TypeLayout) : Prop where
  align : l.align = 1 ∨ l.align = 2 ∨ l.align = 4 ∨ l.align = 8
  size : min l.align abi.maxAlign ∣ l.size

instance : Decidable (l.IsRounded abi) :=
  decidable_of_iff (_ ∧ _) ⟨fun h => ⟨h.1, h.2⟩, fun h => ⟨h.align, h.size⟩⟩

theorem TypeLayout.IsRounded.align_pos (h : l.IsRounded abi) : 0 < l.align := by
  have := h.align
  omega

/-- On a platform that aligns to eight bytes, and for a type that needs no more than four, the size is a
multiple of the alignment. -/
theorem TypeLayout.IsRounded.align_dvd (h : l.IsRounded abi) (hk : abi ∈ Abi.known)
    (hm : abi.maxAlign = 8 ∨ l.align ≤ 4) : l.align ∣ l.size := by
  have hmin : min l.align abi.maxAlign = l.align := by
    have := Abi.known_bytes abi hk
    have := h.align
    omega
  have hs := h.size
  rwa [hmin] at hs

theorem isRounded_words (hk : abi ∈ Abi.known) (count : Int) :
    (wordsLayout abi count).IsRounded abi := by
  obtain ⟨hw, -, hle⟩ := Abi.known_bytes abi hk
  refine ⟨?_, ?_⟩
  · simp only [wordsLayout]
    omega
  · simp only [wordsLayout, min_eq_left hle]
    exact Int.dvd_mul_left count abi.wordSize

theorem isRounded_word (hk : abi ∈ Abi.known) : (wordLayout abi).IsRounded abi := by
  simpa [wordsLayout, wordLayout] using isRounded_words hk 1

theorem isRounded_fixed (hk : abi ∈ Abi.known) {name : String} (h : fixedLayout? abi name = some l) :
    l.IsRounded abi := by
  have hbasic : ∀ abi ∈ Abi.known, ∀ p ∈ basicSizes, (basicLayout abi p.2
      (if complexTypes.contains p.1 then p.2 / 2 else p.2)).IsRounded abi := by decide +kernel
  have hatomic : ∀ abi ∈ Abi.known, ({ size := 8, align := 8 } : TypeLayout).IsRounded abi := by decide
  rcases fixedLayout?_cases h with ⟨size, hm, rfl⟩ | ⟨-, rfl⟩ | ⟨-, rfl⟩ | ⟨-, rfl⟩
  · exact hbasic abi hk (name, size) hm
  · exact isRounded_word hk
  · exact isRounded_words hk 2
  · exact hatomic abi hk

theorem isRounded_array (length : Int) (h : l.IsRounded abi) : (arrayLayout length l).IsRounded abi := by
  refine ⟨h.align, ?_⟩
  simp only [arrayLayout]
  split
  · exact Int.dvd_zero _
  · exact Int.dvd_mul_of_dvd_left h.size

/-- The size of a struct is rounded up to the alignment of its fields, as far as the platform goes. -/
theorem isRounded_struct {ls : List TypeLayout} (h : ∀ l ∈ ls, l.IsRounded abi) :
    (structLayout abi ls).IsRounded abi := by
  refine ⟨?_, ?_⟩
  · simp only [structLayout]
    induction ls with
    | nil => exact .inl rfl
    | cons l ls ih =>
        obtain ⟨hl, hls⟩ := List.forall_mem_cons.1 h
        have hfirst := hl.align
        have hrest := ih hls
        simp only [List.map_cons, largestAlignment, TypeLayout.asField_alignment]
        omega
  · exact padding_dvd (one_le_effectiveAlignment abi _) _

/-- Every layout that can be derived on a known platform is rounded. -/
theorem Sized.isRounded (hk : scope.abi ∈ Abi.known) {n : Nat} {tree : TypeTree}
    (h : Sized scope n tree l) : l.IsRounded scope.abi := by
  induction h with
  | group _ ih => exact ih
  | fixed _ hf => exact isRounded_fixed hk hf
  | instantiated => exact isRounded_word hk
  | declared _ _ _ _ _ ih => exact ih
  | word => exact isRounded_word hk
  | slice => exact isRounded_words hk 3
  | interface => exact isRounded_words hk 2
  | array _ _ ih => exact isRounded_array _ ih
  | @struct _ _ fields ls _ hlen _ ih =>
      refine isRounded_struct fun l hl => ?_
      rw [← List.map_snd_zip (Nat.le_of_eq hlen.symm)] at hl
      obtain ⟨p, hp, rfl⟩ := List.mem_map.1 hl
      exact ih p hp

/-! ### Structs of equal fields -/

/-- Behind a field of the same type, the padding is what the size of the type lacks to a multiple of its
alignment. -/
theorem gapAfter_asField {offset : Int} (h : l.align ∣ offset) :
    l.asField.gapAfter (offset + l.size) = padding l.size l.align := by
  by_cases hs : l.size = 0
  · simp [Field.gapAfter, Field.isEmpty, hs, padding_of_dvd]
  · simp [Field.gapAfter, Field.isEmpty, hs, padding_add h]

theorem endFrom_replicate (ha : 0 < l.align) (n : Nat) {offset : Int} (h : l.align ∣ offset) :
    endFrom (offset + l.size) (List.replicate n l.asField) =
      offset + l.size + n * (l.size + padding l.size l.align) := by
  induction n generalizing offset with
  | zero => simp [endFrom]
  | succ n ih =>
      have hnext : l.align ∣ offset + (l.size + padding l.size l.align) :=
        Int.dvd_add h (padding_dvd ha l.size)
      have hstep : offset + l.size + padding l.size l.align + l.asField.bytes =
          offset + (l.size + padding l.size l.align) + l.size := by
        rw [TypeLayout.asField_bytes]
        ring
      rw [List.replicate_succ, endFrom, gapAfter_asField h, hstep, ih hnext]
      push_cast
      ring

theorem largestAlignment_replicate (ha : 0 < l.align) (n : Nat) :
    largestAlignment (List.replicate (n + 1) l.asField) = l.align := by
  induction n with
  | zero =>
      simp only [List.replicate_succ, List.replicate_zero, largestAlignment,
        TypeLayout.asField_alignment]
      omega
  | succ n ih =>
      rw [List.replicate_succ, largestAlignment, ih, TypeLayout.asField_alignment, max_self]

/-- A struct of fields of one type has padding in front of all of them but the first, and none at its
end. -/
theorem structSize_replicate (hk : abi ∈ Abi.known) (h : l.IsRounded abi) (n : Nat) :
    structSize abi (List.replicate (n + 1) l.asField) =
      (n + 1) * l.size + n * padding l.size l.align := by
  have ha := h.align_pos
  have hend : endFrom 0 (List.replicate (n + 1) l.asField) =
      l.size + n * (l.size + padding l.size l.align) := by
    have hfirst : l.asField.gapAfter 0 = 0 := Field.gapAfter_of_dvd (Int.dvd_zero _)
    have hrest := endFrom_replicate ha n (Int.dvd_zero l.align)
    rw [Int.zero_add] at hrest
    rw [List.replicate_succ, endFrom, hfirst, TypeLayout.asField_bytes, Int.add_zero, Int.zero_add,
      hrest]
  have hround : min l.align abi.maxAlign ∣ l.size + n * (l.size + padding l.size l.align) := by
    have hmin : min l.align abi.maxAlign ∣ l.align := by
      have hm := (Abi.known_bytes abi hk).2.1
      have ha := h.align
      rcases ha with ha | ha | ha | ha <;> rcases hm with hm | hm <;> rw [ha, hm] <;> decide
    refine Int.dvd_add h.size (Int.dvd_mul_of_dvd_right ?_)
    exact Int.dvd_trans hmin (padding_dvd ha l.size)
  simp only [structSize, effectiveAlignment, largestAlignment_replicate ha, hend,
    padding_of_dvd hround]
  ring

/-! ### Texts of arrays -/

def arrayText (length : Decimal) (element : String) : String :=
  String.ofList ('[' :: (length.chars ++ ']' :: element.toList))

theorem parse_arrayText {length : Decimal} (hs : length.digitChars.length ≤ Text.digitLimit)
    (element : String) :
    TypeTree.parse (arrayText length element).toList =
      .array (Text.trimmed (arrayText length element)) length.value
        (TypeTree.parse element.toList) := by
  have hparse := parse_bracketed length element.toList
  simp only [if_pos hs] at hparse
  rwa [Text.trimmed, arrayText, String.toList_ofList]

/-! ### Sizing arrays -/

namespace Sizer

variable {s : Sizer} {limit : Nat} {length : Decimal} {element : String}

/-- Where there is room for an array at all, it is not nested too deeply for a sizer that remembers the
type of its elements. -/
theorem isTooDeep_arrayText (hroom : partLevels ≤ limit)
    (hs : length.digitChars.length ≤ Text.digitLimit)
    (hp : Text.trimmed (arrayText length element) ∉ s.scope.typeParams)
    (hm : Text.trimmed element ∈ s.cache.map Prod.fst) :
    s.isTooDeep limit (arrayText length element) = false := by
  have hdepth : ¬ limit < 0 := by omega
  have hin : ((TypeTree.parse element.toList).descend s.scope limit
      (s.scope.descender limit [])
      (0 + partLevels)).run.run (s.cache.map Prod.fst) = (.ok (), s.cache.map Prod.fst) := by
    rw [← Scope.descend_eq]
    refine run_descend_known [] (by omega) ?_
    rwa [TypeTree.text_parse]
  have hc : s.scope.typeParams.contains (Text.trimmed (arrayText length element)) = false := by
    simpa using hp
  rw [isTooDeep_eq_false_iff, Sizer.descent, parse_arrayText hs, Scope.descend_eq]
  simp only [TypeTree.descend, visitUnlessParam, hc, Bool.false_eq_true, if_false]
  by_cases hk : Text.trimmed (arrayText length element) ∈ s.cache.map Prod.fst
  · rw [run_visit_known _ hdepth hk]
    simp
  · rw [run_visit_ok hdepth hk hin]
    simp

theorem IsSound.layoutWithin_array (hsound : s.IsSound)
    (h : (s.layoutWithin limit element).1 = .ok l)
    (hs : length.digitChars.length ≤ Text.digitLimit)
    (hp : Text.trimmed (arrayText length element) ∉ s.scope.typeParams) :
    let array := arrayText length element
    let found : TypeLayout := { size := length.value * l.size, align := l.align }
    ((s.layoutWithin limit array).1 = .ok found ∨ (s.layoutWithin limit array).1 = .error tooDeep) ∧
      (partLevels ≤ limit →
        ((s.layoutWithin limit element).2.layoutWithin limit array).1 = .ok found) := by
  intro array found
  obtain ⟨k, hk⟩ := (hsound.obeys limit element).derived l h
  have harray : Sized s.scope (k + partLevels) (TypeTree.parse array.toList) found := by
    have hlayout : arrayLayout length.value l = found := arrayLayout_natCast length.value l
    rw [parse_arrayText hs, ← hlayout]
    exact .array hp hk
  refine ⟨(hsound.obeys limit array).complete _ _ harray, fun hroom => ?_⟩
  obtain ⟨hl, hsnd⟩ := layoutOf_of_layoutWithin h
  have hafter := hsound.layoutOf element
  have hshallow : (s.layoutOf element).2.isTooDeep limit array = false :=
    isTooDeep_arrayText hroom hs hp (hsound.mem_cache_layoutOf hl)
  rw [hsnd, layoutWithin_fst, hshallow, layoutOf_of_sized hafter.remembers harray]
  rfl

end Sizer

/-! ### Arrays and structs -/

/-- A struct of fields of one type is as large as the fields together if there is one field, or if the
size of the type is a multiple of its alignment. -/
theorem layoutSize_replicate (hk : abi ∈ Abi.known) (h : l.IsRounded abi) {n : Nat} (hn : 1 ≤ n) :
    layoutSize abi (List.replicate n l.asField) =
        .ok (n * l.size + (n - 1) * padding l.size l.align) ∧
      (layoutSize abi (List.replicate n l.asField) = .ok (n * l.size) ↔ n = 1 ∨ l.align ∣ l.size) := by
  obtain ⟨m, rfl⟩ := Nat.exists_eq_add_of_le' hn
  have ha := h.align_pos
  have hsized : ∀ f ∈ List.replicate (m + 1) l.asField, f.isSized = true := by
    intro f hf
    rw [List.eq_of_mem_replicate hf]
    rfl
  have hsize : layoutSize abi (List.replicate (m + 1) l.asField) =
      .ok ((m + 1 : Nat) * l.size + ((m + 1 : Nat) - 1) * padding l.size l.align) := by
    rw [layoutSize_of_isSized abi hsized, structSize_replicate hk h]
    simp
  refine ⟨hsize, ?_⟩
  rw [hsize, Except.ok.injEq, add_eq_left, mul_eq_zero, padding_eq_zero_iff ha]
  have hone : ((m + 1 : Nat) : Int) - 1 = 0 ↔ m + 1 = 1 := by omega
  rw [hone]

/-- Elements without padding between them all start at multiples of their alignment if there is one, or
if the size of their type is such a multiple. -/
theorem forall_dvd_mul_size_iff {n : Nat} (hn : 1 ≤ n) (align size : Int) :
    (∀ i < n, align ∣ (i : Int) * size) ↔ n = 1 ∨ align ∣ size := by
  constructor
  · intro h
    rcases Nat.eq_or_lt_of_le hn with h1 | h1
    · exact .inl h1.symm
    · exact .inr (by simpa using h 1 h1)
  · rintro (rfl | hd) i hi
    · rw [Nat.lt_one_iff.1 hi]
      simp
    · exact Int.dvd_mul_of_dvd_right hd

/-- On a known platform an array of a type that was sized takes its length times the size of the type,
and has the alignment of the type: it is given up on at most for its depth, and the sizer that has just
sized the type does so only where there is no room for any array.  A struct of as many fields of the
type has the padding in front of its fields besides.  So the two have one size, and all elements of the
array are aligned, if there is one element or the size of the type is a multiple of its alignment; which
it is on every platform that aligns to eight bytes, and elsewhere for every type that is aligned to no
more than four. -/
theorem layoutWithin_arrayText (hk : scope.abi ∈ Abi.known) (history : List (Nat × Sizer.Query))
    {limit : Nat} {element : String} {length : Decimal}
    (hl : (((Sizer.ofScope scope).after history).layoutWithin limit element).1 = .ok l)
    (hs : length.digitChars.length ≤ Text.digitLimit) (hn : 1 ≤ length.value)
    (hp : Text.trimmed (arrayText length element) ∉ scope.typeParams) :
    let s := (Sizer.ofScope scope).after history
    let array := arrayText length element
    let n := length.value
    let found : TypeLayout := { size := n * l.size, align := l.align }
    let asStruct := layoutSize scope.abi (List.replicate n l.asField)
    let fits := n = 1 ∨ l.align ∣ l.size
    ((s.layoutWithin limit array).1 = .ok found ∨
        (s.layoutWithin limit array).1 = .error Sizer.tooDeep) ∧
      (partLevels ≤ limit →
        ((s.layoutWithin limit element).2.layoutWithin limit array).1 = .ok found) ∧
      asStruct = .ok (found.size + (n - 1) * padding l.size l.align) ∧
      (asStruct = .ok found.size ↔ fits) ∧
      ((∀ i < n, l.align ∣ (i : Int) * l.size) ↔ fits) ∧
      (scope.abi.maxAlign = 8 ∨ l.align ≤ 4 → l.align ∣ l.size) := by
  intro s array n found asStruct fits
  obtain ⟨hsound, hscope⟩ := (Sizer.isSound_ofScope scope).after history
  have hscope : s.scope = scope := hscope
  obtain ⟨hfound, hnext⟩ := hsound.layoutWithin_array hl hs (hscope.symm ▸ hp)
  obtain ⟨k, hsized⟩ := (hsound.obeys limit element).derived l hl
  rw [hscope] at hsized
  have hround : l.IsRounded scope.abi := hsized.isRounded hk
  obtain ⟨hstruct, hfits⟩ := layoutSize_replicate hk hround hn
  exact ⟨hfound, hnext, hstruct, hfits, forall_dvd_mul_size_iff hn _ _, hround.align_dvd hk⟩

/-! ### Wait groups -/

def Decimal.digit (c : Char) (hd : c.isDigit = true) (hne : c ≠ '0') : Decimal where
  chars := [c]
  digits := List.forall_mem_singleton.2 (.inl hd)
  leading := .inr ⟨c, [], rfl, hd, hne⟩

def bareScope (abi : Abi) : Scope := { abi, localTypes := [], genericTypes := [], typeParams := [] }

def waitGroupFields : List Char :=
  "noCopy struct".toList ++ '\x7b' :: ([] ++ '\x7d' :: "; state atomic.Uint64; sema uint32".toList)

theorem isNested_waitGroupFields : IsNested (fun _ => True) waitGroupFields := by
  have hback : IsNested (fun _ => True) "; state atomic.Uint64; sema uint32".toList :=
    .of_plain (by decide)
  exact .append (.of_plain (by decide)) (.bracket_append rfl (@IsNested.nil fun _ => True) hback)

theorem parse_waitGroup :
    TypeTree.parse "struct\x7bnoCopy struct\x7b\x7d; state atomic.Uint64; sema uint32\x7d".toList =
      .struct "struct\x7bnoCopy struct\x7b\x7d; state atomic.Uint64; sema uint32\x7d"
        [.struct "struct\x7b\x7d" [], .name "atomic.Uint64", .name "uint32"] := by
  have htypes : (fieldList waitGroupFields).map (·.typeExpr.toList) =
      ["struct\x7b\x7d".toList, "atomic.Uint64".toList, "uint32".toList] := by decide +kernel
  have hempty : TypeTree.parse "struct\x7b\x7d".toList = .struct "struct\x7b\x7d" [] :=
    parse_structText .nil
  have hstate : TypeTree.parse "atomic.Uint64".toList = .name "atomic.Uint64" :=
    (TypeTree.parse_bare (show Text.trim _ = "atomic.Uint64".toList from rfl) (by decide)).trans rfl
  have hsema : TypeTree.parse "uint32".toList = .name "uint32" :=
    (TypeTree.parse_bare (show Text.trim _ = "uint32".toList from rfl) (by decide)).trans rfl
  have hfields : (fieldList waitGroupFields).map (fun d => TypeTree.parse d.typeExpr.toList) =
      [.struct "struct\x7b\x7d" [], .name "atomic.Uint64", .name "uint32"] := by
    have hmap := congrArg (List.map TypeTree.parse) htypes
    rw [List.map_map, List.map_cons, List.map_cons, List.map_singleton, hempty, hstate, hsema] at hmap
    exact hmap
  have htext : structWord ++ '\x7b' :: (waitGroupFields ++ ['\x7d']) =
      "struct\x7bnoCopy struct\x7b\x7d; state atomic.Uint64; sema uint32\x7d".toList := by decide
  have hparse := parse_structText isNested_waitGroupFields
  rwa [hfields, htext, String.ofList_toList] at hparse

theorem sized_waitGroup (abi : Abi) :
    Sized (bareScope abi) 9 (TypeTree.parse "sync.WaitGroup".toList)
      (structLayout abi [structLayout abi [], { size := 8, align := 8 }, basicLayout abi 4 4]) := by
  have hname : TypeTree.parse "sync.WaitGroup".toList = .name "sync.WaitGroup" :=
    (TypeTree.parse_bare (show Text.trim _ = "sync.WaitGroup".toList from rfl) (by decide)).trans rfl
  have hnot (text : String) : text ∉ (bareScope abi).typeParams := by simp [bareScope]
  have hempty : Sized (bareScope abi) 3 (.struct "struct\x7b\x7d" []) (structLayout abi []) :=
    .struct (n := 0) (hnot _) rfl (List.forall_mem_nil _)
  have hstate : Sized (bareScope abi) 3 (.name "atomic.Uint64") { size := 8, align := 8 } :=
    .fixed (hnot _) rfl
  have hsema : Sized (bareScope abi) 3 (.name "uint32") (basicLayout abi 4 4) :=
    .fixed (hnot _) rfl
  rw [hname]
  refine .declared (n := 6) (hnot _) rfl (by decide) rfl ?_
  rw [parse_waitGroup]
  refine .struct (n := 3) (hnot _) rfl ?_
  exact List.forall_mem_cons.2
    ⟨hempty, List.forall_mem_cons.2 ⟨hstate, List.forall_mem_singleton.2 hsema⟩⟩

/-- Where alignments go up to eight bytes, three wait groups are an array like a struct. -/
theorem layoutWithin_arrayText_waitGroups :
    let s := (Sizer.ofScope (bareScope .amd64)).after [(5, .size "[3]sync.WaitGroup")]
    let group : TypeLayout := { size := 16, align := 8 }
    (s.layoutWithin 9 "sync.WaitGroup").1 = .ok group ∧
      Text.trimmed "[3]sync.WaitGroup" ∉ (bareScope .amd64).typeParams ∧
      ((s.layoutWithin 9 "sync.WaitGroup").2.layoutWithin 9 "[3]sync.WaitGroup").1 =
        .ok { size := 48, align := 8 } ∧
      layoutSize .amd64 (List.replicate 3 group.asField) = .ok 48 ∧
      ∀ i : Nat, i < 3 → (8 : Int) ∣ i * 16 := by
  intro s group
  have hk : (bareScope .amd64).abi ∈ Abi.known := by decide
  obtain ⟨hsound, hscope⟩ :=
    (Sizer.isSound_ofScope (bareScope .amd64)).after [(5, .size "[3]sync.WaitGroup")]
  have hscope : s.scope = bareScope .amd64 := hscope
  have hsized : Sized s.scope 9 (TypeTree.parse "sync.WaitGroup".toList) group := by
    rw [hscope]
    exact sized_waitGroup .amd64
  have hl : (s.layoutWithin 9 "sync.WaitGroup").1 = .ok group :=
    Sizer.layoutWithin_of_sized hsound.remembers hsized (by decide)
  have hp : Text.trimmed "[3]sync.WaitGroup" ∉ (bareScope .amd64).typeParams := by simp [bareScope]
  let three := Decimal.digit '3' rfl (by decide)
  obtain ⟨-, hnext, hstruct, -, haligned, hdvd⟩ := layoutWithin_arrayText hk
    [(5, .size "[3]sync.WaitGroup")] hl (show three.digitChars.length ≤ Text.digitLimit by decide)
    (by decide) hp
  have hbytes : (three.value * group.size + (three.value - 1) * padding group.size group.align : Int) =
      48 := by decide
  exact ⟨hl, hp, hnext (by decide), hstruct.trans (congrArg Except.ok hbytes),
    haligned.2 (.inr (hdvd (.inl rfl)))⟩

/-- The first of the known platforms, which aligns to four bytes. -/
def narrowAbi : Abi := Abi.known.headD .amd64

/-- Where alignments go up to four bytes, the size of a wait group is no multiple of its alignment, so
the second of two in an array is not aligned as it is in a struct. -/
theorem waitGroups_not_aligned :
    let s := Sizer.ofScope (bareScope narrowAbi)
    let group : TypeLayout := { size := 12, align := 8 }
    narrowAbi ∈ Abi.known ∧
      (∀ limit, 9 + partLevels ≤ limit →
        (s.layoutWithin limit "sync.WaitGroup").1 = .ok group ∧
          (s.layoutWithin limit "[2]sync.WaitGroup").1 = .ok { size := 24, align := 8 }) ∧
      layoutSize narrowAbi (List.replicate 2 group.asField) = .ok 28 ∧ ¬ (8 : Int) ∣ 1 * 12 := by
  intro s group
  have hsized : Sized s.scope 9 (TypeTree.parse "sync.WaitGroup".toList) group :=
    sized_waitGroup narrowAbi
  have hp : Text.trimmed "[2]sync.WaitGroup" ∉ (bareScope narrowAbi).typeParams := by simp [bareScope]
  let two := Decimal.digit '2' rfl (by decide)
  have harray : Sized s.scope (9 + partLevels)
      (TypeTree.parse (arrayText two "sync.WaitGroup").toList) { size := 24, align := 8 } := by
    rw [parse_arrayText (by decide)]
    exact .array hp hsized
  refine ⟨by decide, fun limit hroom => ⟨?_, ?_⟩, by decide, by decide⟩
  · exact Sizer.layoutWithin_of_sized (remembers_nil _) hsized (by omega)
  · exact Sizer.layoutWithin_of_sized (remembers_nil _) harray hroom

end Sizing

end StructLayout
