import Mathlib.Data.List.TakeWhile
import StructLayout.Proofs.Sizing.Derivation
import StructLayout.Proofs.Sizing.TypeSyntax

/-!
# Sizing written types

Sizing works on text.  A type that is written as its syntax tree says is taken apart again along the
tree: its brackets are matched, the entries of a struct are split and read, and the types found there
are sized in turn after they have been tidied.

The main statement is `layoutWithin_text`: the text of a type is given the layout of its tree, unless
it is nested too deeply.  It asks that array lengths have no more digits than are read
(`TypeSyntax.HasShortLengths`), and names are made of ASCII characters; `layoutWithin_limits` shows
what happens otherwise.
-/

namespace StructLayout.Sizing

open Source

/-! ### Array lengths -/

theorem forall_isDigit {p : Char → Prop} (h : ∀ n < 10, p (Char.ofNat (48 + n))) {c : Char}
    (hc : c.isDigit = true) : p c := by
  simp only [Char.isDigit, Bool.and_eq_true, decide_eq_true_eq, ge_iff_le,
    UInt32.le_iff_toNat_le] at hc
  have hb : 48 ≤ c.toNat ∧ c.toNat ≤ 57 := hc
  have hn := h (c.toNat - 48) (by omega)
  rwa [Nat.add_sub_cancel' hb.1, Char.ofNat_toNat] at hn

/-- A digit as the reader of literals sees it. -/
def ReadsAsDigit (c : Char) : Prop :=
  Text.toAsciiDigit c = c ∧ Text.isNumberSpace c = false ∧ c ≠ '_' ∧ c ≠ '-' ∧ c ≠ '+' ∧
    c ≠ 'x' ∧ c ≠ 'X' ∧ c ≠ 'o' ∧ c ≠ 'O' ∧ c ≠ 'b' ∧ c ≠ 'B' ∧
    Text.baseDigit? 10 c = some (c.toNat - '0'.toNat)

instance (c : Char) : Decidable (ReadsAsDigit c) := inferInstanceAs (Decidable (_ ∧ _))

theorem readsAsDigit_of_isDigit {c : Char} (h : c.isDigit = true) : ReadsAsDigit c :=
  @forall_isDigit ReadsAsDigit (by decide) c h

section Digits

variable {cs : List Char} (h : ∀ c ∈ cs, ReadsAsDigit c)
include h

theorem trimNumber_digits : Text.trimNumber cs = cs := by
  have key {ds : List Char} (hd : ∀ c ∈ ds, ReadsAsDigit c) :
      ds.dropWhile Text.isNumberSpace = ds := by
    cases ds with
    | nil => rfl
    | cons c ds => simp [(hd c (by simp)).2.1]
  rw [Text.trimNumber, key h, key fun c hc => h c (List.mem_reverse.1 hc), List.reverse_reverse]

theorem map_toAsciiDigit_digits : cs.map Text.toAsciiDigit = cs := by
  have hm := List.map_congr_left fun c hc => (h c hc).1
  rw [hm, List.map_id']

theorem hasSingleUnderscores_digits (hne : cs ≠ []) (mayStart : Bool) :
    Text.hasSingleUnderscores mayStart cs = true := by
  induction cs generalizing mayStart with
  | nil => exact absurd rfl hne
  | cons c cs ih =>
      have hc := (h c (by simp)).2.2.1
      cases cs with
      | nil => simp [Text.hasSingleUnderscores, hc]
      | cons d ds =>
          rw [Text.hasSingleUnderscores, if_neg hc]
          exact ih (fun e he => h e (by simp [he])) (List.cons_ne_nil _ _) true

theorem digitsValue_digits (value : Nat) :
    Text.digitsValue 10 value cs =
      cs.foldl (fun value c => 10 * value + (c.toNat - '0'.toNat)) value := by
  induction cs generalizing value with
  | nil => rfl
  | cons c cs ih =>
      have hc := (h c (by simp)).2.2.2.2.2.2.2.2.2.2.2
      have hrest := ih (fun d hd => h d (by simp [hd]))
      simp only [Text.digitsValue, List.foldl_cons, hc, Option.getD_some] at hrest ⊢
      rw [hrest, Nat.mul_comm value 10]

theorem readGrouped_digits (hne : cs ≠ []) :
    Text.readGrouped 10 cs =
      if cs.length ≤ Text.digitLimit then
        .ok (cs.foldl (fun value c => 10 * value + (c.toNat - '0'.toNat)) 0)
      else .error (.tooManyDigits cs.length) := by
  have hrun : cs.takeWhile (fun c => c = '_' || (Text.baseDigit? 10 c).isSome) = cs := by
    refine List.takeWhile_eq_self_iff.2 fun c hc => ?_
    simp [(h c hc).2.2.2.2.2.2.2.2.2.2.2]
  have hfilter : cs.filter (· != '_') = cs := by
    refine List.filter_eq_self.2 fun c hc => ?_
    simpa using (h c hc).2.2.1
  simp only [Text.readGrouped, hrun, hfilter, hasSingleUnderscores_digits h hne false,
    digitsValue_digits h]
  by_cases hl : cs.length ≤ Text.digitLimit
  · simp [hl, Nat.not_lt.2 hl]
  · simp [hl, Nat.not_le.1 hl]

end Digits

namespace Decimal

variable (n : Decimal)

theorem readsAsDigit {c : Char} (h : c ∈ n.digitChars) : ReadsAsDigit c := by
  obtain ⟨hc, hu⟩ := List.mem_filter.1 h
  rcases n.digits c hc with hd | rfl
  · exact readsAsDigit_of_isDigit hd
  · cases hu

theorem digitChars_ne_nil : n.digitChars ≠ [] := by
  obtain ⟨c, rest, hc, hd⟩ := n.exists_cons
  have hu : (c != '_') = true := by
    simpa using (readsAsDigit_of_isDigit hd).2.2.1
  simp [digitChars, hc, hu]

theorem value_eq_zero_of_head (h : n.digitChars.head? = some '0') : n.value = 0 := by
  rcases n.leading with hz | ⟨c, rest, hc, hd, hne⟩
  · simp [value, digitChars, hz]
  · have hu : (c != '_') = true := by
      simpa using (readsAsDigit_of_isDigit hd).2.2.1
    simp only [digitChars, hc, List.filter_cons, hu, if_true, List.head?_cons] at h
    exact absurd (Option.some.inj h) hne

/-- A literal of decimal digits is read as a decimal number. -/
theorem readBased_digitChars :
    Text.readBased n.digitChars =
      if n.digitChars.length ≤ Text.digitLimit then .ok n.value
      else .error (.tooManyDigits n.digitChars.length) := by
  have hdigits : ∀ c ∈ n.digitChars, ReadsAsDigit c := fun c hc => n.readsAsDigit hc
  have hgroup : Text.readGrouped 10 n.digitChars =
      if n.digitChars.length ≤ Text.digitLimit then .ok n.value
      else .error (.tooManyDigits n.digitChars.length) :=
    readGrouped_digits hdigits n.digitChars_ne_nil
  have hzero := n.value_eq_zero_of_head
  have hno {c : Char} {rest : List Char} (he : n.digitChars = '0' :: c :: rest) : ReadsAsDigit c :=
    hdigits c (by simp [he])
  unfold Text.readBased
  split
  · next he => exact absurd rfl (hno he).2.2.2.2.2.1
  · next he => exact absurd rfl (hno he).2.2.2.2.2.2.1
  · next he => exact absurd rfl (hno he).2.2.2.2.2.2.2.1
  · next he => exact absurd rfl (hno he).2.2.2.2.2.2.2.2.1
  · next he => exact absurd rfl (hno he).2.2.2.2.2.2.2.2.2.1
  · next he => exact absurd rfl (hno he).2.2.2.2.2.2.2.2.2.2.1
  · rw [hgroup]
    by_cases hl : n.digitChars.length ≤ Text.digitLimit
    · simp only [if_pos hl]
      change (if decide (n.digitChars.head? = some '0') && n.value != 0 then _
        else Except.ok n.value) = Except.ok n.value
      by_cases hh : n.digitChars.head? = some '0'
      · simp [hzero hh]
      · simp [hh]
    · simp only [if_neg hl]
      rfl

theorem readLiteral?_chars :
    Text.readLiteral? n.chars =
      if n.digitChars.length ≤ Text.digitLimit then some (n.value : Int) else none := by
  have hdigits : ∀ c ∈ n.digitChars, ReadsAsDigit c := fun c hc => n.readsAsDigit hc
  have hbased := n.readBased_digitChars
  unfold Text.readLiteral?
  change (Text.readSigned Text.readBased
    ((Text.trimNumber n.digitChars).map Text.toAsciiDigit)).toOption = _
  rw [trimNumber_digits hdigits, map_toAsciiDigit_digits hdigits]
  unfold Text.readSigned
  split
  · next he => exact absurd rfl (hdigits '-' (by simp [he])).2.2.2.1
  · next he => exact absurd rfl (hdigits '+' (by simp [he])).2.2.2.2.1
  · rw [hbased]
    by_cases hl : n.digitChars.length ≤ Text.digitLimit
    · rw [if_pos hl, if_pos hl]
      rfl
    · rw [if_neg hl, if_neg hl]
      rfl

theorem trim_chars : Text.trim n.chars = n.chars := by
  have hne : n.chars ≠ [] := by
    obtain ⟨c, rest, hc, -⟩ := n.exists_cons
    simp [hc]
  exact (isTypeText_of_isPlain hne fun _ hc => n.isPlain hc).trim_eq

end Decimal

/-! ### Fields -/

theorem exists_inside_bracedText (spaced : Bool) {parts : List (List Char)}
    (h : ∀ part ∈ parts, IsPart part) :
    ∃ inside, bracedText spaced parts = '\x7b' :: (inside ++ ['\x7d']) ∧
      IsNested (fun _ => True) inside ∧ splitTopLevel entrySeparators inside = parts := by
  have hnested : IsNested (fun _ => True) ([';', ' '].intercalate parts) :=
    .intercalate (.of_plain (by decide)) fun part hp => (h part hp).nested.mono fun _ _ => trivial
  have hspace : IsNested (fun _ => True) [' '] := .of_plain (by decide)
  rcases List.eq_nil_or_concat parts with rfl | hcons
  · exact ⟨[], by cases spaced <;> rfl, .nil, rfl⟩
  have hne : parts ≠ [] := by
    obtain ⟨init, last, rfl⟩ := hcons
    simp
  have hempty : parts.isEmpty = false := by simpa using hne
  cases spaced with
  | false =>
      refine ⟨[';', ' '].intercalate parts, rfl, hnested, ?_⟩
      have hblank : ∀ c ∈ [], c = ' ' := List.forall_mem_nil _
      have hs := splitTopLevel_entries hne hblank hblank h
      rwa [List.nil_append, List.append_nil] at hs
  | true =>
      refine ⟨[' '] ++ ([';', ' '].intercalate parts ++ [' ']), ?_,
        hspace.append (hnested.append hspace), splitTopLevel_entries hne (by decide) (by decide) h⟩
      simp [bracedText, hempty]

/-! ### Shapes of written types -/

/-- Fields are read from what stands between the braces of a struct. -/
theorem parse_structText {inside : List Char} (h : IsNested (fun _ => True) inside) :
    TypeTree.parse (structWord ++ '\x7b' :: (inside ++ ['\x7d'])) =
      .struct (String.ofList (structWord ++ '\x7b' :: (inside ++ ['\x7d'])))
        ((fieldList inside).map fun d => TypeTree.parse d.typeExpr.toList) := by
  have htrim : Text.trim (structWord ++ '\x7b' :: (inside ++ ['\x7d'])) =
      's' :: (structWord.tail ++ '\x7b' :: (inside ++ ['\x7d'])) :=
    trim_of_firm ⟨'s', _, rfl, by decide⟩
      ⟨structWord ++ '\x7b' :: inside, '\x7d', by simp, by decide⟩
  have henc : enclosed? (('s' :: (structWord.tail ++ '\x7b' :: (inside ++ ['\x7d']))).dropWhile
      (· != '\x7b')) = some (inside, []) :=
    enclosed?_bracket rfl h []
  rw [TypeTree.parse_bare htrim (by decide), henc]
  rfl

/-- A type behind a length in brackets is read as an array if the length does not have too many digits. -/
theorem parse_bracketed (length : Decimal) (cs : List Char) :
    let text := String.ofList (Text.trim ('[' :: (length.chars ++ ']' :: cs)))
    TypeTree.parse ('[' :: (length.chars ++ ']' :: cs)) =
      if length.digitChars.length ≤ Text.digitLimit then
        .array text length.value (TypeTree.parse cs)
      else
        .malformed text ("array length " ++ Text.quoted (String.ofList length.chars) ++
          " is not a literal") := by
  intro text
  have hfirm : ∀ c ∈ length.chars, Text.isBlank c = false := fun c hc =>
    (startsFirm_of_isPlain (length.isPlain hc)).1
  have htrim : Text.trim ('[' :: (length.chars ++ ']' :: cs)) =
      '[' :: (length.chars ++ ']' :: Text.trimEnd cs) := by
    rw [Text.trim, Text.trimStart_eq_self (by decide), Text.trimEnd_cons (by decide),
      Text.trimEnd_append_left hfirm, Text.trimEnd_cons (by decide)]
  have hhead : ¬ (length.chars ++ ']' :: Text.trimEnd cs).head? = some ']' := by
    obtain ⟨c, rest, hc, hd⟩ := length.exists_cons
    rw [hc]
    rintro h
    obtain rfl : c = ']' := Option.some.inj h
    cases hd
  have henc : enclosed? ('[' :: (length.chars ++ ']' :: Text.trimEnd cs)) =
      some (length.chars, Text.trimEnd cs) :=
    enclosed?_bracket rfl (isNested_of_isPlain fun _ hc => length.isPlain hc) _
  have helement : TypeTree.parse (Text.trimEnd cs) = TypeTree.parse cs :=
    TypeTree.parse_congr (Text.trim_trimEnd cs)
  refine (TypeTree.parse_bare htrim (by decide)).trans ?_
  dsimp only
  rw [if_neg (by decide), if_pos rfl, if_neg hhead]
  simp only [henc, length.trim_chars, length.readLiteral?_chars]
  by_cases hl : length.digitChars.length ≤ Text.digitLimit
  · simp only [if_pos hl, helement, text, htrim]
  · simp only [if_neg hl, text, htrim]

namespace TypeSyntax

theorem trim_text (t : TypeSyntax) : Text.trim t.text = t.text := t.isTypeText.trim_eq

theorem compact_text (t : TypeSyntax) : compact t.text = t.tidied.text := by
  rw [t.isTypeText.compact_eq, t.tidy_text]

theorem parse_predeclared (p : Predeclared) :
    TypeTree.parse p.text.toList = .name p.text := by
  have ht := (TypeSyntax.predeclared p).trim_text
  cases p <;> exact (TypeTree.parse_bare ht (by decide)).trans rfl

theorem parse_pointer (target : TypeSyntax) :
    TypeTree.parse (pointer target).text = .word (String.ofList (pointer target).text) :=
  (TypeTree.parse_bare (trim_text (pointer target)) (by decide)).trans rfl

theorem parse_slice (element : TypeSyntax) :
    TypeTree.parse (slice element).text = .slice (String.ofList (slice element).text) :=
  (TypeTree.parse_bare (trim_text (slice element)) (by decide)).trans rfl

theorem parse_map (key value : TypeSyntax) :
    TypeTree.parse (map key value).text = .word (String.ofList (map key value).text) :=
  (TypeTree.parse_bare (trim_text (map key value)) (by decide)).trans rfl

theorem parse_channel (direction : Direction) (element : TypeSyntax) :
    TypeTree.parse (channel direction element).text =
      .word (String.ofList (channel direction element).text) := by
  have ht := trim_text (channel direction element)
  cases direction <;> exact (TypeTree.parse_bare ht (by decide)).trans rfl

theorem parse_function (params : Params) (results : Results) :
    TypeTree.parse (function params results).text =
      .word (String.ofList (function params results).text) :=
  (TypeTree.parse_bare (trim_text (function params results)) (by decide)).trans rfl

theorem parse_interface (spaced : Bool) (methods : Methods) :
    TypeTree.parse (interface spaced methods).text =
      .interface (String.ofList (interface spaced methods).text) :=
  (TypeTree.parse_bare (trim_text (interface spaced methods)) (by decide)).trans rfl

theorem parse_group (inner : TypeSyntax) :
    TypeTree.parse (group inner).text =
      .group (String.ofList (group inner).text) (TypeTree.parse inner.text) :=
  TypeTree.parse_group (trim_text (group inner)) (enclosed?_bracket rfl inner.isTypeText.nested [])

theorem parse_array (length : Decimal) (element : TypeSyntax) :
    TypeTree.parse (array length element).text =
      if length.digitChars.length ≤ Text.digitLimit then
        .array (String.ofList (array length element).text) length.value
          (TypeTree.parse element.text)
      else
        .malformed (String.ofList (array length element).text) ("array length " ++
          Text.quoted (String.ofList length.chars) ++ " is not a literal") := by
  have ht : Text.trim ('[' :: (length.chars ++ ']' :: element.text)) = (array length element).text :=
    trim_text (array length element)
  have hparse := parse_bracketed length element.text
  rwa [ht] at hparse

theorem parse_struct (spaced : Bool) (fields : Fields) :
    TypeTree.parse (struct spaced fields).text =
      .struct (String.ofList (struct spaced fields).text)
        ((fields.parts.flatMap (fieldEntry "" 0)).map fun d =>
          TypeTree.parse d.typeExpr.toList) := by
  obtain ⟨inside, hi, hn, hs⟩ := exists_inside_bracedText spaced fields.isPart
  rw [text, hi, parse_structText hn, fieldList, hs]

end TypeSyntax

/-! ### Fields -/

theorem fieldEntry_fieldText (comment : String) (line : Int) {names : List Identifier}
    (hn : names ≠ []) (t : TypeSyntax) (tag : Option RawTag) :
    fieldEntry comment line (fieldText names t.text tag) =
      names.map fun name => writtenField comment line tag name.chars t.tidied.text := by
  rw [← t.compact_text]
  exact fieldEntry_names (List.cons_ne_nil ' ' []) (by decide) (by decide) hn t.isTypeText tag
    comment line

variable {scope : Scope}

theorem sized_fields {n : Nat}
    (ih : ∀ t : TypeSyntax, t.levels ≤ n → t.HasShortLengths →
      Sized scope n (TypeTree.parse t.text) (t.layout scope.abi)) :
    ∀ fs : Fields, fs.levels ≤ n → fs.HaveShortLengths →
      let trees := (fs.parts.flatMap (fieldEntry "" 0)).map fun d =>
        TypeTree.parse d.typeExpr.toList
      trees.length = (fs.layouts scope.abi).length ∧
        ∀ p ∈ trees.zip (fs.layouts scope.abi), Sized scope n p.1 p.2
  | .nil, _, _ => ⟨rfl, List.forall_mem_nil _⟩
  | .cons first others type tag rest, hl, hs => by
      obtain ⟨hlen, hzip⟩ := sized_fields ih rest (Nat.le_trans (Nat.le_max_right _ _) hl) hs.2
      have htype : Sized scope n (TypeTree.parse type.tidied.text) (type.layout scope.abi) := by
        rw [← type.layout_tidied]
        refine ih type.tidied ?_ (.tidied type hs.1)
        rw [type.levels_tidied]
        exact Nat.le_trans (Nat.le_max_left _ _) hl
      have htrees : ((Fields.cons first others type tag rest).parts.flatMap (fieldEntry "" 0)).map
          (fun d => TypeTree.parse d.typeExpr.toList) =
            List.replicate (others.length + 1) (TypeTree.parse type.tidied.text) ++
              (rest.parts.flatMap (fieldEntry "" 0)).map fun d =>
                TypeTree.parse d.typeExpr.toList := by
        rw [Fields.parts, List.flatMap_cons, List.map_append,
          fieldEntry_fieldText "" 0 (List.cons_ne_nil first others) type tag, List.map_map]
        congr 1
        have hconst : (fun d : FieldDecl => TypeTree.parse d.typeExpr.toList) ∘
            (fun name : Identifier => writtenField "" 0 tag name.chars type.tidied.text) =
              fun _ => TypeTree.parse type.tidied.text := by
          funext name
          simp [writtenField]
        rw [hconst, List.map_const']
        rfl
      dsimp only
      rw [htrees, Fields.layouts]
      refine ⟨by simp [hlen], fun p hp => ?_⟩
      rw [List.zip_append (by simp)] at hp
      rcases List.mem_append.1 hp with hp | hp
      · obtain ⟨h1, h2⟩ := List.of_mem_zip hp
        rw [List.eq_of_mem_replicate h1, List.eq_of_mem_replicate h2]
        exact htype
      · exact hzip p hp

/-! ### Layouts -/

theorem Predeclared.fixedLayout?_text (abi : Abi) (p : Predeclared) :
    fixedLayout? abi p.text = some (p.layout abi) := by
  have hm := abi.maxAlign_pos
  have hb (size natural : Int) (h : 1 ≤ natural) :
      basicLayout abi size natural = { size, align := min natural abi.maxAlign } := by
    have : max 1 (min natural abi.maxAlign) = min natural abi.maxAlign := by omega
    rw [basicLayout, this]
  cases p <;> first | rfl | exact congrArg some (hb _ _ (by decide))

theorem arrayLayout_natCast (n : Nat) (l : TypeLayout) :
    arrayLayout n l = { size := n * l.size, align := l.align } := by
  rw [arrayLayout]
  split
  · next h =>
      have : n = 0 := by omega
      simp [this]
  · rw [Int.mul_comm]

theorem largestAlignment_asField (ls : List TypeLayout) :
    largestAlignment (ls.map TypeLayout.asField) = (ls.map (·.align)).foldr max 1 := by
  induction ls with
  | nil => rfl
  | cons l ls ih => simp only [List.map_cons, largestAlignment, ih, List.foldr_cons]; rfl

theorem sized_text (hp : scope.typeParams = []) {n : Nat} (t : TypeSyntax) (hl : t.levels ≤ n)
    (hs : t.HasShortLengths) : Sized scope n (TypeTree.parse t.text) (t.layout scope.abi) := by
  induction n using Nat.strongRecOn generalizing t with
  | _ n ih =>
  have hnot (text : String) : text ∉ scope.typeParams := by simp [hp]
  cases t with
  | predeclared p =>
      rw [TypeSyntax.text, TypeSyntax.parse_predeclared]
      exact .fixed (hnot _) (p.fixedLayout?_text scope.abi)
  | pointer target =>
      rw [TypeSyntax.parse_pointer]
      exact .word (hnot _)
  | slice element =>
      rw [TypeSyntax.parse_slice]
      exact .slice (hnot _)
  | map key value =>
      rw [TypeSyntax.parse_map]
      exact .word (hnot _)
  | channel direction element =>
      rw [TypeSyntax.parse_channel]
      exact .word (hnot _)
  | function params results =>
      rw [TypeSyntax.parse_function]
      exact .word (hnot _)
  | interface spaced methods =>
      rw [TypeSyntax.parse_interface]
      exact .interface (hnot _)
  | array length element =>
      obtain ⟨k, rfl⟩ := Nat.exists_eq_add_of_le' (Nat.le_trans (Nat.le_add_left _ _) hl)
      have hin := ih k (by simp [partLevels]) element (Nat.le_of_add_le_add_right hl) hs.2
      rw [TypeSyntax.parse_array, if_pos hs.1, TypeSyntax.layout, ← arrayLayout_natCast]
      exact .array (hnot _) hin
  | group inner =>
      obtain ⟨k, rfl⟩ := Nat.exists_eq_add_of_le' (Nat.le_trans (Nat.le_add_left _ _) hl)
      have hin := ih k (by simp [groupLevels]) inner (Nat.le_of_add_le_add_right hl) hs
      rw [TypeSyntax.parse_group]
      exact .group hin
  | struct spaced fields =>
      obtain ⟨k, rfl⟩ := Nat.exists_eq_add_of_le' (Nat.le_trans (Nat.le_add_left _ _) hl)
      obtain ⟨hlen, hzip⟩ := sized_fields (fun t => ih k (by simp [partLevels]) t) fields
        (Nat.le_of_add_le_add_right hl) hs
      rw [TypeSyntax.parse_struct, TypeSyntax.layout, ← largestAlignment_asField]
      exact .struct (hnot _) hlen hzip

/-- Sizing the text of a type gives the layout of its syntax tree, on every platform and whatever
other types are declared, or gives up on a type that is nested too deeply; and it does not give up on
one whose levels stay within the limit. -/
theorem layoutWithin_text (limit : Nat) (abi : Abi) (localTypes : TypeTable) (genericTypes : List String)
    (t : TypeSyntax) (hs : t.HasShortLengths) :
    let s := Sizer.ofScope { abi, localTypes, genericTypes, typeParams := [] }
    let found := (s.layoutWithin limit (String.ofList t.text)).1
    (found = .ok (t.layout abi) ∨ found = .error Sizer.tooDeep) ∧
      (t.levels ≤ limit → found = .ok (t.layout abi)) := by
  intro s found
  have hsized : Sized s.scope t.levels (TypeTree.parse (String.ofList t.text).toList)
      (t.layout abi) := by
    rw [String.toList_ofList]
    exact sized_text rfl t (Nat.le_refl _) hs
  have hc : Remembers s.scope s.cache := remembers_nil s.scope
  refine ⟨?_, fun hl => Sizer.layoutWithin_of_sized hc hsized hl⟩
  have hl := Sizer.layoutOf_of_sized hc hsized
  cases hd : s.isTooDeep limit (String.ofList t.text) with
  | true => exact .inr (by simp only [found, Sizer.layoutWithin, hd, if_true])
  | false => exact .inl (congrArg Prod.fst (Sizer.layoutWithin_eq hd (Prod.ext hl rfl)))

def plainSizer : Sizer :=
  .ofScope { abi := .amd64, localTypes := [], genericTypes := [], typeParams := [] }

/-- Two arrays of bytes with a tag, in front of a pointer. -/
def taggedArrays : TypeSyntax :=
  .struct true <|
    .cons ⟨'a', [], rfl, by decide⟩ [⟨'b', [], rfl, by decide⟩]
      (.array ⟨['1', '0'], by decide, .inr ⟨'1', ['0'], rfl, rfl, by decide⟩⟩ (.predeclared .uint8))
      (some ⟨['j', 's', 'o', 'n'], by decide⟩) <|
    .cons ⟨'p', [], rfl, by decide⟩ [] (.pointer (.struct false .nil)) none .nil

theorem layoutWithin_text_taggedArrays :
    String.ofList taggedArrays.text = "struct\x7b a, b [10]uint8 \x60json\x60; p *struct\x7b\x7d \x7d" ∧
    taggedArrays.HasShortLengths ∧ taggedArrays.levels = 6 ∧
    (plainSizer.layoutWithin 6 (String.ofList taggedArrays.text)).1 =
      .ok { size := 32, align := 8 } := by
  have hs : taggedArrays.HasShortLengths := ⟨⟨by decide, trivial⟩, trivial, trivial⟩
  have hlayout : taggedArrays.layout .amd64 = { size := 32, align := 8 } := by decide
  obtain ⟨-, hfound⟩ := layoutWithin_text 6 .amd64 [] [] taggedArrays hs
  exact ⟨by decide, hs, by decide, (hfound (by decide)).trans (congrArg Except.ok hlayout)⟩

/-! ### Where sizing gives up -/

/-- An array of one element, as often as a number says, around the type of eight bits. -/
def nestedArray : Nat → TypeSyntax
  | 0 => .predeclared .int8
  | n + 1 => .array ⟨['1'], by decide, .inr ⟨'1', [], rfl, rfl, by decide⟩⟩ (nestedArray n)

theorem descend_nestedArray {scope : Scope} (hp : scope.typeParams = []) (n : Nat) {limit level : Nat}
    (hl : limit < level + partLevels * n) :
    scope.descend limit [] level (TypeTree.parse (nestedArray n).text) [] = (.error .tooDeep, []) := by
  induction n generalizing level with
  | zero =>
      rw [Scope.descend_eq, nestedArray, TypeSyntax.text, TypeSyntax.parse_predeclared]
      exact run_visit_tooDeep _ hl
  | succ n ih =>
      rw [Scope.descend_eq, nestedArray, TypeSyntax.parse_array, if_pos (by decide)]
      by_cases hd : limit < level
      · exact run_visit_tooDeep _ hd
      · rw [Nat.mul_succ] at hl
        have hin := @ih (level + partLevels) (by omega)
        rw [Scope.descend_eq] at hin
        simp only [TypeTree.descend, visitUnlessParam, hp, visit, hd, if_false]
        simp [hin]

theorem isTooDeep_nestedArray_in {scope : Scope} (hp : scope.typeParams = []) {limit n : Nat}
    (hl : limit < partLevels * n) :
    (Sizer.ofScope scope).isTooDeep limit (String.ofList (nestedArray n).text) = true := by
  have hd := @descend_nestedArray scope hp n limit 0 (by omega)
  have hr : (Sizer.ofScope scope).descent limit (String.ofList (nestedArray n).text) =
      (.error .tooDeep, []) := by
    rw [Sizer.descent, String.toList_ofList]
    exact hd
  simp only [Sizer.isTooDeep, hr]

theorem isTooDeep_nestedArray {limit n : Nat} (hl : limit < partLevels * n) :
    plainSizer.isTooDeep limit (String.ofList (nestedArray n).text) = true :=
  isTooDeep_nestedArray_in rfl hl

/-- The number written as a one with further ones behind it. -/
def onesDecimal (n : Nat) : Decimal where
  chars := '1' :: List.replicate n '1'
  digits := by simp [List.mem_replicate]
  leading := .inr ⟨'1', List.replicate n '1', rfl, rfl, by decide⟩

theorem length_digitChars_onesDecimal (n : Nat) : (onesDecimal n).digitChars.length = n + 1 := by
  rw [Decimal.digitChars, onesDecimal, List.filter_cons_of_pos (by decide),
    List.filter_replicate_of_pos (by decide), List.length_cons, List.length_replicate]

theorem layoutOf_of_parse_malformed {typeExpr text reason : String}
    (h : TypeTree.parse typeExpr.toList = .malformed text reason) :
    (plainSizer.layoutOf typeExpr).1 = .error { typeExpr := text, reason } := by
  simp only [Sizer.layoutOf, h, Scope.layoutOf_eq]
  rfl

/-- A length with too many digits leaves an array without a layout. -/
theorem layoutOf_onesArray {n : Nat} (hn : Text.digitLimit ≤ n) (element : TypeSyntax) :
    ∃ e, (plainSizer.layoutOf (String.ofList (TypeSyntax.array (onesDecimal n) element).text)).1 =
      .error e := by
  have hmany : ¬ (onesDecimal n).digitChars.length ≤ Text.digitLimit := by
    rw [length_digitChars_onesDecimal]
    omega
  have hparse := TypeSyntax.parse_array (onesDecimal n) element
  rw [if_neg hmany] at hparse
  exact ⟨_, layoutOf_of_parse_malformed (by rw [String.toList_ofList]; exact hparse)⟩

/-- A name with a letter outside ASCII is taken for the type of an embedded field, which is not
known. -/
theorem layoutOf_accentedName :
    ∃ e, (plainSizer.layoutOf "struct\x7bé int8\x7d").1 = .error e := by
  have hfields : fieldList "é int8".toList =
      [{ name := "é int8", typeExpr := "é int8", tag := "", comment := "", line := 0 }] := by
    decide +kernel
  have hname : TypeTree.parse "é int8".toList = .name "é int8" :=
    (TypeTree.parse_bare (show Text.trim _ = ['é', ' ', 'i', 'n', 't', '8'] from rfl)
      (by decide)).trans rfl
  have htext : structWord ++ '\x7b' :: ("é int8".toList ++ ['\x7d']) =
      "struct\x7bé int8\x7d".toList := by decide
  have hparse := @parse_structText "é int8".toList (.of_plain (by decide))
  rw [hfields, List.map_singleton, hname, htext, String.ofList_toList] at hparse
  have hrun : (((TypeTree.struct "struct\x7bé int8\x7d" [.name "é int8"]).layout plainSizer.scope
      (plainSizer.scope.resolver [])).run.run []).1 =
        .error { typeExpr := "é int8", reason := "unsupported type expression" } := by
    rfl
  simp only [Sizer.layoutOf, hparse, Scope.layoutOf_eq]
  exact ⟨_, hrun⟩

theorem layoutWithin_ne_ok {s : Sizer} {typeExpr : String}
    (h : ∃ e, (s.layoutOf typeExpr).1 = .error e) (limit : Nat) (l : TypeLayout) :
    (s.layoutWithin limit typeExpr).1 ≠ .ok l := by
  obtain ⟨e, he⟩ := h
  unfold Sizer.layoutWithin
  split
  · intro hl
    cases hl
  · simp only [he]
    intro hl
    cases hl

/-- A length with too many digits, nesting that is too deep and names outside ASCII are not sized. -/
theorem layoutWithin_limits :
    let longArray := TypeSyntax.array (onesDecimal 4300) (.struct false .nil)
    let deepArray := nestedArray 400
    (∀ limit, (plainSizer.layoutWithin limit (String.ofList longArray.text)).1 ≠
      .ok (longArray.layout .amd64)) ∧
    (∀ limit < 1200, (plainSizer.layoutWithin limit (String.ofList deepArray.text)).1 ≠
      .ok (deepArray.layout .amd64)) ∧
    ∀ limit, (plainSizer.layoutWithin limit "struct\x7bé int8\x7d").1 ≠
      .ok { size := 1, align := 1 } := by
  refine ⟨fun limit => layoutWithin_ne_ok (layoutOf_onesArray (by decide) _) limit _, ?_,
    fun limit => layoutWithin_ne_ok layoutOf_accentedName limit _⟩
  intro limit hlimit
  have hd : plainSizer.isTooDeep limit (String.ofList (nestedArray 400).text) = true :=
    isTooDeep_nestedArray hlimit
  simp only [Sizer.layoutWithin, hd, if_true]
  intro hl
  cases hl

end StructLayout.Sizing
