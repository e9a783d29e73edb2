import StructLayout.Proofs.Source.MarkedStructs
import StructLayout.Proofs.Source.WrittenFile

/-!
# Generic struct declarations

A declaration of a generic struct as it is written (`GenericStruct`): type parameters, each a name with
perhaps a constraint behind it, and a body on the same line or on the lines below.  A constraint is
nested properly and has no comma outside of brackets; in particular it may be an interface with a body
of its own.

A scan cuts the parameter list out at its first closing square bracket.  Therefore constraints have
none here, and a slice, a map, an array or an instantiation among them makes the struct vanish without
a warning (`generic_sliceConstraint_missing`).  The main statement is `scan_generic`: wherever a scan
comes across a declaration, it reads the struct with its type parameters and all its fields, and keeps
its name as that of a generic type and not as that of a type with a known layout.
-/

namespace StructLayout.Source

/-! ### Type parameters -/

/-- A type parameter: blanks, its name, and what stands behind it up to the comma. -/
structure TypeParam where
  before : Gap
  name : Identifier
  behind : List Char
  ends : EndsName behind
  nested : IsNested (· ≠ ',') behind
  isCode : IsCode behind
  isOpen : ']' ∉ behind

namespace TypeParam

variable (p : TypeParam)

def text : List Char := p.before.chars ++ (p.name.chars ++ p.behind)

def nameText : String := String.ofList p.name.chars

theorem isNested_text : IsNested (· ≠ ',') p.text := by
  have hbefore : IsNested (· ≠ ',') p.before.chars :=
    p.before.isNested_of fun c hc => ne_of_isBlank (p.before.isBlank c hc) (by decide)
  have hname : IsNested (· ≠ ',') p.name.chars := .of_plain fun c hc =>
    have hp := p.name.isPlain hc
    ⟨hp.2.1, hp.2.2.1, hp.2.2.2.1, hp.2.2.2.2.2.1⟩
  exact hbefore.append (hname.append p.nested)

theorem isCode_text : IsCode p.text :=
  p.before.isCode.append ((isCode_of_isPlain fun _ hc => p.name.isPlain hc).append p.isCode)

theorem notMem_text : ']' ∉ p.text := by
  have hbefore : ']' ∉ p.before.chars := fun h => absurd (p.before.isBlank _ h) (by decide)
  have hname : ']' ∉ p.name.chars := fun h => absurd (p.name.isPlain h) (by decide)
  simp [text, hbefore, hname, p.isOpen]

theorem endsName_trimEnd {cs : List Char} (h : EndsName cs) : EndsName (Text.trimEnd cs) := by
  obtain ⟨blanks, hb, -⟩ := Text.trimEnd_append_eq cs
  cases he : Text.trimEnd cs with
  | nil => exact endsName_nil
  | cons c rest =>
    intro d hd
    cases hd
    refine h c ?_
    rw [hb, he]
    rfl

theorem identifier?_trim :
    identifier? (Text.trim p.text) = some (p.name.chars, Text.trimEnd p.behind) := by
  have hname : ∀ c ∈ p.name.chars, Text.isBlank c = false := fun c hc => (p.name.isPlain hc).1
  have hstart : Text.trimStart (p.name.chars ++ p.behind) = p.name.chars ++ p.behind :=
    Text.trimStart_eq_self (hname _ List.mem_cons_self)
  rw [text, Text.trim_append_left p.before.isBlank, Text.trim, hstart, Text.trimEnd_append_left hname]
  exact identifier?_chars p.name (endsName_trimEnd p.ends)

theorem keptParts_text : keptParts [p.text] = [Text.trim p.text] := by
  have hne : (Text.trim p.text).isEmpty = false := by
    rw [List.isEmpty_eq_false_iff]
    intro he
    have hid := p.identifier?_trim
    rw [he] at hid
    cases hid
  simp [keptParts, hne]

end TypeParam

def paramsText (ps : List TypeParam) : List Char := [','].intercalate (ps.map TypeParam.text)

theorem paramsText_singleton (p : TypeParam) : paramsText [p] = p.text := by simp [paramsText]

theorem paramsText_cons_cons (p next : TypeParam) (ps : List TypeParam) :
    paramsText (p :: next :: ps) = p.text ++ ',' :: paramsText (next :: ps) := by
  simp [paramsText, List.intercalate_cons_cons]

theorem splitTopLevel_paramsText {ps : List TypeParam} (h : ps ≠ []) :
    splitTopLevel [','] (paramsText ps) = ps.map fun p => Text.trim p.text := by
  have hs : ∀ c : Char, c ≠ ',' → c ∉ [','] := fun c hc => by simpa using hc
  induction ps with
  | nil => exact absurd rfl h
  | cons p ps ih =>
    cases ps with
    | nil =>
      rw [paramsText_singleton, splitTopLevel_nested p.isNested_text hs, p.keptParts_text]
      rfl
    | cons next ps =>
      rw [paramsText_cons_cons, splitTopLevel_append p.isNested_text hs (by simp) rfl rfl rfl,
        p.keptParts_text, ih (List.cons_ne_nil _ _)]
      rfl

theorem typeParamNames_paramsText {ps : List TypeParam} (h : ps ≠ []) :
    typeParamNames (paramsText ps) = ps.map TypeParam.nameText := by
  rw [typeParamNames, splitTopLevel_paramsText h, List.filterMap_map, ← List.filterMap_eq_map]
  congr 1
  funext p
  simp [p.identifier?_trim, TypeParam.nameText]

theorem notMem_paramsText (ps : List TypeParam) : ']' ∉ paramsText ps := by
  induction ps with
  | nil => exact List.not_mem_nil
  | cons p ps ih =>
    cases ps with
    | nil => simpa only [paramsText_singleton] using p.notMem_text
    | cons next ps =>
      rw [paramsText_cons_cons]
      simp [p.notMem_text, ih]

theorem isCode_paramsText (ps : List TypeParam) : IsCode (paramsText ps) := by
  refine .intercalate (.of_plain (by decide)) fun part hp => ?_
  obtain ⟨p, -, rfl⟩ := List.mem_map.1 hp
  exact p.isCode_text

/-! ### Bodies -/

/-- A field declaration on the line of its struct. -/
structure InlineField where
  declarator : Declarator
  oneLine : declarator.more = []
  tagGap : Gap
  tag : Option LineTag

namespace InlineField

variable (f : InlineField)

def rawTag : Option RawTag := f.tag.map LineTag.toRawTag

def text : List Char := f.declarator.first ++ writtenTag f.tagGap.chars f.rawTag

/-- The fields that a declaration stands for. -/
def decls (comment : String) (line : Int) : List FieldDecl :=
  f.declarator.decls ⟨[], by simp⟩ f.rawTag comment line

theorem codeText_eq : codeText f.declarator.first f.declarator.more = f.declarator.first := by
  rw [f.oneLine, codeText_nil]

theorem isPart_text : IsPart f.text := by
  have ht := f.declarator.isTypeText
  rw [f.codeText_eq] at ht
  refine ⟨ht.nested.append (isNested_writtenTag f.tagGap.isNested f.rawTag),
    ht.starts.append.firmly, ?_⟩
  unfold text
  cases f.rawTag with
  | none => simpa [writtenTag] using ht.ends.firmly
  | some tag =>
    exact ⟨f.declarator.first ++ (f.tagGap.chars ++ '\x60' :: tag.chars), '\x60',
      by simp [writtenTag], by decide⟩

theorem isCode_text : IsCode f.text :=
  ((f.declarator.isLineCode _ List.mem_cons_self).append_tag f.tagGap f.tag).isCode

theorem fieldEntry_text (comment : String) (line : Int) :
    fieldEntry comment line f.text = f.decls comment line := by
  have hentry := f.declarator.fieldEntry_eq ⟨[], by simp⟩ f.tagGap f.rawTag comment line
  rwa [f.codeText_eq] at hentry

/-- The comment and the line of the fields are set behind reading. -/
theorem map_decls (comment comment' : String) (line line' : Int) :
    ((f.decls comment line).map fun d => { d with comment := comment', line := line' }) =
      f.decls comment' line' := by
  unfold decls
  cases f.declarator with
  | named first others gap separated type =>
    simp [Declarator.decls, writtenField, Function.comp_def]
  | embedded type => rfl

end InlineField

/-- The body of a struct: its fields on the line of its opening brace, or on the lines below. -/
inductive WrittenBody where
  | inline (lead trail : Nat) (fields : List InlineField)
  | below (fields : List WrittenField) (endNotes : List Margin) (close : Margin)

def inlineText (lead trail : Nat) (fields : List InlineField) : List Char :=
  List.replicate lead ' ' ++
    ([';', ' '].intercalate (fields.map InlineField.text) ++ List.replicate trail ' ')

namespace WrittenBody

/-- What stands behind the opening brace on its line. -/
def behind : WrittenBody → List Char
  | inline lead trail fields => inlineText lead trail fields ++ ['\x7d']
  | below _ _ _ => []

/-- The lines below that of the opening brace. -/
def more : WrittenBody → List WrittenLine
  | inline _ _ _ => []
  | below fields endNotes close =>
    fields.flatMap WrittenField.lines ++
      (endNotes.map noteLine ++ [{ margin := close, code := ['\x7d'] }])

/-- The fields of a body whose opening brace is on a line with a number and a comment. -/
def decls (comment : List Char) (number : Nat) : WrittenBody → List FieldDecl
  | inline _ _ fields => fields.flatMap fun f => f.decls (String.ofList comment) number
  | below fields _ _ => declsOf (number + 1) fields

end WrittenBody

section inline

variable (lead trail : Nat) (fields : List InlineField)

theorem isCode_spaces (n : Nat) : IsCode (List.replicate n ' ') :=
  .of_plain fun c hc => by
    rw [List.eq_of_mem_replicate hc]
    decide

theorem isCode_inlineText : IsCode (inlineText lead trail fields) := by
  refine (isCode_spaces lead).append (.append (.intercalate (.of_plain (by decide)) ?_)
    (isCode_spaces trail))
  intro part hp
  obtain ⟨f, -, rfl⟩ := List.mem_map.1 hp
  exact f.isCode_text

theorem isNested_inlineText : IsNested (fun _ => True) (inlineText lead trail fields) := by
  have hspaces (n : Nat) : IsNested (fun _ => True) (List.replicate n ' ') :=
    .of_plain fun c hc => by
      rw [List.eq_of_mem_replicate hc]
      decide
  refine (hspaces lead).append (.append (.intercalate (.of_plain (by decide)) ?_) (hspaces trail))
  intro part hp
  obtain ⟨f, -, rfl⟩ := List.mem_map.1 hp
  exact f.isPart_text.nested.mono fun _ _ => trivial

/-- The fields on one line are read back. -/
theorem fieldList_inlineText :
    fieldList (inlineText lead trail fields) = fields.flatMap fun f => f.decls "" 0 := by
  have hspaces (n : Nat) : ∀ c ∈ List.replicate n ' ', c = ' ' := fun c => List.eq_of_mem_replicate
  cases fields with
  | nil =>
    have hall : inlineText lead trail [] = List.replicate (lead + trail) ' ' := by
      simp [inlineText]
    have hblank : ∀ c ∈ List.replicate (lead + trail) ' ', Text.isBlank c = true := fun c hc => by
      rw [hspaces _ c hc]
      decide
    have htrim := Text.trim_append_left hblank []
    rw [List.append_nil] at htrim
    have hnested : IsNested NoBreak (List.replicate (lead + trail) ' ') :=
      .of_plain fun c hc => by
        rw [hspaces _ c hc]
        decide
    rw [hall, fieldList, splitTopLevel_nested hnested fun c => noBreak_separators, keptParts]
    simp [htrim]
  | cons f fields =>
    have hpart : ∀ part ∈ (f :: fields).map InlineField.text, IsPart part :=
      List.forall_mem_map.2 fun g _ => g.isPart_text
    rw [fieldList, inlineText, splitTopLevel_entries (by simp) (hspaces lead) (hspaces trail) hpart,
      List.flatMap_map]
    simp only [InlineField.fieldEntry_text]

end inline

/-! ### Declarations -/

/-- A declaration of a generic struct. -/
structure GenericStruct where
  margin : Margin
  keywordGap : Gap
  keywordGap_ne : keywordGap.chars ≠ []
  name : Identifier
  first : TypeParam
  others : List TypeParam
  nameGap : Gap
  braceGap : Gap
  body : WrittenBody

namespace GenericStruct

variable (d : GenericStruct)

def params : List TypeParam := d.first :: d.others

/-- The first line of a declaration up to the opening brace. -/
def head : StructHead where
  keywordGap := d.keywordGap
  name := d.name
  params := some (paramsText d.params)
  nameGap := d.nameGap
  braceGap := d.braceGap
  keywordGap_ne := d.keywordGap_ne
  nameGap_ne := fun h => nomatch h
  isOpen := fun ps h => by
    cases h
    exact notMem_paramsText d.params

/-- The first line of a declaration. -/
def headLine : WrittenLine where
  margin := d.margin
  code := d.head.code d.body.behind

def lines : List WrittenLine := d.headLine :: d.body.more

/-- The struct that a declaration stands for whose first line has a number, and comments above it. -/
def decl (s : Scanner) (doc : List (List Char)) (number : Nat) : StructDecl where
  name := String.ofList d.name.chars
  position := { file := s.file, line := (number : Int) }
  typeParams := d.params.map TypeParam.nameText
  ignored := s.marks doc || s.marks [d.margin.note]
  fields := d.body.decls d.margin.note number

/-! ### Lines of declarations -/

theorem isCode_behind : IsCode d.body.behind := by
  cases d.body with
  | inline lead trail fields =>
      exact (isCode_inlineText lead trail fields).append (.of_plain (by decide))
  | below fields endNotes close => exact .nil

theorem isCode_code : IsCode (d.head.code d.body.behind) := by
  have hname : IsCode d.name.chars := isCode_of_isPlain fun _ hc => d.name.isPlain hc
  have hparams : IsCode (writtenParams (some (paramsText d.params))) :=
    (.of_plain (by decide) : IsCode ['[']).append
      ((isCode_paramsText d.params).append (.of_plain (by decide)))
  have hbody : IsCode (['\x7b'] ++ d.body.behind) :=
    (.of_plain (by decide) : IsCode ['\x7b']).append d.isCode_behind
  have hstruct : IsCode (d.head.typeText d.body.behind) :=
    (.of_plain (by decide) : IsCode "struct".toList).append (d.braceGap.isCode.append hbody)
  exact (.of_plain (by decide) : IsCode "type".toList).append (d.keywordGap.isCode.append
    (hname.append (hparams.append (d.nameGap.isCode.append hstruct))))

theorem isLineCode_code : IsLineCode (d.head.code d.body.behind) where
  isCode := d.isCode_code
  starts := ⟨'t', _, rfl, by decide⟩
  ends := by
    obtain ⟨front, hfront⟩ := d.head.exists_code_eq
    cases d.body with
    | inline lead trail fields =>
      refine ⟨front ++ '\x7b' :: inlineText lead trail fields, '\x7d', ?_, by decide⟩
      exact (hfront _).trans (List.append_assoc front ('\x7b' :: _) _).symm
    | below fields endNotes close => exact ⟨front, '\x7b', hfront [], by decide⟩

theorem isReadable : ∀ l ∈ d.lines, l.IsReadable := by
  intro l hl
  rcases List.mem_cons.1 hl with rfl | hl
  · exact d.isLineCode_code.isReadable
  · cases hb : d.body with
    | inline lead trail fields =>
      rw [hb] at hl
      cases hl
    | below fields endNotes close =>
      rw [hb] at hl
      exact isReadable_body fields endNotes close l hl

/-! ### Reading declarations -/

theorem trimEnd_behind : Text.trimEnd d.body.behind = d.body.behind := by
  cases d.body with
  | inline lead trail fields => exact Text.trimEnd_concat (by decide) _
  | below fields endNotes close => rfl

theorem read_eq (s : Scanner) (doc : List (List Char)) (number : Nat) (rest : List Line) :
    d.head.read d.body.behind s (d.headLine.read number) doc
        (readLines (number + 1) d.body.more ++ rest) =
      (Scanner.declareStruct (d.decl s doc number) [], rest) := by
  have hparams : typeParamNames (d.head.params.getD []) = d.params.map TypeParam.nameText :=
    typeParamNames_paramsText (List.cons_ne_nil _ _)
  rw [StructHead.read, Scanner.readStruct, d.trimEnd_behind]
  dsimp only
  rw [hparams]
  cases hb : d.body with
  | inline lead trail fields =>
    have henc : enclosed? ('\x7b' :: (inlineText lead trail fields ++ ['\x7d'])) =
        some (inlineText lead trail fields, []) :=
      enclosed?_bracket rfl (isNested_inlineText lead trail fields) []
    rw [WrittenBody.behind, henc]
    dsimp only
    rw [fieldList_inlineText, List.map_flatMap]
    simp only [InlineField.map_decls]
    rw [decl, hb]
    rfl
  | below fields endNotes close =>
    have henc : enclosed? ['\x7b'] = none := by decide
    rw [WrittenBody.behind, henc]
    dsimp only
    rw [WrittenBody.more, structBody_closed]
    rw [decl, hb]
    rfl

/-- What has been found when a declaration has been read: its struct and, as that of a generic type,
its name. -/
def foundBehind (s : Scanner) (doc : List (List Char)) (number : Nat) (found : Declarations) :
    Declarations :=
  { found with
    structs := found.structs ++ [d.decl s doc number]
    genericTypes := addName found.genericTypes (String.ofList d.name.chars) }

theorem append_declareStruct (s : Scanner) (doc : List (List Char)) (number : Nat)
    (found : Declarations) :
    found.append (Scanner.declareStruct (d.decl s doc number) []) =
      d.foundBehind s doc number found := by
  have hparams : (d.decl s doc number).typeParams.isEmpty = false := rfl
  simp only [Declarations.append, Scanner.declareStruct, hparams, foundBehind]
  simp [TypeTable.update, decl]

end GenericStruct

theorem linesFrom_map_text {ls : List WrittenLine} (h : ∀ l ∈ ls, l.IsReadable) (number : Nat)
    (below : List (List Char)) :
    linesFrom number (ls.map WrittenLine.text ++ below) =
      readLines (number + 1) ls ++ linesFrom (number + ls.length) below := by
  induction ls generalizing number with
  | nil => rfl
  | cons l ls ih =>
    have hlength : number + 1 + ls.length = number + (l :: ls).length := by
      rw [List.length_cons]
      omega
    rw [List.map_cons, List.cons_append, linesFrom_cons, (WrittenLine.ofText_text (h l (by simp)) _),
      ih (fun m hm => h m (by simp [hm])), readLines, hlength]
    rfl

/-- Wherever a scan comes across the lines of a declaration of a generic struct, it reads the struct,
with the type parameters and all the fields, and goes on behind the declaration.  The name is kept as
that of a generic type, and the types with a known layout and the warnings stay as they are. -/
theorem scan_generic (s : Scanner) (source : String) (σ : Scan) (d : GenericStruct) (number : Nat)
    (below : List (List Char)) (hσ : s.Reaches source σ)
    (hr : σ.rest = linesFrom number (d.lines.map WrittenLine.text ++ below)) :
    s.Reaches source {
      inGroup := σ.inGroup
      doc := []
      found := d.foundBehind s σ.doc (number + 1) σ.found
      rest := linesFrom (number + d.lines.length) below } ∧
    d.decl s σ.doc (number + 1) ∈ (s.scan source).structs ∧
    String.ofList d.name.chars ∈ (s.scan source).genericTypes := by
  have hlines : σ.rest = d.headLine.read (number + 1) ::
      (readLines (number + 1 + 1) d.body.more ++ linesFrom (number + d.lines.length) below) := by
    rw [hr, linesFrom_map_text d.isReadable]
    rfl
  have hnext := hσ.turn hlines
  have hcode : (d.headLine.read (number + 1)).code = d.head.code d.body.behind := rfl
  rw [d.head.turn_eq d.body.behind s σ hcode, d.read_eq, d.append_declareStruct] at hnext
  have hgrows := hnext.grows
  exact ⟨hnext, hgrows.structs.subset (List.mem_append_right _ (List.mem_singleton_self _)),
    hgrows.genericTypes (mem_addName _ _)⟩

/-- A struct with two type parameters, one of them with an interface as its constraint. -/
def pairStruct : GenericStruct :=
  let space : Gap := ⟨[' '], by decide⟩
  let tab : Gap := ⟨['\t'], by decide⟩
  let nothing : Gap := ⟨[], by decide⟩
  { margin := ⟨nothing, space, some ⟨" two".toList, by decide⟩⟩
    keywordGap := space
    keywordGap_ne := by decide
    name := ⟨'P', "air".toList, rfl, by decide⟩
    first := {
      before := nothing
      name := ⟨'K', "ey".toList, rfl, by decide⟩
      behind := " interface\x7b ~int | ~string \x7d".toList
      ends := by
        intro c hc
        cases hc
        rfl
      nested := (.of_plain (by decide) : IsNested (· ≠ ',') " interface".toList).append
        (.bracket rfl (.of_plain (by decide) : IsNested (fun _ => True) " ~int | ~string ".toList))
      isCode := .of_plain (by decide)
      isOpen := by decide }
    others := [{
      before := space
      name := ⟨'V', "alue".toList, rfl, by decide⟩
      behind := " any".toList
      ends := by
        intro c hc
        cases hc
        rfl
      nested := .of_plain (by decide)
      isCode := .of_plain (by decide)
      isOpen := by decide }]
    nameGap := space
    braceGap := space
    body := .below [
      ⟨[], ⟨tab, nothing, none⟩,
        .named ⟨'k', "ey".toList, rfl, by decide⟩ [] space (by decide)
          (.ofName ⟨'K', "ey".toList, rfl, by decide⟩),
        nothing, none⟩,
      ⟨[], ⟨tab, nothing, none⟩,
        .named ⟨'v', "alue".toList, rfl, by decide⟩ [] space (by decide)
          (.ofName ⟨'V', "alue".toList, rfl, by decide⟩),
        space, some ⟨⟨"json".toList, by decide⟩, by decide, by decide⟩⟩] []
      ⟨nothing, nothing, none⟩ }

/-- A source that starts with the declaration of the struct. -/
def genericSource : String :=
  "type Pair[Key interface\x7b ~int | ~string \x7d, Value any] struct \x7b // two\n\tkey Key\n" ++
    "\tvalue Value \x60json\x60\n\x7d\n"

/-- The struct is read with both type parameters and both fields, the second with its tag. -/
theorem scan_generic_pair :
    pairStruct.decl ignoreScanner [] 1 = {
      name := "Pair", position := { file := "x.go", line := 1 }, typeParams := ["Key", "Value"]
      ignored := false
      fields := [
        { name := "key", typeExpr := "Key", tag := "", comment := "", line := 2 },
        { name := "value", typeExpr := "Value", tag := "json", comment := "", line := 3 }] } ∧
    pairStruct.decl ignoreScanner [] 1 ∈ (ignoreScanner.scan genericSource).structs ∧
    "Pair" ∈ (ignoreScanner.scan genericSource).genericTypes := by
  have htext : textLines genericSource = pairStruct.lines.map WrittenLine.text ++ [[]] := by
    decide +kernel
  have hrest : (Scanner.start genericSource).rest =
      linesFrom 0 (pairStruct.lines.map WrittenLine.text ++ [[]]) := by
    rw [← htext]
    rfl
  obtain ⟨-, hstruct, hname⟩ :=
    scan_generic ignoreScanner genericSource _ pairStruct 0 [[]] .start hrest
  exact ⟨by decide +kernel, hstruct, hname⟩

def sliceConstraintSource : String :=
  "package p\n\ntype Set[S ~[]E, E any] struct \x7b\n\titems S\n\x7d\n"

/-- A struct with a slice in a constraint is not found, and no warning says so. -/
theorem generic_sliceConstraint_missing :
    (ignoreScanner.scan sliceConstraintSource).structs = [] ∧
    (ignoreScanner.scan sliceConstraintSource).warnings = [] ∧
    (ignoreScanner.scan sliceConstraintSource).genericTypes = ["Set"] := by
  decide +kernel

end StructLayout.Source
