import StructLayout.Packages.Scan
import StructLayout.Proofs.Analysis.StructOrder
import StructLayout.Proofs.Sizing.AlikeScopes
import StructLayout.Proofs.Source.DeclaredTypes
import StructLayout.Proofs.Source.WrittenFile

/-!
# The order of files

The declarations of a package are those of its files, one file after the other; where two files declare
a type of one name, the later one decides.  If no two files do, names stand for the same in any order of
the files, and the structs are sized alike.

The main statement is `sizePackage_file_order`: in any order of the files the structs of the package are
those of each file, sized as they are alone, one file after the other.
-/

namespace StructLayout.Source

namespace Declarations

/-- The declarations of sources, one after the other. -/
def concat (sources : List Declarations) : Declarations := sources.foldl append none

variable {sources order : List Declarations} {name t : String}

theorem concat_append_singleton (sources : List Declarations) (source : Declarations) :
    concat (sources ++ [source]) = (concat sources).append source := by
  rw [concat, List.foldl_append]
  rfl

theorem structs_concat (sources : List Declarations) :
    (concat sources).structs = sources.flatMap structs := by
  induction sources using List.reverseRecOn with
  | nil => rfl
  | append_singleton sources source ih =>
    rw [concat_append_singleton, append, ih, List.flatMap_append, List.flatMap_singleton]

theorem mem_genericTypes_concat :
    name ∈ (concat sources).genericTypes ↔ ∃ source ∈ sources, name ∈ source.genericTypes := by
  induction sources using List.reverseRecOn with
  | nil => simp [concat, none]
  | append_singleton sources source ih =>
    rw [concat_append_singleton, append, mem_foldl_addName, ih]
    simp [or_and_right, exists_or]

/-- No two sources declare a type of one name. -/
def Disjoint (sources : List Declarations) : Prop :=
  sources.Pairwise fun a b => a.typeNames.Disjoint b.typeNames

theorem lookup_localTypes_concat (h : Disjoint sources) :
    (concat sources).localTypes.lookup name = some t ↔
      ∃ source ∈ sources, (TypeTable.update [] source.localTypes).lookup name = some t := by
  -- from the last source on, since that one wins where several declare a name
  induction sources using List.reverseRecOn with
  | nil => simp [concat, none]
  | append_singleton sources source ih =>
    obtain ⟨hinit, -, hlast⟩ := List.pairwise_append.1 h
    have hkeys {other : Declarations}
        (ho : (TypeTable.update [] other.localTypes).lookup name = some t) :
        name ∈ other.localTypes.map Prod.fst := by
      rw [TypeTable.lookup_update] at ho
      split at ho
      · assumption
      · cases ho
    rw [concat_append_singleton, append]
    dsimp only
    rw [TypeTable.lookup_update]
    constructor
    · intro hl
      split at hl
      · exact ⟨source, by simp, hl⟩
      · obtain ⟨other, ho, hl⟩ := (ih hinit).1 hl
        exact ⟨other, List.mem_append_left _ ho, hl⟩
    · rintro ⟨other, ho, hl⟩
      rcases List.mem_append.1 ho with ho | ho
      · -- the last source declares other names, so it hides nothing
        have hfree : name ∉ source.localTypes.map Prod.fst := fun hs =>
          hlast other ho source (List.mem_singleton_self _) (List.mem_append_left _ (hkeys hl))
            (List.mem_append_left _ hs)
        rw [if_neg hfree]
        exact (ih hinit).2 ⟨other, ho, hl⟩
      · rw [List.mem_singleton.1 ho] at hl
        rw [if_pos (hkeys hl)]
        exact hl

theorem Disjoint.perm (h : Disjoint sources) (hp : order.Perm sources) : Disjoint order :=
  List.Pairwise.perm h hp.symm fun hd _ ha hb => hd hb ha

theorem lookup_localTypes_concat_perm (h : Disjoint sources) (hp : order.Perm sources)
    (name : String) :
    (concat order).localTypes.lookup name = (concat sources).localTypes.lookup name := by
  ext t
  rw [lookup_localTypes_concat h, lookup_localTypes_concat (h.perm hp)]
  simp only [hp.mem_iff]

theorem contains_genericTypes_concat_perm (hp : order.Perm sources) (name : String) :
    (concat order).genericTypes.contains name = (concat sources).genericTypes.contains name := by
  rw [Bool.eq_iff_iff, List.contains_iff_mem, List.contains_iff_mem, mem_genericTypes_concat,
    mem_genericTypes_concat]
  simp only [hp.mem_iff]

end Declarations

end StructLayout.Source

namespace StructLayout.Analysis

open Sizing Source Packages Files

/-! ### Failures -/

variable {limit : Nat}

theorem eq_tooDeep_of_requireFields {s : Sizer} {ds : List FieldDecl} {e : Failure}
    (h : requireFields limit s ds = .error e) : e = Sizer.tooDeep := by
  induction ds generalizing s with
  | nil => cases h
  | cons d ds ih =>
    rw [requireFields, Sizer.fieldWithin] at h
    cases hd : s.isTooDeep limit d.typeExpr with
    | true =>
      rw [hd] at h
      exact (Except.error.inj h).symm
    | false =>
      rw [hd] at h
      exact ih h

theorem eq_tooDeep_of_requireStruct {s : Sizer} {d : StructDecl} {e : Failure}
    (h : requireStruct limit s d = .error e) : e = Sizer.tooDeep := by
  unfold requireStruct at h
  split at h
  · exact eq_tooDeep_of_requireFields h
  · cases hf : requireFields limit (s.withTypeParams d.typeParams) d.fields with
    | ok _ =>
      rw [hf] at h
      cases h
    | error e' =>
      rw [hf] at h
      cases h
      exact eq_tooDeep_of_requireFields hf

theorem eq_tooDeep_of_foldlM {s : Sizer} {ds : List StructDecl} {e : Failure}
    (h : ds.foldlM (requireStruct limit) s = .error e) : e = Sizer.tooDeep := by
  induction ds generalizing s with
  | nil => cases h
  | cons d ds ih =>
    rw [List.foldlM_cons] at h
    cases hd : requireStruct limit s d with
    | ok s' =>
      rw [hd] at h
      exact ih h
    | error e' =>
      rw [hd] at h
      cases h
      exact eq_tooDeep_of_requireStruct hd

theorem eq_tooDeep_of_sizePackageWithin {abi : Abi} {path : String} {found : Declarations}
    {e : Failure} (h : sizePackageWithin limit abi path found = .error e) : e = Sizer.tooDeep := by
  unfold sizePackageWithin at h
  cases hf : found.structs.foldlM (requireStruct limit) (sizerFor abi found) with
  | ok _ =>
    rw [hf] at h
    cases h
  | error e' =>
    rw [hf] at h
    cases h
    exact eq_tooDeep_of_foldlM hf

/-! ### The scope of a package -/

theorem alike_concat_perm (abi : Abi) {sources order : List Declarations}
    (h : Declarations.Disjoint sources) (hp : order.Perm sources) :
    Scope.Alike (sizerFor abi (.concat order)).scope (sizerFor abi (.concat sources)).scope :=
  .of_tables rfl rfl (Declarations.lookup_localTypes_concat_perm h hp)
    (Declarations.contains_genericTypes_concat_perm hp)

variable {a b : Scope}

theorem structAlone_of_alike (h : a.Alike b) (d : StructDecl) : structAlone a d = structAlone b d := by
  have hfield : fieldAlone (fieldScope a d) = fieldAlone (fieldScope b d) :=
    funext fun f => (h.withParams d.typeParams).field_eq f.name f.typeExpr f.tag f.comment
  rw [structAlone, structAlone, hfield]

theorem IsShallow.of_alike (h : a.Alike b) {d : StructDecl} (hd : IsShallow limit b d) :
    IsShallow limit a d :=
  fun f hf => ((h.withParams d.typeParams).isTooDeep_eq f.typeExpr).trans (hd f hf)

/-! ### Files -/

theorem scanFiles_eq_concat (v : View) (marker : String) (files : List Path) :
    scanFiles v marker files = Declarations.concat (files.map (scanOrSkip v marker)) := by
  rw [scanFiles, Declarations.concat, List.foldl_map]

theorem structs_scanFiles (v : View) (marker : String) (files : List Path) :
    (scanFiles v marker files).structs = files.flatMap fun f => (scanOrSkip v marker f).structs := by
  rw [scanFiles_eq_concat, Declarations.structs_concat, List.flatMap_map]

def recordsOf (v : View) (marker : String) (abi : Abi) (files : List Path) (file : Path) :
    List StructDef :=
  (scanOrSkip v marker file).structs.map
    (structAlone (sizerFor abi (scanFiles v marker files)).scope)

/-- If no two files of a package declare a type of one name, its structs in any order of the files are
those of each file, one file after the other.  What they are sized to does not depend on the order: a
package that is sized has just these structs, and it is sized unless a type is nested too deeply, which
does not happen in any order if a new sizer gives up on none of the fields. -/
theorem sizePackage_file_order (limit : Nat) (v : View) (marker : String) (abi : Abi) (path : String)
    {files order : List Path}
    (h : Declarations.Disjoint (files.map (scanOrSkip v marker))) (hp : order.Perm files) :
    let found := scanFiles v marker files
    let sized : PackageDef := { path, structs := order.flatMap (recordsOf v marker abi files) }
    (scanFiles v marker order).structs.Perm found.structs ∧
    sized.structs.Perm (files.flatMap (recordsOf v marker abi files)) ∧
    (sizePackageWithin limit abi path (scanFiles v marker order) = .ok sized ∨
      sizePackageWithin limit abi path (scanFiles v marker order) = .error Sizer.tooDeep) ∧
    ((∀ d ∈ found.structs, IsShallow limit (sizerFor abi found).scope d) →
      sizePackageWithin limit abi path (scanFiles v marker order) = .ok sized) := by
  intro found sized
  have hmap := hp.map (scanOrSkip v marker)
  have halike : Scope.Alike (sizerFor abi (scanFiles v marker order)).scope
      (sizerFor abi found).scope := by
    have ha := alike_concat_perm abi h hmap
    rwa [← scanFiles_eq_concat, ← scanFiles_eq_concat] at ha
  have hperm : (scanFiles v marker order).structs.Perm found.structs := by
    rw [structs_scanFiles, structs_scanFiles]
    exact hp.flatMap_right _
  have hsized : sizePackage abi path (scanFiles v marker order) = sized := by
    have hsame : structAlone (sizerFor abi (scanFiles v marker order)).scope =
        structAlone (sizerFor abi found).scope := funext fun d => structAlone_of_alike halike d
    have hs : (sizerFor abi (scanFiles v marker order)).IsSound := Sizer.isSound_ofScope _
    rw [sizePackage, sizeStructs_eq hs rfl, hsame, structs_scanFiles, List.map_flatMap]
    rfl
  have hok {p : PackageDef} (hs : sizePackageWithin limit abi path (scanFiles v marker order) = .ok p) :
      sizePackageWithin limit abi path (scanFiles v marker order) = .ok sized := by
    rw [hs, eq_of_sizePackageWithin hs, hsized]
  refine ⟨hperm, hp.flatMap_right _, ?_, fun hshallow => ?_⟩
  · cases hs : sizePackageWithin limit abi path (scanFiles v marker order) with
    | ok p => exact .inl (hs ▸ hok hs)
    | error e => exact .inr (by rw [eq_tooDeep_of_sizePackageWithin hs])
  · obtain ⟨p, hs⟩ := sizePackageWithin_ok path fun d hd =>
      (hshallow d (hperm.mem_iff.1 hd)).of_alike halike
    exact hok hs

/-! ### Two files -/

def asciiBytes (text : List Char) : List UInt8 := text.map fun c => UInt8.ofNat c.toNat

def twoFiles (first second : List Char) : View where
  root := .directory [("a.go", .file (asciiBytes first)), ("b.go", .file (asciiBytes second))]
  working := []

def firstPath : Path := .ofText "a.go"

def secondPath : Path := .ofText "b.go"

theorem disjoint_pair {a b : Declarations} {name other : String} (ha : a.typeNames = [name])
    (hb : b.typeNames = [other]) (hne : name ≠ other) : Declarations.Disjoint [a, b] := by
  rw [Declarations.Disjoint, List.pairwise_pair, ha, hb]
  intro x hx hx'
  exact hne ((List.mem_singleton.1 hx).symm.trans (List.mem_singleton.1 hx'))

/-- A struct with a field of a type that the other file declares. -/
def crossFiles : View :=
  twoFiles "package p\n\ntype A struct \x7b\n\tid Id\n\x7d\n".toList
    "package p\n\ntype Id int64\n".toList

def crossDeclarations : Declarations where
  package := ""
  structs := [{ name := "A"
                position := { file := "a.go", line := 3 }
                typeParams := []
                ignored := false
                fields := [{ name := "id", typeExpr := "Id", tag := "", comment := "", line := 4 }] }]
  localTypes := [("A", "struct\x7bid Id\x7d"), ("Id", "int64")]
  genericTypes := []
  warnings := []

theorem scanFiles_crossFiles :
    scanFiles crossFiles "align:ignore" [firstPath, secondPath] = crossDeclarations := by
  decide +kernel

theorem isShallow_crossFiles :
    ∀ d ∈ crossDeclarations.structs, IsShallow 3 (sizerFor .amd64 crossDeclarations).scope d := by
  have hunderlying : (sizerFor .amd64 crossDeclarations).scope.underlying? "Id" = some "int64" := by
    decide
  have hsized : Sized (sizerFor .amd64 crossDeclarations).scope 3 (TypeTree.parse "Id".toList)
      { size := 8, align := 8 } := by
    rw [MutualNames.parse_Id]
    refine .declared (n := 0) (by decide) (by decide) (by decide) hunderlying ?_
    rw [MutualNames.parse_int64]
    exact .fixed (by decide) (by decide)
  refine List.forall_mem_singleton.2 (List.forall_mem_singleton.2 ?_)
  exact Sizer.isTooDeep_of_sized hsized (by decide)

theorem sizePackage_file_order_crossFiles :
    Declarations.Disjoint ([firstPath, secondPath].map (scanOrSkip crossFiles "align:ignore")) ∧
    [secondPath, firstPath].Perm [firstPath, secondPath] ∧
    sizePackageWithin 3 .amd64 "p" (scanFiles crossFiles "align:ignore" [secondPath, firstPath]) = .ok {
      path := "p"
      structs := [secondPath, firstPath].flatMap
        (recordsOf crossFiles "align:ignore" .amd64 [firstPath, secondPath]) } := by
  have hfirst : (scanOrSkip crossFiles "align:ignore" firstPath).typeNames = ["A"] := by
    decide +kernel
  have hsecond : (scanOrSkip crossFiles "align:ignore" secondPath).typeNames = ["Id"] := by
    decide +kernel
  have hdisjoint : Declarations.Disjoint
      ([firstPath, secondPath].map (scanOrSkip crossFiles "align:ignore")) :=
    disjoint_pair hfirst hsecond (by decide)
  have hperm : [secondPath, firstPath].Perm [firstPath, secondPath] := .swap _ _ _
  refine ⟨hdisjoint, hperm, (sizePackage_file_order 3 _ _ .amd64 "p" hdisjoint hperm).2.2.2 ?_⟩
  rw [scanFiles_crossFiles]
  exact isShallow_crossFiles

/-! ### A type that is nested too deeply in one order -/

theorem isCode_nestedArray (n : Nat) : IsCode (nestedArray n).text := by
  induction n with
  | zero => exact .of_plain (by decide)
  | succ n ih => exact (IsCode.of_plain (by decide) : IsCode ['[', '1', ']']).append ih

theorem blank_nil : ∀ c ∈ ([] : List Char), Text.isBlank c = true ∧ c ≠ '\n' := by decide

theorem blank_space : ∀ c ∈ [' '], Text.isBlank c = true ∧ c ≠ '\n' := by decide

theorem continuesName_nil : ∀ c ∈ ([] : List Char), continuesName c = true := by decide

/-- Nothing between the code of a line and what stands around it. -/
def noGap : Gap := ⟨[], blank_nil⟩

def oneSpace : Gap := ⟨[' '], blank_space⟩

/-- Nothing around the code of a line. -/
def bareMargin : Margin := ⟨noGap, noGap, none⟩

def letterName (c : Char) (h : startsName c = true) : Identifier := ⟨c, [], h, continuesName_nil⟩

def arrayStruct (name : Identifier) (hname : name.chars ≠ ['t', 'y', 'p', 'e']) (n : Nat) :
    WrittenStruct where
  notes := []
  head := bareMargin
  name := name
  ne_type := hname
  fields := [{
    notes := []
    margin := bareMargin
    declarator := .named (letterName 'f' rfl) [] oneSpace (List.cons_ne_nil _ _) {
      first := (nestedArray n).text
      more := []
      isLineCode := List.forall_mem_singleton.2
        (.of_isTypeText (isCode_nestedArray n) (nestedArray n).isTypeText)
      isTypeText := by
        rw [codeText_nil]
        exact (nestedArray n).isTypeText }
    tagGap := noGap
    tag := none }]
  endNotes := []
  close := bareMargin

theorem startsName_p : startsName 'p' = true := rfl

def arrayFile (name : Identifier) (hname : name.chars ≠ ['t', 'y', 'p', 'e']) (n : Nat) :
    WrittenFile where
  notes := []
  head := bareMargin
  package := letterName 'p' startsName_p
  items := [.single (arrayStruct name hname n)]
  endNotes := []

def shallowFile : WrittenFile := arrayFile (letterName 'A' rfl) (by decide) 200

def deepFile : WrittenFile := arrayFile (letterName 'B' rfl) (by decide) 400

def deepFiles : View := twoFiles (joinedText shallowFile.lines) (joinedText deepFile.lines)

/-- A struct with nothing but a field of a type. -/
structure HoldsOnly (d : StructDecl) (typeExpr : String) : Prop where
  typeParams : d.typeParams = []
  fields : d.fields.map FieldDecl.typeExpr = [typeExpr]

/-- A source declares a struct that holds only a field of a type, and nothing else. -/
structure DeclaresOnly (found : Declarations) (name : String) (d : StructDecl)
    (typeExpr : String) : Prop where
  structs : found.structs = [d]
  typeNames : found.typeNames = [name]
  holdsOnly : HoldsOnly d typeExpr

theorem exists_declaresOnly_arrayFile (s : Scanner) (name : Identifier)
    (hname : name.chars ≠ ['t', 'y', 'p', 'e']) {n : Nat}
    (hn : compact (nestedArray n).text = (nestedArray n).text) :
    ∃ d, DeclaresOnly (s.scan (arrayFile name hname n).text) (String.ofList name.chars) d
      (String.ofList (nestedArray n).text) := by
  rw [s.scan_writtenText]
  refine ⟨(arrayStruct name hname n).decl s 2, rfl, rfl, rfl, ?_⟩
  rw [← congrArg String.ofList hn]
  rfl

theorem scanOrSkip_of_readBytes {v : View} {file : Path} {bytes : List UInt8} {text : List Char}
    (hread : (v.readBytes file).toOption = some bytes)
    (htext : Text.unifyNewlines (Text.decodeLossy bytes) = text) (marker : String) :
    scanOrSkip v marker file = scanText marker file (String.ofList text) := by
  unfold scanOrSkip readSource
  cases h : v.readBytes file with
  | error o =>
    rw [h] at hread
    cases hread
  | ok read =>
    rw [h] at hread
    cases hread
    rw [← htext]
    rfl

theorem exists_declaresOnly_deepFiles :
    ∃ shallow deep,
      DeclaresOnly (scanOrSkip deepFiles "align:ignore" firstPath) "A" shallow
        (String.ofList (nestedArray 200).text) ∧
      DeclaresOnly (scanOrSkip deepFiles "align:ignore" secondPath) "B" deep
        (String.ofList (nestedArray (200 + 200)).text) := by
  have hfirst := @scanOrSkip_of_readBytes deepFiles firstPath
    (asciiBytes (joinedText shallowFile.lines)) (joinedText shallowFile.lines)
    (by decide +kernel) (by decide +kernel) "align:ignore"
  have hsecond := @scanOrSkip_of_readBytes deepFiles secondPath
    (asciiBytes (joinedText deepFile.lines)) (joinedText deepFile.lines)
    (by decide +kernel) (by decide +kernel) "align:ignore"
  have hshallow : compact (nestedArray 200).text = (nestedArray 200).text := by decide +kernel
  have hdeep : compact (nestedArray 400).text = (nestedArray 400).text := by decide +kernel
  obtain ⟨shallow, hs⟩ := exists_declaresOnly_arrayFile ⟨firstPath.name, "align:ignore"⟩
    (letterName 'A' rfl) (by decide) hshallow
  obtain ⟨deep, hd⟩ := exists_declaresOnly_arrayFile ⟨secondPath.name, "align:ignore"⟩
    (letterName 'B' rfl) (by decide) hdeep
  rw [hfirst, hsecond]
  exact ⟨shallow, deep, hs, hd⟩

theorem structs_scanFiles_pair {v : View} {marker : String} {file other : Path} {d e : StructDecl}
    (hd : (scanOrSkip v marker file).structs = [d])
    (he : (scanOrSkip v marker other).structs = [e]) :
    (scanFiles v marker [file, other]).structs = [d, e] := by
  rw [structs_scanFiles]
  simp [hd, he]

variable {s : Sizer} {d : StructDecl} {t : String}

theorem HoldsOnly.requireStruct_eq (h : HoldsOnly d t) :
    requireStruct limit s d =
      if s.isTooDeep limit t then .error Sizer.tooDeep else .ok (s.layoutOf t).2 := by
  obtain ⟨f, hf, rfl⟩ := List.map_eq_singleton_iff.1 h.fields
  rw [requireStruct, h.typeParams, hf, List.isEmpty_nil, if_pos rfl, requireFields, Sizer.fieldWithin]
  cases s.isTooDeep limit f.typeExpr <;> rfl

/-- The order of two files can decide whether a type is given up on: behind the struct of one file that
of the other is sized, but not in front of it, unless there is room for both structs anyway or for
neither. -/
theorem file_order_decides_depth :
    Declarations.Disjoint ([firstPath, secondPath].map (scanOrSkip deepFiles "align:ignore")) ∧
    [secondPath, firstPath].Perm [firstPath, secondPath] ∧
    ∀ limit, 600 ≤ limit → limit < 1200 →
      (∃ p, sizePackageWithin limit .amd64 "p"
        (scanFiles deepFiles "align:ignore" [firstPath, secondPath]) = .ok p) ∧
      sizePackageWithin limit .amd64 "p"
        (scanFiles deepFiles "align:ignore" [secondPath, firstPath]) = .error Sizer.tooDeep := by
  obtain ⟨shallow, deep, hfirst, hsecond⟩ := exists_declaresOnly_deepFiles
  refine ⟨?_, .swap _ _ _, fun limit hroom hlimit => ⟨?_, ?_⟩⟩
  · exact disjoint_pair hfirst.typeNames hsecond.typeNames (by decide)
  · have hstructs := structs_scanFiles_pair hfirst.structs hsecond.structs
    let s := sizerFor .amd64 (scanFiles deepFiles "align:ignore" [firstPath, secondPath])
    have hs : s.isTooDeep limit (String.ofList (nestedArray 200).text) = false :=
      Sizer.isTooDeep_of_sized (sized_nestedArray_in rfl 200) hroom
    have hs' : (s.layoutOf (String.ofList (nestedArray 200).text)).2.isTooDeep limit
        (String.ofList (nestedArray (200 + 200)).text) = false :=
      isTooDeep_behind_nestedArray rfl 200 hroom
    have hfold : [shallow, deep].foldlM (requireStruct limit) s =
        .ok ((s.layoutOf (String.ofList (nestedArray 200).text)).2.layoutOf
          (String.ofList (nestedArray (200 + 200)).text)).2 := by
      rw [List.foldlM_cons, hfirst.holdsOnly.requireStruct_eq, hs, if_neg Bool.false_ne_true]
      change [deep].foldlM (requireStruct limit) _ = _
      rw [List.foldlM_cons, hsecond.holdsOnly.requireStruct_eq, hs', if_neg Bool.false_ne_true]
      rfl
    refine ⟨sizePackage .amd64 "p" (scanFiles deepFiles "align:ignore" [firstPath, secondPath]), ?_⟩
    rw [sizePackageWithin, hstructs, hfold]
    rfl
  · have hstructs := structs_scanFiles_pair hsecond.structs hfirst.structs
    let s := sizerFor .amd64 (scanFiles deepFiles "align:ignore" [secondPath, firstPath])
    have hs : s.isTooDeep limit (String.ofList (nestedArray (200 + 200)).text) = true :=
      isTooDeep_nestedArray_in rfl hlimit
    rw [sizePackageWithin, hstructs, List.foldlM_cons, hsecond.holdsOnly.requireStruct_eq, hs,
      if_pos rfl]
    rfl

end StructLayout.Analysis
