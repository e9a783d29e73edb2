import StructLayout.Proofs.Source.WrittenBody

/-!
# Source files as they are written

A file as syntax (`WrittenFile`): a package clause, and behind it struct declarations, by themselves
or in groups, with lines that are blank or hold a comment between them.  Its text is made of lines
(`WrittenFile.lines`), and the structs it declares are read off the syntax by counting these
(`WrittenFile.structs`).

The main statement is `scan_text`: scanning the text gives back these structs, all of them and nothing
else.  It is put together from what is found at one declaration (`Scanner.scanLines_struct`), at a
group of them (`Scanner.scanLines_item`) and over the items of a file (`Scanner.scanLines_items`).
-/

namespace StructLayout.Source

/-! ### Declarations -/

/-- A struct type declaration, below lines without code. -/
structure WrittenStruct where
  notes : List Margin
  head : Margin
  name : Identifier
  ne_type : name.chars ≠ ['t', 'y', 'p', 'e']
  fields : List WrittenField
  endNotes : List Margin
  close : Margin

/-- What stands at the top of a file: a declaration by itself, or a group of them. -/
inductive WrittenItem where
  | single (decl : WrittenStruct)
  | group (notes : List Margin) (head : Margin) (decls : List WrittenStruct)
      (endNotes : List Margin) (close : Margin)

/-- A file of struct declarations behind a package clause. -/
structure WrittenFile where
  notes : List Margin
  head : Margin
  package : Identifier
  items : List WrittenItem
  endNotes : List Margin

/-! ### Lines -/

/-- What stands in front of a type specification, given whether it is in a group. -/
def keyword (inGroup : Bool) : List Char := if inGroup then [] else ['t', 'y', 'p', 'e', ' ']

namespace WrittenStruct

/-- The beginning of a declaration without its keyword. -/
def headText (d : WrittenStruct) : List Char := d.name.chars ++ " struct \x7b".toList

def lines (inGroup : Bool) (d : WrittenStruct) : List WrittenLine :=
  d.notes.map noteLine ++ { margin := d.head, code := keyword inGroup ++ d.headText } ::
    (d.fields.flatMap WrittenField.lines ++
      (d.endNotes.map noteLine ++ [{ margin := d.close, code := ['\x7d'] }]))

end WrittenStruct

/-- The lines of declarations below each other. -/
def WrittenItem.lines : WrittenItem → List WrittenLine
  | .single decl => decl.lines false
  | .group notes head decls endNotes close =>
    notes.map noteLine ++ { margin := head, code := "type (".toList } ::
      (decls.flatMap (WrittenStruct.lines true) ++
        (endNotes.map noteLine ++ [{ margin := close, code := [')'] }]))

namespace WrittenFile

def lines (file : WrittenFile) : List WrittenLine :=
  file.notes.map noteLine ++
    { margin := file.head, code := "package ".toList ++ file.package.chars } ::
      (file.items.flatMap WrittenItem.lines ++ file.endNotes.map noteLine)

def text (file : WrittenFile) : String := String.ofList (joinedText file.lines)

end WrittenFile

/-! ### What is declared -/

/-- The comment lines directly above a line, last first, given those above the first of some lines
without code. -/
def docsFrom (doc : List (List Char)) (notes : List Margin) : List (List Char) :=
  notes.foldl (fun doc m => if m.note.isEmpty then [] else m.note :: doc) doc

/-- The struct that a declaration stands for whose lines start with a number. -/
def WrittenStruct.decl (s : Scanner) (number : Nat) (d : WrittenStruct) : StructDecl where
  name := String.ofList d.name.chars
  position := { file := s.file, line := ((number + d.notes.length : Nat) : Int) }
  typeParams := []
  ignored := s.marks (docsFrom [] d.notes) || s.marks [d.head.note]
  fields := declsOf (number + d.notes.length + 1) d.fields

/-- The structs of declarations below each other. -/
def structsOf (s : Scanner) (number : Nat) : List WrittenStruct → List StructDecl
  | [] => []
  | d :: ds => d.decl s number :: structsOf s (number + (d.lines true).length) ds

/-- The structs of what stands at the top of a file. -/
def WrittenItem.structs (s : Scanner) (number : Nat) : WrittenItem → List StructDecl
  | .single decl => [decl.decl s number]
  | .group notes _ decls _ _ => structsOf s (number + notes.length + 1) decls

def itemStructs (s : Scanner) (number : Nat) : List WrittenItem → List StructDecl
  | [] => []
  | item :: items => item.structs s number ++ itemStructs s (number + item.lines.length) items

def WrittenFile.structs (s : Scanner) (file : WrittenFile) : List StructDecl :=
  itemStructs s (file.notes.length + 2) file.items

/-! ### Readable lines -/

theorem IsLineCode.isReadable {l : WrittenLine} (h : IsLineCode l.code) : l.IsReadable :=
  ⟨h.isCode, h.trim_eq⟩

theorem isReadable_noteLines (notes : List Margin) : ∀ l ∈ notes.map noteLine, l.IsReadable := by
  intro l hl
  obtain ⟨m, -, rfl⟩ := List.mem_map.1 hl
  exact ⟨.nil, rfl⟩

/-- Lines are readable with lines without code and a last one behind them. -/
theorem isReadable_closed {ls : List WrittenLine} {last : WrittenLine} (h : ∀ l ∈ ls, l.IsReadable)
    (endNotes : List Margin) (hlast : last.IsReadable) :
    ∀ l ∈ ls ++ (endNotes.map noteLine ++ [last]), l.IsReadable := by
  intro l hl
  rcases List.mem_append.1 hl with hl | hl
  · exact h l hl
  rcases List.mem_append.1 hl with hl | hl
  · exact isReadable_noteLines endNotes l hl
  · obtain rfl := List.mem_singleton.1 hl
    exact hlast

theorem WrittenField.isReadable (f : WrittenField) : ∀ l ∈ f.lines, l.IsReadable := by
  intro l hl
  rcases List.mem_append.1 hl with hl | hl
  · exact isReadable_noteLines f.notes l hl
  · exact (f.isLineCode l hl).isReadable

theorem isReadable_body (fields : List WrittenField) (endNotes : List Margin) (close : Margin) :
    ∀ l ∈ fields.flatMap WrittenField.lines ++
      (endNotes.map noteLine ++ [{ margin := close, code := ['\x7d'] }]), l.IsReadable := by
  refine isReadable_closed (fun l hl => ?_) endNotes ⟨(.of_plain (by decide) : IsCode ['\x7d']), rfl⟩
  obtain ⟨f, -, hf⟩ := List.mem_flatMap.1 hl
  exact f.isReadable l hf

namespace WrittenStruct

theorem isLineCode_headText (d : WrittenStruct) (inGroup : Bool) :
    IsLineCode (keyword inGroup ++ d.headText) := by
  have hname : IsLineCode d.name.chars :=
    .of_isTypeText (isCode_of_isPlain fun _ hc => d.name.isPlain hc) d.name.isTypeText
  have hhead : IsLineCode d.headText :=
    hname.append (.of_plain (by decide) : IsCode [' '])
      ⟨.of_plain (by decide), ⟨'s', _, rfl, by decide⟩, ⟨"struct ".toList, '\x7b', rfl, by decide⟩⟩
  cases inGroup with
  | true => exact hhead
  | false =>
      have hkey : IsLineCode ['t', 'y', 'p', 'e'] :=
        ⟨.of_plain (by decide), ⟨'t', _, rfl, by decide⟩, ⟨['t', 'y', 'p'], 'e', rfl, by decide⟩⟩
      exact hkey.append (.of_plain (by decide) : IsCode [' ']) hhead

theorem isReadable (d : WrittenStruct) (inGroup : Bool) :
    ∀ l ∈ d.lines inGroup, l.IsReadable := by
  intro l hl
  rcases List.mem_append.1 hl with hl | hl
  · exact isReadable_noteLines d.notes l hl
  rcases List.mem_cons.1 hl with rfl | hl
  · exact (d.isLineCode_headText inGroup).isReadable
  · exact isReadable_body d.fields d.endNotes d.close l hl

end WrittenStruct

theorem WrittenItem.isReadable (item : WrittenItem) : ∀ l ∈ item.lines, l.IsReadable := by
  cases item with
  | single decl => exact decl.isReadable false
  | group notes head decls endNotes close =>
      intro l hl
      rcases List.mem_append.1 hl with hl | hl
      · exact isReadable_noteLines notes l hl
      rcases List.mem_cons.1 hl with rfl | hl
      · exact ⟨(.of_plain (by decide) : IsCode "type (".toList), rfl⟩
      refine isReadable_closed (fun l hl => ?_) endNotes
        ⟨(.of_plain (by decide) : IsCode [')']), rfl⟩ l hl
      obtain ⟨d, -, hd⟩ := List.mem_flatMap.1 hl
      exact d.isReadable true l hd

theorem WrittenFile.isReadable (file : WrittenFile) : ∀ l ∈ file.lines, l.IsReadable := by
  intro l hl
  rcases List.mem_append.1 hl with hl | hl
  · exact isReadable_noteLines file.notes l hl
  rcases List.mem_cons.1 hl with rfl | hl
  · have hname : IsLineCode file.package.chars :=
      .of_isTypeText (isCode_of_isPlain fun _ hc => file.package.isPlain hc)
        file.package.isTypeText
    have hkey : IsLineCode "package".toList :=
      ⟨.of_plain (by decide), ⟨'p', _, rfl, by decide⟩, ⟨"packag".toList, 'e', rfl, by decide⟩⟩
    exact (hkey.append (.of_plain (by decide) : IsCode [' ']) hname).isReadable
  rcases List.mem_append.1 hl with hl | hl
  · obtain ⟨item, -, hi⟩ := List.mem_flatMap.1 hl
    exact item.isReadable l hi
  · exact isReadable_noteLines file.endNotes l hl

/-! ### Heads of declarations -/

namespace WrittenStruct

variable (d : WrittenStruct)

theorem headText_eq : d.headText = d.name.chars ++ ' ' :: "struct \x7b".toList := rfl

theorem takeWhile_headText : d.headText.takeWhile continuesName = d.name.chars := by
  rw [headText_eq, List.takeWhile_append_of_pos fun _ hc => d.name.continuesName_of_mem hc]
  exact List.append_nil _

/-- A name that begins like the keyword goes on behind it. -/
theorem exists_cons_of_keyword {tail : List Char} (h : d.headText = "type".toList ++ tail) :
    ∃ c rest, tail = c :: rest ∧ continuesName c = true := by
  have hname := d.takeWhile_headText
  rw [h, List.takeWhile_append_of_pos (by decide)] at hname
  cases tail with
  | nil => exact absurd hname.symm d.ne_type
  | cons c rest =>
      cases hc : continuesName c with
      | true => exact ⟨c, rest, rfl, hc⟩
      | false =>
          rw [List.takeWhile_cons_of_neg (by simp [hc])] at hname
          exact absurd hname.symm d.ne_type

/-- Behind the keyword, or in its place, no blank follows. -/
theorem trimStart_drop (h : "type".toList.isPrefixOf d.headText = true) :
    ∃ c rest, d.headText.drop 4 = c :: rest ∧ continuesName c = true ∧ Text.isBlank c = false := by
  obtain ⟨tail, ht⟩ := List.isPrefixOf_iff_prefix.1 h
  obtain ⟨c, rest, hc, hn⟩ := d.exists_cons_of_keyword ht.symm
  refine ⟨c, rest, ?_, hn, (isPlain_of_continuesName hn).1⟩
  rw [← ht, hc]
  rfl

theorem trimStart_headText : Text.trimStart d.headText = d.headText :=
  Text.trimStart_eq_self (d.name.isPlain (List.mem_cons_self)).1

theorem specText?_head (inGroup : Bool) :
    Scanner.specText? inGroup (keyword inGroup ++ d.headText) = some d.headText := by
  cases inGroup with
  | false =>
      have hafter : Text.afterWord? "type" (keyword false ++ d.headText) =
          some (Text.trimStart d.headText) := rfl
      rw [Scanner.specText?, hafter, d.trimStart_headText]
  | true =>
      have hafter : Text.afterWord? "type" (keyword true ++ d.headText) = none := by
        change Text.afterWord? "type" d.headText = none
        rw [Text.afterWord?]
        split
        · next hp =>
            obtain ⟨c, rest, hd, -, hb⟩ := d.trimStart_drop hp
            have hlength : "type".length = 4 := rfl
            rw [hlength, hd]
            simp [hb]
        · rfl
      rw [Scanner.specText?, hafter]
      rfl

theorem opensGroup_head (inGroup : Bool) :
    Scanner.opensGroup (keyword inGroup ++ d.headText) = false := by
  have hopen {c : Char} {rest : List Char} (hc : continuesName c = true) :
      ¬ c :: rest = ['('] := by
    rintro he
    obtain ⟨rfl, -⟩ := List.cons.inj he
    exact absurd hc (by decide)
  cases inGroup with
  | false =>
      have hfirst : continuesName d.name.first = true :=
        d.name.continuesName_of_mem List.mem_cons_self
      have hrest : ¬ Text.trimStart d.headText = ['('] := by
        rw [d.trimStart_headText]
        exact hopen hfirst
      exact (Bool.and_eq_false_iff.2 (.inr (decide_eq_false hrest)))
  | true =>
      change ("type".toList.isPrefixOf d.headText &&
        decide (Text.trimStart (d.headText.drop 4) = ['('])) = false
      cases hp : "type".toList.isPrefixOf d.headText with
      | false => rfl
      | true =>
          obtain ⟨c, rest, hd, hc, hb⟩ := d.trimStart_drop hp
          rw [hd, Text.trimStart_eq_self hb, Bool.true_and]
          exact decide_eq_false (hopen hc)

theorem ofText?_head :
    TypeSpec.ofText? d.headText =
      some { name := String.ofList d.name.chars, params := [], typeText := "struct \x7b".toList } := by
  have hid : identifier? d.headText = some (d.name.chars, " struct \x7b".toList) :=
    identifier?_chars d.name fun c hc => by
      obtain rfl := Option.some.inj hc
      rfl
  rw [TypeSpec.ofText?, hid]
  rfl

/-- A declaration is read as the struct it stands for. -/
theorem readSpec_headText (s : Scanner) (doc : List (List Char)) (number : Nat) (rest : List Line)
    (inGroup : Bool) :
    s.readSpec d.headText (({ margin := d.head, code := keyword inGroup ++ d.headText } :
        WrittenLine).read number) doc
      (readLines (number + 1) (d.fields.flatMap WrittenField.lines ++
        (d.endNotes.map noteLine ++ [{ margin := d.close, code := ['\x7d'] }])) ++ rest) =
      (Scanner.declareStruct {
        name := String.ofList d.name.chars
        position := { file := s.file, line := (number : Int) }
        typeParams := []
        ignored := s.marks doc || s.marks [d.head.note]
        fields := declsOf (number + 1) d.fields } [], rest) := by
  have hbody : structBodyText? "struct \x7b".toList = some [] := by decide
  have henc : enclosed? ['\x7b'] = none := by decide
  have hempty (comment : String) (line : Nat) : entriesOf comment line (Text.trim []) = [] := rfl
  simp only [Scanner.readSpec, d.ofText?_head, hbody, Scanner.readStruct, henc, structBody_closed,
    hempty, List.nil_append, WrittenLine.read_number, WrittenLine.read_comment, if_true]
  rfl

end WrittenStruct

/-! ### Scanning lines -/

namespace Scanner

variable (s : Scanner) {found : Declarations} {inGroup : Bool} {doc : List (List Char)}

/-- Lines without code are collected as far as they hold a comment. -/
theorem scanLines_notes (notes : List Margin) (number : Nat) (rest : List Line) :
    s.scanLines inGroup doc found (readLines number (notes.map noteLine) ++ rest) =
      s.scanLines inGroup (docsFrom doc notes) found rest := by
  induction notes generalizing number doc with
  | nil => rfl
  | cons m notes ih =>
      have hstep : (if ((noteLine m).read number).isComment && !m.note.isEmpty then m.note :: doc
          else []) = if m.note.isEmpty then [] else m.note :: doc := by
        cases hm : m.comment with
        | none => simp [WrittenLine.read, noteLine, Margin.note, hm]
        | some comment =>
            have hc : ((noteLine m).read number).isComment = true := by
              simp [WrittenLine.read, noteLine, hm]
            cases hn : m.note.isEmpty <;> simp [hc]
      have hcode : (noteLine m).code.isEmpty = true := rfl
      have hnote : (noteLine m).margin.note = m.note := rfl
      rw [List.map_cons, readLines, List.cons_append, scanLines]
      simp only [WrittenLine.read_code, WrittenLine.read_comment, hcode, hnote, if_true, hstep]
      rw [ih, docsFrom, docsFrom, List.foldl_cons]

theorem scanLines_code {line : Line} (hp : found.package.isEmpty = false)
    (hc : line.code.isEmpty = false) (rest : List Line) :
    s.scanLines inGroup doc found (line :: rest) =
      if opensGroup line.code then s.scanLines true [] found rest
      else if inGroup && line.code = [')'] then s.scanLines false [] found rest
      else
        match specText? inGroup line.code with
        | none => s.scanLines inGroup [] found rest
        | some text =>
          let r := s.readSpec text line doc rest
          s.scanLines inGroup [] (found.append r.1) r.2 := by
  rw [scanLines, hc, hp]
  rfl

def withStructs (found : Declarations) (structs : List StructDecl) : Declarations :=
  structs.foldl (fun found d => found.append (declareStruct d [])) found

theorem scanLines_struct (hp : found.package.isEmpty = false) (d : WrittenStruct) (number : Nat)
    (rest : List Line) :
    s.scanLines inGroup [] found (readLines number (d.lines inGroup) ++ rest) =
      s.scanLines inGroup [] (found.append (declareStruct (d.decl s number) [])) rest := by
  have hcode := d.isLineCode_headText inGroup
  have hclose : ¬ keyword inGroup ++ d.headText = [')'] := by
    intro he
    cases inGroup with
    | false => cases he
    | true =>
        have hfirst := d.name.starts
        rw [(List.cons.inj he).1] at hfirst
        exact absurd hfirst (by decide)
  rw [WrittenStruct.lines, readLines_append, List.append_assoc, scanLines_notes, readLines,
    List.cons_append, s.scanLines_code hp hcode.isEmpty_eq]
  simp only [WrittenLine.read_code, d.opensGroup_head inGroup, hclose, d.specText?_head inGroup,
    decide_false, Bool.and_false, Bool.false_eq_true, if_false]
  rw [List.length_map, d.readSpec_headText]
  rfl

theorem package_withStructs (found : Declarations) (structs : List StructDecl) :
    (withStructs found structs).package = found.package := by
  induction structs generalizing found with
  | nil => rfl
  | cons d structs ih => exact ih _

theorem structs_withStructs (found : Declarations) (structs : List StructDecl) :
    (withStructs found structs).structs = found.structs ++ structs := by
  induction structs generalizing found with
  | nil => simp [withStructs]
  | cons d structs ih =>
      rw [withStructs, List.foldl_cons]
      refine (ih _).trans ?_
      simp [Declarations.append, declareStruct]

theorem warnings_withStructs (found : Declarations) (structs : List StructDecl) :
    (withStructs found structs).warnings = found.warnings := by
  induction structs generalizing found with
  | nil => rfl
  | cons d structs ih =>
      rw [withStructs, List.foldl_cons]
      refine (ih _).trans ?_
      simp [Declarations.append, declareStruct]

theorem withStructs_append (found : Declarations) (ds ds' : List StructDecl) :
    withStructs found (ds ++ ds') = withStructs (withStructs found ds) ds' :=
  List.foldl_append

/-- Declarations of a group are found in their order. -/
theorem scanLines_structs (hp : found.package.isEmpty = false) (ds : List WrittenStruct)
    (number : Nat) (rest : List Line) :
    s.scanLines true [] found (readLines number (ds.flatMap (WrittenStruct.lines true)) ++ rest) =
      s.scanLines true [] (withStructs found (structsOf s number ds)) rest := by
  induction ds generalizing number found with
  | nil => rfl
  | cons d ds ih =>
      have hp' : (found.append (declareStruct (d.decl s number) [])).package.isEmpty = false := hp
      rw [List.flatMap_cons, readLines_append, List.append_assoc, s.scanLines_struct hp, ih hp']
      rfl

/-- What stands at the top of a file is found. -/
theorem scanLines_item (hp : found.package.isEmpty = false) (item : WrittenItem) (number : Nat)
    (rest : List Line) :
    s.scanLines false [] found (readLines number item.lines ++ rest) =
      s.scanLines false [] (withStructs found (item.structs s number)) rest := by
  cases item with
  | single d => exact s.scanLines_struct hp d number rest
  | group notes head ds endNotes close =>
      have hp' : (withStructs found (structsOf s (number + notes.length + 1) ds)).package.isEmpty =
          false := by rw [package_withStructs, hp]
      have hopen : opensGroup "type (".toList = true := by decide
      have hnone : opensGroup [')'] = false := by decide
      have hclose (doc : List (List Char)) (n : Nat) {found : Declarations}
          (hp : found.package.isEmpty = false) :
          s.scanLines true doc found (readLines n [{ margin := close, code := [')'] }] ++ rest) =
            s.scanLines false [] found rest := by
        rw [readLines, readLines, List.cons_append, s.scanLines_code hp rfl]
        simp only [WrittenLine.read_code, hnone, Bool.true_and, decide_true, Bool.false_eq_true,
          if_false, if_true, List.nil_append]
      rw [WrittenItem.lines, readLines_append, List.append_assoc, scanLines_notes, readLines,
        List.cons_append, readLines_append, List.append_assoc, readLines_append, List.append_assoc,
        List.length_map, s.scanLines_code hp rfl]
      simp only [WrittenLine.read_code, hopen, if_true]
      rw [s.scanLines_structs hp, scanLines_notes, hclose _ _ hp']
      rfl

theorem scanLines_items (hp : found.package.isEmpty = false) (items : List WrittenItem)
    (number : Nat) (rest : List Line) :
    s.scanLines false [] found (readLines number (items.flatMap WrittenItem.lines) ++ rest) =
      s.scanLines false [] (withStructs found (itemStructs s number items)) rest := by
  induction items generalizing number found with
  | nil => rfl
  | cons item items ih =>
      have hp' : (withStructs found (item.structs s number)).package.isEmpty = false := by
        rw [package_withStructs, hp]
      rw [List.flatMap_cons, readLines_append, List.append_assoc, s.scanLines_item hp, ih hp',
        itemStructs, withStructs_append]

theorem scanLines_package {line : Line} {name : String} (hp : found.package.isEmpty = true)
    (hc : line.code.isEmpty = false) (hn : packageName? line.code = some name) (rest : List Line) :
    s.scanLines inGroup doc found (line :: rest) =
      s.scanLines inGroup [] { found with package := name } rest := by
  rw [scanLines]
  simp only [hc, hp, hn, Bool.false_eq_true, if_false, if_true]

theorem packageName?_chars (package : Identifier) :
    packageName? ("package ".toList ++ package.chars) = some (String.ofList package.chars) := by
  have hafter : Text.afterWord? "package" ("package ".toList ++ package.chars) =
      some (Text.trimStart package.chars) := rfl
  have htrim : Text.trimStart package.chars = package.chars :=
    Text.trimStart_eq_self (package.isPlain List.mem_cons_self).1
  have hid : identifier? (package.chars ++ []) = some (package.chars, []) :=
    identifier?_chars package endsName_nil
  rw [List.append_nil] at hid
  rw [packageName?, hafter, htrim, Option.bind_some, hid]
  rfl

theorem scan_writtenText (file : WrittenFile) :
    s.scan file.text = withStructs
      { Declarations.none with package := String.ofList file.package.chars } (file.structs s) := by
  have hne : file.lines ≠ [] := by simp [WrittenFile.lines]
  have hlines : sourceLines file.text.toList = readLines 1 file.lines := by
    rw [WrittenFile.text, String.toList_ofList]
    exact sourceLines_joinedText hne file.isReadable
  have hpackage : (String.ofList file.package.chars).isEmpty = false := by
    rw [Bool.eq_false_iff]
    intro h
    have hempty := congrArg String.toList (String.isEmpty_iff.1 h)
    rw [String.toList_ofList] at hempty
    cases hempty
  have hnumber : 1 + (file.notes.map noteLine).length + 1 = file.notes.length + 2 := by
    rw [List.length_map]
    omega
  have hend (number : Nat) (found : Declarations) :
      s.scanLines false [] found (readLines number (file.endNotes.map noteLine)) = found := by
    have hnotes := @Scanner.scanLines_notes s found false [] file.endNotes number []
    rw [List.append_nil] at hnotes
    rw [hnotes, Scanner.scanLines]
  rw [Scanner.scan, hlines, WrittenFile.lines, readLines_append, Scanner.scanLines_notes, readLines,
    s.scanLines_package rfl rfl (Scanner.packageName?_chars file.package), readLines_append,
    s.scanLines_items hpackage, hend, hnumber]
  rfl

end Scanner

/-- Scanning the text of a file finds its package and exactly the structs it declares, in their order
and with their numbers of lines, their fields and the comments on them. -/
theorem scan_text (s : Scanner) (file : WrittenFile) :
    (s.scan file.text).structs = file.structs s ∧
      (s.scan file.text).package = String.ofList file.package.chars ∧
      (s.scan file.text).warnings = [] := by
  rw [s.scan_writtenText, Scanner.structs_withStructs, Scanner.package_withStructs,
    Scanner.warnings_withStructs]
  exact ⟨List.nil_append _, rfl, rfl⟩

/-- A group with one struct, in which a type goes on over three lines. -/
example : ∃ file : WrittenFile,
    file.text = "package geo\n\ntype (\n\t// Places\n\tPlace struct \x7b\n" ++
      "\t\tx, y int64 \x60json\x60 // both\n\t\topts struct \x7b\n\t\t\tdeep bool\n\t\t\x7d\n" ++
      "\t\t*base.Node\n\t\x7d\n)\n" ∧
    (file.structs { file := "geo.go", marker := "ignore" }).map (fun d =>
      (d.position.line, d.fields.map fun f => (f.name, f.typeExpr, f.comment, f.line))) =
      [(5, [("x", "int64", "both", 6), ("y", "int64", "both", 6),
        ("opts", "struct \x7bdeep bool\x7d", "", 7), ("Node", "*base.Node", "", 10)])] := by
  let tabs (n : Nat) : Gap := ⟨List.replicate n '\t', fun c hc => by
    rw [List.eq_of_mem_replicate hc]
    decide⟩
  let space : Gap := ⟨[' '], by decide⟩
  let plain (n : Nat) : Margin := ⟨tabs n, tabs 0, none⟩
  let options : WrittenType :=
    { first := "struct \x7b".toList
      more := [(plain 3, "deep bool".toList), (plain 2, ['\x7d'])]
      isLineCode := by
        simp only [List.map_cons, List.map_nil, List.forall_mem_cons, List.not_mem_nil,
          false_imp_iff, implies_true, and_true]
        exact ⟨⟨.of_plain (by decide), ⟨_, _, rfl, by decide⟩, ⟨"struct ".toList, _, rfl, by decide⟩⟩,
          ⟨.of_plain (by decide), ⟨_, _, rfl, by decide⟩, ⟨"deep boo".toList, _, rfl, by decide⟩⟩,
          ⟨.of_plain (by decide), ⟨_, _, rfl, by decide⟩, ⟨[], _, rfl, by decide⟩⟩⟩
      isTypeText :=
        { nested := (IsNested.of_plain (by decide) : IsNested NoBreak "struct ".toList).append
            (.bracket rfl (IsNested.of_plain (by decide) :
              IsNested (fun _ => True) "\ndeep bool\n".toList))
          starts := ⟨'s', _, rfl, by decide, by decide⟩
          ends := ⟨"struct \x7b\ndeep bool\n".toList, '\x7d', rfl, by decide, by decide⟩ } }
  let place : WrittenStruct :=
    { notes := [⟨tabs 1, tabs 0, some ⟨" Places".toList, by decide⟩⟩]
      head := plain 1
      name := ⟨'P', "lace".toList, rfl, by decide⟩
      ne_type := by decide
      fields := [
        ⟨[], ⟨tabs 2, space, some ⟨" both".toList, by decide⟩⟩,
          .named ⟨'x', [], rfl, by decide⟩ [⟨'y', [], rfl, by decide⟩] space (by decide)
            (.ofName ⟨'i', "nt64".toList, rfl, by decide⟩),
          space, some ⟨⟨"json".toList, by decide⟩, by decide, by decide⟩⟩,
        ⟨[], plain 2, .named ⟨'o', "pts".toList, rfl, by decide⟩ [] space (by decide) options,
          tabs 0, none⟩,
        ⟨[], plain 2, .embedded ⟨true, some ⟨'b', "ase".toList, rfl, by decide⟩,
          ⟨'N', "ode".toList, rfl, by decide⟩⟩, tabs 0, none⟩]
      endNotes := []
      close := plain 1 }
  exact ⟨⟨[], plain 0, ⟨'g', "eo".toList, rfl, by decide⟩,
    [.group [plain 0] (plain 0) [place] [] (plain 0)], [plain 0]⟩, by decide +kernel,
    by decide +kernel⟩

end StructLayout.Source
