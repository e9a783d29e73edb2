import Mathlib.Data.List.TakeWhile
import StructLayout.Proofs.Source.EntryLines

/-!
# Struct bodies as they are written

The lines of a struct body as syntax: declarations of fields (`WrittenField`), which are names with a
type or an embedded type, perhaps with a tag and with comments on their lines, and lines without code
between them.  A type may go on over several lines (`WrittenType`), each with its own indent and
comment, as long as its line breaks are inside of brackets.

The main statement is `structBody_fields`: the lines of declarations are read as the fields they stand
for.  A field has the type that was written, brought onto one line with its line breaks and indents
(`WrittenType.compact_writtenText`), and the comment and the number of its first line of code.
-/

namespace StructLayout.Source

variable {xs ys : List Char} {entry : OpenEntry}

/-! ### Types over several lines -/

/-- Code on a line and on further lines. -/
def codeText (first : List Char) (more : List (Margin × List Char)) : List Char :=
  ['\n'].intercalate (first :: more.map Prod.snd)

theorem codeText_nil (first : List Char) : codeText first [] = first := by
  simp [codeText]

theorem codeText_cons (first piece : List Char) (m : Margin) (more : List (Margin × List Char)) :
    codeText first ((m, piece) :: more) = first ++ '\n' :: codeText piece more := by
  simp [codeText, List.intercalate_cons_cons]

theorem codeText_append (before first : List Char) (more : List (Margin × List Char)) :
    codeText (before ++ first) more = before ++ codeText first more :=
  intercalate_append_cons ['\n'] before first _

/-- A type with its line breaks inside brackets: its code on the first line, and what stands on the
further lines around theirs. -/
structure WrittenType where
  first : List Char
  more : List (Margin × List Char)
  isLineCode : ∀ piece ∈ first :: more.map Prod.snd, IsLineCode piece
  isTypeText : IsTypeText (codeText first more)

def WrittenType.ofName (name : Identifier) : WrittenType where
  first := name.chars
  more := []
  isLineCode := by
    intro piece hp
    obtain rfl := List.mem_singleton.1 hp
    exact .of_isTypeText (isCode_of_isPlain fun _ hc => name.isPlain hc) name.isTypeText
  isTypeText := by simpa [codeText] using name.isTypeText

/-- A type as it is written, given the blanks at the end of its first line. -/
def writtenText (gap : Gap) (first : List Char) : List (Margin × List Char) → List Char
  | [] => first
  | (m, piece) :: more =>
    first ++ (gap.chars ++ '\n' :: (m.indent.chars ++ writtenText m.gap piece more))

/-- Without the blanks around its line breaks a type is tidied to the same text. -/
theorem tidy_writtenText (gap : Gap) (before first : List Char) (more : List (Margin × List Char)) :
    tidy (before ++ writtenText gap first more) = tidy (before ++ codeText first more) := by
  induction more generalizing gap before first with
  | nil => simp [writtenText, codeText]
  | cons line more ih =>
      obtain ⟨m, piece⟩ := line
      have hrest := ih m.gap (before ++ (first ++ ['\n'])) piece
      rw [writtenText, ← List.append_assoc, tidy_break gap.blank m.indent.blank, codeText_cons]
      simpa using hrest

/-- With the blanks around its line breaks or without, a type ends with the code of a line. -/
theorem writtenText_last (gap : Gap) (first : List Char) (more : List (Margin × List Char)) :
    ∃ init init', ∃ last ∈ first :: more.map Prod.snd,
      writtenText gap first more = init ++ last ∧ codeText first more = init' ++ last := by
  induction more generalizing gap first with
  | nil => exact ⟨[], [], first, by simp, by simp [writtenText], by simp [codeText]⟩
  | cons line more ih =>
      obtain ⟨m, piece⟩ := line
      obtain ⟨init, init', last, hl, ht, hi⟩ := ih m.gap piece
      refine ⟨first ++ (gap.chars ++ '\n' :: (m.indent.chars ++ init)), first ++ '\n' :: init',
        last, List.mem_cons_of_mem _ hl, by simp [writtenText, ht], ?_⟩
      rw [codeText_cons, hi]
      simp

theorem WrittenType.compact_writtenText (t : WrittenType) (gap : Gap) :
    compact (writtenText gap t.first t.more) = compact (codeText t.first t.more) := by
  have hs : StartsFirmly t.first := by
    obtain ⟨c, rest, hc, -⟩ := (t.isLineCode t.first (by simp)).starts
    obtain ⟨d, tail, hd, hf, -⟩ := t.isTypeText.starts
    obtain ⟨more, hm⟩ := intercalate_cons ['\n'] t.first (t.more.map Prod.snd)
    rw [codeText, hm, hc] at hd
    obtain ⟨rfl, -⟩ := List.cons.inj hd
    exact ⟨c, rest, hc, hf⟩
  have hstart : StartsFirmly (writtenText gap t.first t.more) := by
    cases t.more with
    | nil => exact hs
    | cons => exact hs.append
  have hend : EndsFirmly (writtenText gap t.first t.more) := by
    obtain ⟨init, init', last, hl, ht, hi⟩ := writtenText_last gap t.first t.more
    obtain ⟨front, c, hc, -⟩ := (t.isLineCode last hl).ends
    obtain ⟨zs, d, hd, hf, -⟩ := t.isTypeText.ends
    rw [hi, hc, ← List.append_assoc] at hd
    obtain ⟨-, hcd⟩ := List.append_inj' hd rfl
    obtain ⟨rfl, -⟩ := List.cons.inj hcd
    rw [ht, hc]
    exact EndsFirmly.append ⟨front, c, rfl, hf⟩
  rw [compact_eq_tidy hstart hend, t.isTypeText.compact_eq]
  exact tidy_writtenText gap [] t.first t.more

/-! ### Embedded fields -/

/-- No name is read where none stands at the start. -/
theorem namesAndType?_of_identifier? {cs : List Char} (h : identifier? cs = none) :
    namesAndType? cs = none := by
  rw [namesAndType?]
  split
  · rfl
  · next hi =>
      rw [h] at hi
      cases hi

theorem namesAndType?_of_typeBehind? {cs name rest : List Char}
    (hi : identifier? cs = some (name, rest)) (ht : typeBehind? rest = none)
    (hc : ∀ more, Text.trimStart rest ≠ ',' :: more) : namesAndType? cs = none := by
  rw [namesAndType?]
  split
  · rfl
  · next name' rest' h =>
      rw [hi] at h
      cases h
      dsimp only
      split
      · next more h => exact absurd h (hc more)
      · rw [ht]
        rfl

theorem Identifier.dropStars (name : Identifier) (cs : List Char) :
    (name.chars ++ cs).dropWhile (· = '*') = name.chars ++ cs := by
  have hne : ¬ name.first = '*' := by
    intro he
    have hs := name.starts
    rw [he] at hs
    exact absurd hs (by decide)
  simp [Identifier.chars, hne]

/-- An embedded type: a name, perhaps behind a package or a star. -/
structure EmbeddedType where
  pointer : Bool
  package : Option Identifier
  name : Identifier

namespace EmbeddedType

def qualifier (t : EmbeddedType) : List Char :=
  match t.package with
  | none => []
  | some package => package.chars ++ ['.']

def text (t : EmbeddedType) : List Char :=
  (if t.pointer then ['*'] else []) ++ (t.qualifier ++ t.name.chars)

theorem isPlain_qualified (t : EmbeddedType) {c : Char} (h : c ∈ t.qualifier ++ t.name.chars) :
    IsPlain c := by
  rcases List.mem_append.1 h with h | h
  · unfold qualifier at h
    split at h
    · cases h
    · next package _ =>
        rcases List.mem_append.1 h with h | h
        · exact package.isPlain h
        · obtain rfl := List.mem_singleton.1 h
          decide
  · exact t.name.isPlain h

theorem isPlain_text (t : EmbeddedType) {c : Char} (h : c ∈ t.text) : IsPlain c := by
  rcases List.mem_append.1 h with h | h
  · split at h
    · obtain rfl := List.mem_singleton.1 h
      decide
    · cases h
  · exact t.isPlain_qualified h

theorem namesAndType?_text (t : EmbeddedType) : namesAndType? t.text = none := by
  obtain ⟨pointer, package, name⟩ := t
  cases pointer with
  | true => exact namesAndType?_of_identifier? rfl
  | false =>
      cases package with
      | none =>
          have hi : identifier? (name.chars ++ []) = some (name.chars, []) :=
            identifier?_chars name endsName_nil
          rw [List.append_nil] at hi
          exact namesAndType?_of_typeBehind? hi rfl (by simp)
      | some package =>
          have hi : identifier? (package.chars ++ '.' :: name.chars) =
              some (package.chars, '.' :: name.chars) :=
            identifier?_chars package fun c hc => by
              obtain rfl := Option.some.inj hc
              rfl
          have htext : text ⟨false, some package, name⟩ = package.chars ++ '.' :: name.chars := by
            simp [text, qualifier]
          rw [htext]
          refine namesAndType?_of_typeBehind? hi rfl fun more h => ?_
          rw [Text.trimStart_eq_self (by decide)] at h
          exact absurd (List.cons.inj h).1 (by decide)

theorem isTypeText_text (t : EmbeddedType) : IsTypeText t.text :=
  isTypeText_of_isPlain (by simp [text, Identifier.chars]) fun _ hc => t.isPlain_text hc

theorem isTypeText_qualified (t : EmbeddedType) : IsTypeText (t.qualifier ++ t.name.chars) :=
  isTypeText_of_isPlain (by simp [Identifier.chars]) fun _ hc => t.isPlain_qualified hc

theorem compact_text (t : EmbeddedType) : compact t.text = t.text := by
  rw [t.isTypeText_text.compact_eq]
  exact tidy_of_firm fun _ hc => endsFirm_of_isPlain (t.isPlain_text hc)

theorem dropStars_qualified (t : EmbeddedType) :
    (t.qualifier ++ t.name.chars).dropWhile (· = '*') = t.qualifier ++ t.name.chars := by
  unfold qualifier
  split
  · simpa using t.name.dropStars []
  · next package _ =>
      rw [List.append_assoc]
      exact package.dropStars _

theorem dropStars_text (t : EmbeddedType) :
    t.text.dropWhile (· = '*') = t.qualifier ++ t.name.chars := by
  unfold text
  split
  · simpa using t.dropStars_qualified
  · simpa using t.dropStars_qualified

theorem afterLastDot_qualified (t : EmbeddedType) :
    afterLastDot (t.qualifier ++ t.name.chars) = t.name.chars := by
  have hdot : ∀ c ∈ t.name.chars.reverse, (c != '.') = true := by
    intro c hc
    rw [bne_iff_ne]
    rintro rfl
    exact absurd (t.name.continuesName_of_mem (List.mem_reverse.1 hc)) (by decide)
  have hq : t.qualifier.reverse.takeWhile (· != '.') = [] := by
    unfold qualifier
    split
    · rfl
    · simp
  rw [afterLastDot, List.reverse_append, List.takeWhile_append_of_pos hdot, hq, List.append_nil,
    List.reverse_reverse]

/-- An embedded field is called like the type without star and package. -/
theorem embeddedName_text (t : EmbeddedType) : embeddedName t.text = t.name.chars := by
  have hbare : (t.qualifier ++ t.name.chars).takeWhile (· != '[') = t.qualifier ++ t.name.chars := by
    refine List.takeWhile_eq_self_iff.2 fun c hc => ?_
    rw [bne_iff_ne]
    rintro rfl
    exact absurd (t.isPlain_qualified hc) (by decide)
  have hne : (t.qualifier ++ t.name.chars).isEmpty = false := by simp [Identifier.chars]
  simp only [embeddedName, t.isTypeText_text.trim_eq, t.dropStars_text, t.isTypeText_qualified.trim_eq,
    hbare, hne, Bool.false_eq_true, if_false, t.afterLastDot_qualified]

end EmbeddedType

/-! ### Fields -/

/-- What a line of a struct body declares: names with their type, or an embedded type. -/
inductive Declarator where
  | named (first : Identifier) (others : List Identifier) (gap : Gap) (separated : gap.chars ≠ [])
      (type : WrittenType)
  | embedded (type : EmbeddedType)

namespace Declarator

/-- The code of a declaration on its first line. -/
def first : Declarator → List Char
  | named first others gap _ type => namesText (first :: others) ++ (gap.chars ++ type.first)
  | embedded type => type.text

/-- The code of a declaration on further lines, with what stands around it. -/
def more : Declarator → List (Margin × List Char)
  | named _ _ _ _ type => type.more
  | embedded _ => []

/-- The fields that a declaration stands for, given the blanks at the end of its first line. -/
def decls (gap : Gap) (tag : Option RawTag) (comment : String) (line : Int) :
    Declarator → List FieldDecl
  | named first others _ _ type => (first :: others).map fun name =>
      writtenField comment line tag name.chars (compact (writtenText gap type.first type.more))
  | embedded type => [writtenField comment line tag type.name.chars (compact type.text)]

end Declarator

/-- A field declaration, perhaps with a tag, below lines without code. -/
structure WrittenField where
  notes : List Margin
  margin : Margin
  declarator : Declarator
  tagGap : Gap
  tag : Option LineTag

def noteLine (m : Margin) : WrittenLine := { margin := m, code := [] }

/-- Lines of code, with a text behind the last of them. -/
def linesOf (m : Margin) (first behind : List Char) : List (Margin × List Char) → List WrittenLine
  | [] => [{ margin := m, code := first ++ behind }]
  | (m', piece) :: more => { margin := m, code := first } :: linesOf m' piece behind more

namespace WrittenField

def rawTag (f : WrittenField) : Option RawTag := f.tag.map LineTag.toRawTag

def codeLines (f : WrittenField) : List WrittenLine :=
  linesOf f.margin f.declarator.first (writtenTag f.tagGap.chars f.rawTag) f.declarator.more

def lines (f : WrittenField) : List WrittenLine := f.notes.map noteLine ++ f.codeLines

/-- The fields that a declaration stands for whose lines start with a number: they have the comment
and the number of its first line of code. -/
def decls (f : WrittenField) (number : Nat) : List FieldDecl :=
  f.declarator.decls f.margin.gap f.rawTag (String.ofList f.margin.note)
    ((number + f.notes.length : Nat) : Int)

end WrittenField

/-- The fields of declarations below each other. -/
def declsOf (number : Nat) : List WrittenField → List FieldDecl
  | [] => []
  | f :: fs => f.decls number ++ declsOf (number + f.lines.length) fs

/-! ### Reading fields -/

theorem isCode_namesText (names : List Identifier) : IsCode (namesText names) := by
  refine .intercalate (.of_plain (by decide)) fun part hp => ?_
  obtain ⟨name, -, rfl⟩ := List.mem_map.1 hp
  exact isCode_of_isPlain fun _ hc => name.isPlain hc

/-- The lines of code are at least one. -/
theorem exists_linesOf (m : Margin) (first behind : List Char) (more : List (Margin × List Char)) :
    ∃ l ls, linesOf m first behind more = l :: ls ∧ l.margin = m := by
  cases more with
  | nil => exact ⟨_, _, rfl, rfl⟩
  | cons line more => exact ⟨_, _, rfl, rfl⟩

theorem joinedCode_linesOf (m : Margin) (first behind : List Char)
    (more : List (Margin × List Char)) :
    joinedCode (linesOf m first behind more) = codeText first more ++ behind := by
  induction more generalizing m first with
  | nil => simp [linesOf, joinedCode, codeText]
  | cons line more ih =>
      obtain ⟨m', piece⟩ := line
      have hrest := ih m' piece
      obtain ⟨l, ls, hl, -⟩ := exists_linesOf m' piece behind more
      rw [hl] at hrest
      rw [linesOf, hl, joinedCode_cons, hrest, codeText_cons, List.append_assoc, List.cons_append]

theorem isLineCode_linesOf {m : Margin} {first behind : List Char} {more : List (Margin × List Char)}
    (h : ∀ piece ∈ first :: more.map Prod.snd, IsLineCode piece)
    (hb : ∀ cs, IsLineCode cs → IsLineCode (cs ++ behind)) :
    ∀ l ∈ linesOf m first behind more, IsLineCode l.code := by
  induction more generalizing m first with
  | nil =>
      intro l hl
      obtain rfl := List.mem_singleton.1 hl
      exact hb first (h first (by simp))
  | cons line more ih =>
      obtain ⟨m', piece⟩ := line
      intro l hl
      rcases List.mem_cons.1 hl with rfl | hl
      · exact h first (by simp)
      · exact ih (fun q hq => h q (List.mem_cons_of_mem _ hq)) l hl

namespace Declarator

theorem isLineCode (d : Declarator) : ∀ piece ∈ d.first :: d.more.map Prod.snd, IsLineCode piece := by
  cases d with
  | named first others gap separated type =>
      intro piece hp
      rcases List.mem_cons.1 hp with rfl | hp
      · have hn := isTypeText_namesText (List.cons_ne_nil first others)
        exact (IsLineCode.of_isTypeText (isCode_namesText _) hn).append gap.isCode
          (type.isLineCode type.first (by simp))
      · exact type.isLineCode piece (List.mem_cons_of_mem _ hp)
  | embedded type =>
      intro piece hp
      obtain rfl := List.mem_singleton.1 hp
      exact .of_isTypeText (isCode_of_isPlain fun _ hc => type.isPlain_text hc) type.isTypeText_text

theorem codeText_named (first : Identifier) (others : List Identifier) (gap : Gap)
    (separated : gap.chars ≠ []) (type : WrittenType) :
    codeText (named first others gap separated type).first type.more =
      namesText (first :: others) ++ (gap.chars ++ codeText type.first type.more) := by
  rw [Declarator.first, codeText_append, codeText_append]

theorem isTypeText (d : Declarator) : IsTypeText (codeText d.first d.more) := by
  cases d with
  | named first others gap separated type =>
      have hn := isTypeText_namesText (List.cons_ne_nil first others)
      have ht := type.isTypeText
      rw [more, codeText_named]
      exact ⟨hn.nested.append (gap.isNested.append ht.nested), hn.starts.append,
        ht.ends.append.append⟩
  | embedded type => simpa [codeText, first, more] using type.isTypeText_text

theorem fieldEntry_eq (d : Declarator) (gap tagGap : Gap) (tag : Option RawTag) (comment : String)
    (line : Int) :
    fieldEntry comment line (codeText d.first d.more ++ writtenTag tagGap.chars tag) =
      d.decls gap tag comment line := by
  cases d with
  | named first others before separated type =>
      rw [more, codeText_named, decls, type.compact_writtenText]
      exact fieldEntry_names separated before.isBlank tagGap.isBlank (List.cons_ne_nil first others) type.isTypeText tag
        comment line
  | embedded type =>
      obtain ⟨s, rest, hs, hfirm, -⟩ := type.isTypeText_text.starts
      obtain ⟨init, c, he, hc, hq⟩ := type.isTypeText_text.ends
      have hread := type.namesAndType?_text
      have hname := type.embeddedName_text
      have hcode : codeText (embedded type).first (embedded type).more = type.text := by
        simp [codeText, first, more]
      rw [hcode, decls]
      rw [← type.compact_text] at hname
      rw [hs] at hread he hname ⊢
      rw [fieldEntry_embedded hfirm.1 hc.1 hq he tagGap.isBlank tag comment line hread, hname]

end Declarator

theorem code_noteLines (notes : List Margin) : ∀ l ∈ notes.map noteLine, l.code = [] := by
  intro l hl
  obtain ⟨m, -, rfl⟩ := List.mem_map.1 hl
  rfl

theorem WrittenField.isLineCode (f : WrittenField) : ∀ l ∈ f.codeLines, IsLineCode l.code :=
  isLineCode_linesOf f.declarator.isLineCode fun _ hc => hc.append_tag f.tagGap f.tag

theorem structBody_field (f : WrittenField) (number : Nat) (rest : List Line) :
    structBody 0 entry (readLines number f.lines ++ rest) =
      (structBody 0 entry rest).prepend (f.decls number) := by
  obtain ⟨l, ls, hl, hm⟩ := exists_linesOf f.margin f.declarator.first
    (writtenTag f.tagGap.chars f.rawTag) f.declarator.more
  have hcode := f.isLineCode
  have hjoined := joinedCode_linesOf f.margin f.declarator.first
    (writtenTag f.tagGap.chars f.rawTag) f.declarator.more
  have hnested := f.declarator.isTypeText.nested.append
    (isNested_writtenTag f.tagGap.isNested f.rawTag)
  rw [WrittenField.codeLines, hl] at hcode
  rw [hl] at hjoined
  rw [← hjoined] at hnested
  rw [WrittenField.lines, readLines_append, List.append_assoc,
    structBody_notes (code_noteLines f.notes), List.length_map, WrittenField.codeLines, hl,
    structBody_entry hcode hnested, entriesOf_nested hnested, hjoined, hm,
    f.declarator.fieldEntry_eq f.margin.gap]
  rfl

theorem Body.prepend_prepend (fields fields' : List FieldDecl) (body : Body) :
    (body.prepend fields').prepend fields = body.prepend (fields ++ fields') := by
  simp [Body.prepend]

/-- Field declarations below each other are read in their order. -/
theorem structBody_fields (fs : List WrittenField) (number : Nat) (rest : List Line) :
    structBody 0 entry (readLines number (fs.flatMap WrittenField.lines) ++ rest) =
      (structBody 0 entry rest).prepend (declsOf number fs) := by
  induction fs generalizing number with
  | nil => rfl
  | cons f fs ih =>
      rw [List.flatMap_cons, readLines_append, List.append_assoc, structBody_field, ih,
        Body.prepend_prepend, declsOf]

/-- A closing brace alone on its line ends the body. -/
theorem structBody_close (m : Margin) (number : Nat) (rest : List Line) :
    structBody 0 entry (({ margin := m, code := ['\x7d'] } : WrittenLine).read number :: rest) =
      { fields := [], closed := true, rest } := by
  have hcloses : closesBody ['\x7d'] = true := by decide
  rw [structBody]
  simp only [WrittenLine.read_code, hcloses]
  rfl

theorem structBody_closed (fs : List WrittenField) (endNotes : List Margin) (close : Margin)
    (number : Nat) (rest : List Line) :
    structBody 0 entry (readLines number (fs.flatMap WrittenField.lines ++
        (endNotes.map noteLine ++ [{ margin := close, code := ['\x7d'] }])) ++ rest) =
      { fields := declsOf number fs, closed := true, rest } := by
  rw [readLines_append, List.append_assoc, structBody_fields, readLines_append, List.append_assoc,
    structBody_notes (code_noteLines endNotes)]
  have hclose (n : Nat) : structBody 0 entry
      (readLines n [{ margin := close, code := ['\x7d'] }] ++ rest) =
        { fields := [], closed := true, rest } := structBody_close close n rest
  rw [hclose, Body.prepend, List.append_nil]

end StructLayout.Source
