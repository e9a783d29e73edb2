import StructLayout.Proofs.Source.TypeText
import StructLayout.Sizing.Nesting

/-!
# The syntax of types

The type expressions of the language as a syntax tree (`TypeSyntax`): predeclared types, pointers,
slices, arrays, maps, channels, functions, interfaces, parenthesised types and structs, nested to any
depth.  A tree has a text on one line (`TypeSyntax.text`), in which a struct or an interface may have
blanks behind its opening and in front of its closing brace, and a layout given by recursion on the
tree (`TypeSyntax.layout`).

The main statements say that the text of a type is nested properly and has firm ends
(`TypeSyntax.isTypeText`), and that tidying it gives the text of another tree of the same shape
(`TypeSyntax.tidy_text`), in which only blanks inside braces and inside tags are different.
-/

namespace StructLayout.Sizing

open Source

/-! ### Parts of types -/

/-- The predeclared types, and the pointer type of package `unsafe`. -/
inductive Predeclared where
  | bool | int8 | uint8 | byte | int16 | uint16 | int32 | uint32 | rune | float32 | int64 | uint64
  | float64 | complex64 | complex128 | int | uint | uintptr | unsafePointer | string | error | any
deriving DecidableEq, Repr

namespace Predeclared

/-- The name of a predeclared type. -/
def text : Predeclared → String
  | .bool => "bool"
  | .int8 => "int8"
  | .uint8 => "uint8"
  | .byte => "byte"
  | .int16 => "int16"
  | .uint16 => "uint16"
  | .int32 => "int32"
  | .uint32 => "uint32"
  | .rune => "rune"
  | .float32 => "float32"
  | .int64 => "int64"
  | .uint64 => "uint64"
  | .float64 => "float64"
  | .complex64 => "complex64"
  | .complex128 => "complex128"
  | .int => "int"
  | .uint => "uint"
  | .uintptr => "uintptr"
  | .unsafePointer => "unsafe.Pointer"
  | .string => "string"
  | .error => "error"
  | .any => "any"

def layout (abi : Abi) : Predeclared → TypeLayout
  | .bool | .int8 | .uint8 | .byte => { size := 1, align := min 1 abi.maxAlign }
  | .int16 | .uint16 => { size := 2, align := min 2 abi.maxAlign }
  | .int32 | .uint32 | .rune | .float32 => { size := 4, align := min 4 abi.maxAlign }
  | .int64 | .uint64 | .float64 => { size := 8, align := min 8 abi.maxAlign }
  | .complex64 => { size := 8, align := min 4 abi.maxAlign }
  | .complex128 => { size := 16, align := min 8 abi.maxAlign }
  | .int | .uint | .uintptr | .unsafePointer => { size := abi.wordSize, align := abi.wordSize }
  | .string | .error | .any => { size := 2 * abi.wordSize, align := abi.wordSize }

end Predeclared

/-- A decimal literal without leading zeros; underscores may stand between its digits. -/
structure Decimal where
  chars : List Char
  digits : ∀ c ∈ chars, c.isDigit = true ∨ c = '_'
  leading : chars = ['0'] ∨ ∃ c rest, chars = c :: rest ∧ c.isDigit = true ∧ c ≠ '0'

namespace Decimal

def digitChars (n : Decimal) : List Char := n.chars.filter (· != '_')

/-- The number that a literal stands for. -/
def value (n : Decimal) : Nat :=
  n.digitChars.foldl (fun value c => 10 * value + (c.toNat - '0'.toNat)) 0

end Decimal

inductive Direction where
  | both | send | receive
deriving DecidableEq, Repr

/-- What stands in front of the type of a channel's elements. -/
def Direction.text : Direction → String
  | .both => "chan "
  | .send => "chan<- "
  | .receive => "<-chan "

/-! ### Types -/

mutual

inductive TypeSyntax where
  | predeclared (p : Predeclared)
  | pointer (target : TypeSyntax)
  | slice (element : TypeSyntax)
  | array (length : Decimal) (element : TypeSyntax)
  | map (key value : TypeSyntax)
  | channel (direction : Direction) (element : TypeSyntax)
  | function (params : Params) (results : Results)
  | interface (spaced : Bool) (methods : Methods)
  | group (inner : TypeSyntax)
  | struct (spaced : Bool) (fields : Fields)

inductive Results where
  | nothing
  | single (type : TypeSyntax)
  | several (params : Params)

/-- The parameters of a function, grouped by their types, with or without names. -/
inductive Params where
  | nil
  | cons (names : List Identifier) (variadic : Bool) (type : TypeSyntax) (rest : Params)

inductive Methods where
  | nil
  | cons (name : Identifier) (params : Params) (results : Results) (rest : Methods)

/-- The fields of a struct, grouped by their types. -/
inductive Fields where
  | nil
  | cons (first : Identifier) (others : List Identifier) (type : TypeSyntax) (tag : Option RawTag)
      (rest : Fields)

end

/-! ### Texts -/

/-- Entries in braces, on one line. -/
def bracedText (spaced : Bool) (parts : List (List Char)) : List Char :=
  let inside := [';', ' '].intercalate parts
  '\x7b' :: ((if spaced && !parts.isEmpty then ' ' :: (inside ++ [' ']) else inside) ++ ['\x7d'])

def paramText (names : List Identifier) (variadic : Bool) (type : List Char) : List Char :=
  (if names.isEmpty then [] else namesText names ++ [' ']) ++
    ((if variadic then ['.', '.', '.'] else []) ++ type)

def fieldText (names : List Identifier) (type : List Char) (tag : Option RawTag) : List Char :=
  (namesText names ++ ' ' :: type) ++ writtenTag [' '] tag

def tupleText (parts : List (List Char)) (rest : List Char) : List Char :=
  '(' :: ([',', ' '].intercalate parts ++ ')' :: rest)

/-- The keyword in front of the methods of an interface. -/
def interfaceWord : List Char := ['i', 'n', 't', 'e', 'r', 'f', 'a', 'c', 'e']

/-- The keyword in front of the fields of a struct. -/
def structWord : List Char := ['s', 't', 'r', 'u', 'c', 't']

mutual

def TypeSyntax.text : TypeSyntax → List Char
  | .predeclared p => p.text.toList
  | .pointer target => '*' :: target.text
  | .slice element => '[' :: ']' :: element.text
  | .array length element => '[' :: (length.chars ++ ']' :: element.text)
  | .map key value => ['m', 'a', 'p'] ++ '[' :: (key.text ++ ']' :: value.text)
  | .channel direction element => direction.text.toList ++ element.text
  | .function params results => ['f', 'u', 'n', 'c'] ++ tupleText params.parts results.text
  | .interface spaced methods => interfaceWord ++ bracedText spaced methods.parts
  | .group inner => '(' :: (inner.text ++ [')'])
  | .struct spaced fields => structWord ++ bracedText spaced fields.parts

def Results.text : Results → List Char
  | .nothing => []
  | .single type => ' ' :: type.text
  | .several params => ' ' :: tupleText params.parts []

/-- The texts of the groups of parameters. -/
def Params.parts : Params → List (List Char)
  | .nil => []
  | .cons names variadic type rest => paramText names variadic type.text :: rest.parts

def Methods.parts : Methods → List (List Char)
  | .nil => []
  | .cons name params results rest =>
    (name.chars ++ tupleText params.parts results.text) :: rest.parts

/-- The texts of the groups of fields. -/
def Fields.parts : Fields → List (List Char)
  | .nil => []
  | .cons first others type tag rest => fieldText (first :: others) type.text tag :: rest.parts

end

/-! ### Layouts -/

mutual

/-- The layout of a type, by recursion on its syntax. -/
def TypeSyntax.layout (abi : Abi) : TypeSyntax → TypeLayout
  | .predeclared p => p.layout abi
  | .pointer _ | .map _ _ | .channel _ _ | .function _ _ =>
    { size := abi.wordSize, align := abi.wordSize }
  | .slice _ => { size := 3 * abi.wordSize, align := abi.wordSize }
  | .interface _ _ => { size := 2 * abi.wordSize, align := abi.wordSize }
  | .array length element =>
    let l := element.layout abi
    { size := length.value * l.size, align := l.align }
  | .group inner => inner.layout abi
  | .struct _ fields =>
    let ls := fields.layouts abi
    { size := structSize abi (ls.map TypeLayout.asField), align := (ls.map (·.align)).foldr max 1 }

/-- The layouts of the single fields. -/
def Fields.layouts (abi : Abi) : Fields → List TypeLayout
  | .nil => []
  | .cons _ others type _ rest =>
    List.replicate (others.length + 1) (type.layout abi) ++ rest.layouts abi

end

mutual

/-- The levels that sizing a type goes through. -/
def TypeSyntax.levels : TypeSyntax → Nat
  | .array _ element => element.levels + partLevels
  | .group inner => inner.levels + groupLevels
  | .struct _ fields => fields.levels + partLevels
  | _ => 0

/-- The levels that sizing fields goes through. -/
def Fields.levels : Fields → Nat
  | .nil => 0
  | .cons _ _ type _ rest => max type.levels rest.levels

end

mutual

/-- Every array length that matters for the size of a type is short enough to be read. -/
def TypeSyntax.HasShortLengths : TypeSyntax → Prop
  | .array length element =>
    length.digitChars.length ≤ Text.digitLimit ∧ element.HasShortLengths
  | .group inner => inner.HasShortLengths
  | .struct _ fields => fields.HaveShortLengths
  | _ => True

/-- Every array length that matters for the sizes of fields is short enough to be read. -/
def Fields.HaveShortLengths : Fields → Prop
  | .nil => True
  | .cons _ _ type _ rest => type.HasShortLengths ∧ rest.HaveShortLengths

end

/-! ### Texts of the parts -/

namespace Predeclared

theorem isPlain_text (p : Predeclared) : ∀ c ∈ p.text.toList, IsPlain c := by
  cases p <;> decide

theorem isTypeText (p : Predeclared) : IsTypeText p.text.toList :=
  isTypeText_of_isPlain (by cases p <;> decide) p.isPlain_text

end Predeclared

namespace Decimal

variable (n : Decimal)

theorem isPlain {c : Char} (h : c ∈ n.chars) : IsPlain c := by
  refine isPlain_of_continuesName ?_
  rcases n.digits c h with hd | rfl
  · simp [continuesName, Char.isAlphanum, hd]
  · rfl

theorem exists_cons : ∃ c rest, n.chars = c :: rest ∧ c.isDigit = true := by
  rcases n.leading with h | ⟨c, rest, h, hd, -⟩
  · exact ⟨'0', [], h, rfl⟩
  · exact ⟨c, rest, h, hd⟩

end Decimal

theorem Direction.isNested_text (d : Direction) : IsNested NoBreak d.text.toList := by
  cases d <;> exact .of_plain (by decide)

variable {parts : List (List Char)} {type rest : List Char}

theorem isNested_bracedText (spaced : Bool) (h : ∀ part ∈ parts, IsPart part) :
    IsNested NoBreak (bracedText spaced parts) := by
  have hi : IsNested (fun _ => True) ([';', ' '].intercalate parts) :=
    .intercalate (.of_plain (by decide)) fun part hp => (h part hp).nested.mono fun _ _ => trivial
  have hs : IsNested (fun _ => True) [' '] := .of_plain (by decide)
  unfold bracedText
  dsimp only
  split
  · exact .bracket rfl (hs.append (hi.append hs))
  · exact .bracket rfl hi

theorem isNested_tupleText (h : ∀ part ∈ parts, IsPart part) (hr : IsNested NoBreak rest) :
    IsNested NoBreak (tupleText parts rest) :=
  .bracket_append rfl (.intercalate isNested_comma fun part hp => (h part hp).nested) hr

theorem endsType_bracedText (spaced : Bool) (parts : List (List Char)) :
    EndsType (bracedText spaced parts) := by
  unfold bracedText
  exact ⟨_ :: _, '\x7d', rfl, by decide, rfl⟩

theorem endsType_tupleText (parts : List (List Char)) (h : EndsType (')' :: rest)) :
    EndsType (tupleText parts rest) :=
  .cons _ h.append

theorem isPart_paramText (names : List Identifier) (variadic : Bool) (h : IsTypeText type) :
    IsPart (paramText names variadic type) := by
  have hdots : IsPart ((if variadic then ['.', '.', '.'] else []) ++ type) := by
    split
    · refine ⟨(IsNested.of_plain (by decide)).append h.nested, ?_, h.ends.firmly.append⟩
      exact ⟨'.', _, rfl, by decide⟩
    · exact h.isPart
  unfold paramText
  split
  · exact hdots
  · next hne =>
      have hn : names ≠ [] := by simpa using hne
      have hnames := isTypeText_namesText hn
      rw [List.append_assoc]
      refine ⟨hnames.nested.append hdots.nested.space, hnames.starts.firmly.append, ?_⟩
      exact hdots.ends.append.append

theorem isPart_fieldText {names : List Identifier} (hn : names ≠ []) (h : IsTypeText type)
    (tag : Option RawTag) : IsPart (fieldText names type tag) := by
  have hnames := isTypeText_namesText hn
  refine ⟨(hnames.nested.append h.nested.space).append (isNested_writtenTag (.of_plain (by decide)) tag),
    hnames.starts.firmly.append.append, ?_⟩
  cases tag with
  | none =>
      rw [fieldText, writtenTag, List.append_nil]
      exact (h.ends.cons ' ').firmly.append
  | some tag =>
      refine EndsFirmly.append ⟨' ' :: '\x60' :: tag.chars, '\x60', ?_, by decide⟩
      simp [writtenTag]

mutual

/-- The text of a type is nested properly, has no separator at its top and has firm ends. -/
theorem TypeSyntax.isTypeText : ∀ t : TypeSyntax, IsTypeText t.text
  | .predeclared p => p.isTypeText
  | .pointer target => by
      have h := target.isTypeText
      exact ⟨.cons rfl rfl rfl (by decide) h.nested, ⟨'*', _, rfl, by decide, by decide⟩,
        h.ends.cons _⟩
  | .slice element => by
      have h := element.isTypeText
      exact ⟨.bracket_append rfl (.nil : IsNested NoBreak []) h.nested,
        ⟨'[', _, rfl, by decide, by decide⟩, (h.ends.cons _).cons _⟩
  | .array length element => by
      have h := element.isTypeText
      exact ⟨.bracket_append rfl (isNested_of_isPlain fun _ hc => length.isPlain hc) h.nested,
        ⟨'[', _, rfl, by decide, by decide⟩, ((h.ends.cons _).append).cons _⟩
  | .map key value => by
      have hk := key.isTypeText
      have hv := value.isTypeText
      exact ⟨(IsNested.of_plain (by decide)).append (.bracket_append rfl hk.nested hv.nested),
        ⟨'m', _, rfl, by decide, by decide⟩, (((hv.ends.cons _).append).cons _).append⟩
  | .channel direction element => by
      have h := element.isTypeText
      refine ⟨direction.isNested_text.append h.nested, ?_, h.ends.append⟩
      cases direction <;> exact ⟨_, _, rfl, by decide, by decide⟩
  | .function params results => by
      obtain ⟨hn, he⟩ := results.isNested_text
      exact ⟨(IsNested.of_plain (by decide)).append (isNested_tupleText params.isPart hn),
        ⟨'f', _, rfl, by decide, by decide⟩, (endsType_tupleText _ he).append⟩
  | .interface spaced methods =>
      ⟨(IsNested.of_plain (by decide)).append (isNested_bracedText spaced methods.isPart),
        ⟨'i', _, rfl, by decide, by decide⟩, (endsType_bracedText _ _).append⟩
  | .group inner => by
      have h := inner.isTypeText
      exact ⟨.bracket rfl h.nested, ⟨'(', _, rfl, by decide, by decide⟩,
        ⟨'(' :: inner.text, ')', rfl, by decide, rfl⟩⟩
  | .struct spaced fields =>
      ⟨(IsNested.of_plain (by decide)).append (isNested_bracedText spaced fields.isPart),
        ⟨'s', _, rfl, by decide, by decide⟩, (endsType_bracedText _ _).append⟩

theorem Results.isNested_text : ∀ r : Results, IsNested NoBreak r.text ∧ EndsType (')' :: r.text)
  | .nothing => ⟨.nil, ⟨[], ')', rfl, by decide, rfl⟩⟩
  | .single type => by
      have h := type.isTypeText
      exact ⟨h.nested.space, (h.ends.cons _).cons _⟩
  | .several params =>
      ⟨(isNested_tupleText params.isPart .nil).space,
        ((endsType_tupleText _ ⟨[], ')', rfl, by decide, rfl⟩).cons _).cons _⟩

theorem Params.isPart : ∀ ps : Params, ∀ part ∈ ps.parts, IsPart part
  | .nil => List.forall_mem_nil _
  | .cons names variadic type rest => by
      intro part hp
      rcases List.mem_cons.1 hp with rfl | hp
      · exact isPart_paramText names variadic type.isTypeText
      · exact rest.isPart part hp

theorem Methods.isPart : ∀ ms : Methods, ∀ part ∈ ms.parts, IsPart part
  | .nil => List.forall_mem_nil _
  | .cons name params results rest => by
      intro part hp
      rcases List.mem_cons.1 hp with rfl | hp
      · obtain ⟨hn, he⟩ := results.isNested_text
        exact ⟨name.isTypeText.nested.append (isNested_tupleText params.isPart hn),
          name.isTypeText.starts.firmly.append, (endsType_tupleText _ he).firmly.append⟩
      · exact rest.isPart part hp

theorem Fields.isPart : ∀ fs : Fields, ∀ part ∈ fs.parts, IsPart part
  | .nil => List.forall_mem_nil _
  | .cons first others type tag rest => by
      intro part hp
      rcases List.mem_cons.1 hp with rfl | hp
      · exact isPart_fieldText (List.cons_ne_nil _ _) type.isTypeText tag
      · exact rest.isPart part hp

end

/-! ### Tidied types -/

/-- A raw literal that was tidied with the type around it. -/
def tidiedTag (tag : RawTag) : RawTag where
  chars := tidy tag.chars
  closed h := by
    rcases mem_tidy h with h | h | h
    · exact tag.closed h
    · exact absurd h (by decide)
    · exact absurd h (by decide)

mutual

/-- The type whose text is the tidied one. -/
def TypeSyntax.tidied : TypeSyntax → TypeSyntax
  | .predeclared p => .predeclared p
  | .pointer target => .pointer target.tidied
  | .slice element => .slice element.tidied
  | .array length element => .array length element.tidied
  | .map key value => .map key.tidied value.tidied
  | .channel direction element => .channel direction element.tidied
  | .function params results => .function params.tidied results.tidied
  | .interface _ methods => .interface false methods.tidied
  | .group inner => .group inner.tidied
  | .struct _ fields => .struct false fields.tidied

def Results.tidied : Results → Results
  | .nothing => .nothing
  | .single type => .single type.tidied
  | .several params => .several params.tidied

def Params.tidied : Params → Params
  | .nil => .nil
  | .cons names variadic type rest => .cons names variadic type.tidied rest.tidied

def Methods.tidied : Methods → Methods
  | .nil => .nil
  | .cons name params results rest => .cons name params.tidied results.tidied rest.tidied

def Fields.tidied : Fields → Fields
  | .nil => .nil
  | .cons first others type tag rest =>
    .cons first others type.tidied (tag.map tidiedTag) rest.tidied

end

theorem tidy_bracedText (spaced : Bool) (h : ∀ part ∈ parts, IsPart part) :
    tidy (bracedText spaced parts) = bracedText false (parts.map tidy) := by
  rcases List.eq_nil_or_concat parts with rfl | hcons
  · cases spaced <;> decide
  have hne : parts ≠ [] := by
    obtain ⟨init, last, rfl⟩ := hcons
    simp
  have hs : StartsFirmly ([';', ' '].intercalate parts) := by
    obtain ⟨part, tail, rfl⟩ := List.exists_cons_of_ne_nil hne
    obtain ⟨rest, hr⟩ := intercalate_cons [';', ' '] part tail
    rw [hr]
    exact (h part (by simp)).starts.append
  have he : EndsFirmly ([';', ' '].intercalate parts) := by
    obtain ⟨init, last, hl, hr⟩ := intercalate_last [';', ' '] hne
    rw [hr]
    exact (h last hl).ends.append
  have hinside : tidy ([';', ' '].intercalate parts) = [';', ' '].intercalate (parts.map tidy) :=
    tidy_intercalate tidy_semicolon (fun p hp => (h p hp).starts) fun p hp => (h p hp).ends
  have hempty : parts.isEmpty = false := by simpa using hne
  cases spaced with
  | false =>
      have ha : bracedText false parts =
          ['\x7b'] ++ ([';', ' '].intercalate parts ++ ['\x7d']) := rfl
      rw [ha, tidy_append_of_startsFirmly hs.append, tidy_append_of_endsFirmly he, hinside]
      rfl
  | true =>
      have ha : bracedText true parts =
          ['\x7b', ' '] ++ ([';', ' '].intercalate parts ++ [' ', '\x7d']) := by
        simp [bracedText, hempty]
      rw [ha, tidy_append_of_startsFirmly hs.append, tidy_append_of_endsFirmly he, hinside]
      rfl

theorem tidy_tupleText (h : ∀ part ∈ parts, IsPart part) (rest : List Char) :
    tidy (tupleText parts rest) = tupleText (parts.map tidy) (tidy rest) := by
  have hinside : tidy ([',', ' '].intercalate parts) = [',', ' '].intercalate (parts.map tidy) :=
    tidy_intercalate tidy_comma (fun p hp => (h p hp).starts) fun p hp => (h p hp).ends
  rw [tupleText, tidy_bracket (by decide) (by decide) (by decide), hinside]
  rfl

theorem tidy_paramText (names : List Identifier) (variadic : Bool) (h : IsTypeText type) :
    tidy (paramText names variadic type) = paramText names variadic (tidy type) := by
  have hs : StartsFirmly ((if variadic then ['.', '.', '.'] else []) ++ type) := by
    split
    · exact ⟨'.', _, rfl, by decide⟩
    · exact h.starts.firmly
  have hdots : tidy ((if variadic then ['.', '.', '.'] else []) ++ type) =
      (if variadic then ['.', '.', '.'] else []) ++ tidy type := by
    rw [tidy_append_of_startsFirmly h.starts.firmly]
    split <;> rfl
  unfold paramText
  split
  · exact hdots
  · next hne =>
      have hn : names ≠ [] := by simpa using hne
      rw [tidy_append_of_startsFirmly hs, hdots,
        tidy_append_of_endsFirmly (isTypeText_namesText hn).ends.firmly, tidy_namesText, tidy_space]

theorem tidy_writtenTag (tag : Option RawTag) :
    tidy (writtenTag [' '] tag) = writtenTag [' '] (tag.map tidiedTag) := by
  cases tag with
  | none => rfl
  | some tag =>
      have hs : StartsFirmly ('\x60' :: (tag.chars ++ ['\x60'])) := ⟨'\x60', _, rfl, by decide⟩
      have hw : writtenTag [' '] (some tag) = ' ' :: '\x60' :: (tag.chars ++ ['\x60']) := rfl
      rw [hw, tidy_space_append hs, tidy_bracket (by decide) (by decide) (by decide)]
      rfl

theorem tidy_fieldText {names : List Identifier} (hn : names ≠ []) (h : IsTypeText type)
    (tag : Option RawTag) :
    tidy (fieldText names type tag) = fieldText names (tidy type) (tag.map tidiedTag) := by
  have he : EndsFirmly (namesText names ++ ' ' :: type) := (h.ends.cons ' ').firmly.append
  rw [fieldText, tidy_append_of_endsFirmly he, tidy_writtenTag,
    tidy_append_of_endsFirmly (isTypeText_namesText hn).ends.firmly, tidy_namesText,
    tidy_space_append h.starts.firmly]
  rfl

mutual

theorem TypeSyntax.tidy_text : ∀ t : TypeSyntax, tidy t.text = t.tidied.text
  | .predeclared p => tidy_of_firm fun _ hc => endsFirm_of_isPlain (p.isPlain_text _ hc)
  | .pointer target => by
      rw [TypeSyntax.text, tidy_cons (by decide), target.tidy_text]
      rfl
  | .slice element => by
      rw [TypeSyntax.text, tidy_cons (by decide), tidy_cons (by decide), element.tidy_text]
      rfl
  | .array length element => by
      have hn : tidy length.chars = length.chars :=
        tidy_of_firm fun _ hc => endsFirm_of_isPlain (length.isPlain hc)
      rw [TypeSyntax.text, tidy_bracket (by decide) (by decide) (by decide), hn, element.tidy_text]
      rfl
  | .map key value => by
      rw [TypeSyntax.text, tidy_append_of_startsFirmly ⟨'[', _, rfl, by decide⟩,
        tidy_bracket (by decide) (by decide) (by decide), key.tidy_text, value.tidy_text]
      rfl
  | .channel direction element => by
      rw [TypeSyntax.text, tidy_append_of_startsFirmly element.isTypeText.starts.firmly, element.tidy_text]
      cases direction <;> rfl
  | .function params results => by
      have hs : StartsFirmly (tupleText params.parts results.text) := ⟨'(', _, rfl, by decide⟩
      rw [TypeSyntax.text, tidy_append_of_startsFirmly hs, tidy_tupleText params.isPart,
        params.tidy_parts, results.tidy_text]
      rfl
  | .interface spaced methods => by
      have hs : StartsFirmly (bracedText spaced methods.parts) := ⟨'\x7b', _, rfl, by decide⟩
      rw [TypeSyntax.text, tidy_append_of_startsFirmly hs, tidy_bracedText spaced methods.isPart, methods.tidy_parts]
      rfl
  | .group inner => by
      rw [TypeSyntax.text, tidy_bracket (by decide) (by decide) (by decide), inner.tidy_text]
      rfl
  | .struct spaced fields => by
      have hs : StartsFirmly (bracedText spaced fields.parts) := ⟨'\x7b', _, rfl, by decide⟩
      rw [TypeSyntax.text, tidy_append_of_startsFirmly hs, tidy_bracedText spaced fields.isPart, fields.tidy_parts]
      rfl

theorem Results.tidy_text : ∀ r : Results, tidy r.text = r.tidied.text
  | .nothing => rfl
  | .single type => by
      rw [Results.text, tidy_space_append type.isTypeText.starts.firmly, type.tidy_text]
      rfl
  | .several params => by
      have hs : StartsFirmly (tupleText params.parts []) := ⟨'(', _, rfl, by decide⟩
      rw [Results.text, tidy_space_append hs, tidy_tupleText params.isPart,
        params.tidy_parts]
      rfl

theorem Params.tidy_parts : ∀ ps : Params, ps.parts.map tidy = ps.tidied.parts
  | .nil => rfl
  | .cons names variadic type rest => by
      rw [Params.parts, List.map_cons, tidy_paramText names variadic type.isTypeText, type.tidy_text,
        rest.tidy_parts]
      rfl

theorem Methods.tidy_parts : ∀ ms : Methods, ms.parts.map tidy = ms.tidied.parts
  | .nil => rfl
  | .cons name params results rest => by
      rw [Methods.parts, List.map_cons, tidy_append_of_endsFirmly name.isTypeText.ends.firmly,
        name.tidy_chars, tidy_tupleText params.isPart, params.tidy_parts, results.tidy_text,
        rest.tidy_parts]
      rfl

theorem Fields.tidy_parts : ∀ fs : Fields, fs.parts.map tidy = fs.tidied.parts
  | .nil => rfl
  | .cons first others type tag rest => by
      rw [Fields.parts, List.map_cons, tidy_fieldText (List.cons_ne_nil _ _) type.isTypeText,
        type.tidy_text, rest.tidy_parts]
      rfl

end

mutual

theorem TypeSyntax.layout_tidied (abi : Abi) : ∀ t : TypeSyntax, t.tidied.layout abi = t.layout abi
  | .predeclared _ => rfl
  | .pointer _ => rfl
  | .slice _ => rfl
  | .array length element => by
      simp only [TypeSyntax.tidied, TypeSyntax.layout, element.layout_tidied abi]
  | .map _ _ => rfl
  | .channel _ _ => rfl
  | .function _ _ => rfl
  | .interface _ _ => rfl
  | .group inner => inner.layout_tidied abi
  | .struct spaced fields => by
      simp only [TypeSyntax.tidied, TypeSyntax.layout, fields.layouts_tidied abi]

theorem Fields.layouts_tidied (abi : Abi) : ∀ fs : Fields, fs.tidied.layouts abi = fs.layouts abi
  | .nil => rfl
  | .cons first others type tag rest => by
      simp only [Fields.tidied, Fields.layouts, type.layout_tidied abi, rest.layouts_tidied abi]

end

mutual

theorem TypeSyntax.levels_tidied : ∀ t : TypeSyntax, t.tidied.levels = t.levels
  | .predeclared _ => rfl
  | .pointer _ => rfl
  | .slice _ => rfl
  | .array length element => by
      simp only [TypeSyntax.tidied, TypeSyntax.levels, element.levels_tidied]
  | .map _ _ => rfl
  | .channel _ _ => rfl
  | .function _ _ => rfl
  | .interface _ _ => rfl
  | .group inner => by simp only [TypeSyntax.tidied, TypeSyntax.levels, inner.levels_tidied]
  | .struct spaced fields => by
      simp only [TypeSyntax.tidied, TypeSyntax.levels, fields.levels_tidied]

theorem Fields.levels_tidied : ∀ fs : Fields, fs.tidied.levels = fs.levels
  | .nil => rfl
  | .cons first others type tag rest => by
      simp only [Fields.tidied, Fields.levels, type.levels_tidied, rest.levels_tidied]

end

mutual

theorem TypeSyntax.HasShortLengths.tidied :
    ∀ t : TypeSyntax, t.HasShortLengths → t.tidied.HasShortLengths
  | .predeclared _ => fun h => h
  | .pointer _ => fun _ => trivial
  | .slice _ => fun _ => trivial
  | .array _ element => fun h => ⟨h.1, TypeSyntax.HasShortLengths.tidied element h.2⟩
  | .map _ _ => fun _ => trivial
  | .channel _ _ => fun _ => trivial
  | .function _ _ => fun _ => trivial
  | .interface _ _ => fun _ => trivial
  | .group inner => fun h => TypeSyntax.HasShortLengths.tidied inner h
  | .struct _ fields => fun h => Fields.HaveShortLengths.tidied fields h

theorem Fields.HaveShortLengths.tidied :
    ∀ fs : Fields, fs.HaveShortLengths → fs.tidied.HaveShortLengths
  | .nil => fun h => h
  | .cons _ _ type _ rest => fun h =>
    ⟨TypeSyntax.HasShortLengths.tidied type h.1, Fields.HaveShortLengths.tidied rest h.2⟩

end

end StructLayout.Sizing
