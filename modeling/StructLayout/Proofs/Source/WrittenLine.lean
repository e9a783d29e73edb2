import StructLayout.Proofs.Source.TypeText
import StructLayout.Source.Declarations

/-!
# Lines as they are written

A line of a source has code between an indent and a gap, and perhaps a comment behind them
(`WrittenLine`).  Its code holds no comment of its own and closes its raw literals (`IsCode`).

The main statement is `sourceLines_joinedText`: written lines, joined by line breaks, are read as their
numbers, their code and the trimmed text of their comments.  No block comment is seen anywhere, not
even where a comment or a raw literal holds the beginning of one.
-/

namespace StructLayout.Source

/-! ### Code -/

/-- The code of a line: raw literals are closed and hold no beginning of a block comment, other
literals do not occur, and a slash has a character behind it with which it starts no comment. -/
inductive IsCode : List Char → Prop
  | nil : IsCode []
  | char {c : Char} {cs : List Char} :
      isQuote c = false → c ≠ '\n' →
      (c = '/' → ∃ d rest, cs = d :: rest ∧ d ≠ '/' ∧ d ≠ '*') → IsCode cs → IsCode (c :: cs)
  | raw {tag cs : List Char} :
      '\x60' ∉ tag → '\n' ∉ tag → ¬ ['/', '*'] <:+: tag → IsCode cs →
      IsCode ('\x60' :: (tag ++ '\x60' :: cs))

variable {c : Char} {cs xs ys tag : List Char}

namespace IsCode

theorem append (hx : IsCode xs) (hy : IsCode ys) : IsCode (xs ++ ys) := by
  induction hx with
  | nil => exact hy
  | @char c cs hq hn hs _ ih =>
      refine .char hq hn (fun hc => ?_) ih
      obtain ⟨d, rest, rfl, hd⟩ := hs hc
      exact ⟨d, rest ++ ys, rfl, hd⟩
  | @raw tag cs ht hn hb _ ih =>
      have he : '\x60' :: (tag ++ '\x60' :: cs) ++ ys = '\x60' :: (tag ++ '\x60' :: (cs ++ ys)) := by
        simp
      rw [he]
      exact .raw ht hn hb ih

/-- Text without quotes, slashes and line breaks is code. -/
theorem of_plain (h : ∀ c ∈ cs, isQuote c = false ∧ c ≠ '\n' ∧ c ≠ '/') : IsCode cs := by
  induction cs with
  | nil => exact nil
  | cons c cs ih =>
      obtain ⟨hq, hn, hs⟩ := h c (by simp)
      exact char hq hn (fun hc => absurd hc hs) (ih fun d hd => h d (by simp [hd]))

theorem intercalate {sep : List Char} {parts : List (List Char)} (hs : IsCode sep)
    (h : ∀ part ∈ parts, IsCode part) : IsCode (sep.intercalate parts) :=
  intercalate_induction nil (fun _ _ hx hy => hx.append hy) hs h

theorem notMem_break (h : IsCode cs) : '\n' ∉ cs := by
  induction h with
  | nil => exact List.not_mem_nil
  | char _ hn _ _ ih => simp [Ne.symm hn, ih]
  | raw _ hn _ _ ih => simp [hn, ih]

end IsCode

theorem isCode_of_isPlain (h : ∀ c ∈ xs, IsPlain c) : IsCode xs :=
  .of_plain fun c hc => by
    obtain ⟨hb, hq, -, -, -, -, hs⟩ := h c hc
    refine ⟨hq, ?_, hs⟩
    rintro rfl
    exact absurd hb (by decide)

/-- A raw literal on one line, in which no block comment starts. -/
structure LineTag extends RawTag where
  oneLine : '\n' ∉ chars
  noBlock : ¬ ['/', '*'] <:+: chars

/-! ### Passes over code -/

theorem stripBlocks_raw (ht : '\x60' ∉ tag) (cs : List Char) :
    stripBlocks (.literal '\x60') (tag ++ '\x60' :: cs) = tag ++ '\x60' :: stripBlocks .code cs := by
  induction tag with
  | nil => rfl
  | cons c tag ih =>
      have hc : ¬ c = '\x60' := fun he => ht (by simp [he])
      have hnext : literalNext '\x60' c = .literal '\x60' := by simp [literalNext, hc]
      rw [List.cons_append, stripBlocks_literal_cons fun _ => .inl rfl, hnext,
        ih fun hm => ht (by simp [hm]), List.cons_append]

/-- Code is left as it is when block comments are blanked out. -/
theorem IsCode.stripBlocks_append (h : IsCode xs) (ys : List Char) :
    stripBlocks .code (xs ++ ys) = xs ++ stripBlocks .code ys := by
  induction h with
  | nil => rfl
  | @char c cs hq _ hs _ ih =>
      have hnext : codeNext c = .code := by simp [codeNext, hq]
      have hfree (k : Char) (hk : k = '/' ∨ k = '*') (rest : List Char) (hc : c = '/')
          (he : cs ++ ys = k :: rest) : False := by
        obtain ⟨d, more, rfl, hd⟩ := hs hc
        obtain ⟨rfl, -⟩ := List.cons.inj he
        rcases hk with rfl | rfl
        · exact hd.1 rfl
        · exact hd.2 rfl
      rw [List.cons_append, stripBlocks.eq_4 c _ (hfree '/' (.inl rfl)) (hfree '*' (.inr rfl)),
        hnext]
      exact congrArg _ ih
  | @raw tag cs ht _ _ _ ih =>
      have he : '\x60' :: (tag ++ '\x60' :: cs) ++ ys = '\x60' :: (tag ++ '\x60' :: (cs ++ ys)) := by
        simp
      have hnext : codeNext '\x60' = .literal '\x60' := rfl
      rw [he, stripBlocks_code_cons (by decide), hnext, stripBlocks_raw ht, ih]
      simp

theorem cutLineComment_cons_literal (quote c : Char) (cs : List Char) :
    cutLineComment (.literal quote) (c :: cs) =
      (c :: (cutLineComment ((Mode.literal quote).next c) cs).1,
        (cutLineComment ((Mode.literal quote).next c) cs).2) :=
  cutLineComment.eq_3 _ c cs (by simp)

theorem cutLineComment_raw (ht : '\x60' ∉ tag) (cs : List Char) :
    cutLineComment (.literal '\x60') (tag ++ '\x60' :: cs) =
      (tag ++ '\x60' :: (cutLineComment .code cs).1, (cutLineComment .code cs).2) := by
  induction tag with
  | nil => exact cutLineComment_cons_literal _ _ cs
  | cons c tag ih =>
      have hc : c ≠ '\x60' := fun he => ht (by simp [he])
      have hnext : (Mode.literal '\x60').next c = .literal '\x60' := by simp [Mode.next, hc]
      rw [List.cons_append, cutLineComment_cons_literal, hnext, ih fun hm => ht (by simp [hm])]
      rfl

theorem IsCode.cutLineComment_append (h : IsCode xs) (ys : List Char) :
    cutLineComment .code (xs ++ ys) =
      (xs ++ (cutLineComment .code ys).1, (cutLineComment .code ys).2) := by
  induction h with
  | nil => rfl
  | @char c cs hq _ hs _ ih =>
      have hnext : Mode.code.next c = .code := by simp [Mode.next, hq]
      have hfree (rest : List Char) (_ : Mode.code = Mode.code) (hc : c = '/')
          (he : cs ++ ys = '/' :: rest) : False := by
        obtain ⟨d, more, rfl, hd⟩ := hs hc
        exact hd.1 (List.cons.inj he).1
      rw [List.cons_append, cutLineComment.eq_3 _ c _ hfree, hnext]
      rw [ih]
      rfl
  | @raw tag cs ht _ _ _ ih =>
      have he : '\x60' :: (tag ++ '\x60' :: cs) ++ ys = '\x60' :: (tag ++ '\x60' :: (cs ++ ys)) := by
        simp
      have hnext : Mode.code.next '\x60' = .literal '\x60' := rfl
      rw [he, cutLineComment.eq_3 _ _ _ (fun _ _ hc => absurd hc (by decide)), hnext,
        cutLineComment_raw ht, ih]
      simp

/-- A text in which no block comment starts is left as it is. -/
theorem dropBlocks_of_not_infix (h : ¬ ['/', '*'] <:+: tag) (hc : c ≠ '*') (cs : List Char) :
    dropBlocks (tag ++ c :: cs) = tag ++ dropBlocks (c :: cs) := by
  induction tag with
  | nil => rfl
  | cons d tag ih =>
      have hrest := ih fun hi => h (hi.trans (List.suffix_cons d tag).isInfix)
      have hfree (rest : List Char) (hd : d = '/') (he : tag ++ c :: cs = '*' :: rest) : False := by
        cases tag with
        | nil => exact hc (List.cons.inj he).1
        | cons e tag =>
            obtain ⟨rfl, -⟩ := List.cons.inj he
            exact h ⟨[], tag, by rw [hd]; rfl⟩
      rw [List.cons_append, dropBlocks.eq_2 d _ hfree, hrest]
      rfl

theorem IsCode.dropBlocks_eq_self (h : IsCode cs) : dropBlocks cs = cs := by
  induction h with
  | nil => exact dropBlocks.eq_3
  | @char c cs _ _ hs _ ih =>
      rw [dropBlocks.eq_2 c cs fun rest hc he => ?_, ih]
      obtain ⟨d, more, rfl, hd⟩ := hs hc
      exact hd.2 (List.cons.inj he).1
  | @raw tag cs _ _ hb _ ih =>
      have hquote (ds : List Char) : dropBlocks ('\x60' :: ds) = '\x60' :: dropBlocks ds :=
        dropBlocks.eq_2 _ ds fun _ hc => absurd hc (by decide)
      rw [hquote, dropBlocks_of_not_infix hb (by decide), hquote, ih]

/-- Raw literals of code are closed at its end. -/
theorem IsCode.after_eq (h : IsCode cs) : Mode.code.after cs = .code := by
  induction h with
  | nil => rfl
  | @char c cs hq _ _ _ ih =>
      have hnext : Mode.code.next c = .code := by simp [Mode.next, hq]
      rw [after_cons, hnext, ih]
  | @raw tag cs ht _ _ _ ih =>
      have hl := (IsNested.rawLiteral ht : IsNested NoBreak _).closed
      have he : '\x60' :: (tag ++ '\x60' :: cs) = '\x60' :: (tag ++ ['\x60']) ++ cs := by simp
      rw [he, after_append, hl, ih]

/-! ### Lines -/

structure Gap where
  chars : List Char
  blank : ∀ c ∈ chars, Text.isBlank c = true ∧ c ≠ '\n'

/-- The text of a line comment. -/
structure Comment where
  chars : List Char
  oneLine : '\n' ∉ chars

/-- What stands on a line around its code. -/
structure Margin where
  indent : Gap
  gap : Gap
  comment : Option Comment

structure WrittenLine where
  margin : Margin
  code : List Char

def writtenComment : Option Comment → List Char
  | none => []
  | some comment => '/' :: '/' :: comment.chars

/-- The trimmed text of the comment on a line. -/
def Margin.note (m : Margin) : List Char :=
  match m.comment with
  | none => []
  | some comment => Text.trim comment.chars

namespace WrittenLine

def text (l : WrittenLine) : List Char :=
  l.margin.indent.chars ++ (l.code ++ l.margin.gap.chars) ++ writtenComment l.margin.comment

/-- The code of a line is code and has no blanks around it. -/
structure IsReadable (l : WrittenLine) : Prop where
  isCode : IsCode l.code
  trimmed : Text.trim l.code = l.code

def read (l : WrittenLine) (number : Nat) : Line where
  number
  code := l.code
  comment := l.margin.note
  isComment := l.code.isEmpty && l.margin.comment.isSome

end WrittenLine

@[simp] theorem WrittenLine.read_code (l : WrittenLine) (number : Nat) :
    (l.read number).code = l.code := rfl

@[simp] theorem WrittenLine.read_comment (l : WrittenLine) (number : Nat) :
    (l.read number).comment = l.margin.note := rfl

@[simp] theorem WrittenLine.read_number (l : WrittenLine) (number : Nat) :
    (l.read number).number = number := rfl

def readLines (number : Nat) : List WrittenLine → List Line
  | [] => []
  | l :: ls => l.read number :: readLines (number + 1) ls

theorem readLines_append (number : Nat) (ls ls' : List WrittenLine) :
    readLines number (ls ++ ls') =
      readLines number ls ++ readLines (number + ls.length) ls' := by
  induction ls generalizing number with
  | nil => rfl
  | cons l ls ih =>
      rw [List.cons_append, readLines, ih, readLines, List.length_cons, Nat.add_right_comm]
      rfl

def joinedText (ls : List WrittenLine) : List Char :=
  ['\n'].intercalate (ls.map WrittenLine.text)

/-! ### Reading lines -/

theorem ne_of_isBlank {d : Char} (hc : Text.isBlank c = true) (hd : Text.isBlank d = false) :
    c ≠ d := by
  rintro rfl
  rw [hc] at hd
  cases hd

theorem isQuote_of_isBlank (h : Text.isBlank c = true) : isQuote c = false := by
  simp [isQuote, @ne_of_isBlank c '"' h (by decide), @ne_of_isBlank c '\x60' h (by decide),
    @ne_of_isBlank c '\'' h (by decide)]

theorem isCloser_of_isBlank (h : Text.isBlank c = true) : isCloser c = false := by
  simp [isCloser, @ne_of_isBlank c ')' h (by decide), @ne_of_isBlank c ']' h (by decide),
    @ne_of_isBlank c '\x7d' h (by decide)]

namespace Gap

variable (g : Gap)

theorem isBlank : ∀ c ∈ g.chars, Text.isBlank c = true := fun c hc => (g.blank c hc).1

theorem isCode : IsCode g.chars :=
  .of_plain fun c hc =>
    have hb := g.isBlank c hc
    ⟨isQuote_of_isBlank hb, (g.blank c hc).2, ne_of_isBlank hb (by decide)⟩

theorem isNested_of {top : Char → Prop} (h : ∀ c ∈ g.chars, top c) : IsNested top g.chars :=
  .of_plain fun c hc =>
    have hb := g.isBlank c hc
    ⟨isQuote_of_isBlank hb, isOpener_of_isBlank hb, isCloser_of_isBlank hb, h c hc⟩

theorem isNested : IsNested NoBreak g.chars :=
  g.isNested_of fun c hc => ⟨ne_of_isBlank (g.isBlank c hc) (by decide), (g.blank c hc).2⟩

end Gap

/-- Code with something behind it does not start as a comment. -/
theorem IsCode.not_isPrefix_trimEnd (h : IsCode (c :: cs)) (ys : List Char) :
    ¬ ['/', '/'] <+: c :: Text.trimEnd (cs ++ ys) := by
  rw [List.cons_prefix_cons]
  rintro ⟨rfl, hp⟩
  cases h with
  | char _ _ hs _ =>
      obtain ⟨d, more, rfl, hne, -⟩ := hs rfl
      obtain ⟨blanks, hb, -⟩ := Text.trimEnd_append_eq (d :: more ++ ys)
      obtain ⟨tail, ht⟩ := hp
      rw [← ht] at hb
      exact hne (List.cons.inj hb).1

namespace WrittenLine

variable {l : WrittenLine}

theorem notMem_break (h : l.IsReadable) : '\n' ∉ l.text := by
  have hc : '\n' ∉ writtenComment l.margin.comment := by
    cases l.margin.comment with
    | none => exact List.not_mem_nil
    | some comment => simpa [writtenComment] using comment.oneLine
  simp [text, l.margin.indent.isCode.notMem_break, h.isCode.notMem_break,
    l.margin.gap.isCode.notMem_break, hc]

/-- The part of a line in front of its comment. -/
theorem isCode_front (h : l.IsReadable) :
    IsCode (l.margin.indent.chars ++ (l.code ++ l.margin.gap.chars)) :=
  l.margin.indent.isCode.append (h.isCode.append l.margin.gap.isCode)

def endRegion (l : WrittenLine) : Region := if l.margin.comment.isSome then .lineComment else .code

/-- On a line nothing is blanked out. -/
theorem stripBlocks_text (h : l.IsReadable) (rest : List Char) :
    stripBlocks .code (l.text ++ rest) = l.text ++ stripBlocks l.endRegion rest := by
  have hrest : stripBlocks .code (writtenComment l.margin.comment ++ rest) =
      writtenComment l.margin.comment ++ stripBlocks l.endRegion rest := by
    rw [endRegion]
    cases l.margin.comment with
    | none => rfl
    | some comment =>
        rw [writtenComment, List.cons_append, List.cons_append, stripBlocks.eq_2,
          stripBlocks_lineComment_append comment.oneLine]
        rfl
  rw [text, List.append_assoc, (isCode_front h).stripBlocks_append, hrest, ← List.append_assoc]

theorem stripBlocks_break (l : WrittenLine) (rest : List Char) :
    stripBlocks l.endRegion ('\n' :: rest) = '\n' :: stripBlocks .code rest := by
  rw [endRegion]
  split
  · rw [stripBlocks.eq_5, if_pos rfl]
  · exact stripBlocks_code_cons (by decide) rest

theorem splitComment_text (h : l.IsReadable) :
    splitComment l.text =
      (Text.trimEnd (l.margin.indent.chars ++ (l.code ++ l.margin.gap.chars)), l.margin.note) := by
  have hcut : cutLineComment .code l.text =
      (l.margin.indent.chars ++ (l.code ++ l.margin.gap.chars),
        l.margin.comment.map Comment.chars) := by
    rw [text, (isCode_front h).cutLineComment_append]
    cases l.margin.comment with
    | none => simp [writtenComment, cutLineComment]
    | some comment => simp [writtenComment, cutLineComment.eq_2]
  simp only [splitComment, hcut, (isCode_front h).dropBlocks_eq_self, Margin.note]
  cases l.margin.comment <;> rfl

/-- Whether a line is nothing but a comment. -/
theorem isPrefixOf_trim_text (h : l.IsReadable) :
    ['/', '/'].isPrefixOf (Text.trim l.text) = (l.code.isEmpty && l.margin.comment.isSome) := by
  rw [text, List.append_assoc, Text.trim_append_left l.margin.indent.isBlank, List.append_assoc]
  cases hcode : l.code with
  | nil =>
      rw [List.nil_append, Text.trim_append_left l.margin.gap.isBlank]
      cases l.margin.comment with
      | none => rfl
      | some comment =>
          rw [writtenComment, Text.trim, Text.trimStart_eq_self (by decide),
            Text.trimEnd_cons (by decide), Text.trimEnd_cons (by decide)]
          simp
  | cons c rest =>
      have hc : Text.isBlank c = false := by
        have ht := h.trimmed
        rw [hcode] at ht
        exact Text.isBlank_of_trim_eq_cons ht
      rw [List.cons_append, Text.trim, Text.trimStart_eq_self hc, Text.trimEnd_cons hc]
      have hd := h.isCode
      rw [hcode] at hd
      have hfree := hd.not_isPrefix_trimEnd (l.margin.gap.chars ++ writtenComment l.margin.comment)
      rw [← List.isPrefixOf_iff_prefix, Bool.not_eq_true] at hfree
      exact hfree

theorem ofText_text (h : l.IsReadable) (number : Nat) :
    Line.ofText number l.text = l.read number := by
  have hcode : Text.trim (Text.trimEnd (l.margin.indent.chars ++
      (l.code ++ l.margin.gap.chars))) = l.code := by
    rw [Text.trim_trimEnd, Text.trim_append_left l.margin.indent.isBlank, Text.trim_append_right l.margin.gap.isBlank, h.trimmed]
  simp only [Line.ofText, splitComment_text h, hcode, isPrefixOf_trim_text h]
  rfl

end WrittenLine

theorem joinedText_cons (l next : WrittenLine) (ls : List WrittenLine) :
    joinedText (l :: next :: ls) = l.text ++ '\n' :: joinedText (next :: ls) := by
  simp [joinedText, List.intercalate_cons_cons]

theorem stripBlockComments_joinedText {ls : List WrittenLine} (h : ∀ l ∈ ls, l.IsReadable) :
    stripBlockComments (joinedText ls) = joinedText ls := by
  induction ls with
  | nil => rfl
  | cons l ls ih =>
      have hl := h l (by simp)
      cases ls with
      | nil =>
          have hs := WrittenLine.stripBlocks_text hl []
          rw [stripBlocks_nil, List.append_nil] at hs
          simpa [joinedText, stripBlockComments] using hs
      | cons next ls =>
          have hrest := ih fun m hm => h m (by simp [hm])
          rw [stripBlockComments] at hrest ⊢
          rw [joinedText_cons, WrittenLine.stripBlocks_text hl, WrittenLine.stripBlocks_break, hrest]

theorem splitLines_joinedText {ls : List WrittenLine} (hne : ls ≠ [])
    (h : ∀ l ∈ ls, l.IsReadable) : Text.splitLines (joinedText ls) = ls.map WrittenLine.text := by
  induction ls with
  | nil => exact absurd rfl hne
  | cons l ls ih =>
      have hl := WrittenLine.notMem_break (h l (by simp))
      cases ls with
      | nil => simpa [joinedText] using Text.splitLines_of_notMem hl
      | cons next ls =>
          rw [joinedText_cons, Text.splitLines_append hl,
            ih (List.cons_ne_nil _ _) fun m hm => h m (by simp [hm])]
          rfl

theorem sourceLines_joinedText {ls : List WrittenLine} (hne : ls ≠ [])
    (h : ∀ l ∈ ls, l.IsReadable) : sourceLines (joinedText ls) = readLines 1 ls := by
  have hread (number : Nat) : ((ls.map WrittenLine.text).zipIdx number).map
      (fun p => Line.ofText (p.2 + 1) p.1) = readLines (number + 1) ls := by
    clear hne
    induction ls generalizing number with
    | nil => rfl
    | cons l ls ih =>
        have hl := WrittenLine.ofText_text (h l (by simp)) (number + 1)
        have hrest := ih (fun m hm => h m (by simp [hm])) (number + 1)
        rw [List.map_cons, List.zipIdx_cons, List.map_cons, hrest, hl]
        rfl
  rw [sourceLines, stripBlockComments_joinedText h, splitLines_joinedText hne h]
  exact hread 0

end StructLayout.Source
