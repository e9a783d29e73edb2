import StructLayout.Source.Comment

/-!
# Literals and comments on a line

The language reads a line from left to right, piece by piece (`readLine`): characters of code, literals
and block comments, up to the first line comment.  A backslash keeps the character behind it from
ending a literal, unless the literal is raw.  `splitComment` looks for the line comment in the same
way, but it takes block comments out in a second pass over the characters alone, which does not know
what is a literal.

The first pass is in step with the language (`isInStep`) where no rune literal holds a quote and no
block comment does.  The main statement is `splitComment_reading`: on such a line the comment is the
right one, and the code is the right one if and only if no block comment starts in a literal
(`literalsOpenNone`); then every closed literal comes through as it is.  A tag that holds a block
comment is altered (`splitComment_ne_reading`).
-/

namespace StructLayout.Source

variable {c quote : Char} {cs xs rest inside after behind line : List Char} {pieces : List Piece}

/-! ### Pieces -/

/-- A piece of a line: a character of code, a literal with what stands between its quotes, of which the
second one may be missing, or a block comment with what stands in it. -/
inductive Piece where
  | code (c : Char)
  | literal (quote : Char) (inside : List Char) (closed : Bool)
  | block (inside : List Char)
deriving DecidableEq, Repr, Inhabited

/-- The quote at the end of a literal, unless it is missing. -/
def closing (quote : Char) (closed : Bool) : List Char := if closed then [quote] else []

namespace Piece

def text : Piece → List Char
  | code c => [c]
  | literal quote inside closed => quote :: (inside ++ closing quote closed)
  | block inside => '/' :: '*' :: (inside ++ ['*', '/'])

/-- A piece with a blank in place of a block comment. -/
def kept : Piece → List Char
  | block _ => [' ']
  | piece => piece.text

end Piece

def textOf (pieces : List Piece) : List Char := pieces.flatMap Piece.text

/-- Pieces with blanks in place of block comments. -/
def keptOf (pieces : List Piece) : List Char := pieces.flatMap Piece.kept

@[simp] theorem textOf_nil : textOf [] = [] := rfl

@[simp] theorem textOf_cons (piece : Piece) (pieces : List Piece) :
    textOf (piece :: pieces) = piece.text ++ textOf pieces := rfl

@[simp] theorem keptOf_nil : keptOf [] = [] := rfl

@[simp] theorem keptOf_cons (piece : Piece) (pieces : List Piece) :
    keptOf (piece :: pieces) = piece.kept ++ keptOf pieces := rfl

theorem keptOf_append (pieces more : List Piece) :
    keptOf (pieces ++ more) = keptOf pieces ++ keptOf more := List.flatMap_append

/-! ### Reading a line -/

/-- What stands in a literal behind its first quote, and what stands behind its second one. -/
def literalEnd (quote : Char) : List Char → List Char × Option (List Char)
  | [] => ([], none)
  | c :: rest =>
    if c = quote then ([], some rest)
    else if c = '\\' && quote != '\x60' then
      match rest with
      | [] => ([c], none)
      | d :: rest => (c :: d :: (literalEnd quote rest).1, (literalEnd quote rest).2)
    else (c :: (literalEnd quote rest).1, (literalEnd quote rest).2)

/-- What stands in a block comment behind its opening, and what stands behind it.  It ends on its line
and in front of a line comment, and no literal starts in it. -/
def blockEnd? : List Char → Option (List Char × List Char)
  | [] => none
  | '/' :: '/' :: _ => none
  | '*' :: '/' :: '/' :: _ => none
  | '*' :: '/' :: rest => some ([], rest)
  | c :: rest =>
    if isQuote c || c = '\n' then none
    else (blockEnd? rest).map fun r => (c :: r.1, r.2)

/-- The first piece of a text that starts with a character, and what stands behind it. -/
def firstPiece (c : Char) (rest : List Char) : Piece × List Char :=
  if isQuote c then
    let r := literalEnd c rest
    (.literal c r.1 r.2.isSome, r.2.getD [])
  else
    match c, rest with
    | '/', '*' :: behind =>
      match blockEnd? behind with
      | some (inside, after) => (.block inside, after)
      | none => (.code c, rest)
    | _, _ => (.code c, rest)

theorem text_literalEnd (quote : Char) (cs : List Char) :
    (literalEnd quote cs).1 ++ closing quote (literalEnd quote cs).2.isSome ++
      (literalEnd quote cs).2.getD [] = cs := by
  fun_induction literalEnd quote cs <;> simp_all [closing]

theorem text_blockEnd? (h : blockEnd? cs = some (inside, after)) :
    inside ++ '*' :: '/' :: after = cs := by
  fun_induction blockEnd? cs generalizing inside with
  | case1 => cases h
  | case2 => cases h
  | case3 => cases h
  | case4 rest _ =>
    cases h
    rfl
  | case5 => cases h
  | case6 c rest _ _ _ _ ih =>
    obtain ⟨⟨inner, behind⟩, hr, he⟩ := Option.map_eq_some_iff.1 h
    cases he
    rw [List.cons_append, ih hr]

theorem firstPiece_cases (c : Char) (rest : List Char) :
    (isQuote c = true ∧ firstPiece c rest = (.literal c (literalEnd c rest).1
      (literalEnd c rest).2.isSome, (literalEnd c rest).2.getD [])) ∨
    (∃ behind inside after, c = '/' ∧ rest = '*' :: behind ∧
      blockEnd? behind = some (inside, after) ∧ firstPiece c rest = (.block inside, after)) ∨
    (isQuote c = false ∧ firstPiece c rest = (.code c, rest)) := by
  unfold firstPiece
  split
  · next hq => exact .inl ⟨hq, rfl⟩
  · next hq =>
    have hcode : isQuote c = false := by simpa using hq
    split
    · next behind =>
      split
      · next inside after hb => exact .inr (.inl ⟨behind, inside, after, rfl, rfl, hb, rfl⟩)
      · exact .inr (.inr ⟨hcode, rfl⟩)
    · exact .inr (.inr ⟨hcode, rfl⟩)

theorem text_firstPiece (c : Char) (rest : List Char) :
    (firstPiece c rest).1.text ++ (firstPiece c rest).2 = c :: rest := by
  obtain ⟨-, h⟩ | ⟨behind, inside, after, rfl, rfl, hb, h⟩ | ⟨-, h⟩ := firstPiece_cases c rest
  · rw [h, Piece.text, List.cons_append, text_literalEnd]
  · rw [h, ← text_blockEnd? hb]
    simp [Piece.text]
  · rw [h]
    rfl

theorem length_firstPiece_lt (c : Char) (rest : List Char) :
    (firstPiece c rest).2.length < (c :: rest).length := by
  have hlength := congrArg List.length (text_firstPiece c rest)
  rw [List.length_append] at hlength
  have hpos : 0 < (firstPiece c rest).1.text.length := by
    cases (firstPiece c rest).1 <;> simp [Piece.text]
  omega

/-- A line as it is read: its pieces, and the text of its line comment if it has one. -/
structure Reading where
  pieces : List Piece
  comment : Option (List Char)
deriving DecidableEq, Repr, Inhabited

def readLine : List Char → Reading
  | [] => { pieces := [], comment := none }
  | '/' :: '/' :: rest => { pieces := [], comment := some rest }
  | c :: rest =>
    let piece := firstPiece c rest
    let behind := readLine piece.2
    { behind with pieces := piece.1 :: behind.pieces }
termination_by cs => cs.length
decreasing_by exact length_firstPiece_lt c rest

theorem text_readLine (line : List Char) :
    textOf (readLine line).pieces ++
      ((readLine line).comment.map (['/', '/'] ++ ·)).getD [] = line := by
  fun_induction readLine line with
  | case1 => rfl
  | case2 rest => rfl
  | case3 c rest _ piece behind ih =>
    rw [textOf_cons, List.append_assoc, ih, text_firstPiece]

/-! ### Two passes in step with the language -/

/-- Whether a block comment that ends on its line starts a text, by the characters alone. -/
def opensBlock : List Char → Bool
  | '/' :: '*' :: rest => (afterBlock? rest).isSome
  | _ => false

/-- Whether a piece is no rune literal with a quote in it. -/
def Piece.isPlain : Piece → Bool
  | .literal quote inside _ => !(quote = '\'' && inside.contains '\'')
  | _ => true

/-- Whether no rune literal holds a quote, and no block comment does. -/
def isInStep : List Piece → Bool
  | [] => true
  | .code c :: rest => !opensBlock (c :: textOf rest) && isInStep rest
  | piece :: rest => piece.isPlain && isInStep rest

/-- Whether no block comment starts in a text, given what stands behind it. -/
def opensNone (behind : List Char) : List Char → Bool
  | [] => true
  | c :: rest => !opensBlock (c :: (rest ++ behind)) && opensNone behind rest

/-- Whether a piece is no literal in which a block comment starts, by the characters alone. -/
def Piece.opensNone (behind : List Char) : Piece → Bool
  | .literal quote inside closed => Source.opensNone (closing quote closed ++ behind) inside
  | _ => true

/-- Whether no block comment starts in a literal, by the characters alone. -/
def literalsOpenNone : List Piece → Bool
  | [] => true
  | piece :: rest => piece.opensNone (textOf rest) && literalsOpenNone rest

theorem isInStep_cons {piece : Piece} (h : isInStep (piece :: pieces) = true) :
    piece.isPlain = true ∧ isInStep pieces = true := by
  cases piece <;> simp_all [isInStep, Piece.isPlain]

/-! ### The line comment -/

theorem cutLineComment_cons_code (hq : isQuote c = false)
    (hs : ∀ more, c = '/' → rest = '/' :: more → False) :
    cutLineComment .code (c :: rest) =
      (c :: (cutLineComment .code rest).1, (cutLineComment .code rest).2) := by
  have hnext : Mode.code.next c = .code := by simp [Mode.next, hq]
  rw [cutLineComment.eq_3 _ c rest (fun more _ hc hr => hs more hc hr), hnext]

/-- A backslash and the character behind it do not end a literal, unless it is raw, or a rune and the
character a quote. -/
theorem next_backslash {d : Char} (hq : isQuote quote = true) (hraw : quote ≠ '\x60')
    (hd : quote = '\'' → d ≠ '\'') :
    (Mode.literal quote).next '\\' ≠ .code ∧
      ((Mode.literal quote).next '\\').next d = .literal quote := by
  by_cases hdouble : quote = '"'
  · simp [Mode.next, hdouble]
  · have hrune : quote = '\'' := by
      simp only [isQuote, Bool.or_eq_true, decide_eq_true_eq] at hq
      exact hq.resolve_left fun h => h.elim hdouble hraw
    simp [Mode.next, hrune, hd hrune]

theorem cutLineComment_literal (hq : isQuote quote = true)
    (hp : quote = '\'' → '\'' ∉ (literalEnd quote cs).1) :
    cutLineComment (.literal quote) cs =
      ((literalEnd quote cs).1 ++ (closing quote (literalEnd quote cs).2.isSome ++
        (cutLineComment .code ((literalEnd quote cs).2.getD [])).1),
        (cutLineComment .code ((literalEnd quote cs).2.getD [])).2) := by
  have hback : quote ≠ '\\' := by
    rintro rfl
    revert hq
    decide
  have hstep (m : Mode) (hm : m ≠ .code) (d : Char) (ds : List Char) :
      cutLineComment m (d :: ds) =
        (d :: (cutLineComment (m.next d) ds).1, (cutLineComment (m.next d) ds).2) :=
    cutLineComment.eq_3 m d ds fun _ he => absurd he hm
  fun_induction literalEnd quote cs with
  | case1 => simp [cutLineComment, closing]
  | case2 rest =>
    rw [hstep _ (by simp)]
    simp [Mode.next, hback, closing]
  | case3 c hne he =>
    rw [hstep _ (by simp)]
    simp [cutLineComment, closing]
  | case4 c hne he d rest ih =>
    -- a backslash protects in double quotes, and in single quotes where none stands behind it
    obtain ⟨hc, hraw⟩ : c = '\\' ∧ quote ≠ '\x60' := by simpa using he
    have hrest : quote = '\'' → '\'' ∉ (literalEnd quote rest).1 := fun hr hm =>
      hp hr (List.mem_cons_of_mem c (List.mem_cons_of_mem d hm))
    have hd : quote = '\'' → d ≠ '\'' := fun hr hdq =>
      hp hr (List.mem_cons_of_mem c (List.mem_cons.2 (.inl hdq.symm)))
    have hnext := next_backslash hq hraw hd
    rw [← hc] at hnext
    rw [hstep _ (by simp), hstep _ hnext.1, hnext.2, ih hrest]
    rfl
  | case5 c rest hne he ih =>
    have hrest : quote = '\'' → '\'' ∉ (literalEnd quote rest).1 := fun hr hm =>
      hp hr (List.mem_cons_of_mem c hm)
    have hnext : (Mode.literal quote).next c = .literal quote := by
      have hdouble : ¬ (c = '\\' ∧ quote = '"') := by
        rintro ⟨rfl, rfl⟩
        exact he rfl
      simp [Mode.next, hne, hdouble]
    rw [hstep _ (by simp), hnext, ih hrest]
    rfl

theorem cutLineComment_blockEnd? (h : blockEnd? cs = some (inside, after)) :
    cutLineComment .code cs =
      (inside ++ '*' :: '/' :: (cutLineComment .code after).1, (cutLineComment .code after).2) := by
  fun_induction blockEnd? cs generalizing inside with
  | case1 => cases h
  | case2 => cases h
  | case3 => cases h
  | case4 rest hr =>
    cases h
    rw [cutLineComment_cons_code (by decide) fun _ hc => absurd hc (by decide),
      cutLineComment_cons_code (by decide) fun more _ he => hr more he]
    rfl
  | case5 => cases h
  | case6 c rest hs _ _ hc ih =>
    obtain ⟨⟨inner, behind⟩, hr, he⟩ := Option.map_eq_some_iff.1 h
    cases he
    have hq : isQuote c = false := by simp_all
    rw [cutLineComment_cons_code hq hs, ih hr]
    rfl

theorem cutLineComment_firstPiece (hs : ∀ more, c = '/' → rest = '/' :: more → False)
    (h : (firstPiece c rest).1.isPlain = true) :
    cutLineComment .code (c :: rest) =
      ((firstPiece c rest).1.text ++ (cutLineComment .code (firstPiece c rest).2).1,
        (cutLineComment .code (firstPiece c rest).2).2) := by
  obtain ⟨hq, he⟩ | ⟨behind, inside, after, rfl, rfl, hb, he⟩ | ⟨hq, he⟩ := firstPiece_cases c rest
  · have hnext : Mode.code.next c = .literal c := by simp [Mode.next, hq]
    have hp : c = '\'' → '\'' ∉ (literalEnd c rest).1 := by
      rw [he] at h
      rintro rfl
      simpa [Piece.isPlain] using h
    rw [cutLineComment.eq_3 _ c rest (fun more _ hc hr => hs more hc hr), hnext,
      cutLineComment_literal hq hp, he]
    simp [Piece.text]
  · rw [cutLineComment_cons_code (by decide) hs,
      cutLineComment_cons_code (by decide) fun _ hc => absurd hc (by decide),
      cutLineComment_blockEnd? hb, he]
    simp [Piece.text]
  · rw [cutLineComment_cons_code hq hs, he]
    rfl

theorem cutLineComment_readLine (h : isInStep (readLine line).pieces = true) :
    cutLineComment .code line = (textOf (readLine line).pieces, (readLine line).comment) := by
  fun_induction readLine line with
  | case1 => rfl
  | case2 rest => rfl
  | case3 c rest hs piece behind ih =>
    obtain ⟨hp, hrest⟩ := isInStep_cons h
    rw [cutLineComment_firstPiece hs hp, ih hrest, textOf_cons]

/-! ### Block comments -/

theorem dropBlocks_of_afterBlock? (h : afterBlock? rest = some after) :
    dropBlocks ('/' :: '*' :: rest) = ' ' :: dropBlocks after := by
  rw [dropBlocks.eq_1]
  split
  · next found hf =>
    rw [h] at hf
    cases hf
    rfl
  · next hf =>
    rw [h] at hf
    cases hf

theorem dropBlocks_unclosed (h : afterBlock? rest = none) :
    dropBlocks ('/' :: '*' :: rest) =
      '/' :: '*' :: (rest.takeWhile (· != '\n') ++ dropBlocks (rest.dropWhile (· != '\n'))) := by
  rw [dropBlocks.eq_1]
  split
  · next found hf =>
    rw [h] at hf
    cases hf
  · rfl

theorem afterBlock?_of_cons (h : afterBlock? (c :: cs) = none) (hc : c ≠ '\n') :
    afterBlock? cs = none := by
  by_cases hend : ∃ more, c = '*' ∧ cs = '/' :: more
  · obtain ⟨more, rfl, rfl⟩ := hend
    cases h
  · rwa [afterBlock?.eq_3 c cs fun more he hr => hend ⟨more, he, hr⟩, if_neg hc] at h

/-- Where no block comment ends on a line, none is taken out of it. -/
theorem dropBlocks_of_afterBlock?_eq_none (h : afterBlock? cs = none) :
    dropBlocks cs = cs.takeWhile (· != '\n') ++ dropBlocks (cs.dropWhile (· != '\n')) := by
  induction cs with
  | nil => rfl
  | cons c rest ih =>
    by_cases hbreak : c = '\n'
    · simp [hbreak]
    · have hrest := afterBlock?_of_cons h hbreak
      have hmarks : (c :: rest).takeWhile (· != '\n') = c :: rest.takeWhile (· != '\n') ∧
          (c :: rest).dropWhile (· != '\n') = rest.dropWhile (· != '\n') := by simp [hbreak]
      rw [hmarks.1, hmarks.2]
      by_cases hopen : ∃ more, c = '/' ∧ rest = '*' :: more
      · obtain ⟨more, rfl, rfl⟩ := hopen
        rw [dropBlocks_unclosed (afterBlock?_of_cons hrest (by decide))]
        simp
      · rw [dropBlocks.eq_2 c rest fun more hc hr => hopen ⟨more, hc, hr⟩, ih hrest,
          List.cons_append]

/-- A character stays if no block comment starts with it. -/
theorem dropBlocks_cons (h : opensBlock (c :: cs) = false) :
    dropBlocks (c :: cs) = c :: dropBlocks cs := by
  by_cases hopen : ∃ more, c = '/' ∧ cs = '*' :: more
  · obtain ⟨more, rfl, rfl⟩ := hopen
    have hnone : afterBlock? more = none := by simpa [opensBlock] using h
    rw [dropBlocks_unclosed hnone, dropBlocks.eq_2 '*' more fun _ he => absurd he (by decide),
      dropBlocks_of_afterBlock?_eq_none hnone]
  · exact dropBlocks.eq_2 c cs fun more hc hr => hopen ⟨more, hc, hr⟩

theorem opensBlock_of_ne (h : c ≠ '/') (cs : List Char) : opensBlock (c :: cs) = false := by
  unfold opensBlock
  split
  · next he => exact absurd (List.cons.inj he).1 h
  · rfl

theorem exists_of_opensBlock (h : opensBlock cs = true) :
    ∃ more after, cs = '/' :: '*' :: more ∧ afterBlock? more = some after := by
  unfold opensBlock at h
  split at h
  · next more =>
    obtain ⟨after, hafter⟩ := Option.isSome_iff_exists.1 h
    exact ⟨more, after, rfl, hafter⟩
  · cases h

theorem afterBlock?_of_blockEnd? (h : blockEnd? cs = some (inside, after)) (behind : List Char) :
    afterBlock? (inside ++ '*' :: '/' :: behind) = some behind := by
  fun_induction blockEnd? cs generalizing inside with
  | case1 => cases h
  | case2 => cases h
  | case3 => cases h
  | case4 rest _ =>
    cases h
    rfl
  | case5 => cases h
  | case6 c rest _ _ hend hc ih =>
    obtain ⟨⟨inner, more⟩, hr, he⟩ := Option.map_eq_some_iff.1 h
    cases he
    have hbreak : ¬ c = '\n' := by simp_all
    rw [List.cons_append, afterBlock?.eq_3 c _ ?_, if_neg hbreak, ih hr]
    intro tail hstar hslash
    have htext := text_blockEnd? hr
    cases inner with
    | nil => exact absurd (List.cons.inj hslash).1 (by decide)
    | cons d inner =>
      obtain ⟨rfl, -⟩ := List.cons.inj hslash
      exact hend _ hstar htext.symm

/-- What holds of the pieces of a line that is read: a literal starts with a quote, and a block comment
ends where it is closed first. -/
def Piece.IsRead : Piece → Prop
  | .code _ => True
  | .literal quote _ _ => isQuote quote = true
  | .block inside => ∀ behind, afterBlock? (inside ++ '*' :: '/' :: behind) = some behind

theorem isRead_firstPiece (c : Char) (rest : List Char) : (firstPiece c rest).1.IsRead := by
  obtain ⟨hq, h⟩ | ⟨_, inside, after, -, -, hb, h⟩ | ⟨-, h⟩ := firstPiece_cases c rest
  · rw [h]
    exact hq
  · rw [h]
    exact afterBlock?_of_blockEnd? hb
  · rw [h]
    trivial

theorem isRead_of_mem_readLine {piece : Piece} (h : piece ∈ (readLine line).pieces) :
    piece.IsRead := by
  fun_induction readLine line with
  | case1 => cases h
  | case2 => cases h
  | case3 c rest _ first behind ih =>
    rcases List.mem_cons.1 h with rfl | h
    · exact isRead_firstPiece c rest
    · exact ih h

/-- Text in which no block comment starts stays. -/
theorem dropBlocks_append (h : opensNone behind xs = true) :
    dropBlocks (xs ++ behind) = xs ++ dropBlocks behind := by
  induction xs with
  | nil => rfl
  | cons c xs ih =>
    simp only [opensNone, Bool.and_eq_true, Bool.not_eq_true'] at h
    rw [List.cons_append, dropBlocks_cons h.1, ih h.2, List.cons_append]

/-- Where a block comment starts in a text, a blank takes the place of a slash. -/
theorem exists_dropBlocks_append (h : opensNone behind xs = false) :
    ∃ before left right, dropBlocks (xs ++ behind) = before ++ ' ' :: left ∧
      xs = before ++ '/' :: right := by
  induction xs with
  | nil => cases h
  | cons c xs ih =>
    by_cases hopen : opensBlock (c :: (xs ++ behind)) = true
    · obtain ⟨more, after, he, hafter⟩ := exists_of_opensBlock hopen
      refine ⟨[], dropBlocks after, xs, ?_, ?_⟩
      · rw [List.cons_append, he, dropBlocks_of_afterBlock? hafter]
        rfl
      · rw [(List.cons.inj he).1]
        rfl
    · rw [Bool.not_eq_true] at hopen
      simp only [opensNone, hopen, Bool.not_false, Bool.true_and] at h
      obtain ⟨before, left, right, hl, hr⟩ := ih h
      refine ⟨c :: before, left, right, ?_, ?_⟩
      · rw [List.cons_append, dropBlocks_cons hopen, hl]
        rfl
      · rw [hr]
        rfl

theorem isBlank_of_isQuote (h : isQuote c = true) : Text.isBlank c = false := by
  simp only [isQuote, Bool.or_eq_true, decide_eq_true_eq] at h
  rcases h with (rfl | rfl) | rfl <;> decide

theorem ne_slash_of_isQuote (h : isQuote c = true) : c ≠ '/' := by
  rintro rfl
  revert h
  decide

/-- A piece stays, a block comment as a blank, if no block comment starts in a literal. -/
theorem dropBlocks_piece {piece : Piece} (hread : piece.IsRead)
    (hstep : isInStep (piece :: pieces) = true) (h : piece.opensNone (textOf pieces) = true) :
    dropBlocks (piece.text ++ textOf pieces) = piece.kept ++ dropBlocks (textOf pieces) := by
  cases piece with
  | code c =>
    simp only [isInStep, Bool.and_eq_true, Bool.not_eq_true'] at hstep
    exact dropBlocks_cons hstep.1
  | literal quote inside closed =>
    have hquote := opensBlock_of_ne (ne_slash_of_isQuote hread)
    have hclosing : opensNone (textOf pieces) (closing quote closed) = true := by
      cases closed
      · rfl
      · simp [closing, opensNone, hquote]
    rw [Piece.kept, Piece.text, List.cons_append, List.append_assoc, dropBlocks_cons (hquote _),
      dropBlocks_append h, dropBlocks_append hclosing]
    · simp
    · simp
  | block inside =>
    have htext : (Piece.block inside).text ++ textOf pieces =
        '/' :: '*' :: (inside ++ '*' :: '/' :: textOf pieces) := by simp [Piece.text]
    rw [htext, dropBlocks_of_afterBlock? (hread (textOf pieces))]
    rfl

/-- Where no block comment starts in a literal, those of the language are replaced by blanks and
nothing else is. -/
theorem dropBlocks_textOf (hread : ∀ piece ∈ pieces, piece.IsRead) (hstep : isInStep pieces = true)
    (h : literalsOpenNone pieces = true) : dropBlocks (textOf pieces) = keptOf pieces := by
  induction pieces with
  | nil => exact dropBlocks.eq_3
  | cons piece rest ih =>
    obtain ⟨hpiece, hrest⟩ := List.forall_mem_cons.1 hread
    simp only [literalsOpenNone, Bool.and_eq_true] at h
    rw [textOf_cons, keptOf_cons, dropBlocks_piece hpiece hstep h.1,
      ih hrest (isInStep_cons hstep).2 h.2]

/-- Where a block comment starts in a literal, a blank takes the place of a slash. -/
theorem exists_dropBlocks_textOf (hread : ∀ piece ∈ pieces, piece.IsRead)
    (hstep : isInStep pieces = true) (h : literalsOpenNone pieces = false) :
    ∃ before left right, dropBlocks (textOf pieces) = before ++ ' ' :: left ∧
      keptOf pieces = before ++ '/' :: right := by
  induction pieces with
  | nil => cases h
  | cons piece rest ih =>
    obtain ⟨hpiece, hrest⟩ := List.forall_mem_cons.1 hread
    rw [textOf_cons, keptOf_cons]
    by_cases hopen : piece.opensNone (textOf rest) = true
    · -- the literal comes later
      rw [literalsOpenNone, hopen, Bool.true_and] at h
      obtain ⟨before, left, right, hl, hr⟩ := ih hrest (isInStep_cons hstep).2 h
      refine ⟨piece.kept ++ before, left, right, ?_, ?_⟩
      · rw [dropBlocks_piece hpiece hstep hopen, hl, List.append_assoc]
      · rw [hr, List.append_assoc]
    · rw [Bool.not_eq_true] at hopen
      cases piece with
      | code c => cases hopen
      | block inside => cases hopen
      | literal quote inside closed =>
        obtain ⟨before, left, right, hl, hr⟩ := exists_dropBlocks_append hopen
        have hquote := opensBlock_of_ne (ne_slash_of_isQuote hpiece)
        refine ⟨quote :: before, left, right ++ (closing quote closed ++ keptOf rest), ?_, ?_⟩
        · rw [Piece.text, List.cons_append, List.append_assoc, dropBlocks_cons (hquote _), hl]
          rfl
        · simp [Piece.kept, Piece.text, hr]

/-! ### Both passes -/

theorem trimEnd_blank_ne_slash (before left right : List Char) :
    Text.trimEnd (before ++ ' ' :: left) ≠ Text.trimEnd (before ++ '/' :: right) := by
  intro h
  obtain ⟨blanks, hb, -⟩ := Text.trimEnd_append_eq (before ++ ' ' :: left)
  rw [h, Text.trimEnd_append_cons (by decide), List.append_assoc, List.append_cancel_left_eq] at hb
  exact absurd (List.cons.inj hb).1 (by decide)

/-- On a line on which the first pass is in step with the language, the comment is the line comment;
the code is what the language sees in front of it, with blanks in place of block comments, exactly if
no block comment starts in a literal; and then every closed literal comes through unchanged. -/
theorem splitComment_reading (line : List Char) (h : isInStep (readLine line).pieces = true) :
    textOf (readLine line).pieces ++
      ((readLine line).comment.map (['/', '/'] ++ ·)).getD [] = line ∧
    (splitComment line).2 = Text.trim ((readLine line).comment.getD []) ∧
    ((splitComment line).1 = Text.trimEnd (keptOf (readLine line).pieces) ↔
      literalsOpenNone (readLine line).pieces = true) ∧
    (literalsOpenNone (readLine line).pieces = true →
      ∀ before quote inside after,
        (readLine line).pieces = before ++ .literal quote inside true :: after →
          keptOf before ++ (Piece.literal quote inside true).text <+: (splitComment line).1) := by
  have hcut := cutLineComment_readLine h
  have hread : ∀ piece ∈ (readLine line).pieces, piece.IsRead := fun _ => isRead_of_mem_readLine
  have hcode : (splitComment line).1 =
      Text.trimEnd (dropBlocks (textOf (readLine line).pieces)) := by
    rw [splitComment, hcut]
  have hkept (hopen : literalsOpenNone (readLine line).pieces = true) :
      (splitComment line).1 = Text.trimEnd (keptOf (readLine line).pieces) := by
    rw [hcode, dropBlocks_textOf hread h hopen]
  refine ⟨text_readLine line, by rw [splitComment, hcut], ⟨fun heq => ?_, hkept⟩, ?_⟩
  · cases hopen : literalsOpenNone (readLine line).pieces with
    | true => rfl
    | false =>
      -- a slash that has become a blank is missed even where the end is trimmed
      obtain ⟨before, left, right, hl, hr⟩ := exists_dropBlocks_textOf hread h hopen
      rw [hcode, hl, hr] at heq
      exact absurd heq (trimEnd_blank_ne_slash before left right)
  · intro hopen before quote inside after hpieces
    have hquote : isQuote quote = true := hread (.literal quote inside true) (by simp [hpieces])
    have htext : keptOf (readLine line).pieces =
        (keptOf before ++ quote :: inside) ++ quote :: keptOf after := by
      rw [hpieces, keptOf_append, keptOf_cons]
      simp [Piece.kept, Piece.text, closing]
    rw [hkept hopen, htext, Text.trimEnd_append_cons (isBlank_of_isQuote hquote)]
    exact ⟨Text.trimEnd (keptOf after), by simp [Piece.text, closing]⟩

/-- A field with an address and the beginning of a block comment in its tag, a block comment in front
of that, and a note with quotes behind it. -/
def addressLine : List Char :=
  "Home [2]string /* old */ `doc:\"http://a/b/*\"` // it's \"here\"".toList

theorem splitComment_reading_addressLine :
    isInStep (readLine addressLine).pieces = true ∧
    literalsOpenNone (readLine addressLine).pieces = true ∧
    (splitComment addressLine).2 = "it's \"here\"".toList ∧
    (splitComment addressLine).1 = Text.trimEnd (keptOf (readLine addressLine).pieces) ∧
    "Home [2]string   `doc:\"http://a/b/*\"`".toList <+: (splitComment addressLine).1 := by
  have hstep : isInStep (readLine addressLine).pieces = true := by decide +kernel
  have hopen : literalsOpenNone (readLine addressLine).pieces = true := by decide +kernel
  have hpieces : (readLine addressLine).pieces =
      ((readLine addressLine).pieces.take 17 ++
        .literal '\x60' "doc:\"http://a/b/*\"".toList true :: [.code ' ']) := by decide +kernel
  have hkept : keptOf ((readLine addressLine).pieces.take 17) ++
      (Piece.literal '\x60' "doc:\"http://a/b/*\"".toList true).text =
        "Home [2]string   `doc:\"http://a/b/*\"`".toList := by decide +kernel
  have h := splitComment_reading addressLine hstep
  refine ⟨hstep, hopen, ?_, h.2.2.1.2 hopen, ?_⟩
  · rw [h.2.1]
    decide +kernel
  · rw [← hkept]
    exact h.2.2.2 hopen _ _ _ _ hpieces

def blockTagLine : List Char := "A int `a:\"/*x*/\"`".toList

/-- A block comment in a literal does not stay there, although the language sees none. -/
theorem splitComment_ne_reading :
    (readLine blockTagLine).comment = none ∧
    keptOf (readLine blockTagLine).pieces = blockTagLine ∧
    (splitComment blockTagLine).1 = "A int `a:\" \"`".toList ∧
    (splitComment blockTagLine).1 ≠ Text.trimEnd (keptOf (readLine blockTagLine).pieces) := by
  decide +kernel

end StructLayout.Source
