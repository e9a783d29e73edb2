import StructLayout.Source.Literal
import StructLayout.Text.Blank

/-!
# Comments in source text

`stripBlockComments` blanks out the block comments of a whole source and keeps its line breaks, so
that line numbers stay right; `splitComment` then takes the line comment off a single line.  The main
statement says that blanking does not change the length of a source (`length_stripBlockComments`).
-/

namespace StructLayout.Source

/-! ### Block comments -/

/-- What a character of a whole source is part of: unlike on a single line, a backslash also
protects inside single quotes, and a line break ends every literal but a raw one. -/
inductive Region where
  | code
  | literal (quote : Char)
  | lineComment
  | blockComment
deriving DecidableEq, Repr, Inhabited

/-- A character of a block comment, blanked out unless it is a line break. -/
def blankOut (c : Char) : Char := if c = '\n' then '\n' else ' '

/-- The region behind a character of a literal that no backslash protects. -/
def literalNext (quote c : Char) : Region :=
  if c = quote || (c = '\n' && quote != '\x60') then .code else .literal quote

/-- The region behind a character of code that starts no comment. -/
def codeNext (c : Char) : Region := if isQuote c then .literal c else .code

/-- A source from within a region on, its block comments blanked out. -/
def stripBlocks : Region → List Char → List Char
  | _, [] => []
  | .code, '/' :: '/' :: rest => '/' :: '/' :: stripBlocks .lineComment rest
  | .code, '/' :: '*' :: rest => ' ' :: ' ' :: stripBlocks .blockComment rest
  | .code, c :: rest => c :: stripBlocks (codeNext c) rest
  | .lineComment, c :: rest => c :: stripBlocks (if c = '\n' then .code else .lineComment) rest
  | .blockComment, '*' :: '/' :: rest => ' ' :: ' ' :: stripBlocks .code rest
  | .blockComment, c :: rest => blankOut c :: stripBlocks .blockComment rest
  | .literal quote, '\\' :: c :: rest =>
    -- in a raw literal a backslash protects nothing
    if quote = '\x60' then '\\' :: stripBlocks (.literal quote) (c :: rest)
    else '\\' :: c :: stripBlocks (.literal quote) rest
  | .literal quote, c :: rest => c :: stripBlocks (literalNext quote c) rest

/-- A source with its block comments blanked out; an unfinished one runs to the end. -/
def stripBlockComments (source : List Char) : List Char := stripBlocks .code source

@[simp] theorem stripBlocks_nil (region : Region) : stripBlocks region [] = [] :=
  stripBlocks.eq_1 region

/-- A character of code stays, as long as no comment starts with it. -/
theorem stripBlocks_code_of_not_prefix {c : Char} {cs : List Char} (hline : ¬ ['/', '/'] <+: c :: cs)
    (hblock : ¬ ['/', '*'] <+: c :: cs) :
    stripBlocks .code (c :: cs) = c :: stripBlocks (codeNext c) cs := by
  have hnone (d : Char) (hd : ¬ ['/', d] <+: c :: cs) (more : List Char) :
      c = '/' → cs = d :: more → False := by
    rintro rfl rfl
    apply hd
    exact ⟨more, rfl⟩
  exact stripBlocks.eq_4 c cs (hnone '/' hline) (hnone '*' hblock)

theorem stripBlocks_code_cons {c : Char} (h : c ≠ '/') (cs : List Char) :
    stripBlocks .code (c :: cs) = c :: stripBlocks (codeNext c) cs :=
  stripBlocks.eq_4 c cs (fun _ he => absurd he h) fun _ he => absurd he h

/-- A character of a literal stays, unless a backslash takes the next one along. -/
theorem stripBlocks_literal_cons {quote c : Char} {cs : List Char}
    (h : c = '\\' → quote = '\x60' ∨ cs = []) :
    stripBlocks (.literal quote) (c :: cs) = c :: stripBlocks (literalNext quote c) cs := by
  by_cases hescape : c = '\\' ∧ cs ≠ []
  · obtain ⟨rfl, hne⟩ := hescape
    obtain ⟨d, rest, rfl⟩ := List.exists_cons_of_ne_nil hne
    obtain rfl : quote = '\x60' := (h rfl).resolve_right hne
    rw [stripBlocks.eq_8, if_pos rfl]
    rfl
  · apply stripBlocks.eq_9
    rintro d rest rfl rfl
    exact hescape ⟨rfl, List.cons_ne_nil d rest⟩

theorem stripBlocks_lineComment_append {comment : List Char} (h : '\n' ∉ comment)
    (rest : List Char) :
    stripBlocks .lineComment (comment ++ rest) = comment ++ stripBlocks .lineComment rest := by
  induction comment with
  | nil => rfl
  | cons c comment ih =>
    have hc : ¬ c = '\n' := fun he => h (by simp [he])
    rw [List.cons_append, stripBlocks.eq_5, if_neg hc, ih fun hm => h (by simp [hm]),
      List.cons_append]

theorem length_stripBlocks (region : Region) (cs : List Char) :
    (stripBlocks region cs).length = cs.length := by
  fun_induction stripBlocks region cs <;> simp_all

/-- Blanking keeps the line breaks where they are. -/
theorem map_isBreak_stripBlocks (region : Region) (cs : List Char) :
    (stripBlocks region cs).map (· == '\n') = cs.map (· == '\n') := by
  have hblank (c : Char) : (blankOut c == '\n') = (c == '\n') := by
    unfold blankOut
    split
    · next h => rw [h]
    · next h => simp [h]
  fun_induction stripBlocks region cs <;> simp_all

theorem length_stripBlockComments (source : List Char) :
    (stripBlockComments source).length = source.length :=
  length_stripBlocks .code source

/-! ### Line comments -/

/-- A line up to its line comment, and the comment if there is one. -/
def cutLineComment : Mode → List Char → List Char × Option (List Char)
  | _, [] => ([], none)
  | .code, '/' :: '/' :: rest => ([], some rest)
  | m, c :: rest =>
    let r := cutLineComment (m.next c) rest
    (c :: r.1, r.2)

/-- The text behind the end of a block comment that ends on the same line. -/
def afterBlock? : List Char → Option (List Char)
  | [] => none
  | '*' :: '/' :: rest => some rest
  | c :: rest => if c = '\n' then none else afterBlock? rest

theorem length_of_afterBlock? {cs after : List Char} (h : afterBlock? cs = some after) :
    after.length < cs.length := by
  fun_induction afterBlock? cs with
  | case1 => cases h
  | case2 rest =>
    cases h
    simp only [List.length_cons]
    omega
  | case3 => cases h
  | case4 c rest _ _ ih =>
    have := ih h
    simp only [List.length_cons]
    omega

/-- A line with each block comment on it replaced by one blank.  Where a comment has no end on its
line, no later one has. -/
def dropBlocks : List Char → List Char
  | '/' :: '*' :: rest =>
    match _h : afterBlock? rest with
    | some after => ' ' :: dropBlocks after
    | none => '/' :: '*' :: rest.takeWhile (· != '\n') ++ dropBlocks (rest.dropWhile (· != '\n'))
  | c :: rest => c :: dropBlocks rest
  | [] => []
termination_by cs => cs.length
decreasing_by
  · have := length_of_afterBlock? _h
    simp only [List.length_cons]
    omega
  · have := (List.dropWhile_sublist (fun c => c != '\n') : (rest.dropWhile _).Sublist rest).length_le
    simp only [List.length_cons]
    omega
  · simp

/-- The code of a line, without trailing blanks and with block comments replaced by blanks, and the
trimmed text of its line comment. -/
def splitComment (line : List Char) : List Char × List Char :=
  let r := cutLineComment .code line
  (Text.trimEnd (dropBlocks r.1), Text.trim (r.2.getD []))

end StructLayout.Source
