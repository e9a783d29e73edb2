import Mathlib.Data.List.Forall2
import StructLayout.Source.Declarations

/-!
# Sources without their block comments

The language reads a source as a row of stretches (`Reads`): characters of code, literals, line
comments and block comments, each as long as its grammar says (`Lexeme`).  Literals and block comments
that are left open are stretches, too, so every source can be read (`exists_reads`).

`stripBlockComments` blanks out the block comments of that reading and nothing else
(`Reads.strip_eq`).  Where the first pass is in a block comment a second one is in code, and
everywhere else both are in the same region, so that a second pass changes nothing
(`stripBlocks_stripBlocks`).  The main statement is `stripBlockComments_isBlanking`.
-/

namespace StructLayout.Source

variable {c quote : Char} {cs inside ending text behind source : List Char} {region : Region}

/-! ### The grammar of a source -/

/-- What may stand between the quotes of a literal: a backslash keeps the character behind it from
ending the literal, unless the literal is raw, and only a raw literal goes on over a line break. -/
inductive Inside (quote : Char) : List Char → Prop
  | nil : Inside quote []
  | cons {c : Char} {cs : List Char} : c ≠ quote → (c = '\n' ∨ c = '\\' → quote = '\x60') →
      Inside quote cs → Inside quote (c :: cs)
  | escape {c : Char} {cs : List Char} : quote ≠ '\x60' → Inside quote cs →
      Inside quote ('\\' :: c :: cs)

/-- How a literal ends, and what may stand behind that: with its quote, with its line, or with the
source, there perhaps at a backslash that has nothing to protect. -/
inductive LiteralEnd (quote : Char) : List Char → List Char → Prop
  | closed {behind : List Char} : LiteralEnd quote [quote] behind
  | line {behind : List Char} : quote ≠ '\x60' → LiteralEnd quote ['\n'] behind
  | source : LiteralEnd quote [] []
  | backslash : quote ≠ '\x60' → LiteralEnd quote ['\\'] []

/-- No block comment ends in a text. -/
def EndsNoBlock (cs : List Char) : Prop := ¬ ['*', '/'] <:+: cs

/-- The texts of a region from its start to its end, in front of what stands behind them. -/
inductive Lexeme : Region → List Char → List Char → Prop
  | code {c : Char} {behind : List Char} : isQuote c = false → ¬ ['/', '/'] <+: c :: behind →
      ¬ ['/', '*'] <+: c :: behind → Lexeme .code [c] behind
  | literal {quote : Char} {inside ending behind : List Char} : isQuote quote = true →
      Inside quote inside → LiteralEnd quote ending behind →
      Lexeme (.literal quote) (quote :: (inside ++ ending)) behind
  | lineComment {inside behind : List Char} : '\n' ∉ inside → (∀ c ∈ behind.head?, c = '\n') →
      Lexeme .lineComment ('/' :: '/' :: inside) behind
  | block {inside behind : List Char} : EndsNoBlock (inside ++ ['*']) →
      Lexeme .blockComment ('/' :: '*' :: (inside ++ ['*', '/'])) behind
  | openBlock {inside : List Char} : EndsNoBlock inside →
      Lexeme .blockComment ('/' :: '*' :: inside) []

/-- Some characters of a source that belong together. -/
structure Stretch where
  region : Region
  text : List Char
deriving DecidableEq, Repr, Inhabited

/-- The stretches that a source is read as. -/
inductive Reads : List Char → List Stretch → Prop
  | nil : Reads [] []
  | cons {region : Region} {text behind : List Char} {stretches : List Stretch} :
      Lexeme region text behind → Reads behind stretches →
      Reads (text ++ behind) (⟨region, text⟩ :: stretches)

/-- A stretch with its characters blanked out if it is a block comment. -/
def Stretch.blanked (s : Stretch) : List Char :=
  if s.region = .blockComment then s.text.map blankOut else s.text

/-- A slash and a star stand outside of literals and line comments: the rest of a source starts with
them where a stretch starts. -/
def OpensBlock (source : List Char) : Prop :=
  ∃ before after, Reads source (before ++ after) ∧ ['/', '*'] <+: after.flatMap Stretch.text

/-- Some characters of a source, but no line break, have been replaced by blanks. -/
structure IsBlankingOf (source blanked : List Char) : Prop where
  length : blanked.length = source.length
  breaks : ∀ i : Nat, blanked[i]? = some '\n' ↔ source[i]? = some '\n'
  others : ∀ i : Nat, blanked[i]? = source[i]? ∨ blanked[i]? = some ' '

/-! ### Blanking out -/

theorem blankOut_ne (c : Char) : blankOut c ≠ '/' ∧ isQuote (blankOut c) = false := by
  unfold blankOut
  split <;> decide

/-- Every character stays or gives way to a blank. -/
theorem forall₂_stripBlocks (region : Region) (cs : List Char) :
    List.Forall₂ (fun c d => d = c ∨ d = ' ') cs (stripBlocks region cs) := by
  have hblank (c : Char) : blankOut c = c ∨ blankOut c = ' ' := by
    unfold blankOut
    split
    · next h => exact .inl h.symm
    · exact .inr rfl
  fun_induction stripBlocks region cs with
  | case1 => exact .nil
  | case2 rest ih => exact .cons (.inl rfl) (.cons (.inl rfl) ih)
  | case3 rest ih => exact .cons (.inr rfl) (.cons (.inr rfl) ih)
  | case4 c rest _ _ ih => exact .cons (.inl rfl) ih
  | case5 c rest ih => exact .cons (.inl rfl) ih
  | case6 rest ih => exact .cons (.inr rfl) (.cons (.inr rfl) ih)
  | case7 c rest _ ih => exact .cons (hblank c) ih
  | case8 c rest ih => exact .cons (.inl rfl) ih
  | case9 quote c rest _ ih => exact .cons (.inl rfl) (.cons (.inl rfl) ih)
  | case10 quote c rest _ ih => exact .cons (.inl rfl) ih

theorem getElem?_stripBlocks (region : Region) (cs : List Char) (i : Nat) :
    (stripBlocks region cs)[i]? = cs[i]? ∨ (stripBlocks region cs)[i]? = some ' ' := by
  have h := forall₂_stripBlocks region cs
  generalize stripBlocks region cs = blanked at h
  induction h generalizing i with
  | nil => exact .inl rfl
  | cons hc _ ih =>
    cases i with
    | zero => exact hc.imp (congrArg some) (congrArg some)
    | succ i => exact ih i

theorem isBlankingOf_stripBlockComments (source : List Char) :
    IsBlankingOf source (stripBlockComments source) where
  length := length_stripBlockComments source
  breaks := by
    intro i
    have hbreaks := congrArg (fun bs => bs[i]?) (map_isBreak_stripBlocks .code source)
    have hbreak (x : Option Char) : x.map (· == '\n') = some true ↔ x = some '\n' := by
      cases x <;> simp
    simp only [List.getElem?_map] at hbreaks
    rw [stripBlockComments, ← hbreak, hbreaks, hbreak]
  others := getElem?_stripBlocks .code source

/-- What starts with a character other than a blank when comments have been blanked out started with
it before. -/
theorem exists_of_stripBlocks_eq_cons {rest : List Char} (h : stripBlocks region cs = c :: rest)
    (hc : c ≠ ' ') : ∃ more, cs = c :: more := by
  have hhead := getElem?_stripBlocks region cs 0
  rw [h, List.getElem?_cons_zero] at hhead
  rcases hhead with hhead | hhead
  · cases cs with
    | nil => cases hhead
    | cons d more => exact ⟨more, by rw [Option.some.inj hhead]⟩
  · exact absurd (Option.some.inj hhead) hc

/-! ### Characters that stay -/

theorem codeNext_of_isQuote (h : isQuote c = false) : codeNext c = .code := by
  simp [codeNext, h]

theorem stripBlocks_code_plain (hc : c ≠ '/' ∧ isQuote c = false) (cs : List Char) :
    stripBlocks .code (c :: cs) = c :: stripBlocks .code cs := by
  rw [stripBlocks_code_cons hc.1, codeNext_of_isQuote hc.2]

/-! ### Blanking out once more -/

/-- The region of a second pass where the first one is in some region: block comments are blank by
then. -/
def Region.unblocked : Region → Region
  | .blockComment => .code
  | region => region

theorem unblocked_codeNext (c : Char) : (codeNext c).unblocked = codeNext c := by
  unfold codeNext
  split <;> rfl

theorem unblocked_literalNext (quote c : Char) :
    (literalNext quote c).unblocked = literalNext quote c := by
  unfold literalNext
  split <;> rfl

/-- A second pass, which goes through code where the first one went through block comments, leaves
everything as it is. -/
theorem stripBlocks_stripBlocks (region : Region) (cs : List Char) :
    stripBlocks region.unblocked (stripBlocks region cs) = stripBlocks region cs := by
  have hblank : ' ' ≠ '/' ∧ isQuote ' ' = false := by decide
  -- along the first pass: the second one takes a branch of its own where comments were
  fun_induction stripBlocks region cs with
  | case1 => rfl
  | case2 rest ih => exact congrArg ('/' :: '/' :: ·) ih
  | case3 rest ih =>
    show stripBlocks .code _ = _
    rw [stripBlocks_code_plain hblank, stripBlocks_code_plain hblank]
    exact congrArg (' ' :: ' ' :: ·) ih
  | case4 c rest hl hb ih =>
    have hnone (d : Char) (hd : d ≠ ' ') (h : ∀ more, c = '/' → rest = d :: more → False)
        (more : List Char) (hc : c = '/') (hmore : stripBlocks (codeNext c) rest = d :: more) :
        False := by
      obtain ⟨tail, ht⟩ := exists_of_stripBlocks_eq_cons hmore hd
      exact h tail hc ht
    show stripBlocks .code _ = _
    rw [stripBlocks.eq_4 _ _ (hnone '/' (by decide) hl) (hnone '*' (by decide) hb)]
    rw [unblocked_codeNext] at ih
    rw [ih]
  | case5 c rest ih =>
    have hsame : (if c = '\n' then Region.code else .lineComment).unblocked =
        if c = '\n' then .code else .lineComment := by split <;> rfl
    rw [hsame] at ih
    show stripBlocks .lineComment _ = _
    rw [stripBlocks.eq_5, ih]
  | case6 rest ih =>
    show stripBlocks .code _ = _
    rw [stripBlocks_code_plain hblank, stripBlocks_code_plain hblank]
    exact congrArg (' ' :: ' ' :: ·) ih
  | case7 c rest _ ih =>
    show stripBlocks .code _ = _
    rw [stripBlocks_code_plain (blankOut_ne c)]
    exact congrArg (blankOut c :: ·) ih
  | case8 c rest ih =>
    show stripBlocks (.literal '\x60') _ = _
    rw [stripBlocks_literal_cons fun _ => .inl rfl]
    exact congrArg ('\\' :: ·) ih
  | case9 quote c rest hraw ih =>
    show stripBlocks (.literal quote) _ = _
    rw [stripBlocks.eq_8, if_neg hraw]
    exact congrArg ('\\' :: c :: ·) ih
  | case10 quote c rest hend ih =>
    show stripBlocks (.literal quote) _ = _
    rw [unblocked_literalNext] at ih
    rw [stripBlocks_literal_cons, ih]
    intro hc
    right
    cases rest with
    | nil => rfl
    | cons d rest => exact (hend d rest hc rfl).elim

theorem stripBlockComments_stripBlockComments (source : List Char) :
    stripBlockComments (stripBlockComments source) = stripBlockComments source :=
  stripBlocks_stripBlocks .code source

theorem Scanner.scan_stripBlockComments (s : Scanner) (source : List Char) :
    s.scan (String.ofList (stripBlockComments source)) = s.scan (String.ofList source) := by
  have hlines : sourceLines (stripBlockComments source) = sourceLines source := by
    rw [sourceLines, stripBlockComments_stripBlockComments, sourceLines]
  rw [scan, scan, String.toList_ofList, String.toList_ofList, hlines]

/-! ### Stretch by stretch -/

theorem stripBlocks_quote (hq : isQuote quote = true) (cs : List Char) :
    stripBlocks .code (quote :: cs) = quote :: stripBlocks (.literal quote) cs := by
  have hne : quote ≠ '/' := by
    rintro rfl
    cases hq
  rw [stripBlocks_code_cons hne, codeNext, if_pos hq]

/-- What stands between the quotes of a literal stays. -/
theorem Inside.strip_eq (h : Inside quote inside) (behind : List Char) :
    stripBlocks (.literal quote) (inside ++ behind) =
      inside ++ stripBlocks (.literal quote) behind := by
  induction h with
  | nil => rfl
  | @cons c cs hquote hraw _ ih =>
    have hnext : literalNext quote c = .literal quote := by
      unfold literalNext
      rw [if_neg]
      intro hends
      simp only [Bool.or_eq_true, Bool.and_eq_true, decide_eq_true_eq, bne_iff_ne] at hends
      rcases hends with he | ⟨hbreak, hne⟩
      · exact hquote he
      · exact hne (hraw (.inl hbreak))
    rw [List.cons_append, stripBlocks_literal_cons fun hc => .inl (hraw (.inr hc)), hnext, ih,
      List.cons_append]
  | @escape c cs hraw _ ih =>
    rw [List.cons_append, List.cons_append, stripBlocks.eq_8, if_neg hraw, ih, List.cons_append,
      List.cons_append]

theorem ne_backslash_of_isQuote (h : isQuote quote = true) : quote ≠ '\\' := by
  rintro rfl
  revert h
  decide

theorem LiteralEnd.strip_eq (h : LiteralEnd quote ending behind) (hq : isQuote quote = true) :
    stripBlocks (.literal quote) (ending ++ behind) = ending ++ stripBlocks .code behind := by
  cases h with
  | closed =>
    have hnext : literalNext quote quote = .code := by simp [literalNext]
    rw [List.singleton_append, stripBlocks_literal_cons, hnext, List.singleton_append]
    intro hc
    exact absurd hc (ne_backslash_of_isQuote hq)
  | line hraw =>
    have hnext : literalNext quote '\n' = .code := by simp [literalNext, hraw]
    rw [List.singleton_append, stripBlocks_literal_cons, hnext, List.singleton_append]
    intro hc
    exact absurd hc (by decide)
  | source => rfl
  | backslash => exact stripBlocks_literal_cons fun _ => .inr rfl

theorem stripBlocks_lineComment (hend : ∀ c ∈ behind.head?, c = '\n') :
    stripBlocks .lineComment behind = stripBlocks .code behind := by
  cases behind with
  | nil => rfl
  | cons c rest =>
    obtain rfl : c = '\n' := hend c rfl
    rw [stripBlocks.eq_5, if_pos rfl, stripBlocks_code_plain (by decide)]

theorem stripBlocks_blockComment (h : EndsNoBlock (inside ++ behind.take 1)) :
    stripBlocks .blockComment (inside ++ behind) =
      inside.map blankOut ++ stripBlocks .blockComment behind := by
  induction inside with
  | nil => rfl
  | cons c inside ih =>
    have hrest : EndsNoBlock (inside ++ behind.take 1) := by
      intro hfound
      exact h (hfound.trans (List.suffix_cons c _).isInfix)
    rw [List.cons_append, stripBlocks.eq_7, ih hrest, List.map_cons, List.cons_append]
    intro more hstar hslash
    apply h
    apply List.IsPrefix.isInfix
    rw [hstar, List.cons_append, List.cons_prefix_cons]
    refine ⟨rfl, ?_⟩
    cases inside with
    | nil =>
      rw [List.nil_append] at hslash
      rw [hslash]
      exact List.prefix_rfl
    | cons d inside =>
      obtain ⟨rfl, -⟩ := List.cons.inj hslash
      exact ⟨_, rfl⟩

/-- A stretch at the start of a source is blanked out if it is a block comment, and it leaves code
behind. -/
theorem Lexeme.strip_eq (h : Lexeme region text behind) :
    stripBlocks .code (text ++ behind) =
      (Stretch.mk region text).blanked ++ stripBlocks .code behind := by
  cases h with
  | code hq hl hb =>
    rw [List.singleton_append, stripBlocks_code_of_not_prefix hl hb, codeNext_of_isQuote hq]
    rfl
  | @literal quote inside ending behind hq hi he =>
    rw [List.cons_append, List.append_assoc, stripBlocks_quote hq, hi.strip_eq, he.strip_eq hq]
    simp [Stretch.blanked]
  | lineComment hi hend =>
    rw [List.cons_append, List.cons_append, stripBlocks.eq_2, stripBlocks_lineComment_append hi,
      stripBlocks_lineComment hend]
    rfl
  | @block inside behind hi =>
    have htext : ('/' :: '*' :: (inside ++ ['*', '/'])) ++ behind =
        '/' :: '*' :: (inside ++ '*' :: '/' :: behind) := by simp
    rw [htext, stripBlocks.eq_3, stripBlocks_blockComment hi, stripBlocks.eq_6]
    simp [Stretch.blanked, blankOut]
  | @openBlock inside hi =>
    have hnone : EndsNoBlock (inside ++ [].take 1) := by simpa using hi
    rw [List.cons_append, List.cons_append, stripBlocks.eq_3, stripBlocks_blockComment hnone,
      stripBlocks_nil, stripBlocks_nil]
    simp [Stretch.blanked, blankOut]

/-! ### Reading a source -/

theorem Lexeme.ne_nil (h : Lexeme region text behind) : text ≠ [] := by
  cases h <;> exact List.cons_ne_nil _ _

theorem exists_literalEnd (quote : Char) : ∀ cs : List Char, ∃ inside ending behind,
    cs = inside ++ (ending ++ behind) ∧ Inside quote inside ∧ LiteralEnd quote ending behind
  | [] => ⟨[], [], [], rfl, .nil, .source⟩
  | c :: rest => by
    by_cases hquote : c = quote
    · exact ⟨[], [quote], rest, by rw [hquote]; rfl, .nil, .closed⟩
    · by_cases hraw : c = '\n' ∨ c = '\\' → quote = '\x60'
      · obtain ⟨inside, ending, behind, he, hi, hl⟩ := exists_literalEnd quote rest
        exact ⟨c :: inside, ending, behind, by rw [he]; rfl, .cons hquote hraw hi, hl⟩
      · rw [Classical.not_imp] at hraw
        obtain ⟨rfl | rfl, hraw⟩ := hraw
        · exact ⟨[], ['\n'], rest, rfl, .nil, .line hraw⟩
        · match rest with
          | [] => exact ⟨[], ['\\'], [], rfl, .nil, .backslash hraw⟩
          | d :: rest =>
            obtain ⟨inside, ending, behind, he, hi, hl⟩ := exists_literalEnd quote rest
            exact ⟨'\\' :: d :: inside, ending, behind, by rw [he]; rfl, .escape hraw hi, hl⟩

theorem exists_blockEnd (cs : List Char) : EndsNoBlock cs ∨
    ∃ inside behind, cs = inside ++ '*' :: '/' :: behind ∧ EndsNoBlock (inside ++ ['*']) := by
  have hshort (c : Char) : EndsNoBlock [c] := by
    intro h
    have hlength := h.length_le
    simp at hlength
  induction cs with
  | nil => exact .inl (by simp [EndsNoBlock])
  | cons c rest ih =>
    by_cases hend : ['*', '/'] <+: c :: rest
    · obtain ⟨behind, he⟩ := hend
      exact .inr ⟨[], behind, he.symm, hshort '*'⟩
    · have hcons {more : List Char} (hmore : EndsNoBlock more) (hp : ¬ ['*', '/'] <+: c :: more) :
          EndsNoBlock (c :: more) := by
        intro h
        rcases List.infix_cons_iff.1 h with h | h
        · exact hp h
        · exact hmore h
      rcases ih with hnone | ⟨inside, behind, rfl, hi⟩
      · exact .inl (hcons hnone hend)
      · refine .inr ⟨c :: inside, behind, rfl, hcons hi ?_⟩
        intro h
        apply hend
        refine h.trans ?_
        rw [List.cons_prefix_cons]
        exact ⟨rfl, '/' :: behind, by simp⟩

/-- Every source that is not empty starts with some stretch. -/
theorem exists_lexeme (c : Char) (rest : List Char) :
    ∃ region text behind, c :: rest = text ++ behind ∧ Lexeme region text behind := by
  by_cases hq : isQuote c = true
  · obtain ⟨inside, ending, behind, rfl, hi, he⟩ := exists_literalEnd c rest
    exact ⟨.literal c, c :: (inside ++ ending), behind, by simp, .literal hq hi he⟩
  · rw [Bool.not_eq_true] at hq
    by_cases hline : ['/', '/'] <+: c :: rest
    · obtain ⟨more, he⟩ := hline
      refine ⟨.lineComment, '/' :: '/' :: more.takeWhile (· != '\n'), more.dropWhile (· != '\n'), ?_,
        .lineComment ?_ ?_⟩
      · rw [List.cons_append, List.cons_append, List.takeWhile_append_dropWhile, ← he]
        rfl
      · intro hbreak
        have hne := List.all_eq_true.1 List.all_takeWhile '\n' hbreak
        revert hne
        decide
      · intro d hd
        have hhead := List.head?_dropWhile_not (· != '\n') more
        rw [hd] at hhead
        simpa using hhead
    · by_cases hblock : ['/', '*'] <+: c :: rest
      · obtain ⟨more, he⟩ := hblock
        rw [← he]
        rcases exists_blockEnd more with hnone | ⟨inside, behind, rfl, hi⟩
        · exact ⟨.blockComment, '/' :: '*' :: more, [], by simp, .openBlock hnone⟩
        · exact ⟨.blockComment, '/' :: '*' :: (inside ++ ['*', '/']), behind, by simp, .block hi⟩
      · exact ⟨.code, [c], rest, rfl, .code hq hline hblock⟩

theorem exists_reads (source : List Char) : ∃ stretches, Reads source stretches := by
  induction hlength : source.length using Nat.strongRecOn generalizing source with
  | ind n ih =>
    cases source with
    | nil => exact ⟨[], .nil⟩
    | cons c rest =>
      obtain ⟨region, text, behind, he, hlex⟩ := exists_lexeme c rest
      have hpos := List.length_pos_iff.2 hlex.ne_nil
      have hsum := congrArg List.length he
      rw [List.length_append] at hsum
      obtain ⟨stretches, hreads⟩ := ih behind.length (by omega) behind rfl
      rw [he]
      exact ⟨_, .cons hlex hreads⟩

namespace Reads

variable {stretches before after : List Stretch} {s : Stretch}

theorem text_eq (h : Reads source stretches) : stretches.flatMap Stretch.text = source := by
  induction h with
  | nil => rfl
  | cons _ _ ih => rw [List.flatMap_cons, ih]

theorem strip_eq (h : Reads source stretches) :
    stripBlockComments source = stretches.flatMap Stretch.blanked := by
  induction h with
  | nil => rfl
  | cons hlex _ ih =>
    rw [stripBlockComments, hlex.strip_eq, List.flatMap_cons]
    exact congrArg _ ih

/-- Each stretch ends where the ones behind it say. -/
theorem lexeme (h : Reads source (before ++ s :: after)) :
    Lexeme s.region s.text (after.flatMap Stretch.text) := by
  induction before generalizing source with
  | nil =>
    cases h with
    | cons hlex hrest => rwa [hrest.text_eq]
  | cons first before ih =>
    cases h with
    | cons _ hrest => exact ih hrest

end Reads

theorem length_blanked (s : Stretch) : s.blanked.length = s.text.length := by
  unfold Stretch.blanked
  split
  · rw [List.length_map]
  · rfl

theorem Lexeme.eq_blockComment (h : Lexeme region text behind)
    (hopen : ['/', '*'] <+: text ++ behind) : region = .blockComment := by
  cases h with
  | code _ _ hb => exact absurd hopen hb
  | literal hq _ _ =>
    rw [List.cons_append, List.cons_prefix_cons] at hopen
    rw [← hopen.1] at hq
    cases hq
  | lineComment _ _ =>
    obtain ⟨more, he⟩ := hopen
    cases he
  | block _ => rfl
  | openBlock _ => rfl

theorem Lexeme.prefix_blockComment (h : Lexeme region text behind) (hr : region = .blockComment) :
    ['/', '*'] <+: text := by
  cases h <;> cases hr <;> exact ⟨_, rfl⟩

theorem Stretch.blanked_ne {s : Stretch} (hs : s.region = .blockComment)
    (hopen : ['/', '*'] <+: s.text) : s.blanked ≠ s.text := by
  obtain ⟨more, he⟩ := hopen
  rw [blanked, if_pos hs, ← he]
  simp [blankOut]

theorem stripBlockComments_eq_self_iff (source : List Char) :
    stripBlockComments source = source ↔ ¬ OpensBlock source := by
  constructor
  · rintro hsame ⟨before, after, hreads, hopen⟩
    have hstrip := hreads.strip_eq
    rw [hsame, ← hreads.text_eq, List.flatMap_append, List.flatMap_append] at hstrip
    have hlength : (before.flatMap Stretch.text).length =
        (before.flatMap Stretch.blanked).length := by
      simp only [List.length_flatMap, length_blanked]
    have hrest := (List.append_inj hstrip hlength).2
    cases after with
    | nil => exact absurd hopen (by simp)
    | cons s after =>
      have hlex := hreads.lexeme
      rw [List.flatMap_cons] at hopen
      rw [List.flatMap_cons, List.flatMap_cons] at hrest
      have hkept := (List.append_inj hrest (length_blanked s).symm).1
      have hblock := hlex.eq_blockComment hopen
      exact Stretch.blanked_ne hblock (hlex.prefix_blockComment hblock) hkept.symm
  · intro hnone
    obtain ⟨stretches, hreads⟩ := exists_reads source
    have hkept : ∀ s ∈ stretches, s.blanked = s.text := by
      intro s hs
      unfold Stretch.blanked
      rw [if_neg]
      intro hblock
      obtain ⟨before, after, rfl⟩ := List.append_of_mem hs
      apply hnone
      refine ⟨before, s :: after, hreads, ?_⟩
      rw [List.flatMap_cons]
      exact (hreads.lexeme.prefix_blockComment hblock).trans (List.prefix_append _ _)
    rw [hreads.strip_eq, List.flatMap_def, List.map_congr_left hkept, ← List.flatMap_def,
      hreads.text_eq]

/-- Blanking out the block comments of a source keeps its length and its line breaks, and every other
character stays or gives way to a blank; those that do are the characters of the block comments the
language reads, so that a source in which none starts stays as it is.  A second pass changes nothing,
and scans find the same in the source before and after. -/
theorem stripBlockComments_isBlanking (source : List Char) :
    IsBlankingOf source (stripBlockComments source) ∧
    (∃ stretches, Reads source stretches ∧
      stripBlockComments source = stretches.flatMap Stretch.blanked) ∧
    (stripBlockComments source = source ↔ ¬ OpensBlock source) ∧
    stripBlockComments (stripBlockComments source) = stripBlockComments source ∧
    ∀ s : Scanner, s.scan (String.ofList (stripBlockComments source)) =
      s.scan (String.ofList source) := by
  obtain ⟨stretches, hreads⟩ := exists_reads source
  exact ⟨isBlankingOf_stripBlockComments source, ⟨stretches, hreads, hreads.strip_eq⟩,
    stripBlockComments_eq_self_iff source, stripBlockComments_stripBlockComments source,
    fun s => s.scan_stripBlockComments source⟩

example : stripBlockComments "a \"/*\" 'b /*\n*/ /* c\nd */ e // /* f\n/* g".toList =
    "a \"/*\" 'b /*\n*/     \n     e // /* f\n    ".toList := by
  decide +kernel

end StructLayout.Source
