import StructLayout.Proofs.Source.Compaction
import StructLayout.Proofs.Source.DeclaredTypes
import StructLayout.Proofs.Source.MarkedStructs
import StructLayout.Proofs.Source.WrittenFile

/-!
# Raw literals over several lines

A raw literal may go on over several lines, and no text in it is code.  Block comments are looked for
with this in mind, over the whole of a source.  The lines are then read one by one, each of them as
code from its start, so that the lines of a literal below its first one can declare types, open a
group or carry the marker of exempt structs.

The lines of a literal are silent if they do none of this (`Scanner.IsSilent`).  The main statement is
`scan_rawLiteral`: whatever stands behind a literal, the same types are declared as behind blanks in
its place, exactly if its lines are silent.  A literal with a type declaration on a line of its own is
not (`rawLiteral_declares`).
-/

namespace StructLayout.Source

/-! ### Literals in a source -/

/-- The declaration of a constant up to its value. -/
def constFront : List Char := ['c', 'o', 'n', 's', 't', ' ', 's', ' ', '=', ' ']

def literalText (raw behind : List Char) : List Char :=
  "package p".toList ++ '\n' :: '\n' ::
    (constFront ++ '\x60' :: (raw ++ '\x60' :: '\n' :: behind))

def literalSource (raw behind : List Char) : String := String.ofList (literalText raw behind)

structure SameDeclarations (a b : Declarations) : Prop where
  structs : a.structs = b.structs
  localTypes : a.localTypes = b.localTypes
  genericTypes : a.genericTypes = b.genericTypes

/-- The lines of a raw literal below its first one, with the backtick at its end. -/
def linesBelow (raw : List Char) : List (List Char) := (Text.splitLines (raw ++ ['\x60'])).tail

def codeOf (text : List Char) : List Char := Text.trim (splitComment text).1

/-- Whether a text declares a type where a type specification is expected: a name without anything
behind it declares nothing. -/
def specifies (text : List Char) : Bool :=
  (TypeSpec.ofText? text).any fun spec =>
    !spec.typeText.isEmpty || !(typeParamNames spec.params).isEmpty

/-- Whether lines of code declare nothing and leave no group open, given whether one is open in front
of them. -/
def isSilentFrom (inGroup : Bool) : List (List Char) → Bool
  | [] => !inGroup
  | code :: rest =>
    if Scanner.opensGroup code then isSilentFrom true rest
    else if inGroup && code = [')'] then isSilentFrom false rest
    else !(Scanner.specText? inGroup code).any specifies && isSilentFrom inGroup rest

/-- The lines of a raw literal below its first one declare nothing, leave no group open and do not end
in comments with the marker; an empty marker is found everywhere anyway. -/
structure Scanner.IsSilent (s : Scanner) (raw : List Char) : Prop where
  lines : isSilentFrom false ((linesBelow raw).map codeOf) = true
  doc : s.marker = "" ∨ s.marks ((docAbove (linesBelow raw)).map Text.trim) = false

variable {text xs ys cs : List Char} {c : Char}

/-! ### Lines of a text -/

theorem splitLines_append_break (xs ys : List Char) :
    Text.splitLines (xs ++ '\n' :: ys) = Text.splitLines xs ++ Text.splitLines ys := by
  induction xs with
  | nil => rfl
  | cons c xs ih =>
    rw [List.cons_append, Text.splitLines, Text.splitLines, ih]
    split
    · rfl
    · cases hs : Text.splitLines xs with
      | nil => exact absurd hs (Text.splitLines_ne_nil xs)
      | cons first rest => rfl

/-- Without a line break, text in front of other text is part of the first line. -/
theorem exists_splitLines_append (h : '\n' ∉ xs) (ys : List Char) :
    ∃ first, Text.splitLines (xs ++ ys) = (xs ++ first) :: (Text.splitLines ys).tail := by
  induction xs with
  | nil =>
    cases hs : Text.splitLines ys with
    | nil => exact absurd hs (Text.splitLines_ne_nil ys)
    | cons first rest => exact ⟨first, hs⟩
  | cons c xs ih =>
    obtain ⟨first, ih⟩ := ih fun hm => h (List.mem_cons_of_mem c hm)
    have hc : ¬ c = '\n' := fun he => h (by simp [he])
    exact ⟨first, by rw [List.cons_append, Text.splitLines, if_neg hc, ih]; rfl⟩

theorem length_linesBelow (raw : List Char) : (linesBelow raw).length = raw.count '\n' := by
  rw [linesBelow, List.length_tail, Text.length_splitLines, List.count_append]
  rfl

theorem mem_of_mem_splitLines {line : List Char} (hl : line ∈ Text.splitLines cs) (hc : c ∈ line) :
    c ∈ cs ∧ c ≠ '\n' := by
  induction cs generalizing line with
  | nil =>
    rw [Text.splitLines, List.mem_singleton] at hl
    rw [hl] at hc
    cases hc
  | cons d cs ih =>
    rw [Text.splitLines] at hl
    split at hl
    · rcases List.mem_cons.1 hl with rfl | hl
      · cases hc
      · exact (ih hl hc).imp (List.mem_cons_of_mem d) id
    · next hd =>
      cases hs : Text.splitLines cs with
      | nil => exact absurd hs (Text.splitLines_ne_nil cs)
      | cons first rest =>
        rw [hs, Text.consHead] at hl
        rw [hs] at ih
        rcases List.mem_cons.1 hl with rfl | hl
        · rcases List.mem_cons.1 hc with rfl | hc
          · exact ⟨List.mem_cons_self, hd⟩
          · exact (ih List.mem_cons_self hc).imp (List.mem_cons_of_mem d) id
        · exact (ih (List.mem_cons_of_mem first hl) hc).imp (List.mem_cons_of_mem d) id

/-! ### The lines of the source -/

theorem linesFrom_append (number : Nat) (texts more : List (List Char)) :
    linesFrom number (texts ++ more) =
      linesFrom number texts ++ linesFrom (number + texts.length) more := by
  simp [linesFrom, List.zipIdx_append]

theorem isCode_package : IsCode "package p".toList := .of_plain (by decide)

theorem isCode_constFront : IsCode constFront := .of_plain (by decide)

theorem stripBlockComments_literalText {raw : List Char} (h : '\x60' ∉ raw) (behind : List Char) :
    stripBlockComments (literalText raw behind) =
      literalText raw (stripBlockComments behind) := by
  have hcode : codeNext '\n' = .code := rfl
  have hliteral : codeNext '\x60' = .literal '\x60' := rfl
  have hbreak (cs : List Char) : stripBlocks .code ('\n' :: cs) = '\n' :: stripBlocks .code cs := by
    rw [stripBlocks_code_cons (by decide), hcode]
  have hquote (cs : List Char) :
      stripBlocks .code ('\x60' :: cs) = '\x60' :: stripBlocks (.literal '\x60') cs := by
    rw [stripBlocks_code_cons (by decide), hliteral]
  unfold stripBlockComments literalText
  simp only [isCode_package.stripBlocks_append, hbreak, isCode_constFront.stripBlocks_append, hquote,
    stripBlocks_raw h]

/-- The line on which the literal starts declares nothing. -/
theorem exists_code_constLine (number : Nat) (first : List Char) :
    ∃ rest, (Line.ofText number (constFront ++ '\x60' :: first)).code = 'c' :: rest := by
  have hcut : (cutLineComment .code (constFront ++ '\x60' :: first)).1 =
      constFront ++ '\x60' :: (cutLineComment (Mode.code.next '\x60') first).1 := by
    rw [isCode_constFront.cutLineComment_append,
      cutLineComment.eq_3 _ _ _ fun _ _ hc => absurd hc (by decide)]
  have hdrop (cs : List Char) :
      dropBlocks (constFront ++ '\x60' :: cs) = constFront ++ dropBlocks ('\x60' :: cs) :=
    dropBlocks_of_not_infix (by decide) (by decide) cs
  have hcode : (Line.ofText number (constFront ++ '\x60' :: first)).code =
      Text.trim (constFront ++ dropBlocks
        ('\x60' :: (cutLineComment (Mode.code.next '\x60') first).1)) := by
    rw [← hdrop, ← hcut, ← Text.trim_trimEnd]
    rfl
  rw [hcode, constFront, List.cons_append, Text.trim, Text.trimStart_eq_self (by decide),
    Text.trimEnd_cons (by decide)]
  exact ⟨_, rfl⟩

theorem exists_splitLines_literalText (raw behind : List Char) :
    ∃ first, Text.splitLines (literalText raw behind) =
      "package p".toList :: [] :: (constFront ++ '\x60' :: first) ::
        (linesBelow raw ++ Text.splitLines behind) := by
  have hfront : '\n' ∉ constFront ++ ['\x60'] := by decide
  obtain ⟨first, hfirst⟩ := exists_splitLines_append hfront (raw ++ ['\x60'])
  have hblank (cs : List Char) : Text.splitLines ('\n' :: cs) = [] :: Text.splitLines cs := rfl
  have hend : constFront ++ '\x60' :: (raw ++ '\x60' :: '\n' :: behind) =
      (constFront ++ ['\x60'] ++ (raw ++ ['\x60'])) ++ '\n' :: behind := by simp
  have hone : constFront ++ '\x60' :: first = constFront ++ ['\x60'] ++ first := by simp
  refine ⟨first, ?_⟩
  unfold literalText
  rw [Text.splitLines_append isCode_package.notMem_break, hblank, hend, splitLines_append_break,
    hfirst, List.cons_append, hone, linesBelow]

def frontDeclarations : Declarations := { Declarations.none with package := "p" }

theorem isEmpty_package_front : frontDeclarations.package.isEmpty = false := by decide

theorem Scanner.scan_literalSource (s : Scanner) {raw : List Char} (h : '\x60' ∉ raw)
    (behind : List Char) :
    s.scan (literalSource raw behind) =
      s.scanLines false [] frontDeclarations (linesFrom 3 (linesBelow raw) ++
        linesFrom (3 + raw.count '\n') (Text.splitLines (stripBlockComments behind))) := by
  obtain ⟨first, hfirst⟩ := exists_splitLines_literalText raw (stripBlockComments behind)
  have hlines : sourceLines (literalSource raw behind).toList =
      linesFrom 0 (Text.splitLines (literalText raw (stripBlockComments behind))) := by
    rw [literalSource, String.toList_ofList, sourceLines, stripBlockComments_literalText h, linesFrom]
  have hpackage : (Line.ofText 1 "package p".toList).code = "package p".toList := by decide +kernel
  have hname : packageName? "package p".toList = some "p" := by decide +kernel
  have hblank : (Line.ofText 2 []).code.isEmpty = true := by decide +kernel
  obtain ⟨rest, hcode⟩ := exists_code_constLine 3 first
  rw [Scanner.scan, hlines, hfirst, linesFrom_cons, linesFrom_cons, linesFrom_cons, linesFrom_append,
    length_linesBelow]
  rw [s.scanLines_package rfl (by rw [hpackage]; rfl) (by rw [hpackage, hname])]
  rw [scanLines, if_pos hblank, s.scanLines_code rfl (by rw [hcode]; rfl), hcode]
  rfl

/-! ### What a specification declares -/

/-- A type specification to put behind a literal. -/
def probeLine : List Char := ['x', ' ', 'i', 'n', 't']

/-- The underlying type of a declaration is empty only if nothing stands behind the name. -/
theorem underlyingType_ne_empty (h : HasInk text) (parts : List (List Char)) :
    (underlyingType (text :: parts)).isEmpty = false := by
  obtain ⟨tail, ht⟩ := intercalate_cons ['\n'] text parts
  have hink : HasInk (['\n'].intercalate (text :: parts)) := by
    obtain ⟨c, hc, hb⟩ := h
    exact ⟨c, by rw [ht]; exact List.mem_append_left tail hc, hb⟩
  obtain ⟨c, hc, -⟩ := hink.compact
  unfold underlyingType
  dsimp only
  split
  · decide
  · rw [Bool.eq_false_iff]
    intro he
    rw [String.isEmpty_iff, String.ofList_eq_empty_iff] at he
    rw [he] at hc
    cases hc

theorem hasInk_of_trimmed (hne : text ≠ []) (ht : Text.trim text = text) : HasInk text := by
  cases text with
  | nil => exact absurd rfl hne
  | cons c text => exact .head (Text.isBlank_of_trim_eq_cons ht)

theorem TypeSpec.trim_typeText {spec : TypeSpec} (h : TypeSpec.ofText? text = some spec) :
    Text.trim spec.typeText = spec.typeText := by
  obtain ⟨r, -, rfl⟩ := Option.map_eq_some_iff.1 h
  exact Text.trim_trim _

namespace Scanner

variable (s : Scanner) {inGroup : Bool} {doc : List (List Char)} {found : Declarations}

theorem exists_mem_typeNames_readSpec (h : specifies text = true) (doc : List (List Char))
    (line : Line) (rest : List Line) :
    ∃ name, name ∈ (s.readSpec text line doc rest).1.typeNames := by
  obtain ⟨spec, hspec, hdeclares⟩ : ∃ spec, TypeSpec.ofText? text = some spec ∧
      (!spec.typeText.isEmpty || !(typeParamNames spec.params).isEmpty) = true := by
    rwa [specifies, Option.any_eq_true] at h
  refine ⟨spec.name, ?_⟩
  rw [readSpec, hspec]
  dsimp only
  split
  · unfold readStruct
    dsimp only
    split <;>
    · simp only [declareStruct, Declarations.typeNames]
      split <;> simp
  · have hunderlying (hp : (typeParamNames spec.params).isEmpty = true) (parts : List (List Char)) :
        (underlyingType (spec.typeText :: parts)).isEmpty = false := by
      rw [hp, Bool.not_true, Bool.or_false, Bool.not_eq_true', ← Bool.not_eq_true,
        List.isEmpty_iff] at hdeclares
      exact underlyingType_ne_empty (hasInk_of_trimmed hdeclares (TypeSpec.trim_typeText hspec)) _
    simp only [declareType, Declarations.typeNames]
    cases hp : (typeParamNames spec.params).isEmpty with
    | true => simp [hunderlying hp]
    | false => simp

theorem readSpec_of_not_specifies (h : specifies text = false) (line : Line) (rest : List Line) :
    s.readSpec text line doc rest = (.none, rest) := by
  unfold readSpec
  cases hspec : TypeSpec.ofText? text with
  | none => rfl
  | some spec =>
    rw [specifies, hspec, Option.any_some, Bool.or_eq_false_iff, Bool.not_eq_false',
      Bool.not_eq_false', List.isEmpty_iff] at h
    obtain ⟨hempty, hparams⟩ := h
    have hbody : structBodyText? [] = none := by decide
    have hclosed : collectType (depthDelta []) rest = ([], rest) := collectType_of_closed (by decide) _
    have hnone : (underlyingType [[]]).isEmpty = true := by decide
    dsimp only
    rw [hempty, hbody]
    dsimp only
    rw [hclosed, declareType]
    simp [hparams, hnone, Declarations.none]

/-! ### Silent lines -/

/-- What a line behind the package clause can do: specify no type, so that the scan goes on with
nothing found and the comments directly above, or declare something. -/
theorem scanLines_ofText_cases (hp : found.package.isEmpty = false) (inGroup : Bool)
    (doc : List (List Char)) (number : Nat) (text : List Char) (rest : List Line) :
    (∃ inGroup' doc',
      (∀ codes, isSilentFrom inGroup (codeOf text :: codes) = isSilentFrom inGroup' codes) ∧
      (∀ above, doc = (docAbove above).map Text.trim →
        doc' = (docAbove (above ++ [text])).map Text.trim) ∧
      s.scanLines inGroup doc found (Line.ofText number text :: rest) =
        s.scanLines inGroup' doc' found rest) ∨
    ((∀ codes, isSilentFrom inGroup (codeOf text :: codes) = false) ∧
      ∃ name, name ∈ (s.scanLines inGroup doc found
        (Line.ofText number text :: rest)).typeNames) := by
  have hcode : (Line.ofText number text).code = codeOf text := rfl
  cases he : (codeOf text).isEmpty with
  | true =>
    refine .inl ⟨inGroup, docBehind doc (Line.ofText number text), fun codes => ?_, ?_, ?_⟩
    · rw [List.isEmpty_iff.1 he]
      cases inGroup <;> simp [isSilentFrom, opensGroup, specText?, Text.afterWord?, specifies,
        TypeSpec.ofText?, identifier?]
    · rintro above rfl
      exact docBehind_ofText above
    · rw [scanLines, hcode, if_pos he]
      rfl
  | false =>
    have hne : (Line.ofText number text).code ≠ [] := by
      rw [hcode]
      intro hnil
      rw [hnil] at he
      cases he
    have hdoc (above : List (List Char)) :
        [] = (docAbove (above ++ [text])).map Text.trim := by
      rw [docAbove_of_code hne]
      rfl
    rw [s.scanLines_code hp (by rw [hcode]; exact he), hcode]
    simp only [isSilentFrom]
    split
    · exact .inl ⟨true, [], fun _ => rfl, fun above _ => hdoc above, rfl⟩
    · split
      · exact .inl ⟨false, [], fun _ => rfl, fun above _ => hdoc above, rfl⟩
      · cases specText? inGroup (codeOf text) with
        | none =>
          exact .inl ⟨inGroup, [], fun _ => rfl, fun above _ => hdoc above, rfl⟩
        | some spec =>
          rw [Option.any_some]
          dsimp only
          cases hspec : specifies spec with
          | true =>
            obtain ⟨name, hn⟩ := s.exists_mem_typeNames_readSpec hspec doc
              (Line.ofText number text) rest
            exact .inr ⟨fun _ => rfl, name, s.mem_typeNames_scanLines
              (Declarations.mem_typeNames_append.2 (.inr hn)) _⟩
          | false =>
            rw [s.readSpec_of_not_specifies hspec, Declarations.append_none]
            exact .inl ⟨inGroup, [], fun _ => rfl, fun above _ => hdoc above, rfl⟩

theorem scanLines_silent {texts : List (List Char)}
    (h : isSilentFrom inGroup (texts.map codeOf) = true) (hp : found.package.isEmpty = false)
    (above : List (List Char)) (number : Nat) (rest : List Line) :
    s.scanLines inGroup ((docAbove above).map Text.trim) found (linesFrom number texts ++ rest) =
      s.scanLines false ((docAbove (above ++ texts)).map Text.trim) found rest := by
  induction texts generalizing inGroup above number with
  | nil =>
    rw [List.map_nil, isSilentFrom, Bool.not_eq_true'] at h
    rw [h, List.append_nil]
    rfl
  | cons text texts ih =>
    have hrest : above ++ text :: texts = above ++ [text] ++ texts := by simp
    rw [linesFrom_cons, List.cons_append, hrest]
    rw [List.map_cons] at h
    obtain ⟨inGroup', doc', hsilent, hdoc, hscan⟩ | ⟨hloud, -⟩ :=
      s.scanLines_ofText_cases hp inGroup ((docAbove above).map Text.trim) (number + 1) text
        (linesFrom (number + 1) texts ++ rest)
    · rw [hscan, hdoc above rfl]
      exact ih ((hsilent _).symm.trans h) (above ++ [text]) (number + 1)
    · rw [hloud] at h
      cases h

/-- Lines that are not silent, with a name and a type behind them, declare something: what specifies a
type does so itself, and in a group that is left open the line behind does. -/
theorem exists_mem_typeNames_scanLines {texts : List (List Char)}
    (h : isSilentFrom inGroup (texts.map codeOf) = false) (hp : found.package.isEmpty = false)
    (doc : List (List Char)) (number behind : Nat) :
    ∃ name, name ∈ (s.scanLines inGroup doc found
      (linesFrom number texts ++ linesFrom behind [probeLine])).typeNames := by
  induction texts generalizing inGroup doc number with
  | nil =>
    rw [List.map_nil, isSilentFrom, Bool.not_eq_false'] at h
    subst h
    obtain ⟨inGroup', doc', hsilent, -, -⟩ | ⟨-, hname⟩ :=
      s.scanLines_ofText_cases hp true doc (behind + 1) probeLine []
    · -- some lines behind would be silent, but none are behind the type
      cases inGroup' with
      | false => exact absurd (hsilent []) (by decide +kernel)
      | true => exact absurd (hsilent [[')']]) (by decide +kernel)
    · exact hname
  | cons text texts ih =>
    rw [linesFrom_cons, List.cons_append]
    rw [List.map_cons] at h
    obtain ⟨inGroup', doc', hsilent, -, hscan⟩ | ⟨-, hname⟩ :=
      s.scanLines_ofText_cases hp inGroup doc (number + 1) text
        (linesFrom (number + 1) texts ++ linesFrom behind [probeLine])
    · rw [hscan]
      exact ih ((hsilent _).symm.trans h) doc' (number + 1)
    · exact hname

/-! ### Comments above -/

/-- Whether the marker occurs above a line or on it is the same with some comments above as with
others. -/
def MarksAlike (doc doc' : List (List Char)) : Prop :=
  ∀ comment, (s.marks doc || s.marks [comment]) = (s.marks doc' || s.marks [comment])

variable {s}

theorem MarksAlike.cons {doc' : List (List Char)} (h : s.MarksAlike doc doc')
    (comment : List Char) : s.MarksAlike (comment :: doc) (comment :: doc') := by
  intro other
  have hc (docs : List (List Char)) :
      s.marks (comment :: docs) = (s.marks [comment] || s.marks docs) := by
    simp [marks]
  rw [hc doc, hc doc', Bool.or_assoc, Bool.or_assoc, h other]

theorem MarksAlike.readSpec_eq {doc' : List (List Char)} (h : s.MarksAlike doc doc')
    (text : List Char) (line : Line) (rest : List Line) :
    s.readSpec text line doc rest = s.readSpec text line doc' rest := by
  unfold readSpec readStruct
  rw [h line.comment]

theorem MarksAlike.scanLines_eq {doc' : List (List Char)} (h : s.MarksAlike doc doc')
    (inGroup : Bool) (found : Declarations) (lines : List Line) :
    s.scanLines inGroup doc found lines = s.scanLines inGroup doc' found lines := by
  induction lines generalizing doc doc' with
  | nil => rw [scanLines, scanLines]
  | cons line rest ih =>
    rw [scanLines, scanLines]
    split
    · dsimp only
      split
      · exact ih (h.cons line.comment)
      · rfl
    · simp only [h.readSpec_eq]

/-- Unmarked comments above mark as none do. -/
theorem marksAlike_nil (h : s.marker = "" ∨ s.marks doc = false) : s.MarksAlike doc [] := by
  intro comment
  rcases h with hm | hd
  · have hempty : s.marks [comment] = true := by
      rw [marks_iff]
      exact ⟨comment, List.mem_singleton_self _, by rw [hm]; exact List.nil_infix⟩
    rw [hempty, Bool.or_true, Bool.or_true]
  · rw [hd]
    rfl

/-- Without a comment on the line, only unmarked comments above mark as none do. -/
theorem unmarked_of_marks_or_eq (h : (s.marks doc || s.marks [[]]) = s.marks [[]]) :
    s.marker = "" ∨ s.marks doc = false := by
  by_cases hm : s.marker = ""
  · exact .inl hm
  · have hfree : s.marks [[]] = false := by
      rw [Bool.eq_false_iff, Ne, marks_iff]
      rintro ⟨comment, hc, hi⟩
      rw [List.mem_singleton.1 hc, List.infix_nil, String.toList_eq_nil_iff] at hi
      exact hm hi
    rw [hfree, Bool.or_false] at h
    exact .inr h

end Scanner

/-! ### Blanks in place of a literal -/

theorem cutLineComment_of_notMem (h : '/' ∉ cs) (m : Mode) : cutLineComment m cs = (cs, none) := by
  induction cs generalizing m with
  | nil => rfl
  | cons c cs ih =>
    rw [cutLineComment.eq_3 m c cs fun _ _ hc _ => h (by simp [hc]),
      ih fun hm => h (List.mem_cons_of_mem c hm)]

theorem dropBlocks_of_notMem (h : '/' ∉ cs) : dropBlocks cs = cs := by
  induction cs with
  | nil => exact dropBlocks.eq_3
  | cons c cs ih =>
    rw [dropBlocks.eq_2 c cs fun _ hc _ => h (by simp [hc]),
      ih fun hm => h (List.mem_cons_of_mem c hm)]

/-- Code without the first letter of the keyword declares nothing. -/
theorem isSilentFrom_of_notMem {codes : List (List Char)} (h : ∀ code ∈ codes, 't' ∉ code) :
    isSilentFrom false codes = true := by
  induction codes with
  | nil => rfl
  | cons code codes ih =>
    have hfree := h code List.mem_cons_self
    have htype : "type".toList.isPrefixOf code = false := by
      rw [Bool.eq_false_iff]
      intro hp
      exact hfree ((List.isPrefixOf_iff_prefix.1 hp).subset (by decide))
    rw [isSilentFrom, Scanner.opensGroup, htype, Scanner.specText?, Text.afterWord?, htype]
    exact ih fun other ho => h other (List.mem_cons_of_mem code ho)

/-- Lines without a slash end in no comments. -/
theorem docAbove_of_notMem {lines : List (List Char)} (h : ∀ line ∈ lines, '/' ∉ line) :
    docAbove lines = [] := by
  rcases List.eq_nil_or_concat lines with rfl | ⟨above, line, rfl⟩
  · rfl
  · rw [List.concat_eq_append] at h ⊢
    rw [docAbove_concat]
    cases hc : ownComment? line with
    | none => rfl
    | some comment =>
      obtain ⟨gap, -, rfl⟩ := ownComment?_eq_some hc
      exact absurd (by simp) (h _ (List.mem_append_right above (List.mem_singleton_self _)))

/-- The lines of blanks in place of a literal have nothing but blanks and the backtick. -/
theorem mem_linesBelow_blankOut {raw line : List Char} (hl : line ∈ linesBelow (raw.map blankOut))
    (hc : c ∈ line) : c = ' ' ∨ c = '\x60' := by
  obtain ⟨hm, hn⟩ := mem_of_mem_splitLines (List.mem_of_mem_tail hl) hc
  rcases List.mem_append.1 hm with hm | hm
  · obtain ⟨d, -, rfl⟩ := List.mem_map.1 hm
    unfold blankOut at hn ⊢
    split at hn
    · exact absurd rfl hn
    · next hd => exact .inl (if_neg hd)
  · exact .inr (List.mem_singleton.1 hm)

theorem notMem_linesBelow_blankOut {raw line : List Char}
    (hl : line ∈ linesBelow (raw.map blankOut)) : '/' ∉ line := fun hm =>
  (mem_linesBelow_blankOut hl hm).elim (by decide) (by decide)

/-- Blanks in place of a literal declare nothing. -/
theorem isSilentFrom_blankOut (raw : List Char) :
    isSilentFrom false ((linesBelow (raw.map blankOut)).map codeOf) = true := by
  refine isSilentFrom_of_notMem fun code hm => ?_
  obtain ⟨line, hl, rfl⟩ := List.mem_map.1 hm
  have hslash := notMem_linesBelow_blankOut hl
  rw [codeOf, splitComment, cutLineComment_of_notMem hslash]
  dsimp only
  rw [dropBlocks_of_notMem hslash, Text.trim_trimEnd]
  intro ht
  exact (mem_linesBelow_blankOut hl ((Text.trim_sublist line).subset ht)).elim (by decide) (by decide)

/-! ### The same declarations -/

theorem notMem_blankOut (raw : List Char) : '\x60' ∉ raw.map blankOut := by
  intro hm
  obtain ⟨c, hc, he⟩ := List.mem_map.1 hm
  unfold blankOut at he
  split at he
  · exact absurd he (by decide)
  · exact absurd he (by decide)

theorem count_blankOut (raw : List Char) : (raw.map blankOut).count '\n' = raw.count '\n' := by
  induction raw with
  | nil => rfl
  | cons c raw ih =>
    rw [List.map_cons, List.count_cons, List.count_cons, ih]
    by_cases hc : c = '\n' <;> simp [blankOut, hc]

/-- A source with blanks in place of a literal is scanned from behind them as if nothing had been
above. -/
theorem Scanner.scan_blankOut (s : Scanner) (raw behind : List Char) :
    s.scan (literalSource (raw.map blankOut) behind) = s.scanLines false [] frontDeclarations
      (linesFrom (3 + raw.count '\n') (Text.splitLines (stripBlockComments behind))) := by
  rw [s.scan_literalSource (notMem_blankOut raw), count_blankOut]
  have hscan := s.scanLines_silent (isSilentFrom_blankOut raw) isEmpty_package_front [] 3
    (linesFrom (3 + raw.count '\n') (Text.splitLines (stripBlockComments behind)))
  rw [List.nil_append, docAbove_of_notMem fun line hl => notMem_linesBelow_blankOut hl] at hscan
  exact hscan

/-- A struct to put behind a literal. -/
def probeStruct : List Char := "type x struct\x7b\x7d".toList

/-- The struct behind a literal is exempt exactly if the comments above it are marked, or any is. -/
theorem Scanner.ignored_probeStruct (s : Scanner) (doc : List (List Char)) (number : Nat) :
    (s.scanLines false doc frontDeclarations
      (linesFrom number [probeStruct])).structs.map StructDecl.ignored =
        [s.marks doc || s.marks [[]]] := by
  change (s.scanLines false doc frontDeclarations
    [Line.ofText (number + 1) probeStruct]).structs.map StructDecl.ignored = _
  have hcode : (Line.ofText (number + 1) probeStruct).code = probeStruct := by
    change codeOf probeStruct = probeStruct
    decide +kernel
  have hcomment : (Line.ofText (number + 1) probeStruct).comment = [] := by
    change (splitComment probeStruct).2 = []
    decide +kernel
  have hopens : opensGroup probeStruct = false := by decide +kernel
  have htext : specText? false probeStruct = some (probeStruct.drop 5) := by decide +kernel
  have hread : (s.readSpec (probeStruct.drop 5) (Line.ofText (number + 1) probeStruct) doc
      []).1.structs.map StructDecl.ignored =
        [s.marks doc || s.marks [(Line.ofText (number + 1) probeStruct).comment]] := rfl
  have hrest : (s.readSpec (probeStruct.drop 5) (Line.ofText (number + 1) probeStruct) doc
      []).2 = [] := rfl
  rw [s.scanLines_code rfl (by rw [hcode]; decide), hcode, hopens, htext, Bool.false_and,
    if_neg Bool.false_ne_true, if_neg Bool.false_ne_true]
  dsimp only
  rw [hrest, scanLines, ← hcomment, ← hread]
  rfl

/-- A literal behind which the same is declared has silent lines: a type behind it shows what they
declare and whether they leave a group open, and a struct behind it whether they hold the marker. -/
theorem Scanner.isSilent_of_sameDeclarations {s : Scanner} {raw : List Char} (h : '\x60' ∉ raw)
    (hsame : ∀ behind, SameDeclarations (s.scan (literalSource raw behind))
      (s.scan (literalSource (raw.map blankOut) behind))) : s.IsSilent raw := by
  have hlines : isSilentFrom false ((linesBelow raw).map codeOf) = true := by
    by_contra hloud
    rw [Bool.not_eq_true] at hloud
    obtain ⟨name, hname⟩ :=
      s.exists_mem_typeNames_scanLines hloud isEmpty_package_front [] 3 (3 + raw.count '\n')
    have hprobe : Text.splitLines (stripBlockComments probeLine) = [probeLine] := by decide +kernel
    have hpassed : isSilentFrom false ([probeLine].map codeOf) = true := by decide +kernel
    have hnone := s.scanLines_silent hpassed isEmpty_package_front [] (3 + raw.count '\n') []
    rw [List.append_nil, scanLines.eq_1] at hnone
    obtain ⟨-, hlocal, hgeneric⟩ := hsame probeLine
    rw [s.scan_blankOut, s.scan_literalSource h, hprobe] at hlocal hgeneric
    rw [Declarations.typeNames, hlocal, hgeneric] at hname
    change name ∈ (s.scanLines false ((docAbove []).map Text.trim) frontDeclarations
      (linesFrom (3 + raw.count '\n') [probeLine])).typeNames at hname
    rw [hnone] at hname
    cases hname
  refine ⟨hlines, ?_⟩
  have hprobe : Text.splitLines (stripBlockComments probeStruct) = [probeStruct] := by decide +kernel
  have hscan := s.scanLines_silent hlines isEmpty_package_front [] 3
    (linesFrom (3 + raw.count '\n') [probeStruct])
  have hstructs := congrArg (List.map StructDecl.ignored) (hsame probeStruct).structs
  rw [s.scan_blankOut, s.scan_literalSource h, hprobe, s.ignored_probeStruct] at hstructs
  change (s.scanLines false ((docAbove []).map Text.trim) frontDeclarations _).structs.map
    StructDecl.ignored = _ at hstructs
  rw [hscan, List.nil_append, s.ignored_probeStruct] at hstructs
  exact unmarked_of_marks_or_eq (List.singleton_inj.1 hstructs)

/-- Whatever stands behind a raw literal, the same structs, local types and generic types are declared
as behind blanks in its place, exactly if the lines of the literal below its first one are silent. -/
theorem scan_rawLiteral (s : Scanner) {raw : List Char} (h : '\x60' ∉ raw) :
    (∀ behind, SameDeclarations (s.scan (literalSource raw behind))
      (s.scan (literalSource (raw.map blankOut) behind))) ↔ s.IsSilent raw := by
  constructor
  · exact Scanner.isSilent_of_sameDeclarations h
  · intro hsilent behind
    have hscan := s.scanLines_silent hsilent.lines isEmpty_package_front [] 3
      (linesFrom (3 + raw.count '\n') (Text.splitLines (stripBlockComments behind)))
    rw [List.nil_append] at hscan
    have halike := Scanner.marksAlike_nil hsilent.doc
    have heq : s.scan (literalSource raw behind) =
        s.scan (literalSource (raw.map blankOut) behind) := by
      rw [s.scan_blankOut, s.scan_literalSource h]
      exact hscan.trans (halike.scanLines_eq _ _ _)
    rw [heq]
    exact ⟨rfl, rfl, rfl⟩

/-- A literal over three lines that declares nothing. -/
def usageText : List Char := "\nusage: align [flags]\n".toList

theorem scan_rawLiteral_usageText :
    '\x60' ∉ usageText ∧ ∀ behind, SameDeclarations (ignoreScanner.scan (literalSource usageText behind))
      (ignoreScanner.scan (literalSource (usageText.map blankOut) behind)) := by
  have hraw : '\x60' ∉ usageText := by decide
  have hsilent : ignoreScanner.IsSilent usageText :=
    { lines := by decide +kernel
      doc := .inr (by decide +kernel) }
  exact ⟨hraw, (scan_rawLiteral ignoreScanner hraw).2 hsilent⟩

/-- A literal that holds a declaration. -/
def exampleText : List Char := "\ntype T struct\x7b\x7d\n".toList

/-- The declaration in the literal counts as one of the source. -/
theorem rawLiteral_declares :
    '\x60' ∉ exampleText ∧
    ((ignoreScanner.scan (literalSource exampleText [])).structs.map StructDecl.name) = ["T"] ∧
    (ignoreScanner.scan (literalSource (exampleText.map blankOut) [])).structs = [] := by
  decide +kernel

end StructLayout.Source
