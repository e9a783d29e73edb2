import Mathlib.Data.List.TakeWhile
import StructLayout.Proofs.Source.StructHead

/-!
# Structs with the marker above them

A struct is exempt from checks if the marker occurs in the comment on its first line or in a comment
directly above.  The comments directly above a line are those of the unbroken block of lines that hold
nothing but a line comment (`commentBlock`), but only up to the nearest line of the block whose comment
is empty (`docAbove`): such a line ends the block for a scan.

The main statement is `scan_marked`: every struct of a source stands on a line of it and is exempt
exactly under this condition, and every declaration of a struct that a scan comes across is reported.
An empty comment line between the marker and the struct makes the marker void
(`marker_void_above_emptyComment`).
-/

namespace StructLayout.Source

/-! ### Comments of lines -/

/-- The lines of a source, its block comments blanked out. -/
def textLines (source : String) : List (List Char) :=
  Text.splitLines (stripBlockComments source.toList)

/-- The comment of a line, empty if there is none. -/
def commentOf (text : List Char) : List Char := (cutLineComment .code text).2.getD []

/-- The comment of a line that holds nothing else. -/
def ownComment? (text : List Char) : Option (List Char) :=
  match Text.trimStart text with
  | '/' :: '/' :: comment => some comment
  | _ => none

/-- The comments of the lines at the start of a list that hold nothing else. -/
def leadingComments : List (List Char) → List (List Char)
  | [] => []
  | text :: rest =>
    match ownComment? text with
    | some comment => comment :: leadingComments rest
    | none => []

/-- The comments of the block of comment lines at the end of some lines, last first. -/
def commentBlock (above : List (List Char)) : List (List Char) := leadingComments above.reverse

/-- The comments of the block up to the nearest one that is empty, last first. -/
def docAbove (above : List (List Char)) : List (List Char) :=
  (commentBlock above).takeWhile fun comment => !Text.isAllBlank comment

theorem docAbove_concat (above : List (List Char)) (text : List Char) :
    docAbove (above ++ [text]) =
      match ownComment? text with
      | some comment => if Text.isAllBlank comment then [] else comment :: docAbove above
      | none => [] := by
  rw [docAbove, commentBlock, List.reverse_append, List.reverse_singleton, List.singleton_append,
    leadingComments]
  cases ownComment? text with
  | none => rfl
  | some comment =>
    cases h : Text.isAllBlank comment <;> simp [h, docAbove, commentBlock]

/-! ### Lines as they are read -/

section read

variable {text comment : List Char} {number : Nat}

theorem trim_eq_nil_iff (cs : List Char) : Text.trim cs = [] ↔ Text.isAllBlank cs = true := by
  rw [Text.isAllBlank, List.all_eq_true]
  constructor
  · intro h
    obtain ⟨blanks, hb, hblank⟩ := Text.trimEnd_append_eq (Text.trimStart cs)
    rw [← Text.trim, h, List.nil_append] at hb
    have hs : Text.trimStart cs = [] := by
      cases he : Text.trimStart cs with
      | nil => rfl
      | cons c rest =>
        have hc := hblank c (by rw [← hb, he]; exact List.mem_cons_self)
        rw [Text.isBlank_of_trimStart_eq_cons he] at hc
        cases hc
    exact List.dropWhile_eq_nil_iff.1 hs
  · intro h
    have hs : Text.trimStart cs = [] := List.dropWhile_eq_nil_iff.2 h
    rw [Text.trim, hs]
    rfl

theorem ownComment?_eq_some (h : ownComment? text = some comment) :
    ∃ gap, (∀ c ∈ gap, Text.isBlank c = true) ∧ text = gap ++ '/' :: '/' :: comment := by
  unfold ownComment? at h
  split at h
  · next hs =>
    cases h
    refine ⟨text.takeWhile Text.isBlank, fun c hc => List.all_eq_true.1 List.all_takeWhile c hc, ?_⟩
    rw [← hs]
    exact List.takeWhile_append_dropWhile.symm
  · cases h

theorem cutLineComment_gap {gap : List Char} (hg : ∀ c ∈ gap, Text.isBlank c = true)
    (comment : List Char) :
    cutLineComment .code (gap ++ '/' :: '/' :: comment) = (gap, some comment) := by
  induction gap with
  | nil => rfl
  | cons c gap ih =>
    have hc := hg c List.mem_cons_self
    have hnext : Mode.code.next c = .code := by simp [Mode.next, isQuote_of_isBlank hc]
    have hslash : c ≠ '/' := ne_of_isBlank hc (by decide)
    rw [List.cons_append, cutLineComment.eq_3 _ c _ fun _ _ he _ => hslash he, hnext,
      ih fun d hd => hg d (List.mem_cons_of_mem c hd)]

theorem dropBlocks_gap {gap : List Char} (hg : ∀ c ∈ gap, Text.isBlank c = true) :
    dropBlocks gap = gap := by
  induction gap with
  | nil => exact dropBlocks.eq_3
  | cons c gap ih =>
    have hslash : c ≠ '/' := ne_of_isBlank (hg c List.mem_cons_self) (by decide)
    rw [dropBlocks.eq_2 c gap fun _ he => absurd he hslash,
      ih fun d hd => hg d (List.mem_cons_of_mem c hd)]

theorem ofText_of_ownComment (h : ownComment? text = some comment) :
    (Line.ofText number text).code = [] ∧ (Line.ofText number text).isComment = true ∧
      (Line.ofText number text).comment = Text.trim comment := by
  obtain ⟨gap, hgap, rfl⟩ := ownComment?_eq_some h
  have hend : Text.trimEnd gap = [] := by
    have hnil := Text.trimEnd_append hgap []
    rwa [List.nil_append] at hnil
  have hsplit : splitComment (gap ++ '/' :: '/' :: comment) = ([], Text.trim comment) := by
    rw [splitComment, cutLineComment_gap hgap]
    simp only [dropBlocks_gap hgap, hend, Option.getD_some]
  refine ⟨by rw [Line.ofText, hsplit]; rfl, ?_, by rw [Line.ofText, hsplit]⟩
  have htrim : Text.trim (gap ++ '/' :: '/' :: comment) = '/' :: '/' :: Text.trimEnd comment := by
    rw [Text.trim_append_left hgap, Text.trim, Text.trimStart_eq_self (by decide),
      Text.trimEnd_cons (by decide), Text.trimEnd_cons (by decide)]
  rw [Line.ofText, htrim]
  rfl

theorem isComment_ofText (h : ownComment? text = none) :
    (Line.ofText number text).isComment = false := by
  rw [Bool.eq_false_iff]
  intro hc
  obtain ⟨comment, ht⟩ := List.isPrefixOf_iff_prefix.1 hc
  obtain ⟨blanks, hb, -⟩ := Text.trimEnd_append_eq (Text.trimStart text)
  rw [← Text.trim, ← ht] at hb
  rw [ownComment?, hb] at h
  cases h

theorem comment_ofText : (Line.ofText number text).comment = Text.trim (commentOf text) := rfl

/-- Behind a line without code, a scan has the comments directly above. -/
theorem docBehind_ofText (above : List (List Char)) :
    docBehind ((docAbove above).map Text.trim) (Line.ofText number text) =
      (docAbove (above ++ [text])).map Text.trim := by
  rw [docAbove_concat, docBehind]
  cases h : ownComment? text with
  | none =>
    rw [isComment_ofText h]
    rfl
  | some comment =>
    obtain ⟨-, hc, ht⟩ := ofText_of_ownComment h
    rw [hc, ht]
    by_cases hb : Text.isAllBlank comment = true
    · simp [hb, (trim_eq_nil_iff comment).2 hb]
    · have hne : Text.trim comment ≠ [] := fun he => hb ((trim_eq_nil_iff comment).1 he)
      simp [hb, hne]

theorem docAbove_of_code (h : (Line.ofText number text).code ≠ []) (above : List (List Char)) :
    docAbove (above ++ [text]) = [] := by
  rw [docAbove_concat]
  cases hc : ownComment? text with
  | none => rfl
  | some comment => exact absurd (ofText_of_ownComment hc).1 h

end read

/-! ### Occurrences -/

theorem occursIn_iff {part cs : List Char} : occursIn part cs = true ↔ part <:+: cs := by
  induction cs with
  | nil => rw [occursIn, List.isEmpty_iff, List.infix_nil]
  | cons c cs ih =>
    rw [occursIn, Bool.or_eq_true, ih, List.isPrefixOf_iff_prefix, List.infix_cons_iff]

theorem infix_gap_iff {part gap : List Char} (hp : Text.trimStart part = part)
    (hg : ∀ c ∈ gap, Text.isBlank c = true) (cs : List Char) :
    part <:+: gap ++ cs ↔ part <:+: cs := by
  induction gap with
  | nil => rfl
  | cons b gap ih =>
    rw [List.cons_append, List.infix_cons_iff, ih fun c hc => hg c (List.mem_cons_of_mem b hc)]
    refine ⟨fun h => ?_, .inr⟩
    rcases h with ⟨rest, he⟩ | h
    · cases part with
      | nil => exact List.nil_infix
      | cons c part =>
        obtain ⟨rfl, -⟩ := List.cons.inj he
        have hb := Text.isBlank_of_trimStart_eq_cons hp
        rw [hg c List.mem_cons_self] at hb
        cases hb
    · exact h

theorem trimStart_of_trim {cs : List Char} (h : Text.trim cs = cs) : Text.trimStart cs = cs := by
  cases cs with
  | nil => rfl
  | cons c cs => exact Text.trimStart_eq_self (Text.isBlank_of_trim_eq_cons h)

theorem trimStart_reverse_of_trim {cs : List Char} (h : Text.trim cs = cs) :
    Text.trimStart cs.reverse = cs.reverse := by
  have he : Text.trimEnd cs = cs := by rw [← h, Text.trim, Text.trimEnd_trimEnd]
  rw [← List.reverse_inj, List.reverse_reverse]
  exact he

/-- A part without blanks around it occurs in a text if it occurs in the trimmed text. -/
theorem infix_trim_iff {part : List Char} (h : Text.trim part = part) (cs : List Char) :
    part <:+: Text.trim cs ↔ part <:+: cs := by
  obtain ⟨blanks, hb, hblank⟩ := Text.trimEnd_append_eq (Text.trimStart cs)
  have hend : part <:+: Text.trimStart cs ↔ part <:+: Text.trim cs := by
    have hr := infix_gap_iff (trimStart_reverse_of_trim h)
      (fun c hc => hblank c (List.mem_reverse.1 hc)) (Text.trim cs).reverse
    rwa [← List.reverse_append, List.reverse_infix, List.reverse_infix, Text.trim, ← hb] at hr
  have hstart := infix_gap_iff (trimStart_of_trim h)
    (fun c hc => List.all_eq_true.1 List.all_takeWhile c hc : ∀ c ∈ cs.takeWhile Text.isBlank, _)
    (Text.trimStart cs)
  rw [Text.trimStart, List.takeWhile_append_dropWhile] at hstart
  exact hend.symm.trans hstart.symm

theorem Scanner.marks_iff {s : Scanner} {comments : List (List Char)} :
    s.marks comments = true ↔ ∃ c ∈ comments, s.marker.toList <:+: c := by
  simp only [Scanner.marks, List.any_eq_true, occursIn_iff]

/-- A marker without blanks around it occurs in trimmed comments as it does in the comments. -/
theorem Scanner.marks_map_trim {s : Scanner} (hm : Text.trim s.marker.toList = s.marker.toList)
    {comments : List (List Char)} :
    s.marks (comments.map Text.trim) = true ↔ ∃ c ∈ comments, s.marker.toList <:+: c := by
  simp only [Scanner.marks_iff, List.mem_map, exists_exists_and_eq_and, infix_trim_iff hm]

/-! ### Lines that are used up -/

/-- Some of the first lines are used up, the last of them with code, or all lines are. -/
def UsesUp (lines rest : List Line) : Prop :=
  rest = [] ∨ ∃ init last, lines = init ++ last :: rest ∧ last.code ≠ []

theorem UsesUp.cons {lines rest : List Line} (h : UsesUp lines rest) (line : Line) :
    UsesUp (line :: lines) rest := by
  rcases h with h | ⟨init, last, he, hl⟩
  · exact .inl h
  · exact .inr ⟨line :: init, last, by rw [he, List.cons_append], hl⟩

theorem usesUp_head {line : Line} (h : line.code ≠ []) (rest : List Line) :
    UsesUp (line :: rest) rest := .inr ⟨[], line, rfl, h⟩

theorem usesUp_structBody (depth : Int) (entry : OpenEntry) (lines : List Line) :
    UsesUp lines (structBody depth entry lines).rest := by
  induction lines generalizing depth entry with
  | nil => exact .inl rfl
  | cons line rest ih =>
    unfold structBody
    split
    · exact (ih _ _).cons line
    · next hcode =>
      split
      · exact usesUp_head (fun he => hcode (List.isEmpty_iff.2 he)) rest
      · dsimp only
        split
        · exact (ih _ _).cons line
        · exact (ih _ _).cons line

theorem collectType_of_closed {depth : Int} (h : depth ≤ 0) (lines : List Line) :
    collectType depth lines = ([], lines) := by
  cases lines with
  | nil => rfl
  | cons line rest => rw [collectType, if_pos h]

theorem usesUp_collectType {depth : Int} (h : 0 < depth) (lines : List Line) :
    UsesUp lines (collectType depth lines).2 := by
  induction lines generalizing depth with
  | nil => exact .inl rfl
  | cons line rest ih =>
    rw [collectType, if_neg (Int.not_le.2 h)]
    split
    · exact (ih h).cons line
    · next hcode =>
      by_cases hd : depth + depthDelta line.code ≤ 0
      · rw [collectType_of_closed hd]
        exact usesUp_head (fun he => hcode (List.isEmpty_iff.2 he)) rest
      · exact (ih (Int.not_le.1 hd)).cons line

theorem usesUp_readSpec (s : Scanner) (text : List Char) {line : Line} (h : line.code ≠ [])
    (doc : List (List Char)) (rest : List Line) :
    UsesUp (line :: rest) (s.readSpec text line doc rest).2 := by
  unfold Scanner.readSpec
  split
  · exact usesUp_head h rest
  · split
    · unfold Scanner.readStruct
      dsimp only
      split
      · exact usesUp_head h rest
      · exact (usesUp_structBody _ _ rest).cons line
    · next spec _ _ _ =>
      by_cases hd : depthDelta spec.typeText ≤ 0
      · rw [collectType_of_closed hd]
        exact usesUp_head h rest
      · exact (usesUp_collectType (Int.not_le.1 hd) rest).cons line

/-! ### Structs at their lines -/

/-- The lines of a source as they are read, behind a number of lines. -/
def linesFrom (number : Nat) (texts : List (List Char)) : List Line :=
  (texts.zipIdx number).map fun p => Line.ofText (p.2 + 1) p.1

theorem linesFrom_cons (number : Nat) (text : List Char) (texts : List (List Char)) :
    linesFrom number (text :: texts) =
      Line.ofText (number + 1) text :: linesFrom (number + 1) texts := rfl

theorem linesFrom_eq_append {number : Nat} {texts : List (List Char)} {init rest : List Line}
    (h : linesFrom number texts = init ++ rest) :
    ∃ before behind, texts = before ++ behind ∧ init = linesFrom number before ∧
      rest = linesFrom (number + before.length) behind := by
  obtain ⟨xs, ys, hz, rfl, rfl⟩ := List.map_eq_append_iff.1 h
  obtain ⟨before, behind, rfl, rfl, rfl⟩ := List.zipIdx_eq_append_iff.1 hz
  exact ⟨before, behind, rfl, rfl, rfl⟩

namespace Scanner

variable (s : Scanner) {texts above : List (List Char)} {σ : Scan} {source : String}

/-- The struct stands on one of some lines, and it is exempt if and only if the marker occurs in the
comment of that line or in one directly above. -/
def IsMarkedIn (texts : List (List Char)) (d : StructDecl) : Prop :=
  ∃ above head below, texts = above ++ head :: below ∧
    d.position = { file := s.file, line := ((above.length + 1 : Nat) : Int) } ∧
    (d.ignored = true ↔ ∃ c ∈ commentOf head :: docAbove above, s.marker.toList <:+: c)

/-- The scan stands behind some of the lines: it has the comments directly above, unless it is at the
end, and the structs that it has found are marked. -/
structure IsBehind (texts above : List (List Char)) (σ : Scan) : Prop where
  lines : ∃ below, texts = above ++ below ∧ σ.rest = linesFrom above.length below
  doc : σ.rest ≠ [] → σ.doc = (docAbove above).map Text.trim
  structs : ∀ d ∈ σ.found.structs, s.IsMarkedIn texts d

theorem mem_structs_readSpec {text : List Char} {line : Line} {doc : List (List Char)}
    {rest : List Line} {d : StructDecl} (h : d ∈ (s.readSpec text line doc rest).1.structs) :
    d.position = { file := s.file, line := (line.number : Int) } ∧
      d.ignored = (s.marks doc || s.marks [line.comment]) := by
  unfold readSpec at h
  split at h
  · cases h
  · split at h
    · unfold readStruct at h
      dsimp only at h
      split at h
      · obtain rfl := List.mem_singleton.1 h
        exact ⟨rfl, rfl⟩
      · obtain rfl := List.mem_singleton.1 h
        exact ⟨rfl, rfl⟩
    · cases h

variable {s}

theorem isMarkedIn_readSpec (hm : Text.trim s.marker.toList = s.marker.toList) {head : List Char}
    {below : List (List Char)} {text : List Char} {rest : List Line} {d : StructDecl}
    (h : d ∈ (s.readSpec text (Line.ofText (above.length + 1) head)
      ((docAbove above).map Text.trim) rest).1.structs) :
    s.IsMarkedIn (above ++ head :: below) d := by
  obtain ⟨hpos, hign⟩ := s.mem_structs_readSpec h
  refine ⟨above, head, below, rfl, hpos, ?_⟩
  have hhead : s.marks [Text.trim (commentOf head)] = true ↔ s.marker.toList <:+: commentOf head := by
    rw [marks_iff]
    simp only [List.mem_singleton, exists_eq_left, infix_trim_iff hm]
  rw [hign, Bool.or_eq_true, marks_map_trim hm, comment_ofText, hhead, or_comm]
  simp only [List.mem_cons, or_and_right, exists_or, exists_eq_left]

theorem isBehind_start (s : Scanner) (source : String) :
    s.IsBehind (textLines source) [] (start source) where
  lines := ⟨textLines source, rfl, rfl⟩
  doc := fun _ => rfl
  structs := List.forall_mem_nil _

/-- Behind a line of code a scan knows no comments, and there are none above. -/
theorem exists_isBehind_of_usesUp {below : List (List Char)} (htexts : texts = above ++ below)
    (hused : UsesUp (linesFrom above.length below) σ.rest) (hdoc : σ.doc = [])
    (hstructs : ∀ d ∈ σ.found.structs, s.IsMarkedIn texts d) :
    ∃ above', s.IsBehind texts above' σ := by
  rcases hused with hend | ⟨init, last, hused, hlast⟩
  · exact ⟨texts, ⟨[], (List.append_nil _).symm, hend⟩, fun hne => absurd hend hne, hstructs⟩
  · obtain ⟨before, behind, hsplit, -, hbehind⟩ := linesFrom_eq_append hused
    cases behind with
    | nil => cases hbehind
    | cons final behind =>
      rw [linesFrom_cons] at hbehind
      obtain ⟨rfl, hrest⟩ := List.cons.inj hbehind
      have hlength : above.length + before.length + 1 = (above ++ before ++ [final]).length := by
        simp [Nat.add_assoc]
      rw [hlength] at hrest
      refine ⟨above ++ before ++ [final], ⟨behind, by simp [htexts, hsplit], hrest⟩, fun _ => ?_,
        hstructs⟩
      rw [hdoc, docAbove_of_code hlast]
      rfl

theorem IsBehind.turn (hm : Text.trim s.marker.toList = s.marker.toList) {line : Line}
    {rest : List Line} (h : s.IsBehind texts above σ) (hr : σ.rest = line :: rest) :
    ∃ above', s.IsBehind texts above' (s.turn σ line rest) := by
  obtain ⟨below, htexts, hlines⟩ := h.lines
  have hdoc := h.doc (by simp [hr])
  rw [hr] at hlines
  cases below with
  | nil => cases hlines
  | cons head below =>
    have hall := hlines
    rw [linesFrom_cons] at hlines
    obtain ⟨hline, hrest⟩ := List.cons.inj hlines
    -- a turn takes up a line without code, a line of code, or all lines of a declaration
    obtain ⟨-, ht⟩ | ⟨hcode, inGroup, package, ht⟩ | ⟨hcode, text, -, ht⟩ :=
      s.turn_cases σ line rest
    · have hlength : above.length + 1 = (above ++ [head]).length := by simp
      rw [hlength] at hrest
      rw [ht]
      refine ⟨above ++ [head], ⟨below, by simp [htexts], hrest⟩, fun _ => ?_, h.structs⟩
      dsimp only
      rw [hdoc, hline, docBehind_ofText]
    · rw [ht]
      exact exists_isBehind_of_usesUp htexts (hall ▸ usesUp_head hcode rest) rfl h.structs
    · rw [ht]
      refine exists_isBehind_of_usesUp htexts (hall ▸ usesUp_readSpec s text hcode σ.doc rest) rfl
        fun d hd => ?_
      rcases List.mem_append.1 hd with hd | hd
      · exact h.structs d hd
      · rw [hdoc, hline] at hd
        rw [htexts]
        exact isMarkedIn_readSpec hm hd

theorem Reaches.exists_isBehind (hm : Text.trim s.marker.toList = s.marker.toList)
    (h : s.Reaches source σ) : ∃ above, s.IsBehind (textLines source) above σ := by
  induction h with
  | start => exact ⟨[], isBehind_start s source⟩
  | turn _ hr ih =>
    obtain ⟨above, ih⟩ := ih
    exact ih.turn hm hr

end Scanner

/-- Every struct that is found in a source stands on a line of it, and it is exempt if and only if the
marker occurs in the comment of that line or in one of those directly above, up to the nearest empty
one.  Wherever a scan comes across the first line of a struct declaration, the struct is found. -/
theorem scan_marked (s : Scanner) (hm : Text.trim s.marker.toList = s.marker.toList)
    (source : String) :
    (∀ d ∈ (s.scan source).structs, s.IsMarkedIn (textLines source) d) ∧
    ∀ σ line rest, s.Reaches source σ → σ.rest = line :: rest →
      ∀ (head : StructHead) (behind : List Char), line.code = head.code behind →
        ∃ d ∈ (s.scan source).structs, d.name = String.ofList head.name.chars ∧
          d.position = { file := s.file, line := (line.number : Int) } := by
  constructor
  · obtain ⟨σ, hσ, hfound⟩ := s.exists_reaches_end source
    obtain ⟨above, hb⟩ := hσ.exists_isBehind hm
    rw [← hfound]
    exact hb.structs
  · intro σ line rest hσ hr head behind hl
    exact head.exists_mem_structs behind hσ hr hl

/-- A scanner with the usual marker. -/
def ignoreScanner : Scanner where
  file := "x.go"
  marker := "align:ignore"

/-- A struct with the marker above it, and another comment between the two. -/
def markedSource : String := "// align:ignore\n// until it is stable\ntype T struct \x7b\n\x7d\n"

def markedLineSource : String := "type T struct \x7b // align:ignore\n\x7d\n"

theorem scan_marked_usual :
    Text.trim ignoreScanner.marker.toList = ignoreScanner.marker.toList ∧
    ((ignoreScanner.scan markedSource).structs.map fun d => (d.name, d.position.line, d.ignored)) =
      [("T", 3, true)] ∧
    (∀ d ∈ (ignoreScanner.scan markedSource).structs,
      ignoreScanner.IsMarkedIn (textLines markedSource) d) ∧
    ∃ d ∈ (ignoreScanner.scan markedLineSource).structs, d.name = "T" ∧
      d.position = { file := "x.go", line := 1 } := by
  have hm : Text.trim ignoreScanner.marker.toList = ignoreScanner.marker.toList := by decide
  let space : Gap := ⟨[' '], by decide⟩
  let head : StructHead := {
    keywordGap := space
    name := ⟨'T', [], rfl, by decide⟩
    params := none
    nameGap := space
    braceGap := space
    keywordGap_ne := by decide
    nameGap_ne := by decide
    isOpen := by simp }
  have hcode : (Line.ofText 1 "type T struct \x7b // align:ignore".toList).code = head.code [] := by
    decide +kernel
  refine ⟨hm, by decide +kernel, (scan_marked ignoreScanner hm markedSource).1, ?_⟩
  exact (scan_marked ignoreScanner hm markedLineSource).2 _ _ _ .start rfl head [] hcode

/-- A struct with the marker in the block of comments above it, and an empty comment below that. -/
def voidMarkerSource : String := "package p\n\n// align:ignore\n//\ntype T struct \x7b\n\x7d\n"

/-- Below the marker, an empty comment in the block above a struct makes the marker void. -/
theorem marker_void_above_emptyComment :
    (∃ above head below, textLines voidMarkerSource = above ++ head :: below ∧
      above.length + 1 = 5 ∧ commentBlock above = [[], " align:ignore".toList] ∧
      ignoreScanner.marks (commentBlock above) = true ∧ docAbove above = []) ∧
    ((ignoreScanner.scan voidMarkerSource).structs.map fun d =>
      (d.name, d.position.line, d.ignored)) = [("T", 5, false)] := by
  refine ⟨⟨(textLines voidMarkerSource).take 4, "type T struct \x7b".toList,
    [['\x7d'], []], ?_⟩, ?_⟩
  · decide +kernel
  · decide +kernel

end StructLayout.Source
