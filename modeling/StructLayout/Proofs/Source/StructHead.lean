import StructLayout.Proofs.Source.Scanning
import StructLayout.Proofs.Source.WrittenLine

/-!
# First lines of struct declarations

The first line of a struct declaration goes from the keyword to the opening brace (`StructHead`), with
blanks between its words and perhaps a type parameter list behind the name, in which no bracket closes.
Anything may stand behind the brace.

Wherever a scan comes across such a line, it reads a struct of this name from there on
(`StructHead.turn_eq`), and the struct is part of the result (`StructHead.exists_mem_structs`).
-/

namespace StructLayout.Source

open Scanner (specText? opensGroup packageName? declareStruct)

/-- A type parameter list as it is written, given its inside. -/
def writtenParams : Option (List Char) → List Char
  | none => []
  | some params => '[' :: (params ++ [']'])

/-- The first line of a struct declaration. -/
structure StructHead where
  keywordGap : Gap
  name : Identifier
  params : Option (List Char)
  nameGap : Gap
  braceGap : Gap
  keywordGap_ne : keywordGap.chars ≠ []
  nameGap_ne : params = none → nameGap.chars ≠ []
  isOpen : ∀ ps, params = some ps → ']' ∉ ps

namespace StructHead

variable (h : StructHead) (behind : List Char)

/-- The struct type, from its keyword on. -/
def typeText : List Char := "struct".toList ++ (h.braceGap.chars ++ '\x7b' :: behind)

/-- The type specification, with a text behind the opening brace. -/
def spec : List Char :=
  h.name.chars ++ (writtenParams h.params ++ (h.nameGap.chars ++ h.typeText behind))

/-- The line, with a text behind the opening brace. -/
def code : List Char := "type".toList ++ (h.keywordGap.chars ++ h.spec behind)

/-- What stands behind the brace is the end of the line. -/
theorem exists_code_eq : ∃ front, ∀ behind, h.code behind = front ++ '\x7b' :: behind := by
  refine ⟨"type".toList ++ (h.keywordGap.chars ++ (h.name.chars ++ (writtenParams h.params ++
    (h.nameGap.chars ++ ("struct".toList ++ h.braceGap.chars))))), fun behind => ?_⟩
  unfold code spec typeText
  -- matching against the characters of the keywords would be slow
  generalize "type".toList = keyword
  generalize "struct".toList = struct
  simp only [List.append_assoc]

/-! ### Taking the line apart -/

theorem exists_keywordGap : ∃ c rest, h.keywordGap.chars = c :: rest ∧ Text.isBlank c = true := by
  obtain ⟨c, rest, hc⟩ := List.exists_cons_of_ne_nil h.keywordGap_ne
  exact ⟨c, rest, hc, (h.keywordGap.blank c (by simp [hc])).1⟩

theorem trimStart_spec {gap : List Char} (hg : ∀ c ∈ gap, Text.isBlank c = true) :
    Text.trimStart (gap ++ h.spec behind) = h.spec behind := by
  rw [Text.trimStart_append hg]
  exact Text.trimStart_eq_self (isPlain_of_continuesName (h.name.continuesName_of_mem
    List.mem_cons_self)).1

theorem afterWord?_code : Text.afterWord? "type" (h.code behind) = some (h.spec behind) := by
  obtain ⟨c, rest, hgap, hc⟩ := h.exists_keywordGap
  have hrest : ∀ d ∈ rest, Text.isBlank d = true := fun d hd =>
    (h.keywordGap.blank d (by simp [hgap, hd])).1
  have hcode : h.code behind = "type".toList ++ c :: (rest ++ h.spec behind) := by
    rw [code, hgap, List.cons_append]
  rw [hcode, Text.afterWord?, if_pos (List.isPrefixOf_iff_prefix.2 (List.prefix_append _ _))]
  change (if Text.isBlank c then some (Text.trimStart (rest ++ h.spec behind)) else none) = _
  rw [if_pos hc, h.trimStart_spec behind hrest]

theorem opensGroup_code : opensGroup (h.code behind) = false := by
  have hdrop : (h.code behind).drop 4 = h.keywordGap.chars ++ h.spec behind := rfl
  have hname : ¬ h.spec behind = ['('] := by
    intro he
    have hs := h.name.starts
    rw [(List.cons.inj he).1] at hs
    exact absurd hs (by decide)
  rw [opensGroup, hdrop, h.trimStart_spec behind h.keywordGap.isBlank, decide_eq_false hname, Bool.and_false]

theorem packageName?_code : packageName? (h.code behind) = none := rfl

theorem bracketList_params :
    bracketList (writtenParams h.params ++ (h.nameGap.chars ++ h.typeText behind)) =
      (h.params.getD [], h.nameGap.chars ++ h.typeText behind) := by
  cases hp : h.params with
  | none =>
    obtain ⟨c, rest, hgap⟩ := List.exists_cons_of_ne_nil (h.nameGap_ne hp)
    have hb := h.nameGap.isBlank c (by simp [hgap])
    have hc : c ≠ '[' := ne_of_isBlank hb (by decide)
    rw [hgap]
    change bracketList (c :: _) = ([], c :: _)
    unfold bracketList
    split
    · next he => exact absurd (List.cons.inj he).1 hc
    · rfl
  | some ps =>
    have hps : ∀ c ∈ ps, (c != ']') = true := fun c hc =>
      bne_iff_ne.2 fun he => h.isOpen ps hp (he ▸ hc)
    have htext : writtenParams (some ps) ++ (h.nameGap.chars ++ h.typeText behind) =
        '[' :: (ps ++ ']' :: (h.nameGap.chars ++ h.typeText behind)) := by simp [writtenParams]
    rw [htext, bracketList, List.dropWhile_append_of_pos hps, List.takeWhile_append_of_pos hps]
    simp

theorem endsName_behind :
    EndsName (writtenParams h.params ++ (h.nameGap.chars ++ h.typeText behind)) := by
  cases hp : h.params with
  | none => exact endsName_gap (h.nameGap_ne hp) h.nameGap.isBlank (h.typeText behind)
  | some ps =>
    intro d hd
    cases hd
    rfl

theorem trim_dropEquals :
    Text.trim (dropEquals (h.nameGap.chars ++ h.typeText behind)) =
      h.typeText (Text.trimEnd behind) := by
  have hstart : Text.trimStart (h.nameGap.chars ++ h.typeText behind) = h.typeText behind := by
    rw [Text.trimStart_append h.nameGap.isBlank]
    rfl
  have hdrop : dropEquals (h.nameGap.chars ++ h.typeText behind) = h.typeText behind := by
    rw [dropEquals, hstart]
    rfl
  have htext (cs : List Char) :
      h.typeText cs = ("struct".toList ++ h.braceGap.chars) ++ '\x7b' :: cs :=
    (List.append_assoc _ _ _).symm
  have htrim : Text.trimStart (h.typeText behind) = h.typeText behind := rfl
  rw [hdrop, Text.trim, htrim, htext, Text.trimEnd_append_cons (by decide), htext]

theorem ofText?_spec :
    TypeSpec.ofText? (h.spec behind) =
      some {
        name := String.ofList h.name.chars
        params := h.params.getD []
        typeText := h.typeText (Text.trimEnd behind) } := by
  rw [TypeSpec.ofText?, spec, identifier?_chars h.name (h.endsName_behind behind), Option.map_some]
  dsimp only
  rw [h.bracketList_params, h.trim_dropEquals]

theorem structBodyText?_typeText : structBodyText? (h.typeText behind) = some behind := by
  have hdrop : (h.typeText behind).drop 6 = h.braceGap.chars ++ '\x7b' :: behind := rfl
  have hstruct : "struct".toList.isPrefixOf (h.typeText behind) = true :=
    List.isPrefixOf_iff_prefix.2 (List.prefix_append _ _)
  rw [structBodyText?, if_pos hstruct, hdrop, Text.trimStart_append h.braceGap.isBlank,
    Text.trimStart_eq_self (by decide)]
  rfl

/-! ### Reading the struct -/

/-- The struct type that a scan reads behind the line. -/
def read (s : Scanner) (line : Line) (doc : List (List Char)) (rest : List Line) :
    Declarations × List Line :=
  s.readStruct {
    name := String.ofList h.name.chars
    params := h.params.getD []
    typeText := h.typeText (Text.trimEnd behind) } line doc (Text.trimEnd behind) rest

/-- Where a scan comes across the line, it reads the struct. -/
theorem turn_eq (s : Scanner) (σ : Scan) {line : Line} (hl : line.code = h.code behind)
    (rest : List Line) :
    s.turn σ line rest =
      { σ with
        doc := []
        found := σ.found.append (h.read behind s line σ.doc rest).1
        rest := (h.read behind s line σ.doc rest).2 } := by
  have hclose : ¬ h.code behind = [')'] := by
    intro he
    cases he
  have hspec : specText? σ.inGroup (h.code behind) = some (h.spec behind) := by
    rw [specText?, h.afterWord?_code]
  have hread : s.readSpec (h.spec behind) line σ.doc rest = h.read behind s line σ.doc rest := by
    simp only [Scanner.readSpec, h.ofText?_spec, h.structBodyText?_typeText, read]
  have hempty : (h.code behind).isEmpty = false := rfl
  rw [Scanner.turn]
  simp only [hl, hempty, h.packageName?_code, h.opensGroup_code, hclose, hspec, hread, ite_self,
    decide_false, Bool.and_false, Bool.false_eq_true, if_false]

theorem exists_read_eq (s : Scanner) (line : Line) (doc : List (List Char)) (rest : List Line) :
    ∃ fields warnings, (h.read behind s line doc rest).1 = declareStruct {
      name := String.ofList h.name.chars
      position := { file := s.file, line := (line.number : Int) }
      typeParams := typeParamNames (h.params.getD [])
      ignored := s.marks doc || s.marks [line.comment]
      fields } warnings := by
  unfold read Scanner.readStruct
  dsimp only
  split
  · exact ⟨_, _, rfl⟩
  · exact ⟨_, _, rfl⟩

theorem exists_mem_structs {s : Scanner} {source : String} {σ : Scan} {line : Line}
    {rest : List Line} (hσ : s.Reaches source σ) (hr : σ.rest = line :: rest)
    (hl : line.code = h.code behind) :
    ∃ d ∈ (s.scan source).structs, d.name = String.ofList h.name.chars ∧
      d.position = { file := s.file, line := (line.number : Int) } := by
  obtain ⟨fields, warnings, hread⟩ := h.exists_read_eq behind s line σ.doc rest
  have hp := (hσ.turn hr).grows.structs
  rw [h.turn_eq behind s σ hl, hread] at hp
  exact ⟨_, hp.subset (List.mem_append_right _ (List.mem_singleton_self _)), rfl, rfl⟩

end StructHead

end StructLayout.Source
