import StructLayout.Proofs.Source.Scanning

/-!
# Structs in the order of their lines

A scan reads the lines of a source in order: it hands the lines that are left from one reader to
the next, and each of them takes lines off their front.  A struct stands on the first line that its
reader takes, and its fields on lines between that one and the last that is taken; so what has been
found when some lines are read is in order up to there (`StructsInOrder`), and the next struct stands
below.

What lines are left behind a reader is said once (`AreLeft`), for struct bodies, for other types and
for a whole specification.  From there it goes along the turns of a scan, turn by turn.  The main
statement is `scan_inOrder`; it holds of every source, whatever is left open in it.
-/

namespace StructLayout.Source

variable {total read first last : Nat} {line : Line} {lines rest : List Line}

/-! ### Lines that are left -/

/-- The lines are those of a source that are left when some of them have been read. -/
structure AreLeft (total read : Nat) (lines : List Line) : Prop where
  count : read + lines.length = total
  numbers : lines.map Line.number = List.range' (read + 1) lines.length

namespace AreLeft

theorem cons (h : AreLeft total read (line :: rest)) :
    line.number = read + 1 ∧ AreLeft total (read + 1) rest := by
  obtain ⟨hcount, hnumbers⟩ := h
  rw [List.map_cons, List.length_cons, List.range'_succ, List.cons.injEq] at hnumbers
  rw [List.length_cons] at hcount
  exact ⟨hnumbers.1, ⟨by omega, hnumbers.2⟩⟩

theorem of_suffix (h : AreLeft total read lines) (hs : rest <:+ lines) :
    ∃ more, read ≤ more ∧ AreLeft total more rest := by
  induction lines generalizing read with
  | nil =>
    rw [List.suffix_nil.1 hs]
    exact ⟨read, Nat.le_refl _, h⟩
  | cons line below ih =>
    rcases List.suffix_cons_iff.1 hs with rfl | hs
    · exact ⟨read, Nat.le_refl _, h⟩
    · obtain ⟨more, hle, hleft⟩ := ih h.cons.2 hs
      exact ⟨more, by omega, hleft⟩

end AreLeft

theorem length_splitLines_stripBlockComments (source : List Char) :
    (Text.splitLines (stripBlockComments source)).length = (Text.splitLines source).length := by
  have hbreaks := congrArg (List.count true) (map_isBreak_stripBlocks .code source)
  have hcount (cs : List Char) : (cs.map (· == '\n')).count true = cs.count '\n' := by
    rw [List.count, List.countP_map, List.count]
    exact List.countP_congr fun c _ => by simp
  rw [hcount, hcount] at hbreaks
  rw [Text.length_splitLines, Text.length_splitLines, stripBlockComments, hbreaks]

theorem areLeft_sourceLines (source : List Char) :
    AreLeft (Text.splitLines source).length 0 (sourceLines source) where
  count := by
    simp [sourceLines, length_splitLines_stripBlockComments]
  numbers := by
    have hnumber : (Line.number ∘ fun p : List Char × Nat => Line.ofText (p.2 + 1) p.1) =
        (1 + ·) ∘ Prod.snd := funext fun p => Nat.add_comm p.2 1
    rw [sourceLines, List.map_map, List.length_map, List.length_zipIdx, hnumber, ← List.map_map,
      List.zipIdx_map_snd, List.map_add_range']

/-! ### Fields -/

/-- The fields stand on lines from one line to another one, each not above the one before it. -/
structure FieldsInOrder (first last : Nat) (fields : List FieldDecl) : Prop where
  sorted : fields.Pairwise fun d e => d.line ≤ e.line
  within : ∀ d ∈ fields, (first : Int) ≤ d.line ∧ d.line ≤ last

namespace FieldsInOrder

variable {fields more : List FieldDecl}

theorem nil : FieldsInOrder first last [] := ⟨.nil, fun _ hd => nomatch hd⟩

theorem of_line (h : ∀ d ∈ fields, d.line = first) : FieldsInOrder first first fields where
  sorted := List.pairwise_of_forall_mem_list fun d hd e he => Int.le_of_eq (by
    rw [h d hd, h e he])
  within := fun d hd => by rw [h d hd]; exact ⟨Int.le_refl _, Int.le_refl _⟩

theorem mono {first' last' : Nat} (h : FieldsInOrder first last fields) (hf : first' ≤ first)
    (hl : last ≤ last') : FieldsInOrder first' last' fields where
  sorted := h.sorted
  within := fun d hd => by
    have := h.within d hd
    omega

/-- Fields go on behind other ones on the line where those end, or below it. -/
theorem append {middle : Nat} (h : FieldsInOrder first middle fields)
    (h' : FieldsInOrder middle last more) (hf : first ≤ middle) (hl : middle ≤ last) :
    FieldsInOrder first last (fields ++ more) where
  sorted := List.pairwise_append.2 ⟨h.sorted, h'.sorted, fun d hd e he =>
    Int.le_trans (h.within d hd).2 (h'.within e he).1⟩
  within := fun d hd => by
    rcases List.mem_append.1 hd with hd | hd
    · exact (h.mono (Nat.le_refl _) hl).within d hd
    · exact (h'.mono hf (Nat.le_refl _)).within d hd

end FieldsInOrder

theorem line_fieldEntry {comment : String} {number : Int} {entry : List Char} {d : FieldDecl}
    (h : d ∈ fieldEntry comment number entry) : d.line = number := by
  unfold fieldEntry at h
  dsimp only at h
  split at h
  · cases h
  · split at h
    · obtain ⟨name, -, rfl⟩ := List.mem_map.1 h
      rfl
    · rw [List.mem_singleton.1 h]

theorem inOrder_entriesOf (comment : String) (number : Nat) (text : List Char) :
    FieldsInOrder number number (entriesOf comment number text) :=
  .of_line fun _ hd => by
    obtain ⟨entry, -, hd⟩ := List.mem_flatMap.1 hd
    exact line_fieldEntry hd

/-! ### Struct bodies -/

/-- A body takes lines off the front of those below it. -/
theorem structBody_rest_suffix (depth : Int) (entry : OpenEntry) (lines : List Line) :
    (structBody depth entry lines).rest <:+ lines := by
  induction lines generalizing depth entry with
  | nil => exact List.suffix_rfl
  | cons line rest ih =>
    have hrest : rest <:+ line :: rest := List.suffix_cons line rest
    unfold structBody
    split
    · exact (ih _ _).trans hrest
    · split
      · exact hrest
      · dsimp only
        split
        · exact (ih _ _).trans hrest
        · exact (ih _ _).trans hrest

/-- The fields of a body are in order up to its last line.  Those of an entry that is open in front
of the lines stand where it starts. -/
theorem structBody_inOrder (h : AreLeft total read lines) (depth : Int) (entry : OpenEntry)
    (hfirst : first ≤ read) (hentry : depth ≠ 0 → first ≤ entry.line ∧ entry.line ≤ read) :
    ∃ last, read ≤ last ∧ AreLeft total last (structBody depth entry lines).rest ∧
      FieldsInOrder first last (structBody depth entry lines).fields := by
  induction lines generalizing read first depth entry with
  | nil => exact ⟨read, Nat.le_refl _, h, .nil⟩
  | cons line rest ih =>
    obtain ⟨hnumber, hrest⟩ := h.cons
    unfold structBody
    split
    · -- a line without code
      have hopen (hd : depth ≠ 0) : first ≤ entry.line ∧ entry.line ≤ read + 1 := by
        have := hentry hd
        omega
      obtain ⟨last, hle, hleft, hfields⟩ := ih hrest depth entry (by omega) hopen
      exact ⟨last, by omega, hleft, hfields⟩
    · split
      · -- the line that closes the body
        have hbound : first ≤ line.number := by omega
        refine ⟨read + 1, by omega, hrest, ?_⟩
        exact (inOrder_entriesOf _ _ _).mono hbound (Nat.le_of_eq hnumber)
      · dsimp only
        generalize hopen : (if depth = 0 then OpenEntry.ofLine line else entry.add line) = opened
        have hline : first ≤ opened.line ∧ opened.line ≤ read + 1 := by
          rw [← hopen]
          split
          · simp only [OpenEntry.ofLine]
            omega
          · next hd =>
            have := hentry hd
            simp only [OpenEntry.add]
            omega
        split
        · -- the entry ends on this line
          obtain ⟨last, hle, hleft, hfields⟩ :=
            ih hrest 0 opened hline.2 fun hd => absurd rfl hd
          refine ⟨last, by omega, hleft, ?_⟩
          exact ((inOrder_entriesOf _ _ _).append hfields (Nat.le_refl _) (by omega)).mono hline.1
            (Nat.le_refl _)
        · -- the entry goes on below
          obtain ⟨last, hle, hleft, hfields⟩ := ih hrest _ opened (by omega) fun _ => hline
          exact ⟨last, by omega, hleft, hfields⟩

/-! ### Type specifications -/

theorem collectType_rest_suffix (depth : Int) (lines : List Line) :
    (collectType depth lines).2 <:+ lines := by
  induction lines generalizing depth with
  | nil => exact List.suffix_rfl
  | cons line rest ih =>
    have hrest : rest <:+ line :: rest := List.suffix_cons line rest
    unfold collectType
    split
    · exact List.suffix_rfl
    · split
      · exact (ih _).trans hrest
      · exact (ih _).trans hrest

/-- The struct stands on a line, and its fields are in order from there to another one. -/
structure StructDecl.Spans (d : StructDecl) (first last : Nat) : Prop where
  position : d.position.line = first
  fields : FieldsInOrder first last d.fields

namespace Scanner

variable (s : Scanner)

/-- A struct stands on the line where its specification starts, and takes lines off those below. -/
theorem readStruct_spans (spec : TypeSpec) (doc : List (List Char)) (text : List Char)
    (h : AreLeft total read (line :: rest)) :
    ∃ last d, read < last ∧ AreLeft total last (s.readStruct spec line doc text rest).2 ∧
      (s.readStruct spec line doc text rest).1.structs = [d] ∧ d.Spans (read + 1) last := by
  obtain ⟨hnumber, hrest⟩ := h.cons
  have hposition : (line.number : Int) = (read + 1 : Nat) := by rw [hnumber]
  unfold readStruct
  dsimp only
  split
  · -- closed on its first line
    refine ⟨read + 1, _, by omega, hrest, rfl, hposition, .of_line fun d hd => ?_⟩
    obtain ⟨e, -, rfl⟩ := List.mem_map.1 hd
    exact hposition
  · obtain ⟨last, hle, hleft, hfields⟩ := structBody_inOrder hrest 0
      { lines := [], comment := "", line := line.number } (Nat.le_refl (read + 1))
      fun hd => absurd rfl hd
    refine ⟨last, _, by omega, hleft, rfl, hposition, ?_⟩
    rw [hnumber] at hfields ⊢
    exact (inOrder_entriesOf _ _ _).append hfields (Nat.le_refl _) hle

theorem readSpec_rest_suffix (text : List Char) (line : Line) (doc : List (List Char))
    (rest : List Line) : (s.readSpec text line doc rest).2 <:+ rest := by
  unfold readSpec
  split
  · exact List.suffix_rfl
  · split
    · unfold readStruct
      dsimp only
      split
      · exact List.suffix_rfl
      · exact structBody_rest_suffix _ _ _
    · exact collectType_rest_suffix _ _

/-- A type specification declares no struct, or one that stands on the line where it starts. -/
theorem readSpec_cases (text : List Char) (doc : List (List Char))
    (h : AreLeft total read (line :: rest)) :
    ∃ last, read < last ∧ AreLeft total last (s.readSpec text line doc rest).2 ∧
      ((s.readSpec text line doc rest).1.structs = [] ∨
        ∃ d, (s.readSpec text line doc rest).1.structs = [d] ∧ d.Spans (read + 1) last) := by
  obtain ⟨-, hrest⟩ := h.cons
  unfold readSpec
  split
  · exact ⟨read + 1, Nat.lt_succ_self _, hrest, .inl rfl⟩
  · next spec _ =>
    split
    · obtain ⟨last, d, hlt, hleft, hd, hspans⟩ := s.readStruct_spans spec doc _ h
      exact ⟨last, hlt, hleft, .inr ⟨d, hd, hspans⟩⟩
    · obtain ⟨last, hle, hleft⟩ :=
        hrest.of_suffix (collectType_rest_suffix (depthDelta spec.typeText) rest)
      exact ⟨last, hle, hleft, .inl rfl⟩

end Scanner

/-! ### Structs -/

/-- Structs stand on lines up to some line, each below the fields of the one before it, and the
fields of each are in order from its own line on. -/
structure StructsInOrder (last : Nat) (structs : List StructDecl) : Prop where
  position_within : ∀ d ∈ structs, 1 ≤ d.position.line ∧ d.position.line ≤ last
  position_lt : structs.Pairwise fun d e => d.position.line < e.position.line
  fields_sorted : ∀ d ∈ structs, d.fields.Pairwise fun f g => f.line ≤ g.line
  fields_within : ∀ d ∈ structs, ∀ f ∈ d.fields, d.position.line ≤ f.line ∧ f.line ≤ last
  fields_lt : structs.Pairwise fun d e => ∀ f ∈ d.fields, f.line < e.position.line

namespace StructsInOrder

variable {structs : List StructDecl} {d : StructDecl}

theorem nil : StructsInOrder last [] where
  position_within := fun _ hd => nomatch hd
  position_lt := .nil
  fields_sorted := fun _ hd => nomatch hd
  fields_within := fun _ hd => nomatch hd
  fields_lt := .nil

/-- Structs in order up to a line are in order up to every line below it. -/
theorem mono {last' : Nat} (h : StructsInOrder last structs) (hl : last ≤ last') :
    StructsInOrder last' structs where
  position_within := fun d hd => by
    have := h.position_within d hd
    omega
  position_lt := h.position_lt
  fields_sorted := h.fields_sorted
  fields_within := fun d hd f hf => by
    have := h.fields_within d hd f hf
    omega
  fields_lt := h.fields_lt

/-- A struct below those found so far keeps the order. -/
theorem concat (h : StructsInOrder read structs) (hd : d.Spans (read + 1) last)
    (hl : read < last) : StructsInOrder last (structs ++ [d]) where
  position_within := fun e he => by
    rcases List.mem_append.1 he with he | he
    · exact (h.mono (Nat.le_of_lt hl)).position_within e he
    · rw [List.mem_singleton.1 he, hd.position]
      omega
  position_lt := List.pairwise_append.2 ⟨h.position_lt, List.pairwise_singleton _ _,
    fun e he f hf => by
      have := h.position_within e he
      rw [List.mem_singleton.1 hf, hd.position]
      omega⟩
  fields_sorted := fun e he => by
    rcases List.mem_append.1 he with he | he
    · exact h.fields_sorted e he
    · rw [List.mem_singleton.1 he]
      exact hd.fields.sorted
  fields_within := fun e he f hf => by
    rcases List.mem_append.1 he with he | he
    · exact (h.mono (Nat.le_of_lt hl)).fields_within e he f hf
    · rw [List.mem_singleton.1 he] at hf ⊢
      rw [hd.position]
      exact hd.fields.within f hf
  fields_lt := List.pairwise_append.2 ⟨h.fields_lt, List.pairwise_singleton _ _,
    fun e he g hg f hf => by
      have := h.fields_within e he f hf
      rw [List.mem_singleton.1 hg, hd.position]
      omega⟩

end StructsInOrder

/-! ### Scans -/

/-- What has been found is in order up to the last line that has been read. -/
def Scan.IsInOrder (total : Nat) (σ : Scan) : Prop :=
  ∃ read, AreLeft total read σ.rest ∧ StructsInOrder read σ.found.structs

namespace Scanner

variable {s : Scanner} {σ : Scan}

/-- A turn takes lines off the front of those that are left, and the one it looks at is gone. -/
theorem turn_rest_suffix (s : Scanner) (σ : Scan) (line : Line) (rest : List Line) :
    (s.turn σ line rest).rest <:+ rest := by
  obtain ⟨-, h⟩ | ⟨-, inGroup, package, h⟩ | ⟨-, text, -, h⟩ := s.turn_cases σ line rest
  · simp only [h]
    exact List.suffix_rfl
  · simp only [h]
    exact List.suffix_rfl
  · rw [h]
    exact s.readSpec_rest_suffix text line σ.doc rest

theorem isInOrder_turn (h : σ.IsInOrder total) (hr : σ.rest = line :: rest) :
    (s.turn σ line rest).IsInOrder total := by
  obtain ⟨read, hleft, hstructs⟩ := h
  rw [hr] at hleft
  have hrest := hleft.cons.2
  have hbelow := hstructs.mono (Nat.le_succ read)
  obtain ⟨-, hturn⟩ | ⟨-, inGroup, package, hturn⟩ | ⟨-, text, -, hturn⟩ := s.turn_cases σ line rest
  · rw [hturn]
    exact ⟨read + 1, hrest, hbelow⟩
  · rw [hturn]
    exact ⟨read + 1, hrest, hbelow⟩
  · obtain ⟨last, hlt, hleft, hcases⟩ := s.readSpec_cases text σ.doc hleft
    rw [hturn]
    refine ⟨last, hleft, ?_⟩
    change StructsInOrder last (σ.found.structs ++ _)
    rcases hcases with hnone | ⟨d, hone, hspans⟩
    · rw [hnone, List.append_nil]
      exact hstructs.mono (Nat.le_of_lt hlt)
    · rw [hone]
      exact hstructs.concat hspans hlt

/-- What has been found is in order in front of every line that a scan reaches. -/
theorem Reaches.isInOrder {source : String} (h : s.Reaches source σ) :
    σ.IsInOrder (Text.splitLines source.toList).length := by
  induction h with
  | start => exact ⟨0, areLeft_sourceLines source.toList, .nil⟩
  | turn _ hr ih => exact isInOrder_turn ih hr

end Scanner

/-- Every turn of a scan takes the line it looks at off the front of those that are left, with lines
below it or without; the turns come to the end of the source; and the structs that are found stand
on its lines in order and without overlap, with their fields. -/
theorem scan_inOrder (s : Scanner) (source : String) :
    (∀ (σ : Scan) (line : Line) (rest : List Line), (s.turn σ line rest).rest <:+ rest) ∧
    (∃ σ, s.Reaches source σ ∧ σ.rest = [] ∧ σ.found = s.scan source) ∧
    StructsInOrder (Text.splitLines source.toList).length (s.scan source).structs := by
  obtain ⟨σ, hσ, hend, -⟩ := (Scanner.Reaches.start : s.Reaches source _).exists_end
  have hfound := hσ.found_eq hend
  refine ⟨s.turn_rest_suffix, ⟨σ, hσ, hend, hfound⟩, ?_⟩
  obtain ⟨read, hleft, hstructs⟩ := hσ.isInOrder
  rw [hfound] at hstructs
  refine hstructs.mono ?_
  rw [← hleft.count]
  exact Nat.le_add_right _ _

end StructLayout.Source
