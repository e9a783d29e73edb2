import StructLayout.Proofs.Sizing.WrittenTypes
import StructLayout.Source.Declarations

/-!
# Structs as texts

A struct that is declared under a name is kept as a text: its fields, each with its name and its type,
between braces.  Such a text is read back as the struct of these types, provided that each type is one
piece of text when it stands between semicolons (`FieldDecl.IsReadable`).

A text that is left alone when it is brought onto one line has neither blanks at its ends nor line
breaks, and a nested one has neither a closing bracket at its start nor an opening one at its end
(`isTypeText_of_compact`).  The main statement is `parse_structExpr`.
-/

namespace StructLayout.Source

variable {cs : List Char} {top : Char → Prop} {ms : List (Char × Bool)}

/-! ### Text on one line -/

/-- Text on one line has no line break. -/
theorem newline_notMem_compact (cs : List Char) : '\n' ∉ compact cs := by
  intro h
  have hblank : '\n' ≠ ' ' := by decide
  have hb := (mem_passes ((Text.trim_sublist _).subset h)).resolve_right hblank
  obtain ⟨c, -, he⟩ := List.mem_map.1 ((Text.trim_sublist _).subset hb)
  split at he
  · cases he
  · next hne => exact hne he

/-- Text on one line is trimmed. -/
theorem trim_of_compact (h : compact cs = cs) : Text.trim cs = cs := by
  rw [← h]
  exact Text.trim_trim _

theorem isBlank_of_trim_concat {c : Char} {cs : List Char} (h : Text.trim (cs ++ [c]) = cs ++ [c]) :
    Text.isBlank c = false := by
  by_contra hb
  have hblank : ∀ d ∈ [c], Text.isBlank d = true := by simpa using hb
  have hshort : Text.trim (cs ++ [c]) = Text.trim cs := by
    rw [← Text.trim_trimEnd (cs ++ [c]), Text.trimEnd_append hblank, Text.trim_trimEnd]
  have hlength := (Text.trim_sublist cs).length_le
  rw [← hshort, h, List.length_append, List.length_singleton] at hlength
  omega

/-! ### The ends of nested text -/

/-- What holds of all characters of nested text holds of those outside of brackets. -/
theorem NestedMarks.and {p : Char → Prop} (h : NestedMarks top ms) (hp : ∀ m ∈ ms, p m.1) :
    NestedMarks (fun c => top c ∧ p c) ms := by
  induction h with
  | nil => exact .nil
  | literal _ ih => exact .literal (ih fun m hm => hp m (List.mem_cons_of_mem _ hm))
  | plain ho hc ht _ ih =>
      exact .plain ho hc ⟨ht, hp _ List.mem_cons_self⟩
        (ih fun m hm => hp m (List.mem_cons_of_mem _ hm))
  | bracket hb hi _ _ ih => exact .bracket hb hi (ih fun m hm => hp m (by simp [hm]))

/-- Nested text starts neither with a closing bracket nor with a character that may not stand outside
of brackets. -/
theorem NestedMarks.head {c : Char} (h : NestedMarks top ((c, true) :: ms)) :
    isCloser c = false ∧ (isOpener c = false → top c) := by
  cases h with
  | plain ho hc ht _ => exact ⟨hc, fun _ => ht⟩
  | bracket hb _ _ =>
      refine ⟨?_, fun ho => ?_⟩
      · rcases closerOf?_eq_some hb with ⟨rfl, -⟩ | ⟨rfl, -⟩ | ⟨rfl, -⟩ <;> rfl
      · rw [isOpener_of_closerOf? hb] at ho
        cases ho

/-- Nested text ends neither with an opening bracket nor with a character that may not stand outside of
brackets. -/
theorem NestedMarks.last {c : Char} (h : NestedMarks top (ms ++ [(c, true)])) :
    isOpener c = false ∧ (isCloser c = false → top c) := by
  have htotal : marksDelta ms + depthStep (c, true) = 0 := by
    have := marksDelta_nested h
    rwa [marksDelta_append, marksDelta_cons, show marksDelta [] = 0 from rfl, Int.add_zero] at this
  have hfront : 0 ≤ marksDelta ms := h.delta_nonneg rfl
  have ho : isOpener c = false := by
    by_contra ho
    have hstep : depthStep (c, true) = 1 := by simp [depthStep, ho]
    omega
  refine ⟨ho, fun hc => ?_⟩
  by_contra ht
  have hpos : 0 < marksDelta ms := h.delta_pos rfl ho hc ht
  have hstep : depthStep (c, true) = 0 := by simp [depthStep, ho, hc]
  omega

/-- Nested text without quotes that is on one line and does not start with a comma is the text of a
type. -/
theorem isTypeText_of_compact (hne : cs ≠ []) (hq : ∀ c ∈ cs, isQuote c = false)
    (hc : compact cs = cs) (hn : IsNested (· ≠ ';') cs) (hcomma : cs.head? ≠ some ',') :
    IsTypeText cs := by
  have hmarks : NestedMarks (· ≠ ';') (cs.map fun c => (c, true)) := by
    rw [← mark_code_eq hq]
    exact hn.marks
  have hbreak : ∀ c ∈ cs, c ≠ '\n' := by
    rintro c hm rfl
    rw [← hc] at hm
    exact newline_notMem_compact cs hm
  have htrim := trim_of_compact hc
  refine ⟨⟨?_, hn.closed⟩, ?_, ?_⟩
  · rw [mark_code_eq hq]
    refine hmarks.and fun m hm => ?_
    obtain ⟨c, hcm, rfl⟩ := List.mem_map.1 hm
    exact hbreak c hcm
  · obtain ⟨c, rest, rfl⟩ := List.exists_cons_of_ne_nil hne
    obtain ⟨hclose, htop⟩ := NestedMarks.head hmarks
    refine ⟨c, rest, rfl, ⟨Text.isBlank_of_trim_eq_cons htrim, ?_, ?_⟩, by simpa using hcomma⟩
    · rintro rfl
      exact htop rfl rfl
    · rintro rfl
      cases hclose
  · obtain ⟨init, c, rfl⟩ : ∃ init c, cs = init ++ [c] :=
      ⟨_, _, (List.dropLast_concat_getLast hne).symm⟩
    rw [List.map_append, List.map_singleton] at hmarks
    obtain ⟨hopen, htop⟩ := hmarks.last
    refine ⟨init, c, rfl, ⟨isBlank_of_trim_concat htrim, ?_, ?_⟩, hq c (by simp)⟩
    · rintro rfl
      exact htop rfl rfl
    · rintro rfl
      cases hopen

/-! ### Fields in the text of their struct -/

/-- A field that is read back from the text of its struct: its name is an identifier, and its type is
nested text on one line, without quotes, without a semicolon outside of brackets and without a comma in
front. -/
structure FieldDecl.IsReadable (d : FieldDecl) : Prop where
  name : ∃ name : Identifier, d.name.toList = name.chars
  ne_nil : d.typeExpr.toList ≠ []
  unquoted : ∀ c ∈ d.typeExpr.toList, isQuote c = false
  onOneLine : compact d.typeExpr.toList = d.typeExpr.toList
  nested : IsNested (· ≠ ';') d.typeExpr.toList
  noComma : d.typeExpr.toList.head? ≠ some ','

theorem FieldDecl.isReadable_of_isTypeText {d : FieldDecl} {name : Identifier}
    (hname : d.name.toList = name.chars) (ht : IsTypeText d.typeExpr.toList)
    (hq : ∀ c ∈ d.typeExpr.toList, isQuote c = false)
    (htidy : tidy d.typeExpr.toList = d.typeExpr.toList) : d.IsReadable where
  name := ⟨name, hname⟩
  ne_nil := by
    obtain ⟨c, rest, he, -⟩ := ht.starts
    rw [he]
    exact List.cons_ne_nil c rest
  unquoted := hq
  onOneLine := ht.compact_eq.trans htidy
  nested := ht.nested.mono fun _ h => h.1
  noComma := by
    obtain ⟨c, rest, he, -, hc⟩ := ht.starts
    rw [he]
    simpa using hc

theorem FieldDecl.isReadable_of_name {d : FieldDecl} {name type : Identifier}
    (hname : d.name.toList = name.chars) (htype : d.typeExpr.toList = type.chars) : d.IsReadable := by
  refine isReadable_of_isTypeText hname ?_ ?_ ?_
  · rw [htype]
    exact type.isTypeText
  · rw [htype]
    exact fun c hc => (type.isPlain hc).2.1
  · rw [htype]
    exact type.tidy_chars

/-- A field as its struct shows it. -/
def FieldDecl.entry (d : FieldDecl) : List Char := d.name.toList ++ ' ' :: d.typeExpr.toList

namespace FieldDecl.IsReadable

variable {d : FieldDecl}

theorem isTypeText (h : d.IsReadable) : IsTypeText d.typeExpr.toList :=
  isTypeText_of_compact h.ne_nil h.unquoted h.onOneLine h.nested h.noComma

theorem isPart_entry (h : d.IsReadable) : IsPart d.entry := by
  obtain ⟨name, hname⟩ := h.name
  have ht := h.isTypeText
  rw [FieldDecl.entry, hname]
  exact ⟨name.isTypeText.nested.append ht.nested.space, name.isTypeText.starts.firmly.append,
    (ht.ends.cons ' ').append.firmly⟩

theorem fieldEntry_entry (h : d.IsReadable) :
    (fieldEntry "" 0 d.entry).map FieldDecl.typeExpr = [d.typeExpr] := by
  obtain ⟨name, hname⟩ := h.name
  have hblank : ∀ c ∈ [' '], Text.isBlank c = true := by decide
  have hread := fieldEntry_names (List.cons_ne_nil ' ' []) hblank hblank (List.cons_ne_nil name [])
    h.isTypeText none "" 0
  have hentry : d.entry = (namesText [name] ++ ([' '] ++ d.typeExpr.toList)) ++ writtenTag [' '] none := by
    simp [FieldDecl.entry, hname, namesText, writtenTag]
  rw [hentry, hread]
  simp [writtenField, h.onOneLine]

end FieldDecl.IsReadable

variable {decls : List FieldDecl}

/-- What stands between the braces is nested, and the types of the fields are read back from it. -/
theorem fieldList_entries (h : ∀ d ∈ decls, d.IsReadable) :
    let inside := [';', ' '].intercalate (decls.map FieldDecl.entry)
    IsNested (fun _ => True) inside ∧
      (fieldList inside).map FieldDecl.typeExpr = decls.map FieldDecl.typeExpr := by
  intro inside
  have hparts : ∀ part ∈ decls.map FieldDecl.entry, IsPart part :=
    List.forall_mem_map.2 fun d hd => (h d hd).isPart_entry
  refine ⟨.intercalate (.of_plain (by decide)) fun part hp =>
    (hparts part hp).nested.mono fun _ _ => trivial, ?_⟩
  have hsplit : splitTopLevel entrySeparators inside = decls.map FieldDecl.entry := by
    cases decls with
    | nil => rfl
    | cons d decls =>
        have hs := splitTopLevel_entries (List.cons_ne_nil _ _) (List.forall_mem_nil _)
          (List.forall_mem_nil _) hparts
        rwa [List.nil_append, List.append_nil] at hs
  rw [fieldList, hsplit, List.flatMap_map, List.map_flatMap]
  clear hparts hsplit inside
  induction decls with
  | nil => rfl
  | cons d decls ih =>
      obtain ⟨hd, hrest⟩ := List.forall_mem_cons.1 h
      rw [List.flatMap_cons, hd.fieldEntry_entry, ih hrest]
      rfl

end StructLayout.Source

namespace StructLayout.Sizing

open Source

variable {decls : List FieldDecl}

theorem toList_structExpr (decls : List FieldDecl) :
    (structExpr decls).toList =
      structWord ++ '\x7b' :: ([';', ' '].intercalate (decls.map FieldDecl.entry) ++ ['\x7d']) := by
  have hentries : (decls.map fun d => d.name ++ " " ++ d.typeExpr).map String.toList =
      decls.map FieldDecl.entry := by
    rw [List.map_map]
    refine List.map_congr_left fun d _ => ?_
    simp [FieldDecl.entry]
  have hsep : "; ".toList = [';', ' '] := rfl
  have hword : "struct\x7b".toList = structWord ++ ['\x7b'] := rfl
  have hclose : "\x7d".toList = ['\x7d'] := rfl
  rw [structExpr, String.toList_append, String.toList_append, String.toList_intercalate, hentries, hsep,
    hword, hclose]
  simp

/-- The text of a struct is read as the struct of the types of its fields. -/
theorem parse_structExpr (h : ∀ d ∈ decls, d.IsReadable) :
    TypeTree.parse (structExpr decls).toList =
      .struct (structExpr decls) (decls.map fun d => TypeTree.parse d.typeExpr.toList) := by
  obtain ⟨hnested, htypes⟩ := fieldList_entries h
  have hparse := parse_structText hnested
  rw [← toList_structExpr, String.ofList_toList] at hparse
  rw [hparse]
  have hmap := congrArg (List.map fun t => TypeTree.parse t.toList) htypes
  rw [List.map_map, List.map_map] at hmap
  exact congrArg (TypeTree.struct (structExpr decls)) hmap

theorem trimmed_structExpr (h : ∀ d ∈ decls, d.IsReadable) :
    Text.trimmed (structExpr decls) = structExpr decls := by
  have htext := TypeTree.text_parse (structExpr decls).toList
  rw [parse_structExpr h] at htext
  exact htext.symm

end StructLayout.Sizing
