import StructLayout.Proofs.Source.Compaction
import StructLayout.Proofs.Source.FieldEntry
import StructLayout.Proofs.Source.NestedText

/-!
# Texts of types and names

What the texts of types have in common, however they are written: they are nested properly, hold no
separator outside of brackets, and start and end with firm characters (`IsTypeText`).  Names are such
texts, and so are names with commas between them.  The main statements say that names are left alone
when they are tidied (`Identifier.tidy_chars`, `tidy_namesText`).
-/

namespace StructLayout.Source

/-! ### Type texts -/

/-- No separator between the fields of a struct. -/
def NoBreak (c : Char) : Prop := c ≠ ';' ∧ c ≠ '\n'

instance (c : Char) : Decidable (NoBreak c) := inferInstanceAs (Decidable (_ ∧ _))

def StartsType (cs : List Char) : Prop := ∃ c rest, cs = c :: rest ∧ StartsFirm c ∧ c ≠ ','

def EndsType (cs : List Char) : Prop :=
  ∃ init c, cs = init ++ [c] ∧ EndsFirm c ∧ isQuote c = false

/-- Text that a scanner keeps in one piece and that is separate from what stands around it. -/
structure IsTypeText (cs : List Char) : Prop where
  nested : IsNested NoBreak cs
  starts : StartsType cs
  ends : EndsType cs

/-- Text that stands between separators: parameters, methods and fields. -/
structure IsPart (cs : List Char) : Prop where
  nested : IsNested NoBreak cs
  starts : StartsFirmly cs
  ends : EndsFirmly cs

variable {cs xs ys : List Char}

theorem StartsType.firmly (h : StartsType cs) : StartsFirmly cs := by
  obtain ⟨c, rest, he, hc, -⟩ := h
  exact ⟨c, rest, he, hc⟩

theorem EndsType.firmly (h : EndsType cs) : EndsFirmly cs := by
  obtain ⟨init, c, he, hc, -⟩ := h
  exact ⟨init, c, he, hc⟩

theorem IsTypeText.isPart (h : IsTypeText cs) : IsPart cs :=
  ⟨h.nested, h.starts.firmly, h.ends.firmly⟩

theorem EndsType.append (h : EndsType ys) : EndsType (xs ++ ys) := by
  obtain ⟨init, c, rfl, hc⟩ := h
  exact ⟨xs ++ init, c, (List.append_assoc ..).symm, hc⟩

theorem EndsType.cons (c : Char) (h : EndsType ys) : EndsType (c :: ys) := @EndsType.append [c] ys h

theorem StartsType.append (h : StartsType xs) : StartsType (xs ++ ys) := by
  obtain ⟨c, rest, rfl, hc⟩ := h
  exact ⟨c, rest ++ ys, rfl, hc⟩

theorem IsNested.space (h : IsNested NoBreak cs) : IsNested NoBreak (' ' :: cs) :=
  .cons rfl rfl rfl (by decide) h

theorem endsFirm_of_isPlain {c : Char} (h : IsPlain c) : EndsFirm c := by
  obtain ⟨hb, -, ho, -, hs, -⟩ := h
  refine ⟨hb, hs, ?_⟩
  rintro rfl
  cases ho

theorem startsFirm_of_isPlain {c : Char} (h : IsPlain c) : StartsFirm c := by
  obtain ⟨hb, -, -, hc, hs, -⟩ := h
  refine ⟨hb, hs, ?_⟩
  rintro rfl
  cases hc

theorem noBreak_of_isPlain {c : Char} (h : IsPlain c) : NoBreak c := by
  obtain ⟨hb, -, -, -, hs, -⟩ := h
  refine ⟨hs, ?_⟩
  rintro rfl
  cases hb

theorem isNested_of_isPlain (h : ∀ c ∈ cs, IsPlain c) : IsNested NoBreak cs :=
  .of_plain fun c hc => ⟨(h c hc).2.1, (h c hc).2.2.1, (h c hc).2.2.2.1, noBreak_of_isPlain (h c hc)⟩

theorem isTypeText_of_isPlain (hne : cs ≠ []) (h : ∀ c ∈ cs, IsPlain c) : IsTypeText cs where
  nested := isNested_of_isPlain h
  starts := by
    obtain ⟨c, rest, rfl⟩ := List.exists_cons_of_ne_nil hne
    have hp := h c (by simp)
    exact ⟨c, rest, rfl, startsFirm_of_isPlain hp, hp.2.2.2.2.2.1⟩
  ends := by
    have hp := h _ (List.getLast_mem hne)
    exact ⟨cs.dropLast, cs.getLast hne, (List.dropLast_concat_getLast hne).symm,
      endsFirm_of_isPlain hp, hp.2.1⟩

theorem IsTypeText.trim_eq (h : IsTypeText cs) : Text.trim cs = cs :=
  trim_of_firm h.starts.firmly h.ends.firmly

theorem IsTypeText.compact_eq (h : IsTypeText cs) : compact cs = tidy cs :=
  compact_eq_tidy h.starts.firmly h.ends.firmly

/-! ### Names -/

namespace Identifier

variable (name : Identifier)

theorem isPlain {c : Char} (h : c ∈ name.chars) : IsPlain c :=
  isPlain_of_continuesName (name.continuesName_of_mem h)

theorem isTypeText : IsTypeText name.chars :=
  isTypeText_of_isPlain (List.cons_ne_nil _ _) fun _ hc => name.isPlain hc

theorem tidy_chars : tidy name.chars = name.chars :=
  tidy_of_firm fun _ hc => endsFirm_of_isPlain (isPlain name hc)

end Identifier

def namesText (names : List Identifier) : List Char :=
  [',', ' '].intercalate (names.map Identifier.chars)

/-- Text between parts that a scanner does not look at. -/
theorem isNested_comma : IsNested NoBreak [',', ' '] := .of_plain (by decide)

theorem tidy_comma : tidy [',', ' '] = [',', ' '] := by decide

theorem tidy_semicolon : tidy [';', ' '] = [';', ' '] := by decide

theorem tidy_space : tidy [' '] = [' '] := by decide

/-- A blank in front of firm text stays. -/
theorem tidy_space_append (h : StartsFirmly cs) : tidy (' ' :: cs) = ' ' :: tidy cs := by
  have ha : tidy ([' '] ++ cs) = tidy [' '] ++ tidy cs := tidy_append_of_startsFirmly h
  rwa [tidy_space] at ha

/-- Names with commas between them stand in front of a type. -/
theorem isTypeText_namesText {names : List Identifier} (h : names ≠ []) :
    IsTypeText (namesText names) where
  nested := by
    refine .intercalate isNested_comma fun part hp => ?_
    obtain ⟨name, -, rfl⟩ := List.mem_map.1 hp
    exact name.isTypeText.nested
  starts := by
    obtain ⟨name, rest, rfl⟩ := List.exists_cons_of_ne_nil h
    obtain ⟨tail, ht⟩ := intercalate_cons [',', ' '] name.chars (rest.map Identifier.chars)
    rw [namesText, List.map_cons, ht]
    exact name.isTypeText.starts.append
  ends := by
    have hne : names.map Identifier.chars ≠ [] := by simpa using h
    obtain ⟨init, last, hl, he⟩ := intercalate_last [',', ' '] hne
    obtain ⟨name, -, rfl⟩ := List.mem_map.1 hl
    rw [namesText, he]
    exact name.isTypeText.ends.append

theorem tidy_namesText (names : List Identifier) : tidy (namesText names) = namesText names := by
  have hs : ∀ part ∈ names.map Identifier.chars, StartsFirmly part := by
    intro part hp
    obtain ⟨name, -, rfl⟩ := List.mem_map.1 hp
    exact name.isTypeText.starts.firmly
  have he : ∀ part ∈ names.map Identifier.chars, EndsFirmly part := by
    intro part hp
    obtain ⟨name, -, rfl⟩ := List.mem_map.1 hp
    exact name.isTypeText.ends.firmly
  rw [namesText, tidy_intercalate tidy_comma hs he, List.map_map]
  congr 1
  exact List.map_congr_left fun name _ => name.tidy_chars

theorem namesAndType?_namesText {names : List Identifier} {gap : List Char} (hn : names ≠ [])
    (hne : gap ≠ []) (hg : ∀ c ∈ gap, Text.isBlank c = true) (h : StartsType cs) :
    namesAndType? (namesText names ++ (gap ++ cs)) = some (names.map Identifier.chars, cs) := by
  obtain ⟨t, rest, rfl, ht, hc⟩ := h
  induction names with
  | nil => exact absurd rfl hn
  | cons name names ih =>
      cases names with
      | nil =>
          have hone : namesText [name] = name.chars := by simp [namesText]
          rw [hone]
          exact namesAndType?_single name hne hg ht.1 hc
      | cons next names =>
          have hmore := ih (List.cons_ne_nil _ _)
          obtain ⟨c, tail, he, hs, -⟩ := (isTypeText_namesText (List.cons_ne_nil next names)).starts
          have hfirst : Text.trimStart (namesText (next :: names) ++ (gap ++ t :: rest)) =
              namesText (next :: names) ++ (gap ++ t :: rest) := by
            rw [he]
            exact Text.trimStart_eq_self hs.1
          have hrw : namesText (name :: next :: names) ++ (gap ++ t :: rest) =
              name.chars ++
                ([] ++ ',' :: ([' '] ++ (namesText (next :: names) ++ (gap ++ t :: rest)))) := by
            simp [namesText, List.intercalate_cons_cons]
          rw [hrw]
          exact namesAndType?_cons name (by simp) (by decide) hfirst hmore

section Entry

variable {gap before : List Char} (hne : before ≠ [])
  (hb : ∀ c ∈ before, Text.isBlank c = true) (hg : ∀ c ∈ gap, Text.isBlank c = true)
include hne hb hg

theorem fieldEntry_names {names : List Identifier} (hn : names ≠ []) (h : IsTypeText cs)
    (tag : Option RawTag) (comment : String) (line : Int) :
    fieldEntry comment line ((namesText names ++ (before ++ cs)) ++ writtenTag gap tag) =
      names.map fun name => writtenField comment line tag name.chars (compact cs) := by
  obtain ⟨s, rest, hs, hfirm, -⟩ := (isTypeText_namesText hn).starts
  obtain ⟨init, c, he, hc, hq⟩ : EndsType (namesText names ++ (before ++ cs)) := h.ends.append.append
  have hcons : namesText names ++ (before ++ cs) = s :: (rest ++ (before ++ cs)) := by
    rw [hs]
    rfl
  have hread := namesAndType?_namesText hn hne hb h.starts
  rw [hcons] at he hread
  rw [hcons, fieldEntry_named hfirm.1 hc.1 hq he hg tag comment line hread, List.map_map]
  rfl

end Entry

theorem isNested_writtenTag {gap : List Char} (hg : IsNested NoBreak gap) (tag : Option RawTag) :
    IsNested NoBreak (writtenTag gap tag) := by
  cases tag with
  | none => exact .nil
  | some tag => exact hg.append (.rawLiteral tag.closed)

/-! ### Parts of a body -/

theorem trim_padded {pre post part : List Char} (hpre : ∀ c ∈ pre, Text.isBlank c = true)
    (hpost : ∀ c ∈ post, Text.isBlank c = true) (h : IsPart part) :
    Text.trim (pre ++ (part ++ post)) = part := by
  have hstart : Text.trimStart (part ++ post) = part ++ post := by
    obtain ⟨c, rest, rfl, hc⟩ := h.starts
    exact Text.trimStart_eq_self hc.1
  have hpart := trim_of_firm h.starts h.ends
  have hself : Text.trimStart part = part := by
    obtain ⟨c, rest, rfl, hc⟩ := h.starts
    exact Text.trimStart_eq_self hc.1
  rw [Text.trim, hself] at hpart
  rw [Text.trim, Text.trimStart_append hpre, hstart, Text.trimEnd_append hpost, hpart]

theorem keptParts_padded {pre post part : List Char} (hpre : ∀ c ∈ pre, Text.isBlank c = true)
    (hpost : ∀ c ∈ post, Text.isBlank c = true) (h : IsPart part) :
    keptParts [pre ++ (part ++ post)] = [part] := by
  have hne : part.isEmpty = false := by
    obtain ⟨c, rest, rfl, -⟩ := h.starts
    rfl
  simp only [keptParts, List.map_cons, List.map_nil, trim_padded hpre hpost h]
  simp [hne]

theorem noBreak_separators {c : Char} (h : NoBreak c) : c ∉ entrySeparators := by
  simp [entrySeparators, h.1, h.2]

/-- The entries of a body on one line are found again. -/
theorem splitTopLevel_entries {pre post : List Char} {parts : List (List Char)} (hne : parts ≠ [])
    (hpre : ∀ c ∈ pre, c = ' ') (hpost : ∀ c ∈ post, c = ' ') (h : ∀ part ∈ parts, IsPart part) :
    splitTopLevel entrySeparators (pre ++ ([';', ' '].intercalate parts ++ post)) = parts := by
  have hblank {gap : List Char} (hg : ∀ c ∈ gap, c = ' ') : ∀ c ∈ gap, Text.isBlank c = true := by
    intro c hc
    rw [hg c hc]
    decide
  have hnested {gap : List Char} (hg : ∀ c ∈ gap, c = ' ') : IsNested NoBreak gap := by
    refine .of_plain fun c hc => ?_
    rw [hg c hc]
    decide
  induction parts generalizing pre with
  | nil => exact absurd rfl hne
  | cons part parts ih =>
      have hp := h part (by simp)
      cases parts with
      | nil =>
          have hone : [';', ' '].intercalate [part] = part := by simp
          have hn : IsNested NoBreak (pre ++ (part ++ post)) :=
            (hnested hpre).append (hp.nested.append (hnested hpost))
          rw [hone, splitTopLevel_nested hn fun c => noBreak_separators,
            keptParts_padded (hblank hpre) (hblank hpost) hp]
      | cons next parts =>
          have hrest : splitTopLevel entrySeparators
              ([' '] ++ ([';', ' '].intercalate (next :: parts) ++ post)) = next :: parts :=
            ih (List.cons_ne_nil _ _) (by decide) fun q hq => h q (by simp [hq])
          have he : pre ++ ([';', ' '].intercalate (part :: next :: parts) ++ post) =
              (pre ++ (part ++ [])) ++
                ';' :: ([' '] ++ ([';', ' '].intercalate (next :: parts) ++ post)) := by
            simp [List.intercalate_cons_cons]
          have hn : IsNested NoBreak (pre ++ (part ++ [])) :=
            (hnested hpre).append (hp.nested.append .nil)
          rw [he, splitTopLevel_append hn (fun c => noBreak_separators) (by decide) rfl rfl rfl,
            hrest, keptParts_padded (hblank hpre) (by simp) hp]
          rfl

end StructLayout.Source
