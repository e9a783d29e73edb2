import StructLayout.Source.Compact

/-!
# Compaction piece by piece

The passes that bring a type expression onto one line look at blanks, semicolons and braces and at
their neighbours, and at nothing else.  At a character that is none of these they work on the text
before it and on the text behind it separately; an opening brace still cuts a text in front of it, a
closing one behind it.  A pass with these properties is *local* (`IsLocal`), and so is a composition
of local passes.

The main statements say that tidying a text is local (`isLocal_tidy`), that compaction is tidying for
a text with firm characters at both ends (`compact_eq_tidy`), that blanks around a line break do not
matter (`tidy_break`), and that compaction leaves nothing only of blanks (`HasInk.compact`).
-/

namespace StructLayout.Source

/-! ### Local passes -/

/-- A character behind which a text can be cut. -/
def EndsFirm (c : Char) : Prop := Text.isBlank c = false ∧ c ≠ ';' ∧ c ≠ '\x7b'

/-- A character in front of which a text can be cut. -/
def StartsFirm (c : Char) : Prop := Text.isBlank c = false ∧ c ≠ ';' ∧ c ≠ '\x7d'

instance (c : Char) : Decidable (EndsFirm c) := inferInstanceAs (Decidable (_ ∧ _ ∧ _))

instance (c : Char) : Decidable (StartsFirm c) := inferInstanceAs (Decidable (_ ∧ _ ∧ _))

/-- A pass that works separately on both sides of a cut behind an `ends` character or in front of a
`starts` character, and keeps these characters in their places. -/
structure IsLocal (ends starts : Char → Prop) (f : List Char → List Char) : Prop where
  append_end : ∀ xs c ys, ends c → f (xs ++ c :: ys) = f (xs ++ [c]) ++ f ys
  keeps_end : ∀ xs c, ends c → ∃ zs, f (xs ++ [c]) = zs ++ [c]
  append_start : ∀ xs c ys, starts c → f (xs ++ c :: ys) = f xs ++ f (c :: ys)
  keeps_start : ∀ c ys, starts c → ∃ zs, f (c :: ys) = c :: zs

variable {ends starts : Char → Prop} {f g : List Char → List Char}

theorem IsLocal.comp (hg : IsLocal ends starts g) (hf : IsLocal ends starts f) :
    IsLocal ends starts fun cs => g (f cs) where
  append_end xs c ys hc := by
    obtain ⟨zs, hz⟩ := hf.keeps_end xs c hc
    rw [hf.append_end xs c ys hc, hz, List.append_assoc]
    exact hg.append_end zs c (f ys) hc
  keeps_end xs c hc := by
    obtain ⟨zs, hz⟩ := hf.keeps_end xs c hc
    rw [hz]
    exact hg.keeps_end zs c hc
  append_start xs c ys hc := by
    obtain ⟨zs, hz⟩ := hf.keeps_start c ys hc
    rw [hf.append_start xs c ys hc, hz]
    exact hg.append_start (f xs) c zs hc
  keeps_start c ys hc := by
    obtain ⟨zs, hz⟩ := hf.keeps_start c ys hc
    rw [hz]
    exact hg.keeps_start c zs hc

theorem IsLocal.reverse (hf : IsLocal starts ends f) :
    IsLocal ends starts fun cs => (f cs.reverse).reverse where
  append_end xs c ys hc := by
    have h := hf.append_start ys.reverse c xs.reverse hc
    simp [h]
  keeps_end xs c hc := by
    obtain ⟨zs, hz⟩ := hf.keeps_start c xs.reverse hc
    exact ⟨zs.reverse, by simp [hz]⟩
  append_start xs c ys hc := by
    have h := hf.append_end ys.reverse c xs.reverse hc
    simp [h]
  keeps_start c ys hc := by
    obtain ⟨zs, hz⟩ := hf.keeps_end ys.reverse c hc
    exact ⟨zs.reverse, by simp [hz]⟩

/-- A pass that reads a text from left to right with a state: an `ends` character takes it back to
the idle state, and before a `starts` character the state does not matter. -/
structure IsScan {σ : Type} (ends starts : Char → Prop) (pass : σ → List Char → List Char)
    (idle : σ) : Prop where
  nil : ∀ s, pass s [] = []
  step : ∀ s c, ∃ out s', ∀ rest, pass s (c :: rest) = out ++ pass s' rest
  at_end : ∀ s c rest, ends c → pass s (c :: rest) = c :: pass idle rest
  at_start : ∀ s c rest, starts c → pass s (c :: rest) = pass idle (c :: rest)
  at_start_idle : ∀ c rest, starts c → ∃ zs, pass idle (c :: rest) = c :: zs

namespace IsScan

variable {σ : Type} {pass : σ → List Char → List Char} {idle : σ}

theorem append_end (h : IsScan ends starts pass idle) (s : σ) (xs : List Char) {c : Char}
    (ys : List Char) (hc : ends c) :
    pass s (xs ++ c :: ys) = pass s (xs ++ [c]) ++ pass idle ys := by
  induction xs generalizing s with
  | nil =>
      rw [List.nil_append, List.nil_append, h.at_end s c ys hc, h.at_end s c [] hc, h.nil]
      rfl
  | cons x xs ih =>
      obtain ⟨out, s', hs⟩ := h.step s x
      rw [List.cons_append, List.cons_append, hs, hs, ih s', List.append_assoc]

theorem keeps_end (h : IsScan ends starts pass idle) (s : σ) (xs : List Char) {c : Char}
    (hc : ends c) : ∃ zs, pass s (xs ++ [c]) = zs ++ [c] := by
  induction xs generalizing s with
  | nil => exact ⟨[], by rw [List.nil_append, h.at_end s c [] hc, h.nil]⟩
  | cons x xs ih =>
      obtain ⟨out, s', hs⟩ := h.step s x
      obtain ⟨zs, hz⟩ := ih s'
      exact ⟨out ++ zs, by rw [List.cons_append, hs, hz, List.append_assoc]⟩

theorem append_start (h : IsScan ends starts pass idle) (s : σ) (xs : List Char) {c : Char}
    (ys : List Char) (hc : starts c) :
    pass s (xs ++ c :: ys) = pass s xs ++ pass idle (c :: ys) := by
  induction xs generalizing s with
  | nil => rw [List.nil_append, h.nil, List.nil_append, h.at_start s c ys hc]
  | cons x xs ih =>
      obtain ⟨out, s', hs⟩ := h.step s x
      rw [List.cons_append, hs, hs, ih s', List.append_assoc]

theorem isLocal (h : IsScan ends starts pass idle) : IsLocal ends starts (pass idle) where
  append_end xs _ ys hc := h.append_end idle xs ys hc
  keeps_end xs _ hc := h.keeps_end idle xs hc
  append_start xs _ ys hc := h.append_start idle xs ys hc
  keeps_start c ys hc := h.at_start_idle c ys hc

end IsScan

/-! ### The passes -/

theorem isLocal_semicolonsForBreaks : IsLocal EndsFirm StartsFirm semicolonsForBreaks := by
  have keep {c : Char} (hb : Text.isBlank c = false) : ¬ c = '\n' := by
    rintro rfl
    exact absurd hb (by decide)
  refine ⟨?_, ?_, ?_, ?_⟩
  · intro xs c ys _
    simp [semicolonsForBreaks]
  · intro xs c hc
    exact ⟨semicolonsForBreaks xs, by simp [semicolonsForBreaks, keep hc.1]⟩
  · intro xs c ys _
    simp [semicolonsForBreaks]
  · intro c ys hc
    exact ⟨semicolonsForBreaks ys, by simp [semicolonsForBreaks, keep hc.1]⟩

theorem closeUpSemicolons_cons_of_isBlank_eq_false {c : Char} (h : Text.isBlank c = false)
    (cs : List Char) : closeUpSemicolons (c :: cs) = c :: closeUpSemicolons cs := by
  simp [closeUpSemicolons, h]

theorem closeUpSemicolons_keeps_end (xs : List Char) {c : Char} (hc : EndsFirm c) :
    ∃ zs, closeUpSemicolons (xs ++ [c]) = zs ++ [c] := by
  induction xs with
  | nil => exact ⟨[], closeUpSemicolons_cons_of_isBlank_eq_false hc.1 []⟩
  | cons x xs ih =>
      obtain ⟨zs, hz⟩ := ih
      simp only [List.cons_append, closeUpSemicolons]
      split
      · exact ⟨zs, hz⟩
      · exact ⟨x :: zs, by rw [hz]; rfl⟩

/-- Whether a blank is dropped depends on the next character that is kept. -/
theorem closeUpSemicolons_cons_append {x : Char} {xs ys zs : List Char}
    (h : closeUpSemicolons ys = closeUpSemicolons xs ++ zs)
    (hhead : (closeUpSemicolons xs ++ zs).head? = some ';' ↔
      (closeUpSemicolons xs).head? = some ';') :
    closeUpSemicolons (x :: ys) = closeUpSemicolons (x :: xs) ++ zs := by
  simp only [closeUpSemicolons, h]
  by_cases hx : Text.isBlank x = true
  · by_cases hs : (closeUpSemicolons xs).head? = some ';'
    · rw [if_pos (by simp [hx, hhead.2 hs]), if_pos (by simp [hx, hs])]
    · have hn : ¬ (closeUpSemicolons xs ++ zs).head? = some ';' := fun hy => hs (hhead.1 hy)
      rw [if_neg (by simp only [hn, decide_false, Bool.and_false, Bool.false_eq_true,
        not_false_eq_true]), if_neg (by simp [hs])]
      rfl
  · simp [hx]

theorem isLocal_closeUpSemicolons : IsLocal EndsFirm StartsFirm closeUpSemicolons where
  append_end xs c ys hc := by
    induction xs with
    | nil =>
        rw [List.nil_append, List.nil_append, closeUpSemicolons_cons_of_isBlank_eq_false hc.1,
          closeUpSemicolons_cons_of_isBlank_eq_false hc.1]
        rfl
    | cons x xs ih =>
        refine closeUpSemicolons_cons_append ih ?_
        obtain ⟨zs, hz⟩ := closeUpSemicolons_keeps_end xs hc
        have he : closeUpSemicolons (xs.append [c]) = zs ++ [c] := hz
        rw [he]
        cases zs <;> simp
  keeps_end xs c hc := closeUpSemicolons_keeps_end xs hc
  append_start xs c ys hc := by
    induction xs with
    | nil => rfl
    | cons x xs ih =>
        refine closeUpSemicolons_cons_append ih ?_
        rw [closeUpSemicolons_cons_of_isBlank_eq_false hc.1]
        cases closeUpSemicolons xs with
        | nil => simp [hc.2.1]
        | cons => simp
  keeps_start c ys hc := ⟨_, closeUpSemicolons_cons_of_isBlank_eq_false hc.1 ys⟩

theorem isLocal_spaceSemicolons : IsLocal EndsFirm StartsFirm (spaceSemicolons false) := by
  refine IsScan.isLocal ⟨fun _ => rfl, ?_, ?_, ?_, ?_⟩
  · intro gap c
    by_cases hb : (gap && Text.isBlank c) = true
    · exact ⟨[], true, fun rest => by simp [spaceSemicolons, hb]⟩
    · by_cases hs : c = ';'
      · exact ⟨[';', ' '], true, fun rest => by rw [spaceSemicolons, if_neg hb, if_pos hs]; rfl⟩
      · exact ⟨[c], false, fun rest => by simp [spaceSemicolons, hb, hs]⟩
  · intro gap c rest hc
    simp [spaceSemicolons, hc.1, hc.2.1]
  · intro gap c rest hc
    simp [spaceSemicolons, hc.1, hc.2.1]
  · intro c rest hc
    exact ⟨spaceSemicolons false rest, by simp [spaceSemicolons, hc.2.1]⟩

/-- Tightening behind a brace is idle behind a firm character other than the brace. -/
theorem isScan_tighten {brace : Char} (behind : Slack)
    (he : ∀ c, ends c → Text.isBlank c = false ∧ c ≠ ';' ∧ c ≠ brace)
    (hs : ∀ c, starts c → Text.isBlank c = false ∧ c ≠ ';') :
    IsScan ends starts (tighten brace behind) .nothing := by
  refine ⟨fun _ => by simp [tighten], ?_, ?_, ?_, ?_⟩
  · intro slack c
    by_cases hb : (slack != .nothing && Text.isBlank c) = true
    · exact ⟨[], slack, fun rest => by simp [tighten, hb]⟩
    · by_cases hc : (decide (slack = .semicolon) && decide (c = ';')) = true
      · exact ⟨[], behind, fun rest => by rw [tighten, if_neg hb, if_pos hc]; rfl⟩
      · exact ⟨[c], if c = brace then .semicolon else .nothing,
          fun rest => by rw [tighten, if_neg hb, if_neg hc]; rfl⟩
  · intro slack c rest hc
    obtain ⟨h1, h2, h3⟩ := he c hc
    simp [tighten, h1, h2, h3]
  · intro slack c rest hc
    obtain ⟨h1, h2⟩ := hs c hc
    simp [tighten, h1, h2]
  · intro c rest hc
    obtain ⟨h1, h2⟩ := hs c hc
    exact ⟨tighten brace behind (if c = brace then .semicolon else .nothing) rest,
      by simp [tighten, h1, h2]⟩

theorem isLocal_tightenOpening : IsLocal EndsFirm StartsFirm tightenOpening :=
  (isScan_tighten .blanks (fun _ h => h) fun _ h => ⟨h.1, h.2.1⟩).isLocal

theorem isLocal_tightenClosing : IsLocal EndsFirm StartsFirm tightenClosing :=
  (isScan_tighten .nothing (fun _ h => h) fun _ h => ⟨h.1, h.2.1⟩).isLocal.reverse

theorem isLocal_squeeze : IsLocal EndsFirm StartsFirm (squeeze false) := by
  refine IsScan.isLocal ⟨fun _ => rfl, ?_, ?_, ?_, ?_⟩
  · intro inRun c
    by_cases hb : Text.isBlank c = true
    · cases inRun with
      | true => exact ⟨[], true, fun rest => by simp [squeeze, hb]⟩
      | false => exact ⟨[' '], true, fun rest => by simp [squeeze, hb]⟩
    · exact ⟨[c], false, fun rest => by simp [squeeze, hb]⟩
  · intro inRun c rest hc
    simp [squeeze, hc.1]
  · intro inRun c rest hc
    simp [squeeze, hc.1]
  · intro c rest hc
    exact ⟨squeeze false rest, by simp [squeeze, hc.1]⟩

/-! ### Tidying -/

def tidy (cs : List Char) : List Char :=
  squeeze false <| tightenClosing <| tightenOpening <| spaceSemicolons false <|
    closeUpSemicolons <| semicolonsForBreaks cs

theorem isLocal_tidy : IsLocal EndsFirm StartsFirm tidy :=
  isLocal_squeeze.comp <| isLocal_tightenClosing.comp <| isLocal_tightenOpening.comp <|
    isLocal_spaceSemicolons.comp <| isLocal_closeUpSemicolons.comp isLocal_semicolonsForBreaks

/-- A text whose last character is firm. -/
def EndsFirmly (cs : List Char) : Prop := ∃ xs c, cs = xs ++ [c] ∧ EndsFirm c

/-- A text whose first character is firm. -/
def StartsFirmly (cs : List Char) : Prop := ∃ c ys, cs = c :: ys ∧ StartsFirm c

variable {xs ys zs : List Char}

theorem tidy_append_of_endsFirmly (h : EndsFirmly xs) : tidy (xs ++ ys) = tidy xs ++ tidy ys := by
  obtain ⟨zs, c, rfl, hc⟩ := h
  rw [List.append_assoc]
  exact isLocal_tidy.append_end zs c ys hc

theorem tidy_append_of_startsFirmly (h : StartsFirmly ys) :
    tidy (xs ++ ys) = tidy xs ++ tidy ys := by
  obtain ⟨c, zs, rfl, hc⟩ := h
  exact isLocal_tidy.append_start xs c zs hc

theorem EndsFirmly.append (h : EndsFirmly ys) : EndsFirmly (xs ++ ys) := by
  obtain ⟨zs, c, rfl, hc⟩ := h
  exact ⟨xs ++ zs, c, (List.append_assoc ..).symm, hc⟩

theorem StartsFirmly.append (h : StartsFirmly xs) : StartsFirmly (xs ++ ys) := by
  obtain ⟨c, zs, rfl, hc⟩ := h
  exact ⟨c, zs ++ ys, rfl, hc⟩

theorem EndsFirmly.tidy (h : EndsFirmly xs) : EndsFirmly (tidy xs) := by
  obtain ⟨zs, c, rfl, hc⟩ := h
  obtain ⟨ys, hy⟩ := isLocal_tidy.keeps_end zs c hc
  exact ⟨ys, c, hy, hc⟩

theorem StartsFirmly.tidy (h : StartsFirmly xs) : StartsFirmly (tidy xs) := by
  obtain ⟨c, zs, rfl, hc⟩ := h
  obtain ⟨ys, hy⟩ := isLocal_tidy.keeps_start c zs hc
  exact ⟨c, ys, hy, hc⟩

theorem trim_of_firm (hs : StartsFirmly xs) (he : EndsFirmly xs) : Text.trim xs = xs := by
  obtain ⟨c, ys, rfl, hc⟩ := hs
  obtain ⟨zs, d, hd, hf⟩ := he
  rw [Text.trim, Text.trimStart_eq_self hc.1, hd, Text.trimEnd]
  simp [hf.1]

theorem compact_eq_tidy (hs : StartsFirmly xs) (he : EndsFirmly xs) : compact xs = tidy xs := by
  have hb : StartsFirmly (semicolonsForBreaks xs) ∧ EndsFirmly (semicolonsForBreaks xs) := by
    obtain ⟨c, ys, rfl, hc⟩ := hs
    obtain ⟨zs, d, hd, hf⟩ := he
    obtain ⟨ys', hy⟩ := isLocal_semicolonsForBreaks.keeps_start c ys hc
    obtain ⟨zs', hz⟩ := isLocal_semicolonsForBreaks.keeps_end zs d hf
    exact ⟨⟨c, ys', hy, hc⟩, ⟨zs', d, by rw [hd, hz], hf⟩⟩
  rw [compact, trim_of_firm hb.1 hb.2]
  exact trim_of_firm hs.tidy he.tidy

/-- A character that is neither blank nor a semicolon is left alone. -/
theorem tidy_singleton {c : Char} (hb : Text.isBlank c = false) (hs : c ≠ ';') : tidy [c] = [c] := by
  have hn : ¬ c = '\n' := by
    rintro rfl
    exact absurd hb (by decide)
  simp [tidy, semicolonsForBreaks, closeUpSemicolons, spaceSemicolons, tightenOpening,
    tightenClosing, tighten, squeeze, hn, hb, hs]

theorem tidy_cons {c : Char} (hc : EndsFirm c) (cs : List Char) : tidy (c :: cs) = c :: tidy cs := by
  have ha : tidy ([c] ++ cs) = tidy [c] ++ tidy cs := tidy_append_of_endsFirmly ⟨[], c, rfl, hc⟩
  rwa [tidy_singleton hc.1 hc.2.1] at ha

/-- Text of firm characters is left alone. -/
theorem tidy_of_firm (h : ∀ c ∈ xs, EndsFirm c) : tidy xs = xs := by
  induction xs with
  | nil => rfl
  | cons c xs ih => rw [tidy_cons (h c (by simp)), ih fun d hd => h d (by simp [hd])]

/-- Inside firm characters text is tidied by itself. -/
theorem tidy_bracket {o k : Char} (ho : EndsFirm o) (hk : EndsFirm k) (hs : StartsFirm k)
    (inside cs : List Char) : tidy (o :: (inside ++ k :: cs)) = o :: (tidy inside ++ k :: tidy cs) := by
  rw [tidy_cons ho, tidy_append_of_startsFirmly ⟨k, cs, rfl, hs⟩, tidy_cons hk]

theorem closeUpSemicolons_sublist (xs : List Char) : (closeUpSemicolons xs).Sublist xs := by
  induction xs with
  | nil => exact .slnil
  | cons x xs ih =>
      simp only [closeUpSemicolons]
      split
      · exact ih.cons x
      · exact ih.cons_cons x

theorem tighten_sublist (brace : Char) (behind slack : Slack) (xs : List Char) :
    (tighten brace behind slack xs).Sublist xs := by
  induction xs generalizing slack with
  | nil => simp [tighten]
  | cons x xs ih =>
      unfold tighten
      split
      · exact (ih _).cons x
      · split
        · exact (ih _).cons x
        · exact (ih _).cons_cons x

/-- What is put behind a character that is kept is kept too, or is a blank. -/
theorem mem_cons_or_blank {c x : Char} (h : c ∈ x :: ys) (ih : c ∈ ys → c ∈ xs ∨ c = ' ') :
    c ∈ x :: xs ∨ c = ' ' := by
  rcases List.mem_cons.1 h with rfl | h
  · exact .inl List.mem_cons_self
  · exact (ih h).imp_left (List.mem_cons_of_mem x)

theorem mem_spaceSemicolons {c : Char} {gap : Bool} (h : c ∈ spaceSemicolons gap xs) :
    c ∈ xs ∨ c = ' ' := by
  induction xs generalizing gap with
  | nil => cases h
  | cons x xs ih =>
      unfold spaceSemicolons at h
      split at h
      · exact (ih h).imp_left (List.mem_cons_of_mem x)
      · split at h
        · next hx =>
            subst hx
            refine mem_cons_or_blank h fun h => ?_
            rcases List.mem_cons.1 h with rfl | h
            · exact .inr rfl
            · exact ih h
        · exact mem_cons_or_blank h ih

theorem mem_squeeze {c : Char} {inRun : Bool} (h : c ∈ squeeze inRun xs) : c ∈ xs ∨ c = ' ' := by
  induction xs generalizing inRun with
  | nil => cases h
  | cons x xs ih =>
      unfold squeeze at h
      split at h
      · split at h
        · exact (ih h).imp_left (List.mem_cons_of_mem x)
        · rcases List.mem_cons.1 h with rfl | h
          · exact .inr rfl
          · exact (ih h).imp_left (List.mem_cons_of_mem x)
      · exact mem_cons_or_blank h ih

/-- The passes over semicolons, braces and runs of blanks add nothing but blanks. -/
theorem mem_passes {c : Char} (h : c ∈ squeeze false (tightenClosing (tightenOpening
    (spaceSemicolons false (closeUpSemicolons xs))))) : c ∈ xs ∨ c = ' ' := by
  rcases mem_squeeze h with h | h
  · have hc : c ∈ tightenOpening (spaceSemicolons false (closeUpSemicolons xs)) :=
      List.mem_reverse.1 ((tighten_sublist ..).subset (List.mem_reverse.1 h))
    have hs := mem_spaceSemicolons ((tighten_sublist ..).subset hc)
    exact hs.imp_left fun h => (closeUpSemicolons_sublist xs).subset h
  · exact .inr h

/-- Tidying adds nothing but blanks and semicolons. -/
theorem mem_tidy {c : Char} (h : c ∈ tidy xs) : c ∈ xs ∨ c = ' ' ∨ c = ';' := by
  rcases mem_passes h with h | h
  · obtain ⟨d, hd, rfl⟩ := List.mem_map.1 h
    split
    · exact .inr (.inr rfl)
    · exact .inl hd
  · exact .inr (.inl h)

/-! ### Line breaks -/

/-- Which blanks are closed up depends on the next character that is kept. -/
theorem closeUpSemicolons_append_congr (xs : List Char)
    (h : (closeUpSemicolons ys).head? = (closeUpSemicolons zs).head?) :
    ∃ left, closeUpSemicolons (xs ++ ys) = left ++ closeUpSemicolons ys ∧
      closeUpSemicolons (xs ++ zs) = left ++ closeUpSemicolons zs := by
  induction xs with
  | nil => exact ⟨[], rfl, rfl⟩
  | cons x xs ih =>
      obtain ⟨left, hy, hz⟩ := ih
      have hhead : (left ++ closeUpSemicolons ys).head? = (left ++ closeUpSemicolons zs).head? := by
        rw [List.head?_append, List.head?_append, h]
      simp only [List.cons_append, closeUpSemicolons, hy, hz, hhead]
      split
      · exact ⟨left, rfl, rfl⟩
      · exact ⟨x :: left, rfl, rfl⟩

theorem closeUpSemicolons_gap {gap : List Char} (h : ∀ c ∈ gap, Text.isBlank c = true)
    (cs : List Char) : closeUpSemicolons (gap ++ ';' :: cs) = ';' :: closeUpSemicolons cs := by
  induction gap with
  | nil => exact closeUpSemicolons_cons_of_isBlank_eq_false (by decide) cs
  | cons b gap ih =>
      have hb := h b (by simp)
      have hrest := ih fun c hc => h c (by simp [hc])
      simp [closeUpSemicolons, hb, hrest]

theorem closeUpSemicolons_blanks {gap : List Char} (h : ∀ c ∈ gap, Text.isBlank c = true)
    (cs : List Char) : ∃ left, closeUpSemicolons (gap ++ cs) = left ++ closeUpSemicolons cs ∧
      ∀ c ∈ left, Text.isBlank c = true := by
  induction gap with
  | nil => exact ⟨[], rfl, List.forall_mem_nil _⟩
  | cons b gap ih =>
      obtain ⟨left, hl, hb⟩ := ih fun c hc => h c (by simp [hc])
      simp only [List.cons_append, closeUpSemicolons, hl]
      split
      · exact ⟨left, rfl, hb⟩
      · refine ⟨b :: left, rfl, fun c hc => ?_⟩
        rcases List.mem_cons.1 hc with rfl | hc
        · exact h c (by simp)
        · exact hb c hc

theorem spaceSemicolons_append_congr (xs : List Char)
    (h : ∀ gap, spaceSemicolons gap ys = spaceSemicolons gap zs) (gap : Bool) :
    spaceSemicolons gap (xs ++ ys) = spaceSemicolons gap (xs ++ zs) := by
  induction xs generalizing gap with
  | nil => exact h gap
  | cons x xs ih => simp only [List.cons_append, spaceSemicolons, ih]

theorem spaceSemicolons_gap {left : List Char} (h : ∀ c ∈ left, Text.isBlank c = true)
    (cs : List Char) (gap : Bool) :
    spaceSemicolons gap (';' :: (left ++ cs)) = spaceSemicolons gap (';' :: cs) := by
  have hleft : spaceSemicolons true (left ++ cs) = spaceSemicolons true cs := by
    induction left with
    | nil => rfl
    | cons b left ih =>
        have hb := h b (by simp)
        rw [List.cons_append, spaceSemicolons, hb, ih fun c hc => h c (by simp [hc])]
        rfl
  have hs : Text.isBlank ';' = false := by decide
  simp [spaceSemicolons, hs, hleft]

theorem tidy_break {gap indent : List Char}
    (hg : ∀ c ∈ gap, Text.isBlank c = true ∧ c ≠ '\n')
    (hi : ∀ c ∈ indent, Text.isBlank c = true ∧ c ≠ '\n') (xs ys : List Char) :
    tidy (xs ++ (gap ++ '\n' :: (indent ++ ys))) = tidy (xs ++ '\n' :: ys) := by
  have hmap {blanks : List Char} (h : ∀ c ∈ blanks, Text.isBlank c = true ∧ c ≠ '\n') :
      semicolonsForBreaks blanks = blanks := by
    refine (List.map_congr_left fun c hc => ?_).trans (List.map_id' _)
    exact if_neg (h c hc).2
  have hlong : semicolonsForBreaks (xs ++ (gap ++ '\n' :: (indent ++ ys))) =
      semicolonsForBreaks xs ++ (gap ++ ';' :: (indent ++ semicolonsForBreaks ys)) := by
    have hgaps := hmap hg
    have hindents := hmap hi
    simp only [semicolonsForBreaks] at hgaps hindents
    simp [semicolonsForBreaks, hgaps, hindents]
  have hshort : semicolonsForBreaks (xs ++ '\n' :: ys) =
      semicolonsForBreaks xs ++ ([] ++ ';' :: semicolonsForBreaks ys) := by
    simp [semicolonsForBreaks]
  obtain ⟨left, hl, hb⟩ := closeUpSemicolons_blanks (fun c hc => (hi c hc).1)
    (semicolonsForBreaks ys)
  have hgap := closeUpSemicolons_gap (fun c hc => (hg c hc).1) (indent ++ semicolonsForBreaks ys)
  have hnone := @closeUpSemicolons_gap [] (List.forall_mem_nil _) (semicolonsForBreaks ys)
  have hheads : (closeUpSemicolons (gap ++ ';' :: (indent ++ semicolonsForBreaks ys))).head? =
      (closeUpSemicolons ([] ++ ';' :: semicolonsForBreaks ys)).head? := by
    rw [hgap, hnone]
    rfl
  obtain ⟨front, hx, hy⟩ := closeUpSemicolons_append_congr (semicolonsForBreaks xs) hheads
  have hspace : spaceSemicolons false (closeUpSemicolons (semicolonsForBreaks
      (xs ++ (gap ++ '\n' :: (indent ++ ys))))) =
      spaceSemicolons false (closeUpSemicolons (semicolonsForBreaks (xs ++ '\n' :: ys))) := by
    rw [hlong, hshort, hx, hy, hgap, hnone, hl]
    exact spaceSemicolons_append_congr front (spaceSemicolons_gap hb _) false
  simp only [tidy, hspace]

/-! ### Parts -/

theorem intercalate_cons (sep part : List Char) (parts : List (List Char)) :
    ∃ rest, sep.intercalate (part :: parts) = part ++ rest := by
  cases parts with
  | nil => exact ⟨[], by simp⟩
  | cons next parts => exact ⟨sep ++ sep.intercalate (next :: parts), by
      rw [List.intercalate_cons_cons, List.append_assoc]⟩

theorem intercalate_concat (sep last : List Char) {parts : List (List Char)} (h : parts ≠ []) :
    sep.intercalate (parts ++ [last]) = sep.intercalate parts ++ (sep ++ last) := by
  induction parts with
  | nil => exact absurd rfl h
  | cons part parts ih =>
      by_cases hne : parts = []
      · simp [hne]
      · rw [List.cons_append, List.intercalate_cons_of_ne_nil (by simp), ih hne,
          List.intercalate_cons_of_ne_nil hne, List.append_assoc _ (sep.intercalate parts)]

theorem intercalate_append_cons (sep before part : List Char) (parts : List (List Char)) :
    sep.intercalate ((before ++ part) :: parts) = before ++ sep.intercalate (part :: parts) := by
  cases parts <;> simp

/-- Joined parts end with one of them. -/
theorem intercalate_last (sep : List Char) {parts : List (List Char)} (h : parts ≠ []) :
    ∃ init, ∃ part ∈ parts, sep.intercalate parts = init ++ part := by
  induction parts with
  | nil => exact absurd rfl h
  | cons part parts ih =>
      cases parts with
      | nil => exact ⟨[], part, by simp, by simp⟩
      | cons next parts =>
          obtain ⟨init, last, hl, he⟩ := ih (List.cons_ne_nil _ _)
          refine ⟨part ++ sep ++ init, last, List.mem_cons_of_mem _ hl, ?_⟩
          rw [List.intercalate_cons_cons, he, List.append_assoc _ init]

theorem tidy_intercalate {sep : List Char} (hsep : tidy sep = sep) {parts : List (List Char)}
    (hs : ∀ part ∈ parts, StartsFirmly part) (he : ∀ part ∈ parts, EndsFirmly part) :
    tidy (sep.intercalate parts) = sep.intercalate (parts.map tidy) := by
  induction parts with
  | nil => rfl
  | cons part parts ih =>
      cases parts with
      | nil => simp
      | cons next parts =>
          have hrest := ih (fun q hq => hs q (by simp [hq])) fun q hq => he q (by simp [hq])
          obtain ⟨tail, ht⟩ := intercalate_cons sep next parts
          have hstart : StartsFirmly (sep.intercalate (next :: parts)) := by
            rw [ht]
            exact (hs next (by simp)).append
          rw [List.intercalate_cons_cons, List.append_assoc,
            tidy_append_of_endsFirmly (he part (by simp)), tidy_append_of_startsFirmly hstart, hrest,
            hsep]
          simp only [List.map_cons, List.intercalate_cons_cons, List.append_assoc]

/-! ### What is left of a text -/

/-- Some character of a text is not blank. -/
def HasInk (cs : List Char) : Prop := ∃ c ∈ cs, Text.isBlank c = false

namespace HasInk

variable {c : Char} {cs : List Char}

theorem head (h : Text.isBlank c = false) : HasInk (c :: cs) := ⟨c, List.mem_cons_self, h⟩

theorem cons (c : Char) (h : HasInk cs) : HasInk (c :: cs) :=
  h.imp fun _ hd => ⟨List.mem_cons_of_mem c hd.1, hd.2⟩

theorem of_cons (h : HasInk (c :: cs)) (hc : Text.isBlank c = true) : HasInk cs := by
  obtain ⟨d, hd, hb⟩ := h
  rcases List.mem_cons.1 hd with rfl | hd
  · rw [hc] at hb
    cases hb
  · exact ⟨d, hd, hb⟩

theorem reverse (h : HasInk cs) : HasInk cs.reverse :=
  h.imp fun _ hd => ⟨List.mem_reverse.2 hd.1, hd.2⟩

theorem trimStart (h : HasInk cs) : HasInk (Text.trimStart cs) := by
  obtain ⟨c, hc, hb⟩ := h
  refine ⟨c, ?_, hb⟩
  have ht : c ∈ cs.takeWhile Text.isBlank ++ Text.trimStart cs := by
    rwa [Text.trimStart, List.takeWhile_append_dropWhile]
  rcases List.mem_append.1 ht with ht | ht
  · rw [List.all_eq_true.1 List.all_takeWhile c ht] at hb
    cases hb
  · exact ht

theorem trim (h : HasInk cs) : HasInk (Text.trim cs) := h.trimStart.reverse.trimStart.reverse

theorem semicolonsForBreaks (h : HasInk cs) : HasInk (semicolonsForBreaks cs) := by
  obtain ⟨c, hc, hb⟩ := h
  refine ⟨_, List.mem_map_of_mem hc, ?_⟩
  split
  · decide
  · exact hb

theorem closeUpSemicolons (h : HasInk cs) : HasInk (closeUpSemicolons cs) := by
  induction cs with
  | nil => exact h
  | cons c cs ih =>
      cases hc : Text.isBlank c with
      | false =>
          rw [closeUpSemicolons_cons_of_isBlank_eq_false hc]
          exact head hc
      | true =>
          rw [Source.closeUpSemicolons]
          split
          · exact ih (h.of_cons hc)
          · exact (ih (h.of_cons hc)).cons c

theorem spaceSemicolons (h : HasInk cs) (gap : Bool) : HasInk (spaceSemicolons gap cs) := by
  induction cs generalizing gap with
  | nil => exact h
  | cons c cs ih =>
      rw [Source.spaceSemicolons]
      split
      · next hg =>
          rw [Bool.and_eq_true] at hg
          exact ih (h.of_cons hg.2) true
      · split
        · exact head (by decide)
        · cases hc : Text.isBlank c with
          | false => exact head hc
          | true => exact (ih (h.of_cons hc) false).cons c

theorem tighten {brace : Char} (hbrace : Text.isBlank brace = false) (behind : Slack) {slack : Slack}
    (hs : slack ≠ .semicolon) (h : HasInk cs) : HasInk (tighten brace behind slack cs) := by
  induction cs generalizing slack with
  | nil => exact h
  | cons c cs ih =>
      rw [Source.tighten]
      split
      · next hg =>
          rw [Bool.and_eq_true] at hg
          exact ih hs (h.of_cons hg.2)
      · rw [if_neg (by simp [hs])]
        cases hc : Text.isBlank c with
        | false => exact head hc
        | true =>
            have hne : c ≠ brace := by
              rintro rfl
              rw [hc] at hbrace
              cases hbrace
            rw [if_neg hne]
            exact (ih (by decide) (h.of_cons hc)).cons c

theorem squeeze (h : HasInk cs) (inRun : Bool) : HasInk (squeeze inRun cs) := by
  induction cs generalizing inRun with
  | nil => exact h
  | cons c cs ih =>
      rw [Source.squeeze]
      cases hc : Text.isBlank c with
      | false => exact head hc
      | true =>
          have hrest := ih (h.of_cons hc) true
          cases inRun with
          | true => exact hrest
          | false => exact hrest.cons ' '

theorem compact (h : HasInk cs) : HasInk (compact cs) :=
  ((((h.semicolonsForBreaks.trim.closeUpSemicolons.spaceSemicolons false).tighten (by decide) .blanks
    (by decide)).reverse.tighten (by decide) .nothing (by decide)).reverse.squeeze false).trim

end HasInk

end StructLayout.Source
