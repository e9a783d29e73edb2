import StructLayout.Source.Split

/-!
# The top level of a text

A text ends at top level (`EndsAtTop`) if there is code outside of all brackets behind it.  There, and
only there, a separator cuts it, and what stands behind the cut is split as if nothing stood in front
of it: everything about `splitTopLevel` follows from this one equation
(`splitTopLevel_append_separator`) and from what is made of a text without a cut
(`splitTopLevel_of_isUncut`), by induction on the cuts (`cut_induction`).

A part but the last one ends at top level again, whatever is left open at the end of the text, so that
parts can be joined and split once more.  The main statement is `splitTopLevel_isRetraction`.
-/

namespace StructLayout.Source

variable {separators cs xs ys before text part : List Char} {c separator : Char} {m : Mode}

/-! ### Modes -/

@[simp] theorem after_nil (m : Mode) : m.after [] = m := rfl

theorem after_cons (m : Mode) (c : Char) (cs : List Char) :
    m.after (c :: cs) = (m.next c).after cs := rfl

theorem after_append (m : Mode) (xs ys : List Char) :
    m.after (xs ++ ys) = (m.after xs).after ys := by
  simp [Mode.after]

/-- Neither a quote nor a bracket. -/
def isNeutral (c : Char) : Bool := !isQuote c && !isOpener c && !isCloser c

theorem isNeutral_iff :
    isNeutral c = true ↔ isQuote c = false ∧ isOpener c = false ∧ isCloser c = false := by
  simp [isNeutral, and_assoc]

theorem next_code (h : isNeutral c = true) : Mode.code.next c = .code := by
  simp [Mode.next, (isNeutral_iff.1 h).1]

theorem isNeutral_of_isBlank (h : Text.isBlank c = true) : isNeutral c = true := by
  rw [isNeutral_iff]
  refine ⟨?_, ?_, ?_⟩
  all_goals
    rw [← Bool.not_eq_true]
    intro hc
    simp only [isQuote, isOpener, isCloser, Bool.or_eq_true, decide_eq_true_eq] at hc
    rcases hc with (rfl | rfl) | rfl
    all_goals exact absurd h (by decide)

/-- A mode in which a text can be read: a literal starts with a quote. -/
def Mode.IsReached (m : Mode) : Prop := ∀ quote, m = .literal quote → isQuote quote = true

theorem Mode.IsReached.next (h : m.IsReached) (c : Char) : (m.next c).IsReached := by
  intro quote hm
  cases m with
  | code =>
    simp only [Mode.next] at hm
    split at hm
    · next hq =>
      cases hm
      exact hq
    · cases hm
  | literal q =>
    simp only [Mode.next] at hm
    split at hm
    · cases hm
    · split at hm
      · cases hm
      · cases hm
        exact h quote rfl
  | escaped =>
    cases hm
    rfl

theorem Mode.IsReached.after (h : m.IsReached) (cs : List Char) : (m.after cs).IsReached := by
  induction cs generalizing m with
  | nil => exact h
  | cons c cs ih => exact ih (h.next c)

theorem Mode.isReached_code : Mode.code.IsReached := fun _ h => nomatch h

/-- A character that is no quote does not end a literal, nor does a text without quotes. -/
theorem Mode.IsReached.eq_code (h : m.IsReached) (hc : isQuote c = false)
    (hnext : m.next c = .code) : m = .code := by
  cases m with
  | code => rfl
  | literal quote =>
    have hne : c ≠ quote := by
      rintro rfl
      rw [h c rfl] at hc
      cases hc
    simp only [Mode.next, if_neg hne] at hnext
    split at hnext <;> cases hnext
  | escaped => cases hnext

theorem Mode.IsReached.eq_code_of_after (h : m.IsReached) (hc : ∀ c ∈ cs, isQuote c = false)
    (hafter : m.after cs = .code) : m = .code := by
  induction cs generalizing m with
  | nil => exact hafter
  | cons c cs ih =>
    have hnext := ih (h.next c) (fun d hd => hc d (List.mem_cons_of_mem c hd)) hafter
    exact h.eq_code (hc c List.mem_cons_self) hnext

/-! ### Nesting -/

/-- How deep a text is nested behind a character; a closing bracket without an opening one is
ignored. -/
def nestingStep (depth : Nat) (marked : Char × Bool) : Nat :=
  if marked.2 && isOpener marked.1 then depth + 1
  else if marked.2 && isCloser marked.1 then depth - 1
  else depth

/-- How deep a text is nested behind its end, given how deep it is at its start. -/
def nesting (depth : Nat) (ms : List (Char × Bool)) : Nat := ms.foldl nestingStep depth

theorem nesting_append (depth : Nat) (ms ns : List (Char × Bool)) :
    nesting depth (ms ++ ns) = nesting (nesting depth ms) ns := List.foldl_append

theorem nestingStep_neutral (h : isNeutral c = true) (depth : Nat) (isCode : Bool) :
    nestingStep depth (c, isCode) = depth := by
  obtain ⟨-, ho, hc⟩ := isNeutral_iff.1 h
  simp [nestingStep, ho, hc]

theorem nesting_neutral (h : ∀ c ∈ cs, isNeutral c = true) (m : Mode) (depth : Nat) :
    nesting depth (mark m cs) = depth := by
  induction cs generalizing m with
  | nil => rfl
  | cons c cs ih =>
    show nesting (nestingStep depth (c, m.isCode c)) (mark (m.next c) cs) = depth
    rw [nestingStep_neutral (h c List.mem_cons_self),
      ih fun d hd => h d (List.mem_cons_of_mem c hd)]

/-! ### Ends at top level -/

/-- Behind a text there is code outside of all brackets. -/
structure EndsAtTop (cs : List Char) : Prop where
  closed : Mode.code.after cs = .code
  outside : nesting 0 (mark .code cs) = 0

instance : Decidable (EndsAtTop cs) :=
  decidable_of_iff (Mode.code.after cs = .code ∧ nesting 0 (mark .code cs) = 0)
    ⟨fun h => ⟨h.1, h.2⟩, fun h => ⟨h.1, h.2⟩⟩

namespace EndsAtTop

/-- Behind a text that ends at top level it is as if nothing stood in front. -/
theorem append_iff (h : EndsAtTop xs) : EndsAtTop (xs ++ ys) ↔ EndsAtTop ys := by
  have hclosed : Mode.code.after (xs ++ ys) = Mode.code.after ys := by
    rw [after_append, h.closed]
  have hnesting : nesting 0 (mark .code (xs ++ ys)) = nesting 0 (mark .code ys) := by
    rw [mark_append, h.closed, nesting_append, h.outside]
  constructor
  · intro he
    exact ⟨hclosed ▸ he.closed, hnesting ▸ he.outside⟩
  · intro he
    exact ⟨hclosed.trans he.closed, hnesting.trans he.outside⟩

theorem of_neutral (h : ∀ c ∈ cs, isNeutral c = true) : EndsAtTop cs where
  closed := by
    induction cs with
    | nil => rfl
    | cons c cs ih =>
      rw [after_cons, next_code (h c List.mem_cons_self)]
      exact ih fun d hd => h d (List.mem_cons_of_mem c hd)
  outside := nesting_neutral h .code 0

theorem concat (h : EndsAtTop xs) (hc : isNeutral c = true) : EndsAtTop (xs ++ [c]) :=
  h.append_iff.2 (of_neutral fun d hd => by rwa [List.mem_singleton.1 hd])

theorem of_append (h : EndsAtTop (xs ++ ys)) (hy : ∀ c ∈ ys, isNeutral c = true) :
    EndsAtTop xs where
  closed := by
    have hclosed := h.closed
    rw [after_append] at hclosed
    exact (Mode.isReached_code.after xs).eq_code_of_after (fun c hc => (isNeutral_iff.1 (hy c hc)).1)
      hclosed
  outside := by
    have houtside := h.outside
    rwa [mark_append, nesting_append, nesting_neutral hy] at houtside

theorem trim (h : EndsAtTop cs) : EndsAtTop (Text.trim cs) := by
  obtain ⟨front, behind, he, hfront, hbehind⟩ := Text.exists_trim cs
  have htop : EndsAtTop front := of_neutral fun c hc => isNeutral_of_isBlank (hfront c hc)
  rw [he, htop.append_iff] at h
  exact h.of_append fun c hc => isNeutral_of_isBlank (hbehind c hc)

end EndsAtTop

/-! ### Cuts -/

/-- Whether a marked text is cut at a character, given how deep it is nested in front of it. -/
def isCut (separators : List Char) (depth : Nat) (marked : Char × Bool) : Bool :=
  marked.2 && !isOpener marked.1 && !isCloser marked.1 && depth = 0 &&
    separators.contains marked.1

theorem cutParts_cons (separators : List Char) (depth : Nat) (marked : Char × Bool)
    (ms : List (Char × Bool)) : cutParts separators depth (marked :: ms) =
      if isCut separators depth marked then [] :: cutParts separators 0 ms
      else Text.consHead marked.1 (cutParts separators (nestingStep depth marked) ms) := by
  obtain ⟨c, isCode⟩ := marked
  rw [cutParts]
  unfold isCut nestingStep
  cases isCode <;> cases isOpener c <;> cases isCloser c <;> simp

theorem nestingStep_of_isCut {depth : Nat} {marked : Char × Bool}
    (h : isCut separators depth marked = true) : depth = 0 ∧ nestingStep depth marked = 0 := by
  simp only [isCut, Bool.and_eq_true, Bool.not_eq_true', decide_eq_true_eq] at h
  obtain ⟨⟨⟨⟨-, ho⟩, hc⟩, hd⟩, -⟩ := h
  simp [nestingStep, ho, hc, hd]

theorem cutParts_ne_nil (separators : List Char) (depth : Nat) (ms : List (Char × Bool)) :
    cutParts separators depth ms ≠ [] := by
  cases ms with
  | nil => exact List.cons_ne_nil _ _
  | cons marked ms =>
    rw [cutParts_cons]
    split
    · exact List.cons_ne_nil _ _
    · exact Text.consHead_ne_nil _ _

theorem consHead_append {groups : List (List Char)} (h : groups ≠ []) (c : Char)
    (more : List (List Char)) :
    Text.consHead c (groups ++ more) = Text.consHead c groups ++ more := by
  cases groups with
  | nil => exact absurd rfl h
  | cons group groups => rfl

/-- A separator outside of all brackets cuts a text in two. -/
theorem cutParts_append_separator (hc : isNeutral c = true) (hs : c ∈ separators)
    {ms : List (Char × Bool)} {depth : Nat} (h : nesting depth ms = 0) (ns : List (Char × Bool)) :
    cutParts separators depth (ms ++ (c, true) :: ns) =
      cutParts separators depth ms ++ cutParts separators 0 ns := by
  induction ms generalizing depth with
  | nil =>
    obtain rfl : depth = 0 := h
    have hcut : isCut separators 0 (c, true) = true := by
      obtain ⟨-, ho, hcl⟩ := isNeutral_iff.1 hc
      simp [isCut, ho, hcl, hs]
    rw [List.nil_append, cutParts_cons, if_pos hcut]
    rfl
  | cons marked ms ih =>
    have hrest : nesting (nestingStep depth marked) ms = 0 := h
    rw [List.cons_append, cutParts_cons, cutParts_cons]
    split
    · next hcut =>
      rw [(nestingStep_of_isCut hcut).2] at hrest
      rw [ih hrest, List.cons_append]
    · rw [ih hrest, consHead_append (cutParts_ne_nil _ _ _)]

/-- The parts of a text that a list of raw parts leaves. -/
def keptParts (raw : List (List Char)) : List (List Char) :=
  (raw.map Text.trim).filter fun part => !part.isEmpty

theorem splitTopLevel_eq (separators text : List Char) :
    splitTopLevel separators text = keptParts (cutParts separators 0 (mark .code text)) := rfl

theorem splitTopLevel_append_separator (h : EndsAtTop xs) (hc : isNeutral c = true)
    (hs : c ∈ separators) (ys : List Char) :
    splitTopLevel separators (xs ++ c :: ys) =
      splitTopLevel separators xs ++ splitTopLevel separators ys := by
  have hmark : mark .code (xs ++ c :: ys) = mark .code xs ++ (c, true) :: mark .code ys := by
    simp [mark_append, mark, h.closed, Mode.isCode, next_code hc, (isNeutral_iff.1 hc).1]
  rw [splitTopLevel_eq, hmark, cutParts_append_separator hc hs h.outside]
  simp only [keptParts, List.map_append, List.filter_append, splitTopLevel_eq]

/-! ### Text without cuts -/

/-- No separator stands at top level. -/
def IsUncut (separators cs : List Char) : Prop :=
  ∀ xs c ys, cs = xs ++ c :: ys → EndsAtTop xs → isNeutral c = true → c ∉ separators

/-- What stands behind text that ends at top level has no cut if the whole has none. -/
theorem IsUncut.of_append (h : IsUncut separators (before ++ (cs ++ ys)))
    (hb : EndsAtTop before) : IsUncut separators cs := by
  intro xs c zs he htop
  apply h (before ++ xs) c (zs ++ ys)
  · rw [he, List.append_assoc, List.append_assoc, List.cons_append]
  · exact hb.append_iff.2 htop

theorem IsUncut.trim (h : IsUncut separators cs) : IsUncut separators (Text.trim cs) := by
  obtain ⟨front, behind, he, hfront, -⟩ := Text.exists_trim cs
  rw [he] at h
  exact h.of_append (.of_neutral fun c hc => isNeutral_of_isBlank (hfront c hc))

theorem cutParts_of_uncut {depth : Nat}
    (h : ∀ xs c ys, cs = xs ++ c :: ys → m.after xs = .code → nesting depth (mark m xs) = 0 →
      isNeutral c = true → c ∉ separators) :
    cutParts separators depth (mark m cs) = [cs] := by
  induction cs generalizing m depth with
  | nil => rfl
  | cons c cs ih =>
    have hcut : ¬ isCut separators depth (c, m.isCode c) = true := by
      intro hcut
      simp only [isCut, Mode.isCode, Bool.and_eq_true, Bool.not_eq_true', decide_eq_true_eq,
        List.contains_iff_mem] at hcut
      obtain ⟨⟨⟨⟨⟨hm, hq⟩, ho⟩, hcl⟩, hd⟩, hs⟩ := hcut
      exact h [] c cs rfl hm hd (isNeutral_iff.2 ⟨hq, ho, hcl⟩) hs
    have hrest : cutParts separators (nestingStep depth (c, m.isCode c)) (mark (m.next c) cs) =
        [cs] := by
      apply ih
      intro xs d ys he hafter hnesting
      exact h (c :: xs) d ys (by rw [he]; rfl) hafter hnesting
    rw [mark, cutParts_cons, if_neg hcut, hrest]
    rfl

/-- Text without a cut is one part at most. -/
theorem splitTopLevel_of_isUncut (h : IsUncut separators cs) :
    splitTopLevel separators cs = keptParts [cs] := by
  rw [splitTopLevel_eq, cutParts_of_uncut]
  intro xs c ys he hclosed houtside
  exact h xs c ys he ⟨hclosed, houtside⟩

/-- A text has no cut, or it has a first one. -/
theorem isUncut_or_exists_cut (separators cs : List Char) : IsUncut separators cs ∨
    ∃ xs c ys, cs = xs ++ c :: ys ∧ EndsAtTop xs ∧ IsUncut separators xs ∧ isNeutral c = true ∧
      c ∈ separators := by
  by_cases huncut : IsUncut separators cs
  · exact .inl huncut
  · -- among the cuts there is one with the shortest text in front of it
    right
    simp only [IsUncut, Classical.not_forall, Classical.not_not] at huncut
    obtain ⟨xs, c, ys, he, htop, hc, hs⟩ := huncut
    induction hlength : xs.length using Nat.strongRecOn generalizing xs c ys with
    | ind n ih =>
      by_cases hx : IsUncut separators xs
      · exact ⟨xs, c, ys, he, htop, hx, hc, hs⟩
      · simp only [IsUncut, Classical.not_forall, Classical.not_not] at hx
        obtain ⟨zs, d, more, hz, hztop, hd, hds⟩ := hx
        have hshort : zs.length < n := by
          rw [← hlength, hz, List.length_append, List.length_cons]
          omega
        apply ih zs.length hshort zs d (more ++ c :: ys) _ hztop hd hds rfl
        rw [he, hz, List.append_assoc, List.cons_append]

theorem cut_induction (separators : List Char) {motive : List Char → Prop}
    (uncut : ∀ cs, IsUncut separators cs → motive cs)
    (cut : ∀ xs c ys, EndsAtTop xs → IsUncut separators xs → isNeutral c = true →
      c ∈ separators → motive ys → motive (xs ++ c :: ys))
    (cs : List Char) : motive cs := by
  induction hlength : cs.length using Nat.strongRecOn generalizing cs with
  | ind n ih =>
    rcases isUncut_or_exists_cut separators cs with h | ⟨xs, c, ys, he, htop, hx, hc, hs⟩
    · exact uncut cs h
    · rw [he]
      apply cut xs c ys htop hx hc hs
      apply ih ys.length _ ys rfl
      rw [← hlength, he, List.length_append, List.length_cons]
      omega

/-! ### Parts -/

/-- A part of a text: it is trimmed but not empty, and not cut any more. -/
structure IsTopPart (separators part : List Char) : Prop where
  ne_nil : part ≠ []
  trimmed : Text.trim part = part
  uncut : IsUncut separators part

/-- A text without a cut leaves itself, trimmed, unless it is blank. -/
theorem keptParts_singleton (cs : List Char) :
    (Text.trim cs = [] ∧ keptParts [cs] = []) ∨
      (Text.trim cs ≠ [] ∧ keptParts [cs] = [Text.trim cs]) := by
  by_cases h : Text.trim cs = []
  · exact .inl ⟨h, by simp [keptParts, h]⟩
  · exact .inr ⟨h, by simp [keptParts, h]⟩

theorem IsTopPart.splitTopLevel_eq (h : IsTopPart separators part) :
    splitTopLevel separators part = [part] := by
  rw [splitTopLevel_of_isUncut h.uncut]
  rcases keptParts_singleton part with ⟨hnil, -⟩ | ⟨-, hkept⟩
  · rw [h.trimmed] at hnil
    exact absurd hnil h.ne_nil
  · rw [hkept, h.trimmed]

theorem isTopPart_of_mem_keptParts (h : IsUncut separators cs) (hp : part ∈ keptParts [cs]) :
    IsTopPart separators part ∧ part = Text.trim cs := by
  rcases keptParts_singleton cs with ⟨-, hkept⟩ | ⟨hne, hkept⟩
  · rw [hkept] at hp
    cases hp
  · rw [hkept, List.mem_singleton] at hp
    rw [hp]
    exact ⟨⟨hne, Text.trim_trim cs, h.trim⟩, rfl⟩

theorem isTopPart_of_mem (text : List Char) :
    ∀ part ∈ splitTopLevel separators text, IsTopPart separators part := by
  induction text using cut_induction separators with
  | uncut cs h =>
    rw [splitTopLevel_of_isUncut h]
    intro part hp
    exact (isTopPart_of_mem_keptParts h hp).1
  | cut xs c ys htop h hc hs ih =>
    rw [splitTopLevel_append_separator htop hc hs, splitTopLevel_of_isUncut h]
    intro part hp
    rcases List.mem_append.1 hp with hp | hp
    · exact (isTopPart_of_mem_keptParts h hp).1
    · exact ih part hp

theorem pairwise_splitTopLevel (separators text : List Char) :
    (splitTopLevel separators text).Pairwise fun part _ => EndsAtTop part := by
  have hsingle (cs : List Char) : (keptParts [cs]).Pairwise fun part _ => EndsAtTop part := by
    rcases keptParts_singleton cs with ⟨-, hkept⟩ | ⟨-, hkept⟩
    · rw [hkept]
      exact .nil
    · rw [hkept]
      exact List.pairwise_singleton _ _
  induction text using cut_induction separators with
  | uncut cs h =>
    rw [splitTopLevel_of_isUncut h]
    exact hsingle cs
  | cut xs c ys htop h hc hs ih =>
    rw [splitTopLevel_append_separator htop hc hs, splitTopLevel_of_isUncut h,
      List.pairwise_append]
    refine ⟨hsingle xs, ih, ?_⟩
    intro part hp _ _
    rw [(isTopPart_of_mem_keptParts h hp).2]
    exact htop.trim

/-- Parts that are joined with a separator are the parts of the result, if all but the last end at top
level. -/
theorem splitTopLevel_intercalate (hc : isNeutral separator = true) (hs : separator ∈ separators)
    {parts : List (List Char)} (hparts : ∀ part ∈ parts, IsTopPart separators part)
    (htop : parts.Pairwise fun part _ => EndsAtTop part) :
    splitTopLevel separators ([separator].intercalate parts) = parts := by
  induction parts with
  | nil => rfl
  | cons part parts ih =>
    obtain ⟨hpart, hrest⟩ := List.forall_mem_cons.1 hparts
    obtain ⟨hends, hpairs⟩ := List.pairwise_cons.1 htop
    cases parts with
    | nil =>
      rw [List.intercalate_singleton]
      exact hpart.splitTopLevel_eq
    | cons next parts =>
      have hend : EndsAtTop part := hends next List.mem_cons_self
      rw [List.intercalate_cons_cons, List.append_assoc, List.singleton_append,
        splitTopLevel_append_separator hend hc hs, hpart.splitTopLevel_eq, ih hrest hpairs]
      rfl

/-! ### Ends of parts -/

/-- Whatever stands behind a separator that follows a text, the separator cuts there. -/
def EndsPart (separators : List Char) (separator : Char) (cs : List Char) : Prop :=
  ∀ rest, splitTopLevel separators (cs ++ separator :: rest) =
    splitTopLevel separators cs ++ splitTopLevel separators rest

theorem length_keptParts_singleton_le (cs : List Char) : (keptParts [cs]).length ≤ 1 := by
  rcases keptParts_singleton cs with ⟨-, hkept⟩ | ⟨-, hkept⟩
  · simp [hkept]
  · simp [hkept]

/-- Text that does not end at top level is not blank. -/
theorem keptParts_of_not_endsAtTop (h : ¬ EndsAtTop cs) : keptParts [cs] = [Text.trim cs] := by
  rcases keptParts_singleton cs with ⟨hnil, -⟩ | ⟨-, hkept⟩
  · exfalso
    apply h
    obtain ⟨front, behind, he, hfront, hbehind⟩ := Text.exists_trim cs
    rw [he, hnil, List.nil_append]
    apply EndsAtTop.of_neutral
    intro c hc
    rcases List.mem_append.1 hc with hc | hc
    · exact isNeutral_of_isBlank (hfront c hc)
    · exact isNeutral_of_isBlank (hbehind c hc)
  · exact hkept

/-- A separator and a bracket behind text that does not end at top level go on with its last part. -/
theorem IsUncut.append_bracket (h : IsUncut separators cs) (htop : ¬ EndsAtTop cs)
    (separator : Char) : IsUncut separators (cs ++ [separator, '(']) := by
  intro xs c ys he hx hneutral hs
  rcases List.append_eq_append_iff.1 he with ⟨zs, hxs, hzs⟩ | ⟨zs, hcs, hzs⟩
  · -- the cut would be at the separator or at the bracket
    rw [hxs] at hx
    cases zs with
    | nil =>
      rw [List.append_nil] at hx
      exact htop hx
    | cons d zs =>
      obtain ⟨-, hbracket⟩ := List.cons.inj hzs
      cases zs with
      | nil =>
        obtain ⟨rfl, -⟩ := List.cons.inj hbracket
        cases hneutral
      | cons e zs => exact absurd (List.cons.inj hbracket).2 (by simp)
  · cases zs with
    | nil =>
      rw [List.append_nil] at hcs
      rw [hcs] at htop
      exact htop hx
    | cons d zs =>
      obtain ⟨rfl, -⟩ := List.cons.inj hzs
      exact h xs c zs hcs hx hneutral hs

/-- A separator cuts exactly behind text that ends at top level. -/
theorem endsPart_iff (hc : isNeutral separator = true) (hs : separator ∈ separators)
    (cs : List Char) : EndsPart separators separator cs ↔ EndsAtTop cs := by
  refine ⟨?_, fun h => splitTopLevel_append_separator h hc hs⟩
  induction cs using cut_induction separators with
  | uncut cs h =>
    intro hends
    apply Classical.byContradiction
    intro htop
    -- a bracket behind the separator would be a part of its own, but it joins the last one
    have hbracket : splitTopLevel separators ['('] = [['(']] := rfl
    have hlength := congrArg List.length (hends ['('])
    rw [splitTopLevel_of_isUncut (h.append_bracket htop separator), splitTopLevel_of_isUncut h,
      keptParts_of_not_endsAtTop htop, hbracket] at hlength
    have hle := length_keptParts_singleton_le (cs ++ [separator, '('])
    rw [hlength] at hle
    exact absurd hle (by simp)
  | cut xs c ys htop _ hn hm ih =>
    intro hends
    have hbehind : EndsPart separators separator ys := by
      intro rest
      have hrest := hends rest
      rw [List.append_assoc, List.cons_append, splitTopLevel_append_separator htop hn hm,
        splitTopLevel_append_separator htop hn hm, List.append_assoc] at hrest
      exact List.append_cancel_left hrest
    have he : xs ++ c :: ys = (xs ++ [c]) ++ ys := by simp
    rw [he, (htop.concat hn).append_iff]
    exact ih hbehind

/-! ### What is left of a text -/

/-- The characters of a text that are not blank. -/
def inkOf (cs : List Char) : List Char := cs.filter fun c => !Text.isBlank c

theorem inkOf_append (xs ys : List Char) : inkOf (xs ++ ys) = inkOf xs ++ inkOf ys :=
  List.filter_append ..

theorem inkOf_of_isBlank (h : ∀ c ∈ cs, Text.isBlank c = true) : inkOf cs = [] := by
  simpa [inkOf] using h

theorem inkOf_trim (cs : List Char) : inkOf (Text.trim cs) = inkOf cs := by
  obtain ⟨front, behind, he, hfront, hbehind⟩ := Text.exists_trim cs
  have hink : inkOf cs = inkOf (front ++ (Text.trim cs ++ behind)) := congrArg inkOf he
  rw [hink, inkOf_append, inkOf_append, inkOf_of_isBlank hfront, inkOf_of_isBlank hbehind,
    List.nil_append, List.append_nil]

/-- The characters of a text but the separators at top level, given what stands in front of it. -/
def withoutCuts (separators before : List Char) : List Char → List Char
  | [] => []
  | c :: rest =>
    if EndsAtTop before ∧ c ∈ separators then withoutCuts separators (before ++ [c]) rest
    else c :: withoutCuts separators (before ++ [c]) rest

theorem withoutCuts_append (before xs ys : List Char) :
    withoutCuts separators before (xs ++ ys) =
      withoutCuts separators before xs ++ withoutCuts separators (before ++ xs) ys := by
  induction xs generalizing before with
  | nil => rw [List.nil_append, List.append_nil, withoutCuts, List.nil_append]
  | cons c xs ih =>
    rw [List.cons_append, withoutCuts, withoutCuts, ih, List.append_assoc, List.singleton_append]
    split <;> rfl

/-- What stands in front of text at top level does not matter for it. -/
theorem withoutCuts_of_endsAtTop (separators : List Char) (h : EndsAtTop before)
    (xs cs : List Char) :
    withoutCuts separators (before ++ xs) cs = withoutCuts separators xs cs := by
  induction cs generalizing xs with
  | nil => rfl
  | cons c cs ih => simp only [withoutCuts, h.append_iff, List.append_assoc, ih]

theorem withoutCuts_of_isUncut (hplain : ∀ c ∈ separators, isNeutral c = true)
    (before : List Char) (h : IsUncut separators (before ++ cs)) :
    withoutCuts separators before cs = cs := by
  induction cs generalizing before with
  | nil => rfl
  | cons c cs ih =>
    have hcut : ¬ (EndsAtTop before ∧ c ∈ separators) := by
      rintro ⟨htop, hs⟩
      exact h before c cs rfl htop (hplain c hs) hs
    rw [withoutCuts, if_neg hcut, ih]
    rwa [List.append_assoc, List.singleton_append]

theorem inkOf_splitTopLevel (hplain : ∀ c ∈ separators, isNeutral c = true) (text : List Char) :
    inkOf (splitTopLevel separators text).flatten = inkOf (withoutCuts separators [] text) := by
  have hsingle (cs : List Char) : inkOf (keptParts [cs]).flatten = inkOf cs := by
    rcases keptParts_singleton cs with ⟨hnil, hkept⟩ | ⟨-, hkept⟩
    · rw [hkept, ← inkOf_trim cs, hnil]
      rfl
    · rw [hkept, List.flatten_singleton, inkOf_trim]
  induction text using cut_induction separators with
  | uncut cs h => rw [splitTopLevel_of_isUncut h, withoutCuts_of_isUncut hplain [] h, hsingle]
  | cut xs c ys htop h hc hs ih =>
    have hbehind := withoutCuts_of_endsAtTop separators (htop.concat hc) [] ys
    rw [List.append_nil] at hbehind
    rw [splitTopLevel_append_separator htop hc hs, splitTopLevel_of_isUncut h,
      List.flatten_append, inkOf_append, hsingle, ih, withoutCuts_append,
      withoutCuts_of_isUncut hplain [] h, inkOf_append, List.nil_append, withoutCuts,
      if_pos ⟨htop, hs⟩, hbehind]

/-- Split at separators that are neither quotes nor brackets, a text has parts that are trimmed, not
empty and not split any further; joined with any of the separators they are split into the same parts
again; and they have the characters of the text in order, but for blanks and the separators at top
level. -/
theorem splitTopLevel_isRetraction (hplain : ∀ c ∈ separators, isNeutral c = true)
    (text : List Char) :
    (∀ part ∈ splitTopLevel separators text,
      part ≠ [] ∧ Text.trim part = part ∧ splitTopLevel separators part = [part]) ∧
    (∀ separator ∈ separators,
      splitTopLevel separators ([separator].intercalate (splitTopLevel separators text)) =
        splitTopLevel separators text) ∧
    inkOf (splitTopLevel separators text).flatten = inkOf (withoutCuts separators [] text) := by
  refine ⟨?_, ?_, inkOf_splitTopLevel hplain text⟩
  · intro part hp
    have hpart := isTopPart_of_mem text part hp
    exact ⟨hpart.ne_nil, hpart.trimmed, hpart.splitTopLevel_eq⟩
  · intro separator hs
    exact splitTopLevel_intercalate (hplain separator hs) hs (isTopPart_of_mem text)
      (pairwise_splitTopLevel separators text)

/-- Entries with a bracket too many, with nothing between separators, and with a bracket and a literal
left open at the end. -/
def looseEntries : List Char :=
  "a int) ;\tb struct\x7bx int; y string\x7d ;\n; c [2]func(\"]\\\";".toList

theorem splitTopLevel_isRetraction_looseEntries :
    (∀ c ∈ entrySeparators, isNeutral c = true) ∧
    splitTopLevel entrySeparators looseEntries =
      ["a int)".toList, "b struct\x7bx int; y string\x7d".toList, "c [2]func(\"]\\\";".toList] ∧
    splitTopLevel entrySeparators (['\n'].intercalate (splitTopLevel entrySeparators looseEntries)) =
      splitTopLevel entrySeparators looseEntries ∧
    inkOf (splitTopLevel entrySeparators looseEntries).flatten =
      "aint)bstruct\x7bxint;ystring\x7dc[2]func(\"]\\\";".toList := by
  have hplain : ∀ c ∈ entrySeparators, isNeutral c = true := by decide
  have h := splitTopLevel_isRetraction hplain looseEntries
  refine ⟨hplain, by decide +kernel, h.2.1 '\n' (by decide), ?_⟩
  rw [h.2.2]
  decide +kernel

end StructLayout.Source
