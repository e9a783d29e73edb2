import StructLayout.Proofs.Source.TopLevel

/-!
# Properly nested text

A text is properly nested if its literals are closed and its brackets outside of them match, each kind
with its own (`IsNested`); `top` says which characters may stand outside all brackets.  The scanners
walk over such a text as if it were one character: looking for a closing bracket of one kind skips it
(`closeIn_nested`), splitting keeps it in one piece as long as no separator stands at its top
(`IsNested.isUncut`), and it leaves the depth of nesting as it was (`IsNested.depthDelta_append`).

The main statements say that a bracket around nested text is closed by its partner
(`enclosed?_bracket`), that text splits at separators between nested pieces
(`splitTopLevel_append`), and that a bracket is open in front of a character that may not stand
outside of brackets (`NestedMarks.delta_pos`).
-/

namespace StructLayout.Source

/-! ### Marked text -/

/-- Marked text whose brackets of code match, with characters outside of brackets that satisfy
`top` where they are code. -/
inductive NestedMarks : (Char → Prop) → List (Char × Bool) → Prop
  | nil {top : Char → Prop} : NestedMarks top []
  | literal {top : Char → Prop} {c : Char} {ms : List (Char × Bool)} :
      NestedMarks top ms → NestedMarks top ((c, false) :: ms)
  | plain {top : Char → Prop} {c : Char} {ms : List (Char × Bool)} :
      isOpener c = false → isCloser c = false → top c → NestedMarks top ms →
      NestedMarks top ((c, true) :: ms)
  | bracket {top : Char → Prop} {opener closer : Char} {inside ms : List (Char × Bool)} :
      closerOf? opener = some closer → NestedMarks (fun _ => True) inside → NestedMarks top ms →
      NestedMarks top ((opener, true) :: (inside ++ (closer, true) :: ms))

variable {top : Char → Prop} {ms rest : List (Char × Bool)} {opener closer : Char}

theorem NestedMarks.mono {top' : Char → Prop} (h : NestedMarks top ms) (ht : ∀ c, top c → top' c) :
    NestedMarks top' ms := by
  induction h with
  | nil => exact .nil
  | literal _ ih => exact .literal (ih ht)
  | plain ho hc hp _ ih => exact .plain ho hc (ht _ hp) (ih ht)
  | bracket hb hi _ _ ih => exact .bracket hb hi (ih ht)

theorem NestedMarks.append (h : NestedMarks top ms) (hr : NestedMarks top rest) :
    NestedMarks top (ms ++ rest) := by
  induction h with
  | nil => exact hr
  | literal _ ih => exact .literal (ih hr)
  | plain ho hc hp _ ih => exact .plain ho hc hp (ih hr)
  | bracket hb hi _ _ ih =>
      rw [List.cons_append, List.append_assoc, List.cons_append]
      exact .bracket hb hi (ih hr)

theorem closerOf?_eq_some (h : closerOf? opener = some closer) :
    (opener = '(' ∧ closer = ')') ∨ (opener = '[' ∧ closer = ']') ∨
      (opener = '\x7b' ∧ closer = '\x7d') := by
  unfold closerOf? at h
  split at h
  · next ho => exact .inl ⟨ho, (Option.some.inj h).symm⟩
  · split at h
    · next ho => exact .inr (.inl ⟨ho, (Option.some.inj h).symm⟩)
    · split at h
      · next ho => exact .inr (.inr ⟨ho, (Option.some.inj h).symm⟩)
      · cases h

theorem isOpener_of_closerOf? (h : closerOf? opener = some closer) : isOpener opener = true := by
  rcases closerOf?_eq_some h with ⟨rfl, -⟩ | ⟨rfl, -⟩ | ⟨rfl, -⟩ <;> rfl

theorem isCloser_of_closerOf? (h : closerOf? opener = some closer) :
    isCloser closer = true ∧ isOpener closer = false := by
  rcases closerOf?_eq_some h with ⟨-, rfl⟩ | ⟨-, rfl⟩ | ⟨-, rfl⟩ <;> exact ⟨rfl, rfl⟩

theorem isQuote_of_closerOf? (h : closerOf? opener = some closer) :
    isQuote opener = false ∧ isQuote closer = false := by
  rcases closerOf?_eq_some h with ⟨rfl, rfl⟩ | ⟨rfl, rfl⟩ | ⟨rfl, rfl⟩ <;> exact ⟨rfl, rfl⟩

theorem closer_ne_opener (h : closerOf? opener = some closer) : closer ≠ opener := by
  rcases closerOf?_eq_some h with ⟨rfl, rfl⟩ | ⟨rfl, rfl⟩ | ⟨rfl, rfl⟩ <;> decide

/-! ### Closing brackets -/

theorem closeIn_skip {c : Char} {isCode : Bool} (n : Nat)
    (h : isCode = false ∨ c ≠ opener ∧ c ≠ closer) :
    closeIn opener closer n ((c, isCode) :: ms) = (closeIn opener closer n ms).map (· + 1) := by
  rcases h with rfl | ⟨ho, hc⟩
  · simp [closeIn]
  · simp [closeIn, ho, hc]

theorem closeIn_opener (n : Nat) :
    closeIn opener closer n ((opener, true) :: ms) =
      (closeIn opener closer (n + 1) ms).map (· + 1) := by
  simp [closeIn]

theorem closeIn_closer (h : closer ≠ opener) {n : Nat} (hn : 1 < n) :
    closeIn opener closer n ((closer, true) :: ms) =
      (closeIn opener closer (n - 1) ms).map (· + 1) := by
  simp [closeIn, h, Nat.not_le.2 hn]

theorem closeIn_closer_one (h : closer ≠ opener) :
    closeIn opener closer 1 ((closer, true) :: ms) = some 0 := by
  simp [closeIn, h]

theorem map_add_map_add (n m : Nat) (x : Option Nat) :
    (x.map (· + n)).map (· + m) = x.map (· + (m + n)) := by
  cases x with
  | none => rfl
  | some k =>
      simp only [Option.map_some]
      congr 1
      omega

theorem closeIn_nested (hb : closerOf? opener = some closer) {depth : Nat} (hd : 0 < depth)
    (h : NestedMarks top ms) (rest : List (Char × Bool)) :
    closeIn opener closer depth (ms ++ rest) =
      (closeIn opener closer depth rest).map (· + ms.length) := by
  induction h generalizing depth rest with
  | nil => simp
  | literal _ ih =>
      rw [List.cons_append, closeIn_skip depth (.inl rfl), ih hd, map_add_map_add, List.length_cons,
        Nat.add_comm]
  | plain ho hc _ _ ih =>
      have hne := isOpener_of_closerOf? hb
      have hnc := (isCloser_of_closerOf? hb).1
      rw [List.cons_append, closeIn_skip depth (.inr ⟨?_, ?_⟩), ih hd, map_add_map_add,
        List.length_cons, Nat.add_comm]
      · rintro rfl
        simp [ho] at hne
      · rintro rfl
        simp [hc] at hnc
  | @bracket top opener' closer' inside ms hb' hi hms ihi ih =>
      have hlen : ((opener', true) :: (inside ++ (closer', true) :: ms)).length =
          1 + inside.length + 1 + ms.length := by
        simp only [List.length_cons, List.length_append]
        omega
      rw [hlen, List.cons_append, List.append_assoc, List.cons_append]
      by_cases ho : opener' = opener
      · -- a bracket of the same kind: one level down and up again
        subst ho
        obtain rfl : closer' = closer := Option.some.inj (hb'.symm.trans hb)
        rw [closeIn_opener, ihi (Nat.succ_pos depth),
          closeIn_closer (closer_ne_opener hb) (Nat.succ_lt_succ hd), Nat.add_one_sub_one, ih hd,
          map_add_map_add, map_add_map_add, map_add_map_add]
      · have hskip : opener' ≠ closer ∧ closer' ≠ opener ∧ closer' ≠ closer := by
          rcases closerOf?_eq_some hb with ⟨rfl, rfl⟩ | ⟨rfl, rfl⟩ | ⟨rfl, rfl⟩ <;>
            rcases closerOf?_eq_some hb' with ⟨rfl, rfl⟩ | ⟨rfl, rfl⟩ | ⟨rfl, rfl⟩ <;>
            revert ho <;> decide
        obtain ⟨h1, h2, h3⟩ := hskip
        rw [closeIn_skip depth (.inr ⟨ho, h1⟩), ihi hd, closeIn_skip depth (.inr ⟨h2, h3⟩), ih hd,
          map_add_map_add, map_add_map_add, map_add_map_add]

/-! ### Depth -/

/-- The net change of nesting over marked text. -/
def marksDelta (ms : List (Char × Bool)) : Int :=
  ms.foldr (fun marked depth => depthStep marked + depth) 0

theorem marksDelta_cons (m : Char × Bool) (ms : List (Char × Bool)) :
    marksDelta (m :: ms) = depthStep m + marksDelta ms := rfl

theorem marksDelta_append (xs ys : List (Char × Bool)) :
    marksDelta (xs ++ ys) = marksDelta xs + marksDelta ys := by
  induction xs with
  | nil => simp [marksDelta]
  | cons m xs ih =>
      rw [List.cons_append, marksDelta_cons, marksDelta_cons, ih]
      omega

/-- A step that is no bracket of code leaves the depth of nesting as it was. -/
theorem marksDelta_literal_cons (c : Char) (ms : List (Char × Bool)) :
    marksDelta ((c, false) :: ms) = marksDelta ms := by
  simp [marksDelta_cons, depthStep]

theorem marksDelta_plain_cons {c : Char} (ho : isOpener c = false) (hc : isCloser c = false)
    (ms : List (Char × Bool)) : marksDelta ((c, true) :: ms) = marksDelta ms := by
  simp [marksDelta_cons, depthStep, ho, hc]

theorem depthStep_bracket (hb : closerOf? opener = some closer) :
    depthStep (opener, true) = 1 ∧ depthStep (closer, true) = -1 := by
  have ho := isOpener_of_closerOf? hb
  obtain ⟨hc, hco⟩ := isCloser_of_closerOf? hb
  simp [depthStep, ho, hc, hco]

/-- Nested text leaves the depth of nesting as it was. -/
theorem marksDelta_nested (h : NestedMarks top ms) : marksDelta ms = 0 := by
  induction h with
  | nil => rfl
  | literal _ ih => rw [marksDelta_literal_cons, ih]
  | plain ho hc _ _ ih => rw [marksDelta_plain_cons ho hc, ih]
  | bracket hb _ _ ihi ih =>
      obtain ⟨hopen, hclose⟩ := depthStep_bracket hb
      rw [marksDelta_cons, marksDelta_append, marksDelta_cons, ihi, ih, hopen, hclose]
      rfl

/-- A beginning of a text that starts with a bracket is empty, or ends inside of the bracket, one
level deeper than the part it takes of the inside, or goes beyond it, as deep as the part it takes of
what follows. -/
theorem bracket_beginning {inside xs ys : List (Char × Bool)}
    (hb : closerOf? opener = some closer) (hi : NestedMarks top inside)
    (he : (opener, true) :: (inside ++ (closer, true) :: ms) = xs ++ ys) :
    xs = [] ∨
      (∃ inner behind, inside = inner ++ behind ∧ marksDelta xs = 1 + marksDelta inner) ∨
      ∃ front, ms = front ++ ys ∧ marksDelta xs = marksDelta front := by
  obtain ⟨hopen, hclose⟩ := depthStep_bracket hb
  cases xs with
  | nil => exact .inl rfl
  | cons x xs =>
      obtain ⟨rfl, htail⟩ := List.cons.inj he
      refine .inr ?_
      rw [marksDelta_cons, hopen]
      rcases List.append_eq_append_iff.1 htail with ⟨zs, rfl, hzs⟩ | ⟨zs, rfl, -⟩
      · cases zs with
        | nil => exact .inl ⟨inside, [], by simp, by simp⟩
        | cons z zs =>
            obtain ⟨rfl, hms⟩ := List.cons.inj hzs
            refine .inr ⟨zs, hms, ?_⟩
            rw [marksDelta_append, marksDelta_nested hi, marksDelta_cons, hclose]
            omega
      · exact .inl ⟨xs, zs, rfl, rfl⟩

/-- A beginning of nested text does not close more brackets than it opens. -/
theorem NestedMarks.delta_nonneg (h : NestedMarks top ms) {xs ys : List (Char × Bool)}
    (he : ms = xs ++ ys) : 0 ≤ marksDelta xs := by
  induction h generalizing xs ys with
  | nil => rw [(List.append_eq_nil_iff.1 he.symm).1]; exact Int.le_refl 0
  | literal _ ih =>
      cases xs with
      | nil => exact Int.le_refl 0
      | cons x xs =>
          obtain ⟨rfl, htail⟩ := List.cons.inj he
          rw [marksDelta_literal_cons]
          exact ih htail
  | plain ho hc _ _ ih =>
      cases xs with
      | nil => exact Int.le_refl 0
      | cons x xs =>
          obtain ⟨rfl, htail⟩ := List.cons.inj he
          rw [marksDelta_plain_cons ho hc]
          exact ih htail
  | bracket hb hi _ ihi ih =>
      rcases bracket_beginning hb hi he with rfl | ⟨inner, behind, rfl, hd⟩ | ⟨front, rfl, hd⟩
      · exact Int.le_refl 0
      · have hin := ihi rfl
        omega
      · exact hd.symm ▸ ih rfl

/-- At a character that may not stand outside of brackets a bracket is open. -/
theorem NestedMarks.delta_pos (h : NestedMarks top ms) {xs ys : List (Char × Bool)} {c : Char}
    (he : ms = xs ++ (c, true) :: ys) (ho : isOpener c = false) (hc : isCloser c = false)
    (ht : ¬ top c) : 0 < marksDelta xs := by
  induction h generalizing xs ys with
  | nil => exact absurd he.symm (by simp)
  | literal _ ih =>
      cases xs with
      | nil => cases he
      | cons x xs =>
          obtain ⟨rfl, htail⟩ := List.cons.inj he
          rw [marksDelta_literal_cons]
          exact ih htail ht
  | plain ho' hc' hp _ ih =>
      cases xs with
      | nil =>
          obtain ⟨he, -⟩ := List.cons.inj he
          obtain rfl := (Prod.mk.inj he).1
          exact absurd hp ht
      | cons x xs =>
          obtain ⟨rfl, htail⟩ := List.cons.inj he
          rw [marksDelta_plain_cons ho' hc']
          exact ih htail ht
  | bracket hb hi _ _ ih =>
      rcases bracket_beginning hb hi he with rfl | ⟨inner, behind, rfl, hd⟩ | ⟨front, rfl, hd⟩
      · obtain ⟨he, -⟩ := List.cons.inj he
        obtain rfl := (Prod.mk.inj he).1
        rw [isOpener_of_closerOf? hb] at ho
        cases ho
      · have hin := hi.delta_nonneg rfl
        omega
      · exact hd.symm ▸ ih rfl ht

theorem nesting_nested (h : NestedMarks top ms) (depth : Nat) : nesting depth ms = depth := by
  induction h generalizing depth with
  | nil => rfl
  | literal _ ih => exact ih depth
  | @plain top c ms ho hc _ _ ih =>
      have hstep : nestingStep depth (c, true) = depth := by simp [nestingStep, ho, hc]
      show nesting (nestingStep depth (c, true)) ms = depth
      rw [hstep, ih]
  | @bracket top opener closer inside ms hb _ _ ihi ih =>
      obtain ⟨hc, hco⟩ := isCloser_of_closerOf? hb
      have hopen : nestingStep depth (opener, true) = depth + 1 := by
        simp [nestingStep, isOpener_of_closerOf? hb]
      have hclose : nestingStep (depth + 1) (closer, true) = depth := by
        simp [nestingStep, hc, hco]
      show nesting (nestingStep depth (opener, true)) (inside ++ (closer, true) :: ms) = depth
      rw [hopen, nesting_append, ihi]
      show nesting (nestingStep (depth + 1) (closer, true)) ms = depth
      rw [hclose, ih]

/-- A text is nested at least as deep as its brackets say. -/
theorem marksDelta_le_nesting (ms : List (Char × Bool)) (depth : Nat) :
    depth + marksDelta ms ≤ nesting depth ms := by
  induction ms generalizing depth with
  | nil => simp [marksDelta, nesting]
  | cons marked ms ih =>
      have hrest := ih (nestingStep depth marked)
      have hstep : depth + depthStep marked ≤ (nestingStep depth marked : Int) := by
        unfold depthStep nestingStep
        split
        · omega
        · split <;> omega
      show depth + marksDelta (marked :: ms) ≤ (nesting (nestingStep depth marked) ms : Int)
      rw [marksDelta_cons]
      omega

/-! ### Nested text -/

/-- What texts keep when they are appended holds of parts with a text between them. -/
theorem intercalate_induction {p : List Char → Prop} (hnil : p [])
    (happend : ∀ xs ys, p xs → p ys → p (xs ++ ys)) {sep : List Char} {parts : List (List Char)}
    (hs : p sep) (h : ∀ part ∈ parts, p part) : p (sep.intercalate parts) := by
  induction parts with
  | nil => exact hnil
  | cons part parts ih =>
      have hp := h part List.mem_cons_self
      cases parts with
      | nil => simpa using hp
      | cons next parts =>
          rw [List.intercalate_cons_cons]
          have hrest := ih fun q hq => h q (List.mem_cons_of_mem part hq)
          exact happend _ _ (happend _ _ hp hs) hrest

/-- Text whose literals are closed and whose brackets outside of them match, with characters outside
of brackets that satisfy `top`. -/
structure IsNested (top : Char → Prop) (cs : List Char) : Prop where
  marks : NestedMarks top (mark .code cs)
  closed : Mode.code.after cs = .code

variable {top' : Char → Prop} {cs xs ys inside : List Char}

namespace IsNested

theorem nil : IsNested top [] := ⟨.nil, rfl⟩

theorem mono (h : IsNested top cs) (ht : ∀ c, top c → top' c) : IsNested top' cs :=
  ⟨h.marks.mono ht, h.closed⟩

theorem append (hx : IsNested top xs) (hy : IsNested top ys) : IsNested top (xs ++ ys) := by
  refine ⟨?_, ?_⟩
  · rw [mark_append, hx.closed]
    exact hx.marks.append hy.marks
  · rw [after_append, hx.closed, hy.closed]

/-- A plain character in front of nested text. -/
theorem cons {c : Char} (hq : isQuote c = false) (ho : isOpener c = false) (hc : isCloser c = false)
    (ht : top c) (h : IsNested top cs) : IsNested top (c :: cs) := by
  have hn : Mode.code.next c = .code := by simp [Mode.next, hq]
  have hm : Mode.code.isCode c = true := by simp [Mode.isCode, hq]
  refine ⟨?_, ?_⟩
  · rw [mark, hn, hm]
    exact .plain ho hc ht h.marks
  · rw [after_cons, hn, h.closed]

/-- Text without quotes and brackets is nested. -/
theorem of_plain (h : ∀ c ∈ cs, isQuote c = false ∧ isOpener c = false ∧ isCloser c = false ∧ top c) :
    IsNested top cs := by
  induction cs with
  | nil => exact nil
  | cons c cs ih =>
      obtain ⟨hq, ho, hc, ht⟩ := h c (by simp)
      exact cons hq ho hc ht (ih fun d hd => h d (by simp [hd]))

theorem mark_bracket (hb : closerOf? opener = some closer) (h : IsNested top inside)
    (cs : List Char) :
    mark .code (opener :: (inside ++ closer :: cs)) =
      (opener, true) :: (mark .code inside ++ (closer, true) :: mark .code cs) := by
  obtain ⟨ho, hc⟩ := isQuote_of_closerOf? hb
  simp [mark, mark_append, Mode.next, Mode.isCode, ho, hc, h.closed]

theorem bracket (hb : closerOf? opener = some closer) (h : IsNested top inside) :
    IsNested top' (opener :: (inside ++ [closer])) := by
  refine ⟨?_, ?_⟩
  · rw [mark_bracket hb h]
    exact .bracket hb (h.marks.mono fun _ _ => trivial) .nil
  · obtain ⟨ho, hc⟩ := isQuote_of_closerOf? hb
    simp [after_cons, after_append, Mode.next, ho, hc, h.closed]

theorem bracket_append (hb : closerOf? opener = some closer) (h : IsNested top inside)
    (hx : IsNested top' xs) : IsNested top' (opener :: (inside ++ closer :: xs)) := by
  have he : opener :: (inside ++ closer :: xs) = opener :: (inside ++ [closer]) ++ xs := by simp
  rw [he]
  exact (bracket hb h).append hx

theorem intercalate {sep : List Char} {parts : List (List Char)} (hs : IsNested top sep)
    (h : ∀ part ∈ parts, IsNested top part) : IsNested top (sep.intercalate parts) :=
  intercalate_induction nil (fun _ _ hx hy => hx.append hy) hs h

theorem rawLiteral {tag : List Char} (h : '\x60' ∉ tag) :
    IsNested top ('\x60' :: (tag ++ ['\x60'])) := by
  have hopen : Mode.code.next '\x60' = .literal '\x60' := rfl
  have hclose : (Mode.literal '\x60').next '\x60' = .code := rfl
  have hcode : Mode.code.isCode '\x60' = false := rfl
  have hlit (c : Char) : (Mode.literal '\x60').isCode c = false := rfl
  suffices NestedMarks top (mark (.literal '\x60') (tag ++ ['\x60'])) ∧
      (Mode.literal '\x60').after (tag ++ ['\x60']) = .code by
    refine ⟨?_, ?_⟩
    · rw [mark, hopen, hcode]
      exact .literal this.1
    · rw [after_cons, hopen, this.2]
  induction tag with
  | nil =>
      refine ⟨?_, rfl⟩
      rw [List.nil_append, mark, hlit]
      exact .literal .nil
  | cons c tag ih =>
      have hne : c ≠ '\x60' := fun he => h (by simp [he])
      have hnext : (Mode.literal '\x60').next c = .literal '\x60' := by
        simp [Mode.next, hne]
      obtain ⟨hm, ha⟩ := ih fun hc => h (by simp [hc])
      refine ⟨?_, ?_⟩
      · rw [List.cons_append, mark, hnext, hlit]
        exact .literal hm
      · rw [List.cons_append, after_cons, hnext, ha]

theorem depthDelta_append (h : IsNested top xs) (ys : List Char) :
    depthDelta (xs ++ ys) = depthDelta ys := by
  have hx := marksDelta_nested h.marks
  have ha := marksDelta_append (mark .code xs) (mark .code ys)
  rw [hx, Int.zero_add] at ha
  rw [depthDelta, mark_append, h.closed]
  exact ha

end IsNested

theorem enclosed?_bracket (hb : closerOf? opener = some closer) (h : IsNested top inside)
    (after : List Char) :
    enclosed? (opener :: (inside ++ closer :: after)) = some (inside, after) := by
  have hc : closing? (opener :: (inside ++ closer :: after)) = some (inside.length + 1) := by
    simp only [closing?, hb, Option.bind_some]
    rw [IsNested.mark_bracket hb h, closeIn_opener, closeIn_nested hb Nat.one_pos h.marks,
      closeIn_closer_one (closer_ne_opener hb), length_mark]
    simp
  simp [enclosed?, hc, List.drop_append]

/-! ### Parts -/

variable {separators part rest : List Char} {separator : Char}

theorem IsNested.endsAtTop (h : IsNested top part) : EndsAtTop part :=
  ⟨h.closed, nesting_nested h.marks 0⟩

/-- No bracket is open behind text that ends at top level. -/
theorem EndsAtTop.depthDelta_le {cs : List Char} (h : EndsAtTop cs) : depthDelta cs ≤ 0 := by
  have hle := marksDelta_le_nesting (mark .code cs) 0
  rw [h.outside] at hle
  show marksDelta (mark .code cs) ≤ 0
  omega

theorem IsNested.isUncut (h : IsNested top part) (hs : ∀ c, top c → c ∉ separators) :
    IsUncut separators part := by
  rintro xs c ys rfl htop hc hm
  obtain ⟨hq, ho, hcl⟩ := isNeutral_iff.1 hc
  have hmark : mark .code (xs ++ c :: ys) = mark .code xs ++ (c, true) :: mark .code ys := by
    simp [mark_append, mark, htop.closed, Mode.isCode, Mode.next, hq]
  have hpos := h.marks.delta_pos hmark ho hcl fun ht => hs c ht hm
  exact absurd hpos (Int.not_lt.2 htop.depthDelta_le)

theorem splitTopLevel_nested (h : IsNested top part) (hs : ∀ c, top c → c ∉ separators) :
    splitTopLevel separators part = keptParts [part] :=
  splitTopLevel_of_isUncut (h.isUncut hs)

theorem splitTopLevel_append (h : IsNested top part) (hs : ∀ c, top c → c ∉ separators)
    (hm : separator ∈ separators) (hq : isQuote separator = false)
    (ho : isOpener separator = false) (hc : isCloser separator = false) (rest : List Char) :
    splitTopLevel separators (part ++ separator :: rest) =
      keptParts [part] ++ splitTopLevel separators rest := by
  rw [splitTopLevel_append_separator h.endsAtTop (isNeutral_iff.2 ⟨hq, ho, hc⟩) hm,
    splitTopLevel_nested h hs]

end StructLayout.Source
