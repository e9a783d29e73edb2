import StructLayout.Proofs.Source.WrittenLine

/-!
# Entries over several lines

An entry of a struct body goes on over further lines as long as brackets are open in it.  Its lines
are read one by one, and the depth of nesting is added up from line to line; that agrees with the
depth over the whole text because every line closes its literals (`depthDelta_append_of_closed`).  In
front of a line break inside of brackets some bracket is open (`depthDelta_pos`), so that no line is
taken for the last one too early, and none for the end of the body.

The main statement is `structBody_entry`: text that is nested properly, with its line breaks inside of
brackets, is taken up as one entry with the comment and the number of its first line.
-/

namespace StructLayout.Source

/-! ### Depth over lines -/

variable {xs ys : List Char} {top : Char → Prop}

theorem depthDelta_append_of_closed (h : Mode.code.after xs = .code) (ys : List Char) :
    depthDelta (xs ++ ys) = depthDelta xs + depthDelta ys := by
  rw [depthDelta, mark_append, h]
  exact marksDelta_append _ _

theorem depthDelta_break (cs : List Char) : depthDelta ('\n' :: cs) = depthDelta cs := by
  have hn : IsNested (fun _ => True) ['\n'] := .of_plain (by decide)
  exact hn.depthDelta_append cs

theorem depthDelta_of_nested (h : IsNested top xs) : depthDelta xs = 0 :=
  marksDelta_nested h.marks

/-- A beginning of nested text does not go below its start. -/
theorem depthDelta_nonneg (hx : Mode.code.after xs = .code) (h : IsNested top (xs ++ ys)) :
    0 ≤ depthDelta xs := by
  have hm := h.marks
  rw [mark_append, hx] at hm
  exact hm.delta_nonneg rfl

/-- A bracket is open in front of a line break. -/
theorem depthDelta_pos (hx : Mode.code.after xs = .code) (h : IsNested NoBreak (xs ++ '\n' :: ys)) :
    0 < depthDelta xs := by
  have hm := h.marks
  rw [mark_append, hx] at hm
  exact hm.delta_pos rfl rfl rfl fun hn => hn.2 rfl

/-! ### Entries over several lines -/

/-- The code of a line that holds some: it has firm ends. -/
structure IsLineCode (cs : List Char) : Prop where
  isCode : IsCode cs
  starts : ∃ c rest, cs = c :: rest ∧ Text.isBlank c = false
  ends : ∃ init c, cs = init ++ [c] ∧ Text.isBlank c = false

namespace IsLineCode

theorem of_isTypeText (hc : IsCode xs) (h : IsTypeText xs) : IsLineCode xs where
  isCode := hc
  starts := by
    obtain ⟨c, rest, he, hf, -⟩ := h.starts
    exact ⟨c, rest, he, hf.1⟩
  ends := by
    obtain ⟨init, c, he, hf, -⟩ := h.ends
    exact ⟨init, c, he, hf.1⟩

theorem append {gap : List Char} (hx : IsLineCode xs) (hg : IsCode gap) (hy : IsLineCode ys) :
    IsLineCode (xs ++ (gap ++ ys)) where
  isCode := hx.isCode.append (hg.append hy.isCode)
  starts := by
    obtain ⟨c, rest, rfl, hc⟩ := hx.starts
    exact ⟨c, rest ++ (gap ++ ys), rfl, hc⟩
  ends := by
    obtain ⟨init, c, rfl, hc⟩ := hy.ends
    exact ⟨xs ++ (gap ++ init), c, by simp, hc⟩

theorem append_tag (h : IsLineCode xs) (gap : Gap) (tag : Option LineTag) :
    IsLineCode (xs ++ writtenTag gap.chars (tag.map LineTag.toRawTag)) := by
  cases tag with
  | none => simpa [writtenTag] using h
  | some tag =>
      have htag : IsLineCode ('\x60' :: (tag.chars ++ ['\x60'])) :=
        ⟨.raw tag.closed tag.oneLine tag.noBlock .nil, ⟨'\x60', _, rfl, by decide⟩,
          ⟨'\x60' :: tag.chars, '\x60', rfl, by decide⟩⟩
      exact h.append gap.isCode htag

theorem trim_eq (h : IsLineCode xs) : Text.trim xs = xs := by
  obtain ⟨c, rest, hs, hc⟩ := h.starts
  obtain ⟨init, d, he, hd⟩ := h.ends
  rw [Text.trim, hs, Text.trimStart_eq_self hc, ← hs, he, Text.trimEnd_concat hd]

theorem isEmpty_eq (h : IsLineCode xs) : xs.isEmpty = false := by
  obtain ⟨c, rest, rfl, -⟩ := h.starts
  rfl

end IsLineCode

def joinedCode (ls : List WrittenLine) : List Char :=
  ['\n'].intercalate (ls.map WrittenLine.code)

theorem joinedCode_cons (l next : WrittenLine) (ls : List WrittenLine) :
    joinedCode (l :: next :: ls) = l.code ++ '\n' :: joinedCode (next :: ls) := by
  simp [joinedCode, List.intercalate_cons_cons]

theorem OpenEntry.text_add {entry : OpenEntry} (h : entry.lines ≠ []) (line : Line) :
    (entry.add line).text = entry.text ++ '\n' :: line.code := by
  have hc := @intercalate_concat ['\n'] line.code entry.lines.reverse (by simpa using h)
  simpa [OpenEntry.text, OpenEntry.add] using hc

/-- Outside of an entry it does not matter which one was read last. -/
theorem structBody_zero_congr (entry entry' : OpenEntry) (lines : List Line) :
    structBody 0 entry lines = structBody 0 entry' lines := by
  induction lines with
  | nil => rfl
  | cons line lines ih =>
      unfold structBody
      split
      · exact ih
      · rfl

variable {depth : Int} {entry : OpenEntry} {rest : List Line}

theorem structBody_notes {ls : List WrittenLine} (h : ∀ l ∈ ls, l.code = []) (number : Nat)
    (rest : List Line) :
    structBody depth entry (readLines number ls ++ rest) = structBody depth entry rest := by
  induction ls generalizing number with
  | nil => rfl
  | cons l ls ih =>
      have hl : (l.read number).code.isEmpty = true := by
        rw [WrittenLine.read, h l (by simp)]
        rfl
      rw [readLines, List.cons_append, structBody, if_pos hl]
      exact ih (fun m hm => h m (by simp [hm])) (number + 1)

/-- An entry goes on as long as a bracket is open, and is complete when all are closed. -/
theorem structBody_open {ls : List WrittenLine} (hne : ls ≠ [])
    (h : ∀ l ∈ ls, IsLineCode l.code) (hlines : entry.lines ≠ [])
    (hclosed : Mode.code.after entry.text = .code)
    (hn : IsNested NoBreak (entry.text ++ '\n' :: joinedCode ls)) (number : Nat) :
    structBody (depthDelta entry.text) entry (readLines number ls ++ rest) =
      (structBody 0 entry rest).prepend
        (entriesOf entry.comment entry.line (entry.text ++ '\n' :: joinedCode ls)) := by
  -- the entry has taken up the lines so far, and is as deep as its text says
  induction ls generalizing entry number with
  | nil => exact absurd rfl hne
  | cons l ls ih =>
      have hl := h l (by simp)
      have hdepth : ¬ depthDelta entry.text = 0 := by
        have hp := depthDelta_pos hclosed hn
        omega
      have htext : (entry.add (l.read number)).text = entry.text ++ '\n' :: l.code :=
        OpenEntry.text_add hlines _
      have hadd : depthDelta entry.text + depthDelta l.code =
          depthDelta (entry.add (l.read number)).text := by
        rw [htext, depthDelta_append_of_closed hclosed, depthDelta_break]
      have hafter : Mode.code.after (entry.add (l.read number)).text = .code := by
        rw [htext, after_append, hclosed, after_cons]
        exact hl.isCode.after_eq
      rw [readLines, List.cons_append, structBody]
      simp only [WrittenLine.read_code, hl.isEmpty_eq, hdepth, Bool.false_eq_true, if_false,
        decide_false, Bool.false_and, hadd]
      cases ls with
      | nil =>
          have hall : joinedCode [l] = l.code := by simp [joinedCode]
          rw [hall, ← htext] at hn ⊢
          rw [depthDelta_of_nested hn, if_pos (Int.le_refl 0)]
          exact congrArg (Body.prepend _) (structBody_zero_congr _ _ _)
      | cons next ls =>
          have hall : entry.text ++ '\n' :: joinedCode (l :: next :: ls) =
              (entry.add (l.read number)).text ++ '\n' :: joinedCode (next :: ls) := by
            rw [htext, joinedCode_cons]
            simp
          rw [hall] at hn ⊢
          have hpos : ¬ depthDelta (entry.add (l.read number)).text ≤ 0 := by
            have hp := depthDelta_pos hafter hn
            omega
          rw [if_neg hpos, ih (List.cons_ne_nil _ _) (fun m hm => h m (by simp [hm]))
            (List.cons_ne_nil _ _) hafter hn (number + 1)]
          exact congrArg (Body.prepend _) (structBody_zero_congr _ _ _)

/-- An entry takes up its lines, however many there are. -/
theorem structBody_entry {l : WrittenLine} {ls : List WrittenLine}
    (h : ∀ m ∈ l :: ls, IsLineCode m.code) (hn : IsNested NoBreak (joinedCode (l :: ls)))
    (number : Nat) :
    structBody 0 entry (readLines number (l :: ls) ++ rest) =
      (structBody 0 entry rest).prepend
        (entriesOf (String.ofList l.margin.note) number (joinedCode (l :: ls))) := by
  have hl := h l (by simp)
  have hclosed := hl.isCode.after_eq
  have htext : (OpenEntry.ofLine (l.read number)).text = l.code := by
    simp [OpenEntry.ofLine, OpenEntry.text]
  have hfirst : 0 ≤ depthDelta l.code := by
    obtain ⟨tail, ht⟩ := intercalate_cons ['\n'] l.code (ls.map WrittenLine.code)
    rw [joinedCode, List.map_cons, ht] at hn
    exact depthDelta_nonneg hclosed hn
  have hcloses : closesBody l.code = false := by
    simp [closesBody, Int.not_lt.2 hfirst]
  rw [readLines, List.cons_append, structBody]
  simp only [WrittenLine.read_code, hl.isEmpty_eq, hcloses, Bool.false_eq_true, if_false,
    decide_true, Bool.true_and, if_true, Int.zero_add]
  cases ls with
  | nil =>
      have hall : joinedCode [l] = l.code := by simp [joinedCode]
      rw [hall] at hn ⊢
      rw [depthDelta_of_nested hn, if_pos (Int.le_refl 0), htext]
      exact congrArg (Body.prepend _) (structBody_zero_congr _ _ _)
  | cons next ls =>
      rw [joinedCode_cons] at hn ⊢
      have hpos : ¬ depthDelta l.code ≤ 0 := Int.not_le.2 (depthDelta_pos hclosed hn)
      rw [if_neg hpos]
      rw [← htext] at hn hclosed ⊢
      rw [structBody_open (List.cons_ne_nil _ _) (fun m hm => h m (by simp [hm]))
        (List.cons_ne_nil _ _) hclosed hn (number + 1)]
      exact congrArg (Body.prepend _) (structBody_zero_congr _ _ _)

/-- A nested text without separators at its top is one entry. -/
theorem entriesOf_nested (h : IsNested NoBreak xs) (comment : String) (line : Nat) :
    entriesOf comment line xs = fieldEntry comment line xs := by
  have hs : ∀ c, NoBreak c → c ∉ [';'] := fun c hc hm => hc.1 (List.mem_singleton.1 hm)
  rw [entriesOf, splitTopLevel_nested h hs]
  cases ht : (Text.trim xs).isEmpty with
  | true => simp [keptParts, fieldEntry, ht]
  | false => simp [keptParts, fieldEntry, ht]

end StructLayout.Source
