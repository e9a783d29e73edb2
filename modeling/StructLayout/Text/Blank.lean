/-!
# Blank characters and trimming

Text is handled as a list of characters.  A *blank* is a character that separates words; the
class is wider than ASCII white space.
-/

namespace StructLayout.Text

/-- White space: the controls from tab to carriage return and from U+001C to U+001F, the next-line
control, and every space separator of Unicode. -/
def isBlank (c : Char) : Bool :=
  let n := c.toNat
  (9 ≤ n && n ≤ 13) || (28 ≤ n && n ≤ 32) || n == 0x85 || n == 0xA0 || n == 0x1680 ||
    (0x2000 ≤ n && n ≤ 0x200A) || n == 0x2028 || n == 0x2029 || n == 0x202F || n == 0x205F ||
    n == 0x3000

/-- The text without its leading blanks. -/
def trimStart (cs : List Char) : List Char := cs.dropWhile isBlank

/-- The text without its trailing blanks. -/
def trimEnd (cs : List Char) : List Char := (cs.reverse.dropWhile isBlank).reverse

/-- The text without the blanks at either end. -/
def trim (cs : List Char) : List Char := trimEnd (trimStart cs)

def isAllBlank (cs : List Char) : Bool := cs.all isBlank

/-- A string without the blanks at either end. -/
def trimmed (s : String) : String := String.ofList (trim s.toList)

/-- The text behind a word and the blanks that have to follow it. -/
def afterWord? (word : String) (cs : List Char) : Option (List Char) :=
  if word.toList.isPrefixOf cs then
    match cs.drop word.length with
    | c :: rest => if isBlank c then some (trimStart rest) else none
    | [] => none
  else none

/-- A text divided at its blanks, given the characters of the current word, last first. -/
def blankWordsFrom (word : List Char) : List Char → List (List Char)
  | [] => if word.isEmpty then [] else [word.reverse]
  | c :: rest =>
    if !isBlank c then blankWordsFrom (c :: word) rest
    else if word.isEmpty then blankWordsFrom [] rest
    else word.reverse :: blankWordsFrom [] rest

def blankWords (cs : List Char) : List (List Char) := blankWordsFrom [] cs

/-- A property of the characters of a text is tried at these, not at all characters there are. -/
instance decidableForallMem {p : Char → Prop} [DecidablePred p] {cs : List Char} :
    Decidable (∀ c ∈ cs, p c) :=
  List.decidableBAll p cs

/-! ### Small facts -/

@[simp] theorem trimStart_nil : trimStart [] = [] := rfl

@[simp] theorem trim_nil : trim [] = [] := rfl

theorem length_trimStart_le (cs : List Char) : (trimStart cs).length ≤ cs.length :=
  (List.dropWhile_sublist isBlank).length_le

theorem trimStart_sublist (cs : List Char) : (trimStart cs).Sublist cs :=
  List.dropWhile_sublist isBlank

theorem trimEnd_sublist (cs : List Char) : (trimEnd cs).Sublist cs := by
  have h : (cs.reverse.dropWhile isBlank).Sublist cs.reverse := List.dropWhile_sublist isBlank
  simpa [trimEnd] using h.reverse

theorem trim_sublist (cs : List Char) : (trim cs).Sublist cs :=
  (trimEnd_sublist _).trans (trimStart_sublist cs)

/-- A text whose first character is not blank is not cut at its start. -/
theorem trimStart_eq_self {c : Char} {cs : List Char} (h : isBlank c = false) :
    trimStart (c :: cs) = c :: cs := by
  simp [trimStart, h]

/-- Blanks at the start do not matter for what is left behind the leading blanks. -/
theorem trimStart_append {gap : List Char} (h : ∀ c ∈ gap, isBlank c = true) (cs : List Char) :
    trimStart (gap ++ cs) = trimStart cs :=
  List.dropWhile_append_of_pos h

/-- Blanks at the end do not matter for what is left in front of the trailing blanks. -/
theorem trimEnd_append {gap : List Char} (h : ∀ c ∈ gap, isBlank c = true) (cs : List Char) :
    trimEnd (cs ++ gap) = trimEnd cs := by
  have hr : ∀ c ∈ gap.reverse, isBlank c = true := fun c hc => h c (List.mem_reverse.1 hc)
  rw [trimEnd, List.reverse_append, List.dropWhile_append_of_pos hr, trimEnd]

/-- A text whose last character is not blank is not cut at its end. -/
theorem trimEnd_concat {c : Char} (h : isBlank c = false) (cs : List Char) :
    trimEnd (cs ++ [c]) = cs ++ [c] := by
  simp [trimEnd, h]

/-- What is left behind the leading blanks does not start with one. -/
theorem isBlank_of_trimStart_eq_cons {c : Char} {cs rest : List Char}
    (h : trimStart cs = c :: rest) : isBlank c = false := by
  have hn := List.head?_dropWhile_not isBlank cs
  have hc : (cs.dropWhile isBlank).head? = some c := congrArg List.head? h
  rw [hc] at hn
  simpa using hn

theorem trimStart_trimStart (cs : List Char) : trimStart (trimStart cs) = trimStart cs := by
  cases h : trimStart cs with
  | nil => rfl
  | cons c rest => exact trimStart_eq_self (isBlank_of_trimStart_eq_cons h)

theorem trimEnd_trimEnd (cs : List Char) : trimEnd (trimEnd cs) = trimEnd cs := by
  have h := trimStart_trimStart cs.reverse
  simp only [trimStart] at h
  simp [trimEnd, h]

/-- Trimming the end takes blanks away. -/
theorem trimEnd_append_eq (cs : List Char) :
    ∃ blanks, cs = trimEnd cs ++ blanks ∧ ∀ c ∈ blanks, isBlank c = true := by
  refine ⟨(cs.reverse.takeWhile isBlank).reverse, ?_, fun c hc => ?_⟩
  · rw [trimEnd, ← List.reverse_append, List.takeWhile_append_dropWhile, List.reverse_reverse]
  · exact List.all_eq_true.1 List.all_takeWhile c (List.mem_reverse.1 hc)

/-- Trimming takes blanks away at both ends. -/
theorem exists_trim (cs : List Char) :
    ∃ front behind, cs = front ++ (trim cs ++ behind) ∧ (∀ c ∈ front, isBlank c = true) ∧
      ∀ c ∈ behind, isBlank c = true := by
  obtain ⟨behind, he, hbehind⟩ := trimEnd_append_eq (trimStart cs)
  refine ⟨cs.takeWhile isBlank, behind, ?_, ?_, hbehind⟩
  · rw [trim, ← he, trimStart, List.takeWhile_append_dropWhile]
  · intro c hc
    exact List.all_eq_true.1 List.all_takeWhile c hc

/-- A character that is not blank stays when the end is trimmed, with all in front of it. -/
theorem trimEnd_append_cons {c : Char} (h : isBlank c = false) (xs ys : List Char) :
    trimEnd (xs ++ c :: ys) = xs ++ c :: trimEnd ys := by
  have hreverse : (xs ++ c :: ys).reverse = ys.reverse ++ c :: xs.reverse := by simp
  rw [trimEnd, hreverse, List.dropWhile_append, trimEnd]
  split
  · next he => simp [h, List.isEmpty_iff.1 he]
  · simp

theorem trimEnd_cons {c : Char} (h : isBlank c = false) (cs : List Char) :
    trimEnd (c :: cs) = c :: trimEnd cs :=
  trimEnd_append_cons h [] cs

/-- Characters that are not blank stay when the end is trimmed. -/
theorem trimEnd_append_left {xs : List Char} (h : ∀ c ∈ xs, isBlank c = false) (cs : List Char) :
    trimEnd (xs ++ cs) = xs ++ trimEnd cs := by
  induction xs with
  | nil => rfl
  | cons c xs ih =>
    have htail := ih fun d hd => h d (List.mem_cons_of_mem c hd)
    rw [List.cons_append, trimEnd_cons (h c List.mem_cons_self), htail, List.cons_append]

/-- Blanks at the start do not matter for trimming. -/
theorem trim_append_left {gap : List Char} (h : ∀ c ∈ gap, isBlank c = true) (cs : List Char) :
    trim (gap ++ cs) = trim cs := by
  rw [trim, trimStart_append h, trim]

/-- Blanks at the end do not matter for trimming. -/
theorem trim_append_right {gap : List Char} (h : ∀ c ∈ gap, isBlank c = true) (cs : List Char) :
    trim (cs ++ gap) = trim cs := by
  have hgap : gap.dropWhile isBlank = [] := by
    have hnil := trimStart_append h []
    rwa [List.append_nil] at hnil
  rw [trim, trim, trimStart, trimStart, List.dropWhile_append]
  split
  · next he => rw [hgap, List.isEmpty_iff.1 he]
  · exact trimEnd_append h _

theorem trim_trimEnd (cs : List Char) : trim (trimEnd cs) = trim cs := by
  obtain ⟨blanks, hb, hblank⟩ := trimEnd_append_eq cs
  have hr := trim_append_right hblank (trimEnd cs)
  rw [← hb] at hr
  exact hr.symm

/-- What is left of a text does not start with a blank. -/
theorem isBlank_of_trim_eq_cons {c : Char} {cs rest : List Char} (h : trim cs = c :: rest) :
    isBlank c = false := by
  obtain ⟨blanks, hb, -⟩ := trimEnd_append_eq (trimStart cs)
  rw [trim] at h
  rw [h] at hb
  exact isBlank_of_trimStart_eq_cons hb

/-- A trimmed text is not cut again. -/
@[simp] theorem trim_trim (cs : List Char) : trim (trim cs) = trim cs := by
  have hs : trimStart (trim cs) = trim cs := by
    cases he : trim cs with
    | nil => rfl
    | cons c rest => exact trimStart_eq_self (isBlank_of_trim_eq_cons he)
  rw [trim, hs, trim, trimEnd_trimEnd]

end StructLayout.Text
