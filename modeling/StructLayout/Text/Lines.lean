/-!
# Lines and other groups

A text is divided into lines at its line breaks, which belong to no line; a text without a line break
is one line.  The main statements say that putting an element at the front of the first group adds
just that element (`flatten_consHead`), that there is always a line (`splitLines_ne_nil`), that a line
break ends the first one (`splitLines_append`) and how many there are (`length_splitLines`).
-/

namespace StructLayout.Text

/-- Puts an element at the front of the first of some groups. -/
def consHead {α : Type} (x : α) : List (List α) → List (List α)
  | [] => [[x]]
  | group :: rest => (x :: group) :: rest

@[simp] theorem flatten_consHead {α : Type} (x : α) (groups : List (List α)) :
    (consHead x groups).flatten = x :: groups.flatten := by
  cases groups <;> rfl

theorem consHead_ne_nil {α : Type} (x : α) (groups : List (List α)) : consHead x groups ≠ [] := by
  cases groups <;> simp [consHead]

def splitLines : List Char → List (List Char)
  | [] => [[]]
  | c :: rest => if c = '\n' then [] :: splitLines rest else consHead c (splitLines rest)

theorem splitLines_ne_nil (cs : List Char) : splitLines cs ≠ [] := by
  cases cs with
  | nil => simp [splitLines]
  | cons c rest =>
    unfold splitLines
    split
    · simp
    · exact consHead_ne_nil c _

/-- A text without line breaks is one line. -/
theorem splitLines_of_notMem {cs : List Char} (h : '\n' ∉ cs) : splitLines cs = [cs] := by
  induction cs with
  | nil => rfl
  | cons c cs ih =>
    have hc : ¬ c = '\n' := fun he => h (by simp [he])
    rw [splitLines, if_neg hc, ih fun hm => h (by simp [hm])]
    rfl

/-- The first line goes up to the first line break. -/
theorem splitLines_append {cs : List Char} (h : '\n' ∉ cs) (rest : List Char) :
    splitLines (cs ++ '\n' :: rest) = cs :: splitLines rest := by
  induction cs with
  | nil => simp [splitLines]
  | cons c cs ih =>
    have hc : ¬ c = '\n' := fun he => h (by simp [he])
    rw [List.cons_append, splitLines, if_neg hc, ih fun hm => h (by simp [hm])]
    rfl

/-- There is one line more than there are line breaks. -/
theorem length_splitLines (cs : List Char) : (splitLines cs).length = cs.count '\n' + 1 := by
  induction cs with
  | nil => rfl
  | cons c cs ih =>
    rw [splitLines]
    split
    · next h => rw [List.length_cons, ih, h, List.count_cons_self]
    · next h =>
      rw [List.count_cons_of_ne h, ← ih]
      cases hs : splitLines cs with
      | nil => exact absurd hs (splitLines_ne_nil cs)
      | cons first rest => rfl

end StructLayout.Text
