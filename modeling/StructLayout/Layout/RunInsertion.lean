/-!
# Insertion sort that starts from a run

The longest run at the start of a list, ascending or strictly descending, is taken as sorted (a
descending one after reversal).  Every later element is inserted by bisection, behind the elements
it does not precede.  Where the order is a weak order the result is the stable sort; where it is not
transitive the result still is a definite permutation, and that is why the algorithm is fixed here.
The main statement is that sorting permutes (`runInsertionSort_perm`).
-/

namespace StructLayout

variable {α : Type}

/-- The longest continuation of `last` in which each element precedes the one before, and the
rest. -/
def descendingRun (precedes : α → α → Bool) (last : α) : List α → List α × List α
  | [] => ([], [])
  | x :: xs =>
    if precedes x last then
      let r := descendingRun precedes x xs
      (x :: r.1, r.2)
    else ([], x :: xs)

/-- The longest continuation of `last` in which no element precedes the one before, and the
rest. -/
def ascendingRun (precedes : α → α → Bool) (last : α) : List α → List α × List α
  | [] => ([], [])
  | x :: xs =>
    if precedes x last then ([], x :: xs)
    else
      let r := ascendingRun precedes x xs
      (x :: r.1, r.2)

/-- The run at the start of a list, in ascending order, and the rest of the list. -/
def leadingRun (precedes : α → α → Bool) : List α → List α × List α
  | [] => ([], [])
  | [x] => ([x], [])
  | x :: y :: rest =>
    if precedes y x then
      let r := descendingRun precedes x (y :: rest)
      -- strictly descending, so that turning it around moves no element across an equal one
      ((x :: r.1).reverse, r.2)
    else
      let r := ascendingRun precedes x (y :: rest)
      (x :: r.1, r.2)

/-- Inserts an element by bisection: before the middle element if it precedes that one, behind it
otherwise. -/
def bisectInsert (precedes : α → α → Bool) (x : α) (sorted : List α) : List α :=
  match _h : sorted.drop (sorted.length / 2) with
  | [] => sorted ++ [x]
  | middle :: after =>
    if precedes x middle then
      bisectInsert precedes x (sorted.take (sorted.length / 2)) ++ middle :: after
    else sorted.take (sorted.length / 2) ++ middle :: bisectInsert precedes x after
termination_by sorted.length
decreasing_by
  · have hl := congrArg List.length _h
    simp only [List.length_drop, List.length_cons] at hl
    simp only [List.length_take]
    omega
  · have hl := congrArg List.length _h
    simp only [List.length_drop, List.length_cons] at hl
    omega

/-- The leading run with every later element inserted by bisection. -/
def runInsertionSort (precedes : α → α → Bool) (xs : List α) : List α :=
  let r := leadingRun precedes xs
  r.2.foldl (fun sorted x => bisectInsert precedes x sorted) r.1

/-! ### Sorting permutes -/

theorem descendingRun_append (precedes : α → α → Bool) (last : α) (xs : List α) :
    (descendingRun precedes last xs).1 ++ (descendingRun precedes last xs).2 = xs := by
  induction xs generalizing last with
  | nil => rfl
  | cons x xs ih =>
    unfold descendingRun
    split
    · simp [ih]
    · rfl

theorem ascendingRun_append (precedes : α → α → Bool) (last : α) (xs : List α) :
    (ascendingRun precedes last xs).1 ++ (ascendingRun precedes last xs).2 = xs := by
  induction xs generalizing last with
  | nil => rfl
  | cons x xs ih =>
    unfold ascendingRun
    split
    · rfl
    · simp [ih]

theorem leadingRun_perm (precedes : α → α → Bool) (xs : List α) :
    ((leadingRun precedes xs).1 ++ (leadingRun precedes xs).2).Perm xs := by
  match xs with
  | [] => exact .refl _
  | [x] => exact .refl _
  | x :: y :: rest =>
    simp only [leadingRun]
    split
    · refine ((List.reverse_perm _).append_right _).trans ?_
      rw [List.cons_append, descendingRun_append]
    · simp [ascendingRun_append]

theorem bisectInsert_perm (precedes : α → α → Bool) (x : α) (sorted : List α) :
    (bisectInsert precedes x sorted).Perm (x :: sorted) := by
  fun_induction bisectInsert precedes x sorted with
  | case1 sorted h => exact List.perm_append_singleton x sorted
  | case2 sorted middle after h _ ih =>
    have hs : sorted.take (sorted.length / 2) ++ middle :: after = sorted := by
      rw [← h, List.take_append_drop]
    refine (ih.append_right _).trans ?_
    rw [List.cons_append, hs]
  | case3 sorted middle after h _ ih =>
    have hs : sorted.take (sorted.length / 2) ++ middle :: after = sorted := by
      rw [← h, List.take_append_drop]
    refine ((ih.cons middle).append_left _).trans ?_
    refine ((List.Perm.swap x middle after).append_left _).trans ?_
    refine List.perm_middle.trans ?_
    rw [hs]

theorem foldl_bisectInsert_perm (precedes : α → α → Bool) (more sorted : List α) :
    (more.foldl (fun sorted x => bisectInsert precedes x sorted) sorted).Perm (sorted ++ more) := by
  induction more generalizing sorted with
  | nil => simp
  | cons x more ih =>
    refine (ih _).trans ?_
    refine ((bisectInsert_perm precedes x sorted).append_right more).trans ?_
    exact List.perm_middle.symm

theorem runInsertionSort_perm (precedes : α → α → Bool) (xs : List α) :
    (runInsertionSort precedes xs).Perm xs :=
  (foldl_bisectInsert_perm precedes _ _).trans (leadingRun_perm precedes xs)

end StructLayout
