import StructLayout.Layout.Placement
import StructLayout.Layout.RunInsertion

/-!
# Reordering fields to save padding

Fields are ordered by descending alignment, then by descending size.  An empty field ties with every
field that takes up space, so that it is not moved merely for being empty; this makes the order
intransitive, and a sorted list may come out larger than the list it came from.  `optimize` therefore
takes a sorted list only when it is strictly smaller, and sorts again until the size stops shrinking.

How fields are sorted does not matter for that (`FieldSort`).  The main statements say that the result
is a permutation (`FieldSort.shrink_perm`), never larger (`FieldSort.structSize_shrink_le`), and left
alone by another run (`FieldSort.shrink_shrink`).
-/

namespace StructLayout

/-- The order of fields: greater alignment first, then greater size; an empty field ties with a
field that takes up space. -/
def Field.order (a b : Field) : Ordering :=
  if a.isEmpty != b.isEmpty then .eq
  else (compare b.alignment a.alignment).then (compare b.bytes a.bytes)

/-- Whether a field goes strictly before another one. -/
def Field.precedes (a b : Field) : Bool := a.order b = .lt

def sortFields (fields : List Field) : List Field := runInsertionSort Field.precedes fields

theorem sortFields_perm (fields : List Field) : (sortFields fields).Perm fields :=
  runInsertionSort_perm _ _

/-- A way to sort fields.  Whatever order it follows, it only permutes them. -/
structure FieldSort where
  sort : List Field → List Field
  sort_perm : ∀ fields, (sort fields).Perm fields

def fieldSort : FieldSort := { sort := sortFields, sort_perm := sortFields_perm }

/-- Sorts as long as that makes the struct strictly smaller.  The fields' sizes are a lower bound
for every layout, so this ends. -/
def FieldSort.shrink (s : FieldSort) (abi : Abi) (fields : List Field) : List Field :=
  if structSize abi (s.sort fields) < structSize abi fields then s.shrink abi (s.sort fields)
  else fields
termination_by (structSize abi fields - totalBytes fields).toNat
decreasing_by
  -- sorting keeps the sum of the sizes, and no layout is smaller than that
  have hp := totalBytes_perm (s.sort_perm fields)
  have hl := totalBytes_le_structSize abi (s.sort fields)
  omega

/-- The fields in an order with less padding, if a way to sort them finds one. -/
def FieldSort.optimize (s : FieldSort) (abi : Abi) (fields : List Field) :
    Except Indeterminate (List Field) :=
  (requireSized fields).map fun _ => s.shrink abi fields

def FieldSort.optimalSize (s : FieldSort) (abi : Abi) (fields : List Field) :
    Except Indeterminate Int :=
  (s.optimize abi fields).bind (layoutSize abi)

/-- Sorts by the order of fields as long as that makes the struct strictly smaller. -/
def shrink (abi : Abi) (fields : List Field) : List Field := fieldSort.shrink abi fields

/-- The fields in an order with less padding, if sorting finds one. -/
def optimize (abi : Abi) (fields : List Field) : Except Indeterminate (List Field) :=
  fieldSort.optimize abi fields

/-- The size of a struct after reordering its fields by sorting. -/
def optimalSize (abi : Abi) (fields : List Field) : Except Indeterminate Int :=
  fieldSort.optimalSize abi fields

/-! ### What reordering keeps -/

namespace FieldSort

variable (s : FieldSort)

theorem shrink_perm (abi : Abi) (fields : List Field) : (s.shrink abi fields).Perm fields := by
  fun_induction shrink s abi fields with
  | case1 fields _ ih => exact ih.trans (s.sort_perm fields)
  | case2 fields => exact .refl _

theorem structSize_shrink_le (abi : Abi) (fields : List Field) :
    structSize abi (s.shrink abi fields) ≤ structSize abi fields := by
  fun_induction shrink s abi fields with
  | case1 fields h ih => exact Int.le_trans ih (Int.le_of_lt h)
  | case2 fields => exact Int.le_refl _

/-- What shrinking ends with is no larger than what sorting makes of it. -/
theorem structSize_shrink_le_sort (abi : Abi) (fields : List Field) :
    structSize abi (s.shrink abi fields) ≤ structSize abi (s.sort (s.shrink abi fields)) := by
  fun_induction shrink s abi fields with
  | case1 fields _ ih => exact ih
  | case2 fields h => exact Int.not_lt.1 h

theorem shrink_shrink (abi : Abi) (fields : List Field) :
    s.shrink abi (s.shrink abi fields) = s.shrink abi fields := by
  have h := s.structSize_shrink_le_sort abi fields
  rw [shrink]
  exact if_neg (Int.not_lt.2 h)

theorem optimize_of_isSized (abi : Abi) {fields : List Field}
    (h : ∀ f ∈ fields, f.isSized = true) : s.optimize abi fields = .ok (s.shrink abi fields) := by
  rw [optimize, requireSized_of_isSized h]
  rfl

/-- The size after reordering is that of the order found. -/
theorem optimalSize_of_isSized (abi : Abi) {fields : List Field}
    (h : ∀ f ∈ fields, f.isSized = true) :
    s.optimalSize abi fields = .ok (structSize abi (s.shrink abi fields)) := by
  have hs : ∀ f ∈ s.shrink abi fields, f.isSized = true := fun f hf =>
    h f ((s.shrink_perm abi fields).subset hf)
  rw [optimalSize, s.optimize_of_isSized abi h]
  exact layoutSize_of_isSized abi hs

end FieldSort

theorem shrink_perm (abi : Abi) (fields : List Field) : (shrink abi fields).Perm fields :=
  fieldSort.shrink_perm abi fields

theorem optimalSize_of_isSized (abi : Abi) {fields : List Field}
    (h : ∀ f ∈ fields, f.isSized = true) :
    optimalSize abi fields = .ok (structSize abi (shrink abi fields)) :=
  fieldSort.optimalSize_of_isSized abi h

end StructLayout
