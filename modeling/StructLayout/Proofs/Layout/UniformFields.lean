import StructLayout.Proofs.Layout.FixedPoint
import StructLayout.Proofs.Layout.LeastSize

/-!
# Fields that all take up space

Only an empty field next to one that takes up space makes the order of fields intransitive.  Fields of
one kind, whatever their sizes and alignments, are ordered by their ranks, and sorting them is the stable
sort by descending alignment and size (`sortFields_eq_descending`).  A second pass therefore finds nothing
left to do.

The main statement is `optimize_eq_descending`: optimizing such fields takes over the stably sorted list
if that is smaller, and keeps the list otherwise.
-/

namespace StructLayout

/-- Whether a field may stand in front of another one: its alignment is greater, or the same with a size
that is no smaller. -/
def Field.leads (f g : Field) : Bool :=
  g.alignment < f.alignment || (g.alignment = f.alignment && g.bytes ≤ f.bytes)

/-- The fields by descending alignment, those of one alignment by descending size, and those of one
alignment and size in the given order. -/
def descending (fields : List Field) : List Field := fields.mergeSort Field.leads

theorem Field.leads_eq (f g : Field) : f.leads g = decide (f.rank ≤ g.rank) := by
  rw [Bool.eq_iff_iff]
  simp only [leads, rank, Prod.Lex.toLex_le_toLex, Bool.or_eq_true, Bool.and_eq_true,
    decide_eq_true_eq]
  omega

theorem descending_eq (fields : List Field) :
    descending fields = fields.mergeSort fun f g => decide (f.rank ≤ g.rank) := by
  rw [descending]
  congr 1
  funext f g
  exact f.leads_eq g

theorem descending_perm (fields : List Field) : (descending fields).Perm fields :=
  List.mergeSort_perm _ _

theorem descending_descending (fields : List Field) :
    descending (descending fields) = descending fields := by
  rw [descending_eq (descending fields)]
  refine List.mergeSort_of_pairwise ?_
  rw [descending_eq]
  exact (pairwise_mergeSort_key Field.rank fields).imp fun h => decide_eq_true h

theorem Field.rank_eq_iff {f : Field} {align size : Int} :
    f.rank = toLex (-align, -size) ↔ f.alignment = align ∧ f.bytes = size := by
  rw [rank, toLex_inj, Prod.mk.injEq, neg_inj, neg_inj]

theorem filter_descending (align size : Int) (fields : List Field) :
    (descending fields).filter (fun f => f.alignment = align ∧ f.bytes = size) =
      fields.filter fun f => f.alignment = align ∧ f.bytes = size := by
  have h := filter_mergeSort_key Field.rank fields (toLex (-align, -size))
  simp only [Field.rank_eq_iff] at h
  rw [descending_eq]
  exact h

theorem sortFields_eq_descending {empty : Bool} {fields : List Field}
    (h : ∀ f ∈ fields, f.isEmpty = empty) : sortFields fields = descending fields := by
  rw [descending_eq]
  exact runInsertionSort_eq_mergeSort (orderedBy_rank empty) h

theorem sortFields_descending {empty : Bool} {fields : List Field}
    (h : ∀ f ∈ fields, f.isEmpty = empty) : sortFields (descending fields) = descending fields := by
  have hkind : ∀ f ∈ descending fields, f.isEmpty = empty := fun f hf =>
    h f ((descending_perm fields).subset hf)
  rw [sortFields_eq_descending hkind, descending_descending]

theorem run_descending (abi : Abi) {empty : Bool} {fields : List Field}
    (h : ∀ f ∈ fields, f.isEmpty = empty) :
    ∃ rounds ≤ 1, fieldSort.Run abi rounds fields
      (if structSize abi (descending fields) < structSize abi fields then descending fields
        else fields) := by
  have hsort : fieldSort.sort fields = descending fields := sortFields_eq_descending h
  have hagain : fieldSort.sort (descending fields) = descending fields := sortFields_descending h
  split
  · next hlt =>
    have hstop : fieldSort.Run abi 0 (descending fields) (descending fields) := by
      refine .stop ?_
      rw [hagain]
    rw [← hsort] at hlt hstop ⊢
    exact ⟨1, Nat.le_refl 1, .again hlt hstop⟩
  · next hge =>
    refine ⟨0, Nat.zero_le 1, .stop ?_⟩
    rw [hsort]
    exact Int.not_lt.1 hge

/-- Of fields that all take up space, or are all empty, optimizing gives the stably sorted list if that is
smaller and the given list otherwise.  It takes one pass at most; sorting again changes nothing, and
fields of one alignment and size keep their order. -/
theorem optimize_eq_descending (abi : Abi) (fields : List Field)
    (hsized : ∀ f ∈ fields, f.isSized = true)
    (hkind : (∀ f ∈ fields, f.bytes ≠ 0) ∨ ∀ f ∈ fields, f.bytes = 0) :
    ∃ size best order rounds, layoutSize abi fields = .ok size ∧
      layoutSize abi (descending fields) = .ok best ∧
      order = (if best < size then descending fields else fields) ∧
      optimize abi fields = .ok order ∧ fieldSort.Run abi rounds fields order ∧ rounds ≤ 1 ∧
      sortFields fields = descending fields ∧ sortFields (descending fields) = descending fields ∧
      ∀ align size, order.filter (fun f => f.alignment = align ∧ f.bytes = size) =
        fields.filter fun f => f.alignment = align ∧ f.bytes = size := by
  obtain ⟨empty, hempty⟩ : ∃ empty, ∀ f ∈ fields, f.isEmpty = empty := by
    rcases hkind with h | h
    · exact ⟨false, fun f hf => decide_eq_false (h f hf)⟩
    · exact ⟨true, fun f hf => decide_eq_true (h f hf)⟩
  have hsorted : ∀ f ∈ descending fields, f.isSized = true := fun f hf =>
    hsized f ((descending_perm fields).subset hf)
  obtain ⟨rounds, hrounds, hrun⟩ := run_descending abi hempty
  obtain ⟨_, hshrink⟩ := fieldSort.run_shrink abi fields
  refine ⟨_, _, _, rounds, layoutSize_of_isSized abi hsized, layoutSize_of_isSized abi hsorted, rfl,
    ?_, hrun, hrounds, sortFields_eq_descending hempty, sortFields_descending hempty, ?_⟩
  · rw [optimize, fieldSort.optimize_of_isSized abi hsized, (hrun.unique hshrink).2]
  · intro align size
    split
    · exact filter_descending align size fields
    · rfl

/-- Two small fields that tie, one of them without an alignment, around a word and a field of negative
size. -/
def tiedFields : List Field := [
  { name := "a", typeExpr := "T", size := some 1, align := none, tag := "", comment := "" },
  { name := "w", typeExpr := "int64", size := some 8, align := some 8, tag := "", comment := "" },
  { name := "b", typeExpr := "T", size := some 1, align := some 0, tag := "", comment := "" },
  { name := "n", typeExpr := "U", size := some (-1), align := some 2, tag := "", comment := "" }]

theorem optimize_eq_descending_tied :
    ((∀ f ∈ tiedFields, f.isSized = true) ∧
      ((∀ f ∈ tiedFields, f.bytes ≠ 0) ∨ ∀ f ∈ tiedFields, f.bytes = 0)) ∧
    (descending tiedFields).map Field.name = ["w", "n", "a", "b"] ∧
    ∃ size best order rounds, layoutSize .amd64 tiedFields = .ok size ∧
      layoutSize .amd64 (descending tiedFields) = .ok best ∧
      order = (if best < size then descending tiedFields else tiedFields) ∧
      optimize .amd64 tiedFields = .ok order ∧
      fieldSort.Run .amd64 rounds tiedFields order ∧ rounds ≤ 1 ∧
      sortFields tiedFields = descending tiedFields ∧
      sortFields (descending tiedFields) = descending tiedFields ∧
      ∀ align size, order.filter (fun f => f.alignment = align ∧ f.bytes = size) =
        tiedFields.filter fun f => f.alignment = align ∧ f.bytes = size := by
  refine ⟨by decide, ?_, optimize_eq_descending .amd64 tiedFields (by decide) (by decide)⟩
  simp [descending, tiedFields, List.mergeSort, List.MergeSort.Internal.splitInTwo, Field.leads,
    Field.alignment, Field.bytes]

end StructLayout
