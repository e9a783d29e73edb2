import StructLayout.Layout.Optimize

/-!
# Sorting until nothing is gained

`FieldSort.Run` describes a run of the loop that sorts fields as long as that makes the struct
smaller, round by round and for any way of sorting.  A run from given fields exists and ends with what
`FieldSort.shrink` gives (`FieldSort.run_shrink`), it takes no more rounds than the struct has bytes to
lose (`FieldSort.Run.rounds_le`), and it leaves the fields alone or makes them smaller
(`FieldSort.Run.eq_or_lt`).

The main statement is `FieldSort.optimize_isFixedPoint`: sorting may follow any order at all, even one
that makes no sense on empty fields, and optimizing still ends, permutes, and is done after one go.
-/

namespace StructLayout

namespace FieldSort

/-- `s.Run abi rounds fields order`: starting from `fields` the loop takes over a sorted list
`rounds` times, each time a strictly smaller one, and ends with `order` because sorting that is no
gain. -/
inductive Run (s : FieldSort) (abi : Abi) : Nat → List Field → List Field → Prop
  | stop {fields : List Field} :
      structSize abi fields ≤ structSize abi (s.sort fields) → Run s abi 0 fields fields
  | again {rounds : Nat} {fields order : List Field} :
      structSize abi (s.sort fields) < structSize abi fields →
      Run s abi rounds (s.sort fields) order → Run s abi (rounds + 1) fields order

variable {s : FieldSort} {abi : Abi} {rounds : Nat} {fields order : List Field}

theorem Run.perm (h : s.Run abi rounds fields order) : order.Perm fields := by
  induction h with
  | stop _ => exact .refl _
  | again _ _ ih => exact ih.trans (s.sort_perm _)

/-- Every round gains at least a byte. -/
theorem Run.add_rounds_le (h : s.Run abi rounds fields order) :
    structSize abi order + rounds ≤ structSize abi fields := by
  induction h with
  | stop _ => simp
  | again hlt _ ih =>
      push_cast
      omega

theorem Run.rounds_le (h : s.Run abi rounds fields order) :
    rounds ≤ structSize abi fields - totalBytes fields := by
  have hr := h.add_rounds_le
  have ht := totalBytes_le_structSize abi order
  rw [totalBytes_perm h.perm] at ht
  omega

/-- A run takes over no list at all, or ends with a smaller struct. -/
theorem Run.eq_or_lt (h : s.Run abi rounds fields order) :
    order = fields ∨ structSize abi order < structSize abi fields := by
  cases h with
  | stop _ => exact .inl rfl
  | again hlt hr =>
      right
      have hle := hr.add_rounds_le
      omega

theorem Run.unique {rounds' : Nat} {order' : List Field} (h : s.Run abi rounds fields order)
    (h' : s.Run abi rounds' fields order') : rounds = rounds' ∧ order = order' := by
  induction h generalizing rounds' with
  | stop hge =>
      cases h' with
      | stop _ => exact ⟨rfl, rfl⟩
      | again hlt _ => omega
  | again hlt _ ih =>
      cases h' with
      | stop hge => omega
      | again _ hr' =>
          obtain ⟨rfl, rfl⟩ := ih hr'
          exact ⟨rfl, rfl⟩

variable (s abi fields) in
/-- The loop ends, with what `shrink` gives. -/
theorem run_shrink : ∃ rounds, s.Run abi rounds fields (s.shrink abi fields) := by
  fun_induction shrink s abi fields with
  | case1 fields hlt ih =>
      obtain ⟨rounds, hr⟩ := ih
      exact ⟨rounds + 1, .again hlt hr⟩
  | case2 fields hge => exact ⟨0, .stop (Int.not_lt.1 hge)⟩

variable (s) in
/-- For every way of sorting, optimizing fields of known size ends after a bounded number of rounds,
with a permutation of the fields that is the fields themselves or makes the struct strictly smaller,
and that is left alone by optimizing it again. -/
theorem optimize_isFixedPoint (abi : Abi) (fields : List Field)
    (h : ∀ f ∈ fields, f.isSized = true) :
    ∃ order rounds, s.optimize abi fields = .ok order ∧
      s.Run abi rounds fields order ∧ rounds ≤ structSize abi fields - totalBytes fields ∧
      order.Perm fields ∧
      (order = fields ∨
        ∃ best size, layoutSize abi order = .ok best ∧ layoutSize abi fields = .ok size ∧
          best < size) ∧
      s.optimize abi order = .ok order := by
  obtain ⟨rounds, hr⟩ := s.run_shrink abi fields
  have ho : ∀ f ∈ s.shrink abi fields, f.isSized = true := fun f hf => h f (hr.perm.subset hf)
  refine ⟨s.shrink abi fields, rounds, s.optimize_of_isSized abi h, hr, hr.rounds_le, hr.perm, ?_,
    ?_⟩
  · refine hr.eq_or_lt.imp_right fun hlt => ?_
    exact ⟨_, _, layoutSize_of_isSized abi ho, layoutSize_of_isSized abi h, hlt⟩
  · rw [s.optimize_of_isSized abi ho, s.shrink_shrink]

def aroundWord : List Field := [
  { name := "a", typeExpr := "bool", size := some 1, align := some 1, tag := "", comment := "" },
  { name := "w", typeExpr := "int64", size := some 8, align := some 8, tag := "", comment := "" },
  { name := "e", typeExpr := "T", size := some 0, align := none, tag := "", comment := "" },
  { name := "b", typeExpr := "bool", size := some 1, align := some 1, tag := "", comment := "" }]

theorem optimize_isFixedPoint_aroundWord :
    (∀ f ∈ aroundWord, f.isSized = true) ∧
    ∃ order rounds, fieldSort.optimize .amd64 aroundWord = .ok order ∧
      fieldSort.Run .amd64 rounds aroundWord order ∧
      rounds ≤ structSize .amd64 aroundWord - totalBytes aroundWord ∧
      order.Perm aroundWord ∧
      (order = aroundWord ∨
        ∃ best size, layoutSize .amd64 order = .ok best ∧
          layoutSize .amd64 aroundWord = .ok size ∧
          best < size) ∧
      fieldSort.optimize .amd64 order = .ok order :=
  ⟨by decide, fieldSort.optimize_isFixedPoint _ aroundWord (by decide)⟩

end FieldSort

end StructLayout
