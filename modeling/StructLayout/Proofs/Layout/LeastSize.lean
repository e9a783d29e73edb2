import Mathlib.Algebra.Order.Ring.Int
import Mathlib.Data.Prod.Lex
import Mathlib.Order.Bounds.Basic
import StructLayout.Layout.Optimize
import StructLayout.Proofs.Layout.RunOrder

/-!
# The least size over all orders of fields

The end of a layout is rounded up to a multiple of the struct's alignment, and rounding up gives the
least such multiple (`isLeast_add_padding`).  No order ends below the sum of the sizes, so the rounded
sum is a lower bound (`roundedBytes_le_structSize`).  Where every field's size is a multiple of its
alignment and the alignments are powers of two (`Field.IsRegular`), descending alignments leave no
padding between fields (`endFrom_descending`) and the bound is reached.

The main statement is `optimalSize_isLeast`: optimizing regular fields that take up space reaches the
least size over all permutations, whichever permutation it starts from.
-/

namespace StructLayout

/-! ### Rounding up -/

theorem isLeast_add_padding {align : Int} (h : 0 < align) (offset : Int) :
    IsLeast {n | align ∣ n ∧ offset ≤ n} (offset + padding offset align) := by
  have hn := padding_nonneg offset align
  refine ⟨⟨padding_dvd h offset, by omega⟩, ?_⟩
  rintro n ⟨hd, hle⟩
  by_contra! hlt
  have hp := padding_lt h offset
  have hdvd : align ∣ offset + padding offset align - n :=
    Int.dvd_sub (padding_dvd h offset) hd
  have := Int.le_of_dvd (by omega) hdvd
  omega

theorem padding_of_dvd {offset align : Int} (h : align ∣ offset) : padding offset align = 0 := by
  unfold padding
  split
  · rfl
  · rw [Int.emod_eq_zero_of_dvd h, Int.sub_zero, Int.emod_self]

theorem Field.gapAfter_of_dvd {f : Field} {offset : Int} (h : f.alignment ∣ offset) :
    f.gapAfter offset = 0 := by
  simp [Field.gapAfter, padding_of_dvd h]

/-! ### What does not depend on the order -/

theorem largestAlignment_perm {xs ys : List Field} (h : xs.Perm ys) :
    largestAlignment xs = largestAlignment ys := by
  induction h with
  | nil => rfl
  | cons f _ ih => simp [largestAlignment, ih]
  | swap f g rest => simp only [largestAlignment]; omega
  | trans _ _ ih₁ ih₂ => exact ih₁.trans ih₂

theorem effectiveAlignment_perm (abi : Abi) {xs ys : List Field} (h : xs.Perm ys) :
    effectiveAlignment abi xs = effectiveAlignment abi ys := by
  simp [effectiveAlignment, largestAlignment_perm h]

/-- The sum of the sizes of fields, rounded up to the alignment of their struct. -/
def roundedBytes (abi : Abi) (fields : List Field) : Int :=
  totalBytes fields + padding (totalBytes fields) (effectiveAlignment abi fields)

theorem roundedBytes_perm (abi : Abi) {xs ys : List Field} (h : xs.Perm ys) :
    roundedBytes abi xs = roundedBytes abi ys := by
  simp [roundedBytes, totalBytes_perm h, effectiveAlignment_perm abi h]

theorem roundedBytes_isLeast (abi : Abi) (fields : List Field) :
    IsLeast {n | effectiveAlignment abi fields ∣ n ∧ totalBytes fields ≤ n}
      (roundedBytes abi fields) :=
  isLeast_add_padding (one_le_effectiveAlignment abi fields) _

/-- No order of fields makes a struct smaller than the rounded sum of their sizes. -/
theorem roundedBytes_le_structSize (abi : Abi) (fields : List Field) :
    roundedBytes abi fields ≤ structSize abi fields := by
  refine (roundedBytes_isLeast abi fields).2 ⟨?_, totalBytes_le_structSize abi fields⟩
  exact padding_dvd (one_le_effectiveAlignment abi fields) _

/-! ### Descending alignments -/

/-- A field of known layout whose alignment is a power of two that divides its size. -/
structure Field.IsRegular (f : Field) : Prop where
  isSized : f.isSized = true
  align_eq : ∃ k : Nat, f.align = some (2 ^ k)
  dvd_bytes : f.alignment ∣ f.bytes

theorem Field.IsRegular.alignment_eq {f : Field} (h : f.IsRegular) :
    ∃ k : Nat, f.alignment = 2 ^ k := by
  obtain ⟨k, hk⟩ := h.align_eq
  exact ⟨k, by simp [Field.alignment, hk]⟩

/-- Of two powers of two the smaller one divides the other. -/
theorem dvd_of_le_of_powers {small large : Int} (hsmall : ∃ k : Nat, small = 2 ^ k)
    (hlarge : ∃ k : Nat, large = 2 ^ k) (h : small ≤ large) : small ∣ large := by
  obtain ⟨k, rfl⟩ := hsmall
  obtain ⟨m, rfl⟩ := hlarge
  apply pow_dvd_pow
  exact (pow_le_pow_iff_right₀ (by decide)).1 h

theorem Field.IsRegular.dvd_of_le {f g : Field} (hf : f.IsRegular) (hg : g.IsRegular)
    (h : f.alignment ≤ g.alignment) : f.alignment ∣ g.alignment :=
  dvd_of_le_of_powers hf.alignment_eq hg.alignment_eq h

/-- Where each alignment divides those before it and its own field's size, the fields follow one
another without padding. -/
theorem endFrom_descending (offset : Int) {fields : List Field}
    (hoff : ∀ f ∈ fields, f.alignment ∣ offset) (hsize : ∀ f ∈ fields, f.alignment ∣ f.bytes)
    (hdesc : fields.Pairwise fun f g => g.alignment ∣ f.alignment) :
    endFrom offset fields = offset + totalBytes fields := by
  induction fields generalizing offset with
  | nil => simp [endFrom, totalBytes]
  | cons f rest ih =>
      obtain ⟨hf, hrest⟩ := List.forall_mem_cons.1 hoff
      obtain ⟨hfs, hsizes⟩ := List.forall_mem_cons.1 hsize
      obtain ⟨hd, hdrest⟩ := List.pairwise_cons.1 hdesc
      have hnext : ∀ g ∈ rest, g.alignment ∣ offset + f.bytes := fun g hg =>
        Int.dvd_add (hrest g hg) (Int.dvd_trans (hd g hg) hfs)
      rw [endFrom, f.gapAfter_of_dvd hf, Int.add_zero, ih _ hnext hsizes hdrest, totalBytes,
        Int.add_assoc]

/-! ### Sorting -/

/-- What fields are sorted by: greater alignment first, then greater size. -/
def Field.rank (f : Field) : Int ×ₗ Int := toLex (-f.alignment, -f.bytes)

theorem orderedBy_rank (empty : Bool) :
    OrderedBy Field.precedes Field.rank fun f => f.isEmpty = empty := by
  intro f g hf hg
  simp only [Field.precedes, Field.order, hf, hg, Field.rank, Prod.Lex.toLex_lt_toLex,
    bne_self_eq_false, Bool.false_eq_true, if_false, decide_eq_true_eq,
    Ordering.then_eq_lt, Int.compare_eq_lt, Int.compare_eq_eq]
  omega

theorem alignment_le_of_rank_le {f g : Field} (h : f.rank ≤ g.rank) :
    g.alignment ≤ f.alignment := by
  rw [Field.rank, Field.rank, Prod.Lex.toLex_le_toLex] at h
  omega

/-- Regular fields in the order of their ranks follow one another without padding. -/
theorem endFrom_of_rank {fields : List Field} (h : ∀ f ∈ fields, f.IsRegular)
    (ho : fields.Pairwise fun f g => f.rank ≤ g.rank) : endFrom 0 fields = totalBytes fields := by
  have hdesc : fields.Pairwise fun f g => g.alignment ∣ f.alignment := by
    refine List.Pairwise.imp_of_mem ?_ ho
    intro f g hf hg hle
    exact (h g hg).dvd_of_le (h f hf) (alignment_le_of_rank_le hle)
  have hend := endFrom_descending 0 (fun f _ => Int.dvd_zero _) (fun f hf => (h f hf).dvd_bytes) hdesc
  rwa [Int.zero_add] at hend

theorem structSize_sortFields (abi : Abi) {fields : List Field} (h : ∀ f ∈ fields, f.IsRegular)
    (hpos : ∀ f ∈ fields, 0 < f.bytes) :
    structSize abi (sortFields fields) = roundedBytes abi fields := by
  have hperm := sortFields_perm fields
  have hempty : ∀ f ∈ fields, f.isEmpty = false := by
    intro f hf
    have := hpos f hf
    simp only [Field.isEmpty, decide_eq_false_iff_not]
    omega
  have hend := endFrom_of_rank (fun f hf => h f (hperm.subset hf))
    (pairwise_runInsertionSort (orderedBy_rank false) hempty)
  rw [← roundedBytes_perm abi hperm, roundedBytes, structSize, hend]

/-! ### The least size -/

theorem roundedBytes_le_of_perm (abi : Abi) {fields order : List Field} (hp : order.Perm fields) :
    roundedBytes abi fields ≤ structSize abi order := by
  rw [← roundedBytes_perm abi hp]
  exact roundedBytes_le_structSize abi order

/-- If sorting reaches the rounded sum of the sizes, optimizing does. -/
theorem structSize_shrink_eq (abi : Abi) {fields : List Field}
    (h : structSize abi (sortFields fields) = roundedBytes abi fields) :
    structSize abi (shrink abi fields) = roundedBytes abi fields := by
  have hupper : structSize abi (shrink abi fields) ≤ structSize abi (sortFields fields) := by
    change structSize abi (fieldSort.shrink abi fields) ≤ structSize abi (fieldSort.sort fields)
    rw [FieldSort.shrink]
    split
    · exact fieldSort.structSize_shrink_le abi _
    · next hge => exact Int.not_lt.1 hge
  rw [h] at hupper
  exact Int.le_antisymm hupper (roundedBytes_le_of_perm abi (shrink_perm abi fields))

theorem optimalSize_of_reached (abi : Abi) {fields : List Field}
    (hsized : ∀ f ∈ fields, f.isSized = true)
    (h : structSize abi (shrink abi fields) = roundedBytes abi fields) :
    optimalSize abi fields = .ok (roundedBytes abi fields) ∧
      IsLeast {n | ∃ order : List Field, order.Perm fields ∧ layoutSize abi order = .ok n}
        (roundedBytes abi fields) := by
  have horder {order : List Field} (hp : order.Perm fields) :
      layoutSize abi order = .ok (structSize abi order) :=
    layoutSize_of_isSized abi fun f hf => hsized f (hp.subset hf)
  refine ⟨?_, ⟨shrink abi fields, shrink_perm abi fields, ?_⟩, ?_⟩
  · rw [optimalSize_of_isSized abi hsized, h]
  · rw [horder (shrink_perm abi fields), h]
  · rintro n ⟨order, hp, hn⟩
    rw [horder hp] at hn
    cases hn
    exact roundedBytes_le_of_perm abi hp

/-- For regular fields that take up space, `optimalSize` is the least size over all permutations of
the fields.  It is their sum rounded up, so it does not depend on the order they are given in. -/
theorem optimalSize_isLeast (abi : Abi) (fields : List Field) (h : ∀ f ∈ fields, f.IsRegular)
    (hpos : ∀ f ∈ fields, 0 < f.bytes) :
    ∃ best, optimalSize abi fields = .ok best ∧
      IsLeast {n | ∃ order : List Field, order.Perm fields ∧ layoutSize abi order = .ok n} best ∧
      IsLeast {n | effectiveAlignment abi fields ∣ n ∧ totalBytes fields ≤ n} best ∧
      ∀ order : List Field, order.Perm fields → optimalSize abi order = .ok best := by
  have hall (order : List Field) (hp : order.Perm fields) :
      optimalSize abi order = .ok (roundedBytes abi order) ∧
        IsLeast {n | ∃ other : List Field, other.Perm order ∧ layoutSize abi other = .ok n}
          (roundedBytes abi order) := by
    have hreg : ∀ f ∈ order, f.IsRegular := fun f hf => h f (hp.subset hf)
    have hsort := structSize_sortFields abi hreg fun f hf => hpos f (hp.subset hf)
    exact optimalSize_of_reached abi (fun f hf => (hreg f hf).isSized) (structSize_shrink_eq abi hsort)
  obtain ⟨hbest, hleast⟩ := hall fields (.refl _)
  refine ⟨roundedBytes abi fields, hbest, hleast, roundedBytes_isLeast abi fields, fun order hp => ?_⟩
  rw [(hall order hp).1, roundedBytes_perm abi hp]

def splitByWord : List Field := [
  { name := "a", typeExpr := "bool", size := some 1, align := some 1, tag := "", comment := "" },
  { name := "w", typeExpr := "int64", size := some 8, align := some 8, tag := "", comment := "" },
  { name := "b", typeExpr := "int16", size := some 2, align := some 2, tag := "", comment := "" }]

theorem splitByWord_isRegular : ∀ f ∈ splitByWord, f.IsRegular := by
  simp only [splitByWord, List.forall_mem_cons, List.not_mem_nil, false_imp_iff, implies_true,
    and_true]
  exact ⟨⟨rfl, ⟨0, rfl⟩, by decide⟩, ⟨rfl, ⟨3, rfl⟩, by decide⟩, ⟨rfl, ⟨1, rfl⟩, by decide⟩⟩

theorem optimalSize_isLeast_splitByWord :
    (∀ f ∈ splitByWord, f.IsRegular) ∧ (∀ f ∈ splitByWord, 0 < f.bytes) ∧
    ∃ best, optimalSize .amd64 splitByWord = .ok best ∧
      IsLeast {n | ∃ order : List Field, order.Perm splitByWord ∧
        layoutSize .amd64 order = .ok n} best ∧
      IsLeast {n | effectiveAlignment .amd64 splitByWord ∣ n ∧
        totalBytes splitByWord ≤ n} best ∧
      ∀ order : List Field, order.Perm splitByWord →
        optimalSize .amd64 order = .ok best :=
  ⟨splitByWord_isRegular, by decide,
    optimalSize_isLeast _ splitByWord splitByWord_isRegular (by decide)⟩

end StructLayout
