import Mathlib.Data.List.Chain
import Mathlib.Order.WithBot
import StructLayout.Proofs.Layout.LeastSize

/-!
# Sorting around empty fields

An empty field ties with every field that takes up space.  The order is not transitive then, and whether
sorting still puts the other fields in order depends on where the empty ones stand.  If none of them
stands between two fields that take up space, it does: a run at the start descends from no empty field,
and inserting a field that takes up space treats the empty ones in front as if they came before all
others (`raisedKey`).  That is shown for any order in which marked elements tie with the others
(`TiesAcross`), first for one insertion and then from there to all of them.

Empty fields take no padding, so that the size depends on the others alone.  The main statement is
`optimalSize_isLeast_between`.  Between two other fields an empty one can keep a smaller order from
being found (`optimalSize_not_least`).
-/

namespace StructLayout

/-! ### One insertion -/

section

variable {α : Type} {precedes : α → α → Bool}

theorem bisectInsert_nil (x : α) : bisectInsert precedes x [] = [x] := by
  rw [bisectInsert]
  split
  · rfl
  · next h => simp at h

theorem bisectInsert_of_drop (x : α) {sorted after : List α} {middle : α}
    (hd : sorted.drop (sorted.length / 2) = middle :: after) :
    bisectInsert precedes x sorted =
      if precedes x middle then
        bisectInsert precedes x (sorted.take (sorted.length / 2)) ++ middle :: after
      else sorted.take (sorted.length / 2) ++ middle :: bisectInsert precedes x after := by
  rw [bisectInsert]
  split
  · next h => simp [h] at hd
  · next h =>
      rw [h] at hd
      cases hd
      rfl

/-- An insertion depends only on how the element compares with those already there. -/
theorem bisectInsert_congr {other : α → α → Bool} {x : α} {sorted : List α}
    (h : ∀ y ∈ sorted, precedes x y = other x y) :
    bisectInsert precedes x sorted = bisectInsert other x sorted := by
  fun_induction bisectInsert precedes x sorted with
  | case1 sorted hd =>
      have hnil : sorted = [] := by
        have := List.drop_eq_nil_iff.1 hd
        exact List.eq_nil_of_length_eq_zero (by omega)
      rw [hnil, bisectInsert_nil]
      rfl
  | case2 sorted middle after hd hp ih =>
      have hm : middle ∈ sorted := List.mem_of_mem_drop (hd ▸ List.mem_cons_self)
      rw [bisectInsert_of_drop x hd, ← h middle hm, if_pos hp,
        ih fun y hy => h y (List.mem_of_mem_take hy)]
  | case3 sorted middle after hd hp ih =>
      have hm : middle ∈ sorted := List.mem_of_mem_drop (hd ▸ List.mem_cons_self)
      rw [bisectInsert_of_drop x hd, ← h middle hm, if_neg hp,
        ih fun y hy => h y (List.mem_of_mem_drop (hd ▸ List.mem_cons_of_mem middle hy))]

/-! ### The leading run -/

theorem isChain_descendingRun (last : α) (xs : List α) :
    (last :: (descendingRun precedes last xs).1).IsChain fun a b => precedes b a = true := by
  induction xs generalizing last with
  | nil => simp [descendingRun]
  | cons x xs ih =>
      unfold descendingRun
      split
      · next hp => exact List.isChain_cons_cons.2 ⟨hp, ih x⟩
      · simp

theorem isChain_ascendingRun (last : α) (xs : List α) :
    (last :: (ascendingRun precedes last xs).1).IsChain fun a b => precedes b a = false := by
  induction xs generalizing last with
  | nil => simp [ascendingRun]
  | cons x xs ih =>
      unfold ascendingRun
      split
      · simp
      · next hp => exact List.isChain_cons_cons.2 ⟨by simpa using hp, ih x⟩

/-- Elements that are a run, and the same elements in ascending order: reversed if each of them precedes
the one before. -/
def IsRun (precedes : α → α → Bool) (run ascending : List α) : Prop :=
  (ascending = run ∧ run.IsChain fun a b => precedes b a = false) ∨
    (ascending = run.reverse ∧ run.IsChain fun a b => precedes b a = true)

theorem leadingRun_isRun (precedes : α → α → Bool) (xs : List α) :
    ∃ run, xs = run ++ (leadingRun precedes xs).2 ∧ IsRun precedes run (leadingRun precedes xs).1 := by
  match xs with
  | [] => exact ⟨[], rfl, .inl ⟨rfl, .nil⟩⟩
  | [x] => exact ⟨[x], rfl, .inl ⟨rfl, .singleton x⟩⟩
  | x :: y :: rest =>
      simp only [leadingRun]
      split
      · refine ⟨x :: (descendingRun precedes x (y :: rest)).1, ?_, .inr ⟨rfl, isChain_descendingRun x _⟩⟩
        rw [List.cons_append, descendingRun_append]
      · refine ⟨x :: (ascendingRun precedes x (y :: rest)).1, ?_, .inl ⟨rfl, isChain_ascendingRun x _⟩⟩
        rw [List.cons_append, ascendingRun_append]

end

/-! ### Elements that tie with all others -/

section

variable {α κ : Type} [LinearOrder κ] {precedes : α → α → Bool} {key : α → κ} {mark : α → Bool}

/-- Marked elements tie with unmarked ones, and the unmarked ones are ordered by their keys. -/
structure TiesAcross (precedes : α → α → Bool) (key : α → κ) (mark : α → Bool) : Prop where
  ties : ∀ a b, mark a ≠ mark b → precedes a b = false
  ordered : OrderedBy precedes key fun a => mark a = false

/-- The key of an unmarked element; a marked one comes below all keys. -/
def raisedKey (key : α → κ) (mark : α → Bool) (a : α) : WithBot κ :=
  if mark a then ⊥ else key a

/-- The unmarked elements of a list are in the order of their keys. -/
def UnmarkedInOrder (key : α → κ) (mark : α → Bool) (xs : List α) : Prop :=
  (xs.filter fun a => !mark a).Pairwise fun a b => key a ≤ key b

/-- The marked elements of a list come first, and the unmarked ones in the order of their keys. -/
def InRaisedOrder (key : α → κ) (mark : α → Bool) (xs : List α) : Prop :=
  xs.Pairwise fun a b => raisedKey key mark a ≤ raisedKey key mark b

theorem InRaisedOrder.unmarkedInOrder {xs : List α} (h : InRaisedOrder key mark xs) :
    UnmarkedInOrder key mark xs := by
  refine List.Pairwise.imp_of_mem ?_ (List.Pairwise.filter _ h)
  intro a b ha hb hle
  have ha' : mark a = false := by simpa using (List.mem_filter.1 ha).2
  have hb' : mark b = false := by simpa using (List.mem_filter.1 hb).2
  simpa [raisedKey, ha', hb'] using hle

/-- Inserting an unmarked element keeps the marked ones in front and the others in order. -/
theorem TiesAcross.inRaisedOrder_insert (h : TiesAcross precedes key mark) {x : α} {sorted : List α}
    (hx : mark x = false) (hs : InRaisedOrder key mark sorted) :
    InRaisedOrder key mark (bisectInsert precedes x sorted) := by
  have hc : ∀ y ∈ sorted, precedes x y =
      decide (raisedKey key mark x < raisedKey key mark y) := by
    intro y _
    rw [Bool.eq_iff_iff, decide_eq_true_eq]
    cases hy : mark y with
    | true => simp [raisedKey, hx, hy, h.ties x y (by simp [hx, hy])]
    | false => simp [raisedKey, hx, hy, h.ordered x y hx hy]
  rw [@bisectInsert_congr α precedes (fun a b => decide (raisedKey key mark a < raisedKey key mark b))
    x sorted hc]
  refine pairwise_bisectInsert (P := fun _ => True) ?_ trivial (fun _ _ => trivial) hs
  intro a b _ _
  exact decide_eq_true_iff

theorem TiesAcross.inRaisedOrder_foldl (h : TiesAcross precedes key mark) {more sorted : List α}
    (hm : ∀ x ∈ more, mark x = false) (hs : InRaisedOrder key mark sorted) :
    InRaisedOrder key mark (more.foldl (fun sorted x => bisectInsert precedes x sorted) sorted) := by
  induction more generalizing sorted with
  | nil => exact hs
  | cons x more ih =>
      obtain ⟨hx, hmore⟩ := List.forall_mem_cons.1 hm
      exact ih hmore (h.inRaisedOrder_insert hx hs)

/-- Inserting marked elements leaves the unmarked ones alone. -/
theorem filter_foldl_marked {more sorted : List α} (hm : ∀ x ∈ more, mark x = true) :
    (more.foldl (fun sorted x => bisectInsert precedes x sorted) sorted).filter (fun a => !mark a) =
      sorted.filter fun a => !mark a := by
  induction more generalizing sorted with
  | nil => rfl
  | cons x more ih =>
      obtain ⟨hx, hmore⟩ := List.forall_mem_cons.1 hm
      obtain ⟨before, behind, he, hr, -, -⟩ := @bisectInsert_between α precedes x sorted
      rw [List.foldl_cons, ih hmore, hr, he]
      simp [hx]

theorem inRaisedOrder_of_marked {xs : List α} (h : ∀ x ∈ xs, mark x = true) :
    InRaisedOrder key mark xs := by
  refine List.pairwise_of_forall_mem_list ?_
  intro a ha b _
  simp [raisedKey, h a ha]

theorem inRaisedOrder_append {front middle : List α} (hf : ∀ x ∈ front, mark x = true)
    (hs : ∀ x ∈ middle, mark x = false) (ho : middle.Pairwise fun a b => key a ≤ key b) :
    InRaisedOrder key mark (front ++ middle) := by
  refine List.pairwise_append.2 ⟨inRaisedOrder_of_marked hf, ?_, ?_⟩
  · refine ho.imp_of_mem ?_
    intro a b ha hb hle
    simpa [raisedKey, hs a ha, hs b hb] using hle
  · intro a ha b _
    simp [raisedKey, hf a ha]

/-! ### Sorting unmarked elements between marked ones -/

/-- Unmarked elements none of which precedes the one before are in order. -/
theorem TiesAcross.pairwise_ascending (h : TiesAcross precedes key mark) {middle : List α}
    (hs : ∀ x ∈ middle, mark x = false) (hc : middle.IsChain fun a b => precedes b a = false) :
    middle.Pairwise fun a b => key a ≤ key b := by
  have hk : (middle.map key).IsChain (· ≤ ·) := by
    rw [List.isChain_map]
    refine List.IsChain.imp_of_mem_imp ?_ hc
    intro a b ha hb hn
    exact h.ordered.key_le (hs a ha) (hs b hb) (by simp [hn])
  exact List.pairwise_map.1 hk.pairwise

/-- Unmarked elements each of which precedes the one before have descending keys. -/
theorem TiesAcross.pairwise_gt (h : TiesAcross precedes key mark) {middle : List α}
    (hs : ∀ x ∈ middle, mark x = false) (hc : middle.IsChain fun a b => precedes b a = true) :
    middle.Pairwise fun a b => key b < key a := by
  have hk : (middle.map key).IsChain (· > ·) := by
    rw [List.isChain_map]
    refine List.IsChain.imp_of_mem_imp ?_ hc
    intro a b ha hb hp
    exact (h.ordered b a (hs b hb) (hs a ha)).1 hp
  exact List.pairwise_map.1 hk.pairwise

theorem TiesAcross.pairwise_descending (h : TiesAcross precedes key mark) {middle : List α}
    (hs : ∀ x ∈ middle, mark x = false) (hc : middle.IsChain fun a b => precedes b a = true) :
    middle.reverse.Pairwise fun a b => key a ≤ key b :=
  List.pairwise_reverse.2 ((h.pairwise_gt hs hc).imp le_of_lt)

/-- A run that ends among the unmarked elements, or before them, is in order. -/
theorem TiesAcross.inRaisedOrder_run (h : TiesAcross precedes key mark)
    {front middle ascending : List α} (hf : ∀ x ∈ front, mark x = true)
    (hs : ∀ x ∈ middle, mark x = false) (hr : IsRun precedes (front ++ middle) ascending) :
    InRaisedOrder key mark ascending := by
  obtain ⟨rfl, hc⟩ | ⟨rfl, hc⟩ := hr
  · exact inRaisedOrder_append hf hs (h.pairwise_ascending hs hc.right_of_append)
  · have hd := h.pairwise_descending hs hc.right_of_append
    by_cases hfn : front = []
    · subst hfn
      exact inRaisedOrder_append hf (fun x hx => hs x (List.mem_reverse.1 hx)) hd
    by_cases hsn : middle = []
    · subst hsn
      rw [List.append_nil]
      exact inRaisedOrder_of_marked fun x hx => hf x (List.mem_reverse.1 hx)
    · -- a run does not descend from a marked element to an unmarked one
      have hb := (List.isChain_append.1 hc).2.2 _ (List.getLast?_eq_some_getLast hfn) _
        (List.head?_eq_some_head hsn)
      rw [h.ties] at hb
      · cases hb
      · rw [hs _ (List.head_mem hsn), hf _ (List.getLast_mem hfn)]
        exact Bool.false_ne_true

theorem TiesAcross.unmarkedInOrder_run (h : TiesAcross precedes key mark)
    {front middle back ascending : List α} (hf : ∀ x ∈ front, mark x = true)
    (hs : ∀ x ∈ middle, mark x = false) (hb : ∀ x ∈ back, mark x = true)
    (hr : IsRun precedes (front ++ middle ++ back) ascending) :
    UnmarkedInOrder key mark ascending := by
  have hfilter : (front ++ middle ++ back).filter (fun a => !mark a) = middle := by
    have hfn : front.filter (fun a => !mark a) = [] := List.filter_eq_nil_iff.2 (by simpa using hf)
    have hbn : back.filter (fun a => !mark a) = [] := List.filter_eq_nil_iff.2 (by simpa using hb)
    have hsn : middle.filter (fun a => !mark a) = middle := List.filter_eq_self.2 (by simpa using hs)
    rw [List.filter_append, List.filter_append, hfn, hbn, hsn, List.nil_append, List.append_nil]
  obtain ⟨rfl, hc⟩ | ⟨rfl, hc⟩ := hr
  · rw [UnmarkedInOrder, hfilter]
    exact h.pairwise_ascending hs hc.left_of_append.right_of_append
  · rw [UnmarkedInOrder, List.filter_reverse, hfilter]
    exact h.pairwise_descending hs hc.left_of_append.right_of_append

/-- Sorting puts unmarked elements that stand next to each other in order, whatever marked elements
stand around them. -/
theorem TiesAcross.unmarkedInOrder_sort (h : TiesAcross precedes key mark)
    {front middle back : List α} (hf : ∀ x ∈ front, mark x = true)
    (hs : ∀ x ∈ middle, mark x = false) (hb : ∀ x ∈ back, mark x = true) :
    UnmarkedInOrder key mark (runInsertionSort precedes (front ++ middle ++ back)) := by
  have hback {rest sorted : List α} (hr : ∀ x ∈ rest, mark x = true)
      (ho : UnmarkedInOrder key mark sorted) : UnmarkedInOrder key mark
        (rest.foldl (fun sorted x => bisectInsert precedes x sorted) sorted) := by
    rw [UnmarkedInOrder, filter_foldl_marked hr]
    exact ho
  obtain ⟨run, he, hr⟩ := leadingRun_isRun precedes (front ++ middle ++ back)
  rw [runInsertionSort]
  generalize leadingRun precedes (front ++ middle ++ back) = parts at he hr
  obtain ⟨start, rest⟩ := parts
  dsimp only at he hr ⊢
  rcases List.append_eq_append_iff.1 he with ⟨behind, hrun, hrest⟩ | ⟨more, hrun, hrest⟩
  · -- the run ends behind the unmarked elements
    subst hrun hrest
    rw [List.forall_mem_append] at hb
    exact hback hb.2 (h.unmarkedInOrder_run hf hs hb.1 hr)
  rcases List.append_eq_append_iff.1 hrun with ⟨before, hrun, hmore⟩ | ⟨before, hfront, hmore⟩
  · -- it ends among them
    subst hrun hrest hmore
    rw [List.forall_mem_append] at hs
    rw [List.foldl_append]
    refine hback hb (InRaisedOrder.unmarkedInOrder ?_)
    exact h.inRaisedOrder_foldl hs.2 (h.inRaisedOrder_run hf hs.1 hr)
  · -- it ends before them
    subst hfront hrest hmore
    rw [List.forall_mem_append] at hf
    have hstart : ∀ x ∈ start, mark x = true := by
      obtain ⟨rfl, -⟩ | ⟨rfl, -⟩ := hr
      · exact hf.1
      · exact fun x hx => hf.1 x (List.mem_reverse.1 hx)
    have hfront : ∀ x ∈ before.foldl (fun sorted x => bisectInsert precedes x sorted) start,
        mark x = true := by
      intro x hx
      rcases List.mem_append.1 ((foldl_bisectInsert_perm precedes before start).subset hx) with hx | hx
      · exact hstart x hx
      · exact hf.2 x hx
    rw [List.foldl_append, List.foldl_append]
    refine hback hb (InRaisedOrder.unmarkedInOrder ?_)
    exact h.inRaisedOrder_foldl hs (inRaisedOrder_of_marked hfront)

end

/-! ### Fields -/

theorem tiesAcross_precedes : TiesAcross Field.precedes Field.rank Field.isEmpty where
  ties f g h := by simp [Field.precedes, Field.order, h]
  ordered := orderedBy_rank false

theorem endFrom_filter (offset : Int) (fields : List Field) :
    endFrom offset (fields.filter fun f => !f.isEmpty) = endFrom offset fields := by
  induction fields generalizing offset with
  | nil => rfl
  | cons f rest ih =>
      cases he : f.isEmpty with
      | false => simp [he, endFrom, ih]
      | true =>
        have hb : f.bytes = 0 := by simpa [Field.isEmpty] using he
        simp [he, endFrom, ih, Field.gapAfter, hb]

theorem totalBytes_filter (fields : List Field) :
    totalBytes (fields.filter fun f => !f.isEmpty) = totalBytes fields := by
  induction fields with
  | nil => rfl
  | cons f rest ih =>
      cases he : f.isEmpty with
      | false => simp [he, totalBytes, ih]
      | true =>
        have hb : f.bytes = 0 := by simpa [Field.isEmpty] using he
        simp [he, totalBytes, ih, hb]

theorem structSize_of_unmarkedInOrder (abi : Abi) {fields : List Field}
    (h : ∀ f ∈ fields, f.IsRegular) (ho : UnmarkedInOrder Field.rank Field.isEmpty fields) :
    structSize abi fields = roundedBytes abi fields := by
  have hend := endFrom_of_rank (fun f hf => h f (List.mem_of_mem_filter hf)) ho
  rw [endFrom_filter, totalBytes_filter] at hend
  rw [roundedBytes, structSize, hend]

/-- Where no empty field stands between fields that take up space, `optimalSize` is the least size over
all permutations of regular fields: their sum rounded up. -/
theorem optimalSize_isLeast_between (abi : Abi) (front sized back : List Field)
    (h : ∀ f ∈ front ++ sized ++ back, f.IsRegular) (hf : ∀ f ∈ front, f.bytes = 0)
    (hs : ∀ f ∈ sized, f.bytes ≠ 0) (hb : ∀ f ∈ back, f.bytes = 0) :
    ∃ best, optimalSize abi (front ++ sized ++ back) = .ok best ∧
      IsLeast {n | ∃ order : List Field, order.Perm (front ++ sized ++ back) ∧
        layoutSize abi order = .ok n} best ∧
      IsLeast {n | effectiveAlignment abi (front ++ sized ++ back) ∣ n ∧
        totalBytes (front ++ sized ++ back) ≤ n} best := by
  have horder : UnmarkedInOrder Field.rank Field.isEmpty (sortFields (front ++ sized ++ back)) :=
    tiesAcross_precedes.unmarkedInOrder_sort (fun f hm => decide_eq_true (hf f hm))
      (fun f hm => decide_eq_false (hs f hm)) fun f hm => decide_eq_true (hb f hm)
  generalize front ++ sized ++ back = fields at h horder ⊢
  have hsort : structSize abi (sortFields fields) = roundedBytes abi fields := by
    have hp := sortFields_perm fields
    rw [structSize_of_unmarkedInOrder abi (fun f hm => h f (hp.subset hm)) horder,
      roundedBytes_perm abi hp]
  obtain ⟨hbest, hleast⟩ := optimalSize_of_reached abi (fun f hm => (h f hm).isSized)
    (structSize_shrink_eq abi hsort)
  exact ⟨roundedBytes abi fields, hbest, hleast, roundedBytes_isLeast abi fields⟩

def plainField (name : String) (size align : Int) : Field :=
  { name, typeExpr := "T", size := some size, align := some align, tag := "", comment := "" }

/-- Two small fields and a word between them. -/
def aroundWide : List Field := [plainField "a" 1 1, plainField "w" 8 8, plainField "b" 1 1]

def emptyFront : List Field := [plainField "e" 0 4]

theorem optimalSize_isLeast_between_aroundWide :
    (∀ f ∈ emptyFront ++ aroundWide ++ [], f.IsRegular) ∧ (∀ f ∈ emptyFront, f.bytes = 0) ∧
    (∀ f ∈ aroundWide, f.bytes ≠ 0) ∧ (∀ f ∈ ([] : List Field), f.bytes = 0) ∧
    ∃ best, optimalSize .amd64 (emptyFront ++ aroundWide ++ []) = .ok best ∧
      IsLeast {n | ∃ order : List Field, order.Perm (emptyFront ++ aroundWide ++ []) ∧
        layoutSize .amd64 order = .ok n} best ∧
      IsLeast {n | effectiveAlignment .amd64 (emptyFront ++ aroundWide ++ []) ∣ n ∧
        totalBytes (emptyFront ++ aroundWide ++ []) ≤ n} best := by
  have hreg : ∀ f ∈ emptyFront ++ aroundWide ++ [], f.IsRegular := by
    simp only [emptyFront, aroundWide, List.append_nil, List.cons_append, List.nil_append,
      List.forall_mem_cons, List.not_mem_nil, false_imp_iff, implies_true, and_true]
    exact ⟨⟨rfl, ⟨2, rfl⟩, by decide⟩, ⟨rfl, ⟨0, rfl⟩, by decide⟩, ⟨rfl, ⟨3, rfl⟩, by decide⟩,
      ⟨rfl, ⟨0, rfl⟩, by decide⟩⟩
  exact ⟨hreg, by decide, by decide, by decide,
    optimalSize_isLeast_between _ emptyFront aroundWide [] hreg (by decide) (by decide) (by decide)⟩

/-- A small field and a word with an empty field between them, and another small field. -/
def keptApart : List Field :=
  [plainField "a" 1 1, plainField "z" 0 1, plainField "w" 8 8, plainField "b" 1 1]

/-- An empty field keeps the fields around it from being sorted: the order is left as it is, though
another one needs eight bytes less. -/
theorem optimalSize_not_least :
    (∀ f ∈ keptApart, f.IsRegular) ∧ optimalSize .amd64 keptApart = .ok 24 ∧
      ∃ order : List Field, order.Perm keptApart ∧ layoutSize .amd64 order = .ok 16 := by
  refine ⟨?_, by decide +kernel, [plainField "w" 8 8, plainField "a" 1 1, plainField "z" 0 1,
    plainField "b" 1 1], by decide, by decide +kernel⟩
  simp only [keptApart, List.forall_mem_cons, List.not_mem_nil, false_imp_iff, implies_true, and_true]
  exact ⟨⟨rfl, ⟨0, rfl⟩, by decide⟩, ⟨rfl, ⟨0, rfl⟩, by decide⟩, ⟨rfl, ⟨3, rfl⟩, by decide⟩,
    ⟨rfl, ⟨0, rfl⟩, by decide⟩⟩

end StructLayout
