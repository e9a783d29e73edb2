import StructLayout.Proofs.Layout.EmptyFields
import StructLayout.Proofs.Layout.UniformFields

/-!
# Equal fields keep their order

Sorting keeps the order of equal elements where the order comes from keys.  Marked elements that tie with
all others put that at risk: bisection may go to the front half for an element that belongs further back,
and so past an equal one that stands behind it (`optimize_swaps_equal`).  It takes a marked element
between one that belongs behind a key (`IsAbove`) and a later one that does not (`IsUpTo`).

Where there is none (`Unbroken`), every insertion leaves what belongs behind the key at the back
(`Inserting`): the step is `TiesAcross.inserting_insert`.  So a sort keeps the elements of the key in
their order, and leaves a list that no marked element can do harm to (`TiesAcross.filter_sort`).  The main
statement is `optimize_keeps_order`, for any number of rounds of sorting.
-/

namespace StructLayout

section

variable {α κ : Type} [LinearOrder κ] {precedes : α → α → Bool} {key : α → κ} {mark : α → Bool} {k : κ}
  {xs : List α}

/-! ### Elements on both sides of a key -/

/-- An unmarked element that belongs behind those of a key. -/
def IsAbove (key : α → κ) (mark : α → Bool) (k : κ) (a : α) : Prop := mark a = false ∧ k < key a

/-- An unmarked element of a key, or one that belongs in front of those. -/
def IsUpTo (key : α → κ) (mark : α → Bool) (k : κ) (a : α) : Prop := mark a = false ∧ key a ≤ k

/-- An unmarked element of a key. -/
def IsOfKey (key : α → κ) (mark : α → Bool) (k : κ) (a : α) : Bool := !mark a && decide (key a = k)

/-- No element up to a key stands behind one above it. -/
def Parted (key : α → κ) (mark : α → Bool) (k : κ) (xs : List α) : Prop :=
  xs.Pairwise fun a b => IsAbove key mark k a → ¬ IsUpTo key mark k b

/-- No element up to a key stands behind a marked one that stands behind one above the key. -/
def Unbroken (key : α → κ) (mark : α → Bool) (k : κ) (xs : List α) : Prop :=
  ∀ before e after, xs = before ++ e :: after → mark e = true →
    ∀ a ∈ before, IsAbove key mark k a → ∀ b ∈ after, ¬ IsUpTo key mark k b

theorem isOfKey_iff {a : α} : IsOfKey key mark k a = true ↔ mark a = false ∧ key a = k := by
  simp [IsOfKey]

theorem isUpTo_iff {a : α} :
    IsUpTo key mark k a ↔ mark a = false ∧ ¬ IsAbove key mark k a := by
  unfold IsUpTo IsAbove
  constructor
  · rintro ⟨hmark, hle⟩
    exact ⟨hmark, fun h => not_lt_of_ge hle h.2⟩
  · rintro ⟨hmark, hn⟩
    exact ⟨hmark, not_lt.1 fun hlt => hn ⟨hmark, hlt⟩⟩

theorem IsAbove.not_isUpTo {a : α} (h : IsAbove key mark k a) : ¬ IsUpTo key mark k a :=
  fun h' => (isUpTo_iff.1 h').2 h

theorem isUpTo_of_isOfKey {a : α} (h : IsOfKey key mark k a = true) : IsUpTo key mark k a :=
  ⟨(isOfKey_iff.1 h).1, (isOfKey_iff.1 h).2.le⟩

theorem Parted.unbroken (h : Parted key mark k xs) : Unbroken key mark k xs := by
  rintro before e after rfl _ a ha habove b hb
  exact (List.pairwise_append.1 h).2.2 a ha b (List.mem_cons_of_mem e hb) habove

theorem TiesAcross.precedes_iff (ht : TiesAcross precedes key mark) {x y : α} (hx : mark x = false) :
    precedes x y = true ↔ mark y = false ∧ key x < key y := by
  cases hy : mark y with
  | true => simp [ht.ties x y (by simp [hx, hy])]
  | false => simp [ht.ordered x y hx hy]

/-! ### Relations along a list -/

/-- A list is pairwise related if each element is related to those in front of it. -/
theorem pairwise_of_append {R : α → α → Prop}
    (h : ∀ before b after, xs = before ++ b :: after → ∀ a ∈ before, R a b) : xs.Pairwise R := by
  induction xs using List.reverseRecOn with
  | nil => exact .nil
  | append_singleton xs x ih =>
      refine List.pairwise_append.2 ⟨ih ?_, List.pairwise_singleton R x, ?_⟩
      · rintro before b after rfl
        exact h before b (after ++ [x]) (by simp)
      · intro a ha b hb
        obtain rfl := List.mem_singleton.1 hb
        exact h xs b [] rfl a ha

/-! ### Insertions -/

/-- How things stand while elements are inserted among others: those above a key are behind those up to
it, and as long as one up to it is to come they are behind all others. -/
structure Inserting (key : α → κ) (mark : α → Bool) (k : κ) (sorted more : List α) : Prop where
  parted : Parted key mark k sorted
  above_last : (∃ b ∈ more, IsUpTo key mark k b) →
    sorted.Pairwise fun a b => IsAbove key mark k a → IsAbove key mark k b
  unbroken : ∀ before e after, more = before ++ e :: after → mark e = true →
    ∀ a ∈ sorted ++ before, IsAbove key mark k a → ∀ b ∈ after, ¬ IsUpTo key mark k b

/-- The place of an insertion: an element up to the key goes in front of all above it, and one that does
not belong in front of the key goes in front of none but those above it. -/
theorem TiesAcross.exists_place (ht : TiesAcross precedes key mark) {x : α} {sorted more : List α}
    (h : Inserting key mark k sorted (x :: more)) :
    ∃ before behind, sorted = before ++ behind ∧
      bisectInsert precedes x sorted = before ++ x :: behind ∧
      (IsUpTo key mark k x → ∀ a ∈ before, ¬ IsAbove key mark k a) ∧
      (mark x = false → k ≤ key x → (∀ y ∈ behind.head?, IsAbove key mark k y) ∧
        ∀ b ∈ behind, ¬ IsUpTo key mark k b) := by
  obtain ⟨before, behind, rfl, hr, hhead, hlast⟩ := @bisectInsert_between α precedes x sorted
  refine ⟨before, behind, rfl, hr, fun hx => ?_, fun hx hk => ?_⟩
  · have hpairs := (List.pairwise_append.1 (h.above_last ⟨x, List.mem_cons_self, hx⟩)).1
    refine forall_mem_not_of_last hpairs fun y hy habove => ?_
    have hp := (ht.precedes_iff hx.1).2 ⟨habove.1, lt_of_le_of_lt hx.2 habove.2⟩
    rw [hlast y hy] at hp
    cases hp
  · have hfirst : ∀ y ∈ behind.head?, IsAbove key mark k y := by
      intro y hy
      obtain ⟨hmark, hlt⟩ := (ht.precedes_iff hx).1 (hhead y hy)
      exact ⟨hmark, lt_of_le_of_lt hk hlt⟩
    exact ⟨hfirst, forall_mem_of_head (List.pairwise_append.1 h.parted).2.1
      (fun _ => IsAbove.not_isUpTo) hfirst⟩

/-- **An insertion leaves what is above a key at the back.** -/
theorem TiesAcross.inserting_insert (ht : TiesAcross precedes key mark) {x : α}
    {sorted more : List α} (h : Inserting key mark k sorted (x :: more)) :
    Inserting key mark k (bisectInsert precedes x sorted) more := by
  have hperm := bisectInsert_perm precedes x sorted
  obtain ⟨before, behind, rfl, hr, hbefore, hbehind⟩ := ht.exists_place h
  rw [hr] at hperm ⊢
  refine ⟨?_, fun hex => ?_, ?_⟩
  · refine pairwise_between h.parted (fun a ha habove hx => ?_) fun b hb habove => ?_
    · exact hbefore hx a ha habove
    · exact (hbehind habove.1 habove.2.le).2 b hb
  · have hpairs := h.above_last (hex.imp fun _ hb => ⟨List.mem_cons_of_mem x hb.1, hb.2⟩)
    obtain ⟨b, hb, hup⟩ := hex
    refine pairwise_between hpairs (fun a ha habove => ?_) fun b hb habove => ?_
    · cases hx : mark x with
      | true =>
        -- a marked element would part the one above the key from one up to it that is to come
        have ha' : a ∈ (before ++ behind) ++ [] := by simp [ha]
        exact (h.unbroken [] x more rfl hx a ha' habove b hb hup).elim
      | false => exact ⟨hx, not_le.1 fun hle => hbefore ⟨hx, hle⟩ a ha habove⟩
    · exact forall_mem_of_head (List.pairwise_append.1 hpairs).2.1 (fun _ hy => hy)
        (hbehind habove.1 habove.2.le).1 b hb
  · rintro front e after rfl he a ha habove
    refine h.unbroken (x :: front) e after rfl he a ?_ habove
    rcases List.mem_append.1 ha with ha | ha
    · rcases List.mem_cons.1 (hperm.subset ha) with rfl | ha
      · simp
      · exact List.mem_append_left _ ha
    · simp [ha]

theorem TiesAcross.filter_insert (ht : TiesAcross precedes key mark) {x : α}
    {sorted more : List α} (h : Inserting key mark k sorted (x :: more)) :
    (bisectInsert precedes x sorted).filter (IsOfKey key mark k) =
      (sorted ++ [x]).filter (IsOfKey key mark k) := by
  obtain ⟨before, behind, rfl, hr, -, hbehind⟩ := ht.exists_place h
  rw [hr, List.append_assoc, List.filter_append, List.filter_append, List.filter_append]
  by_cases hx : IsOfKey key mark k x = true
  · obtain ⟨hmark, hkey⟩ := isOfKey_iff.1 hx
    have hnone : behind.filter (IsOfKey key mark k) = [] := by
      refine List.filter_eq_nil_iff.2 fun b hb hof => ?_
      exact (hbehind hmark hkey.ge).2 b hb (isUpTo_of_isOfKey hof)
    rw [List.filter_cons_of_pos hx, hnone, List.nil_append, List.filter_cons_of_pos hx,
      List.filter_nil]
  · rw [List.filter_cons_of_neg hx, List.filter_cons_of_neg hx, List.filter_nil, List.append_nil]

theorem TiesAcross.filter_foldl (ht : TiesAcross precedes key mark) {sorted more : List α}
    (h : Inserting key mark k sorted more) :
    (more.foldl (fun sorted x => bisectInsert precedes x sorted) sorted).filter (IsOfKey key mark k) =
        (sorted ++ more).filter (IsOfKey key mark k) ∧
      Parted key mark k (more.foldl (fun sorted x => bisectInsert precedes x sorted) sorted) := by
  induction more generalizing sorted with
  | nil => exact ⟨by rw [List.append_nil, List.foldl_nil], h.parted⟩
  | cons x more ih =>
      obtain ⟨hrest, hparted⟩ := ih (ht.inserting_insert h)
      refine ⟨?_, hparted⟩
      rw [List.foldl_cons, hrest, List.filter_append, ht.filter_insert h, ← List.filter_append,
        List.append_assoc, List.singleton_append]

/-! ### Sorting -/

theorem TiesAcross.mark_eq (ht : TiesAcross precedes key mark)
    (hc : xs.IsChain fun a b => precedes b a = true) :
    (∀ x ∈ xs, mark x = true) ∨ ∀ x ∈ xs, mark x = false := by
  have hmark : (xs.map mark).IsChain (· = ·) := by
    rw [List.isChain_map]
    refine hc.imp fun a b hp => ?_
    by_contra hne
    rw [ht.ties b a (Ne.symm hne)] at hp
    cases hp
  have hsame : xs.Pairwise fun a b => mark a = mark b := List.pairwise_map.1 hmark.pairwise
  cases xs with
  | nil => simp
  | cons x xs =>
      have hall : ∀ y ∈ xs, mark x = mark y := (List.pairwise_cons.1 hsame).1
      cases hx : mark x with
      | true => exact .inl (List.forall_mem_cons.2 ⟨hx, fun y hy => (hall y hy).symm.trans hx⟩)
      | false => exact .inr (List.forall_mem_cons.2 ⟨hx, fun y hy => (hall y hy).symm.trans hx⟩)

/-- In a run none of whose elements precedes the one before, only a marked element can part two that are
out of order. -/
theorem TiesAcross.parted_of_chain (ht : TiesAcross precedes key mark) {run rest : List α}
    (hc : run.IsChain fun a b => precedes b a = false) (h : Unbroken key mark k (run ++ rest)) :
    Parted key mark k run := by
  refine pairwise_of_append ?_
  rintro before b after rfl a ha habove hup
  obtain ⟨front, between, rfl⟩ := List.append_of_mem ha
  by_cases hmarked : ∃ e ∈ between, mark e = true
  · obtain ⟨e, he, hmark⟩ := hmarked
    obtain ⟨left, right, rfl⟩ := List.append_of_mem he
    refine h (front ++ a :: left) e (right ++ b :: after ++ rest) (by simp) hmark a (by simp) habove b
      (by simp) hup
  · -- a run of unmarked elements is in order
    have hunmarked : ∀ x ∈ a :: (between ++ [b]), mark x = false := by
      intro x hx
      rcases List.mem_cons.1 hx with rfl | hx
      · exact habove.1
      rcases List.mem_append.1 hx with hx | hx
      · exact Bool.eq_false_iff.2 fun hm => hmarked ⟨x, hx, hm⟩
      · rw [List.mem_singleton.1 hx]
        exact hup.1
    have hpart : (a :: (between ++ [b])).IsChain fun a b => precedes b a = false := by
      refine hc.infix ⟨front, after, by simp⟩
    have hle : key a ≤ key b :=
      (List.pairwise_cons.1 (ht.pairwise_ascending hunmarked hpart)).1 b (by simp)
    exact not_lt_of_ge (hle.trans hup.2) habove.2

/-- What stands behind a run does it no harm either, in whatever order the run is. -/
theorem Unbroken.behind {run sorted rest : List α} (h : Unbroken key mark k (run ++ rest))
    (hs : ∀ a ∈ sorted, a ∈ run) : ∀ before e after, rest = before ++ e :: after → mark e = true →
      ∀ a ∈ sorted ++ before, IsAbove key mark k a → ∀ b ∈ after, ¬ IsUpTo key mark k b := by
  rintro before e after rfl he a ha
  refine h (run ++ before) e after (by simp) he a ?_
  exact List.mem_append.2 ((List.mem_append.1 ha).imp_left (hs a))

theorem TiesAcross.inserting_ascending (ht : TiesAcross precedes key mark) {run rest : List α}
    (hc : run.IsChain fun a b => precedes b a = false) (h : Unbroken key mark k (run ++ rest)) :
    Inserting key mark k run rest := by
  have hparted := ht.parted_of_chain hc h
  refine ⟨hparted, ?_, h.behind fun _ ha => ha⟩
  rintro ⟨c, hcrest, hup⟩
  refine pairwise_of_append ?_
  rintro before b after rfl a ha habove
  have hb : ¬ IsUpTo key mark k b := (List.pairwise_append.1 hparted).2.2 a ha b (by simp) habove
  cases hmark : mark b with
  | true =>
    -- a mark behind the one above the key would part it from what is to come
    have hbehind : c ∈ after ++ rest := List.mem_append_right _ hcrest
    exact (h before b (after ++ rest) (by simp) hmark a ha habove c hbehind hup).elim
  | false => exact ⟨hmark, not_le.1 fun hle => hb ⟨hmark, hle⟩⟩

theorem TiesAcross.inserting_reverse (ht : TiesAcross precedes key mark) {run rest : List α}
    (hc : run.IsChain fun a b => precedes b a = true) (h : Unbroken key mark k (run ++ rest)) :
    Inserting key mark k run.reverse rest ∧
      run.reverse.filter (IsOfKey key mark k) = run.filter (IsOfKey key mark k) := by
  have hmem : ∀ a ∈ run.reverse, a ∈ run := fun a => List.mem_reverse.1
  rcases ht.mark_eq hc with hmarked | hunmarked
  · have hnone : ∀ a ∈ run.reverse, ¬ IsAbove key mark k a := by
      intro a ha habove
      exact Bool.noConfusion ((hmarked a (hmem a ha)).symm.trans habove.1)
    have hof : ∀ zs : List α, (∀ a ∈ zs, a ∈ run) → zs.filter (IsOfKey key mark k) = [] := by
      intro zs hzs
      refine List.filter_eq_nil_iff.2 fun a ha hof => ?_
      exact Bool.noConfusion ((hmarked a (hzs a ha)).symm.trans (isOfKey_iff.1 hof).1)
    refine ⟨⟨?_, fun _ => ?_, h.behind hmem⟩, ?_⟩
    · exact List.pairwise_of_forall_mem_list fun a ha _ _ habove => (hnone a ha habove).elim
    · exact List.pairwise_of_forall_mem_list fun a ha _ _ habove => (hnone a ha habove).elim
    · rw [hof _ hmem, hof run fun _ ha => ha]
  · have hgt := ht.pairwise_gt hunmarked hc
    have hle := ht.pairwise_descending hunmarked hc
    refine ⟨⟨?_, fun _ => ?_, h.behind hmem⟩, ?_⟩
    · exact hle.imp fun hab habove hup => not_lt_of_ge (hab.trans hup.2) habove.2
    · refine List.Pairwise.imp_of_mem ?_ hle
      intro a b _ hb hab habove
      exact ⟨hunmarked b (hmem b hb), lt_of_lt_of_le habove.2 hab⟩
    · have hkey := congrArg (List.filter fun a => !mark a) (reverse_filter_key k hgt)
      rwa [List.filter_filter, List.filter_filter] at hkey

theorem TiesAcross.inserting_run (ht : TiesAcross precedes key mark) {run ascending rest : List α}
    (hr : IsRun precedes run ascending) (h : Unbroken key mark k (run ++ rest)) :
    Inserting key mark k ascending rest ∧
      ascending.filter (IsOfKey key mark k) = run.filter (IsOfKey key mark k) := by
  obtain ⟨rfl, hc⟩ | ⟨rfl, hc⟩ := hr
  · exact ⟨ht.inserting_ascending hc h, rfl⟩
  · exact ht.inserting_reverse hc h

/-- Sorting keeps the elements of a key in their order, where no marked element stands in their way, and
parts the others at the key. -/
theorem TiesAcross.filter_sort (ht : TiesAcross precedes key mark) (h : Unbroken key mark k xs) :
    (runInsertionSort precedes xs).filter (IsOfKey key mark k) = xs.filter (IsOfKey key mark k) ∧
      Parted key mark k (runInsertionSort precedes xs) := by
  obtain ⟨run, he, hr⟩ := leadingRun_isRun precedes xs
  rw [runInsertionSort]
  generalize leadingRun precedes xs = parts at he hr
  obtain ⟨ascending, rest⟩ := parts
  dsimp only at he hr ⊢
  subst he
  obtain ⟨hin, hrun⟩ := ht.inserting_run hr h
  obtain ⟨hfilter, hparted⟩ := ht.filter_foldl hin
  refine ⟨?_, hparted⟩
  rw [hfilter, List.filter_append, hrun, ← List.filter_append]

end

/-! ### Fields -/

/-- The field takes up space and belongs behind those of an alignment and size. -/
def Field.BelongsBehind (align size : Int) (f : Field) : Prop :=
  f.bytes ≠ 0 ∧ (f.alignment < align ∨ f.alignment = align ∧ f.bytes < size)

instance (align size : Int) (f : Field) : Decidable (f.BelongsBehind align size) :=
  inferInstanceAs (Decidable (_ ∧ _))

theorem Field.isAbove_iff {align size : Int} {f : Field} :
    IsAbove Field.rank Field.isEmpty (toLex (-align, -size)) f ↔ f.BelongsBehind align size := by
  unfold IsAbove BelongsBehind rank isEmpty
  rw [Prod.Lex.toLex_lt_toLex, decide_eq_false_iff_not]
  constructor
  · rintro ⟨hb, h⟩
    refine ⟨hb, ?_⟩
    omega
  · rintro ⟨hb, h⟩
    refine ⟨hb, ?_⟩
    omega

/-- Where no empty field stands in the way, sorting until nothing is gained keeps the fields of an
alignment and size in their order. -/
theorem FieldSort.Run.filter_eq {abi : Abi} {rounds : Nat} {fields order : List Field} {k : Int ×ₗ Int}
    (h : fieldSort.Run abi rounds fields order) (hu : Unbroken Field.rank Field.isEmpty k fields) :
    order.filter (IsOfKey Field.rank Field.isEmpty k) =
      fields.filter (IsOfKey Field.rank Field.isEmpty k) := by
  induction h with
  | stop _ => rfl
  | again _ _ ih =>
      obtain ⟨hfilter, hparted⟩ := tiesAcross_precedes.filter_sort hu
      exact (ih hparted.unbroken).trans hfilter

/-- An empty field stands in the way of those of an alignment and size only between a field that belongs
behind them and one that takes up space and does not. -/
theorem unbroken_of_sublist {align size : Int} {fields : List Field}
    (h : ∀ f e g, [f, e, g].Sublist fields → f.BelongsBehind align size → e.bytes = 0 → g.bytes ≠ 0 →
      g.BelongsBehind align size) :
    Unbroken Field.rank Field.isEmpty (toLex (-align, -size)) fields := by
  rintro before e after rfl he f hf hbehind g hg hup
  have hsub : [f, e, g].Sublist (before ++ e :: after) :=
    (List.singleton_sublist.2 hf).append ((List.singleton_sublist.2 hg).cons_cons e)
  rw [Field.isAbove_iff] at hbehind
  rw [isUpTo_iff, Field.isAbove_iff] at hup
  have hempty : e.bytes = 0 := of_decide_eq_true he
  exact hup.2 (h f e g hsub hbehind hempty (of_decide_eq_false hup.1))

/-- Three words, with an empty field behind the first and a small one behind the second, and then another
of each. -/
def spreadWords : List Field := [
  plainField "v" 8 8, plainField "d" 0 1, plainField "w" 8 8, plainField "a" 1 1, plainField "x" 8 8,
  plainField "e" 0 1, plainField "b" 2 2]

/-- Two fields of two bytes behind a smaller one, with a word between them, and empty fields. -/
def crossedPairs : List Field := [
  plainField "d" 0 1, plainField "e" 0 1, plainField "a" 1 1, plainField "z" 0 1, plainField "b" 2 2,
  plainField "w" 8 8, plainField "c" 2 2]

end StructLayout
