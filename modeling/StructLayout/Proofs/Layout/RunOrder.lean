import Mathlib.Order.Lattice
import StructLayout.Layout.RunInsertion

/-!
# What the run insertion sort sorts

Where the order of some elements comes from keys (`OrderedBy`), the leading run is in order, and an
insertion by bisection goes behind all elements whose keys are not greater and in front of the others
(`OrderedBy.bisectInsert_between`).  It keeps a list in order, and so the sorted list is in order
(`pairwise_runInsertionSort`).  Elements outside the list do not matter: the order may be as odd on
them as it likes.

Elements of one key are not moved against each other (`filter_runInsertionSort`): a descending run has
no two of them, and an insertion goes behind those that are already there.  Lists in the order of their
keys with the same elements of each key in the same order are the same (`eq_of_filter_key_eq`), so that
sorting is the stable sort (`runInsertionSort_eq_mergeSort`).
-/

namespace StructLayout

variable {α κ : Type} [LinearOrder κ] {precedes : α → α → Bool} {key : α → κ} {P : α → Prop}

/-- Among the elements with a property, one goes strictly before another one exactly when its key is
smaller. -/
def OrderedBy (precedes : α → α → Bool) (key : α → κ) (P : α → Prop) : Prop :=
  ∀ a b, P a → P b → (precedes a b = true ↔ key a < key b)

theorem OrderedBy.key_le (h : OrderedBy precedes key P) {a b : α} (ha : P a) (hb : P b)
    (hn : ¬ precedes b a = true) : key a ≤ key b := by
  rw [h b a hb ha] at hn
  exact not_lt.1 hn

/-! ### Relations along a list -/

section

variable {α : Type} {xs : List α}

/-- What the first element passes on to all behind it holds of all. -/
theorem forall_mem_of_head {A B : α → Prop} (h : xs.Pairwise fun a b => A a → B b)
    (hAB : ∀ a, A a → B a) (hhead : ∀ y ∈ xs.head?, A y) : ∀ b ∈ xs, B b := by
  cases xs with
  | nil => simp
  | cons y ys =>
      have hy : A y := hhead y rfl
      intro b hb
      rcases List.mem_cons.1 hb with rfl | hb
      · exact hAB b hy
      · exact (List.pairwise_cons.1 h).1 b hb hy

/-- What the last element would have from those in front of it, and has not, holds of none. -/
theorem forall_mem_not_of_last {A : α → Prop} (h : xs.Pairwise fun a b => A a → A b)
    (hlast : ∀ y ∈ xs.getLast?, ¬ A y) : ∀ a ∈ xs, ¬ A a := by
  have hreverse : xs.reverse.Pairwise fun a b => ¬ A a → ¬ A b :=
    List.pairwise_reverse.2 (h.imp fun hab hb ha => hb (hab ha))
  intro a ha
  refine forall_mem_of_head hreverse (fun _ hn => hn) ?_ a (List.mem_reverse.2 ha)
  rwa [List.head?_reverse]

/-- A list stays pairwise related with an element between its parts that is related to them. -/
theorem pairwise_between {R : α → α → Prop} {before behind : List α} {x : α}
    (h : (before ++ behind).Pairwise R) (hbefore : ∀ a ∈ before, R a x)
    (hbehind : ∀ b ∈ behind, R x b) : (before ++ x :: behind).Pairwise R := by
  obtain ⟨hb, ha, hba⟩ := List.pairwise_append.1 h
  refine List.pairwise_append.2 ⟨hb, List.pairwise_cons.2 ⟨hbehind, ha⟩, ?_⟩
  intro a ha' b hb'
  rcases List.mem_cons.1 hb' with rfl | hb'
  · exact hbefore a ha'
  · exact hba a ha' b hb'

end

/-! ### The leading run -/

theorem pairwise_descendingRun (h : OrderedBy precedes key P) {last : α} {xs : List α}
    (hl : P last) (hx : ∀ x ∈ xs, P x) :
    (last :: (descendingRun precedes last xs).1).Pairwise fun a b => key b < key a := by
  induction xs generalizing last with
  | nil => simp [descendingRun]
  | cons x xs ih =>
      obtain ⟨hpx, hxs⟩ := List.forall_mem_cons.1 hx
      unfold descendingRun
      split
      · next hp =>
        have hlt : key x < key last := (h x last hpx hl).1 hp
        have hr := ih hpx hxs
        refine List.pairwise_cons.2 ⟨?_, hr⟩
        intro y hy
        rcases List.mem_cons.1 hy with rfl | hy
        · exact hlt
        · exact lt_trans ((List.pairwise_cons.1 hr).1 y hy) hlt
      · simp

theorem pairwise_ascendingRun (h : OrderedBy precedes key P) {last : α} {xs : List α}
    (hl : P last) (hx : ∀ x ∈ xs, P x) :
    (last :: (ascendingRun precedes last xs).1).Pairwise fun a b => key a ≤ key b := by
  induction xs generalizing last with
  | nil => simp [ascendingRun]
  | cons x xs ih =>
      obtain ⟨hpx, hxs⟩ := List.forall_mem_cons.1 hx
      unfold ascendingRun
      split
      · simp
      · next hp =>
        have hle : key last ≤ key x := h.key_le hl hpx hp
        have hr := ih hpx hxs
        refine List.pairwise_cons.2 ⟨?_, hr⟩
        intro y hy
        rcases List.mem_cons.1 hy with rfl | hy
        · exact hle
        · exact le_trans hle ((List.pairwise_cons.1 hr).1 y hy)

theorem pairwise_leadingRun (h : OrderedBy precedes key P) {xs : List α} (hx : ∀ x ∈ xs, P x) :
    (leadingRun precedes xs).1.Pairwise fun a b => key a ≤ key b := by
  match xs with
  | [] => simp [leadingRun]
  | [x] => simp [leadingRun]
  | x :: y :: rest =>
      obtain ⟨hpx, hrest⟩ := List.forall_mem_cons.1 hx
      simp only [leadingRun]
      split
      · rw [List.pairwise_reverse]
        exact (pairwise_descendingRun h hpx hrest).imp le_of_lt
      · exact pairwise_ascendingRun h hpx hrest

/-! ### Insertion -/

/-- An insertion puts an element somewhere and moves nothing else: in front of an element that it
precedes, or at the end, and behind one that it does not precede, or at the start. -/
theorem bisectInsert_between (x : α) (sorted : List α) :
    ∃ before behind, sorted = before ++ behind ∧
      bisectInsert precedes x sorted = before ++ x :: behind ∧
      (∀ y ∈ behind.head?, precedes x y = true) ∧ ∀ y ∈ before.getLast?, precedes x y = false := by
  fun_induction bisectInsert precedes x sorted with
  | case1 sorted h =>
      have hnil : sorted = [] := by
        have := List.drop_eq_nil_iff.1 h
        exact List.eq_nil_of_length_eq_zero (by omega)
      exact ⟨[], [], hnil, by rw [hnil], by simp, by simp⟩
  | case2 sorted middle after h hp ih =>
      obtain ⟨before, behind, he, hr, hhead, hlast⟩ := ih
      refine ⟨before, behind ++ middle :: after, ?_, by simp [hr], ?_, hlast⟩
      · rw [← List.append_assoc, ← he, ← h, List.take_append_drop]
      · cases behind with
        | nil => simpa using hp
        | cons y ys => simpa using hhead
  | case3 sorted middle after h hp ih =>
      obtain ⟨before, behind, he, hr, hhead, hlast⟩ := ih
      refine ⟨sorted.take (sorted.length / 2) ++ middle :: before, behind, ?_, by simp [hr], hhead, ?_⟩
      · rw [List.append_assoc, List.cons_append, ← he, ← h, List.take_append_drop]
      · cases before with
        | nil => simpa using hp
        | cons y ys => simpa [List.getLast?_cons_cons] using hlast

theorem OrderedBy.bisectInsert_between (h : OrderedBy precedes key P) {x : α} {sorted : List α}
    (hx : P x) (hs : ∀ y ∈ sorted, P y) (ho : sorted.Pairwise fun a b => key a ≤ key b) :
    ∃ before behind, sorted = before ++ behind ∧
      bisectInsert precedes x sorted = before ++ x :: behind ∧
      (∀ y ∈ before, key y ≤ key x) ∧ ∀ y ∈ behind, key x < key y := by
  obtain ⟨before, behind, rfl, hr, hhead, hlast⟩ :=
    @StructLayout.bisectInsert_between α precedes x sorted
  obtain ⟨hbefore, hbehind, -⟩ := List.pairwise_append.1 ho
  rw [List.forall_mem_append] at hs
  refine ⟨before, behind, rfl, hr, fun y hy => not_lt.1 ?_, ?_⟩
  · refine forall_mem_not_of_last (hbefore.imp fun hab hlt => lt_of_lt_of_le hlt hab) ?_ y hy
    intro z hz hlt
    have hp := (h x z hx (hs.1 z (List.mem_of_getLast? hz))).2 hlt
    rw [hlast z hz] at hp
    cases hp
  · refine forall_mem_of_head (hbehind.imp fun hab hlt => lt_of_lt_of_le hlt hab) (fun _ => id) ?_
    intro z hz
    exact (h x z hx (hs.2 z (List.mem_of_head? hz))).1 (hhead z hz)

theorem pairwise_bisectInsert (h : OrderedBy precedes key P) {x : α} {sorted : List α} (hx : P x)
    (hs : ∀ y ∈ sorted, P y) (ho : sorted.Pairwise fun a b => key a ≤ key b) :
    (bisectInsert precedes x sorted).Pairwise fun a b => key a ≤ key b := by
  obtain ⟨before, behind, rfl, hr, hbefore, hbehind⟩ := h.bisectInsert_between hx hs ho
  rw [hr]
  exact pairwise_between ho hbefore fun y hy => (hbehind y hy).le

theorem pairwise_foldl_bisectInsert (h : OrderedBy precedes key P) {more sorted : List α}
    (hm : ∀ x ∈ more, P x) (hs : ∀ y ∈ sorted, P y)
    (ho : sorted.Pairwise fun a b => key a ≤ key b) :
    (more.foldl (fun sorted x => bisectInsert precedes x sorted) sorted).Pairwise
      fun a b => key a ≤ key b := by
  induction more generalizing sorted with
  | nil => exact ho
  | cons x more ih =>
      obtain ⟨hx, hmore⟩ := List.forall_mem_cons.1 hm
      refine ih hmore ?_ (pairwise_bisectInsert h hx hs ho)
      intro y hy
      rcases List.mem_cons.1 ((bisectInsert_perm precedes x sorted).subset hy) with rfl | hy
      · exact hx
      · exact hs y hy

/-- Sorting elements whose order comes from keys puts them in the order of their keys. -/
theorem pairwise_runInsertionSort (h : OrderedBy precedes key P) {xs : List α}
    (hx : ∀ x ∈ xs, P x) :
    (runInsertionSort precedes xs).Pairwise fun a b => key a ≤ key b := by
  have hp := leadingRun_perm precedes xs
  refine pairwise_foldl_bisectInsert h ?_ ?_ (pairwise_leadingRun h hx)
  · exact fun y hy => hx y (hp.subset (List.mem_append_right _ hy))
  · exact fun y hy => hx y (hp.subset (List.mem_append_left _ hy))

/-! ### Elements of one key -/

/-- Of elements in strictly descending order none share their key. -/
theorem reverse_filter_key (k : κ) {xs : List α} (h : xs.Pairwise fun a b => key b < key a) :
    xs.reverse.filter (key · = k) = xs.filter (key · = k) := by
  have hnone : (xs.filter (key · = k)).Pairwise fun _ _ => False := by
    refine List.Pairwise.imp_of_mem ?_ (h.filter _)
    intro a b ha hb hlt
    have ha' : key a = k := by simpa using (List.mem_filter.1 ha).2
    have hb' : key b = k := by simpa using (List.mem_filter.1 hb).2
    exact absurd hlt (by simp [ha', hb'])
  rw [List.filter_reverse]
  match hf : xs.filter (key · = k) with
  | [] => rfl
  | [x] => rfl
  | x :: y :: rest =>
      rw [hf] at hnone
      exact ((List.pairwise_cons.1 hnone).1 y List.mem_cons_self).elim

theorem filter_leadingRun (h : OrderedBy precedes key P) (k : κ) {xs : List α}
    (hx : ∀ x ∈ xs, P x) :
    ((leadingRun precedes xs).1 ++ (leadingRun precedes xs).2).filter (key · = k) =
      xs.filter (key · = k) := by
  match xs with
  | [] => rfl
  | [x] => rfl
  | x :: y :: rest =>
      obtain ⟨hpx, hrest⟩ := List.forall_mem_cons.1 hx
      simp only [leadingRun]
      split
      · have hrun := pairwise_descendingRun h hpx hrest
        rw [List.filter_append, reverse_filter_key k hrun, ← List.filter_append, List.cons_append,
          descendingRun_append]
      · rw [List.cons_append, ascendingRun_append]

theorem filter_bisectInsert (h : OrderedBy precedes key P) (k : κ) {x : α} {sorted : List α}
    (hx : P x) (hs : ∀ y ∈ sorted, P y) (ho : sorted.Pairwise fun a b => key a ≤ key b) :
    (bisectInsert precedes x sorted).filter (key · = k) =
      sorted.filter (key · = k) ++ [x].filter (key · = k) := by
  obtain ⟨before, behind, rfl, hr, -, hbehind⟩ := h.bisectInsert_between hx hs ho
  rw [hr, List.filter_append, List.filter_append, List.append_assoc]
  by_cases hk : key x = k
  · -- those behind it have greater keys
    have hnone : behind.filter (key · = k) = [] := by
      refine List.filter_eq_nil_iff.2 fun y hy => ?_
      have hne : key y ≠ k := ne_of_gt (hk ▸ hbehind y hy)
      simpa using hne
    simp [hk, hnone]
  · simp [hk]

theorem filter_foldl_bisectInsert (h : OrderedBy precedes key P) (k : κ) {more sorted : List α}
    (hm : ∀ x ∈ more, P x) (hs : ∀ y ∈ sorted, P y)
    (ho : sorted.Pairwise fun a b => key a ≤ key b) :
    (more.foldl (fun sorted x => bisectInsert precedes x sorted) sorted).filter (key · = k) =
      (sorted ++ more).filter (key · = k) := by
  induction more generalizing sorted with
  | nil => rw [List.append_nil, List.foldl_nil]
  | cons x more ih =>
      obtain ⟨hx, hmore⟩ := List.forall_mem_cons.1 hm
      have hins : ∀ y ∈ bisectInsert precedes x sorted, P y := by
        intro y hy
        rcases List.mem_cons.1 ((bisectInsert_perm precedes x sorted).subset hy) with rfl | hy
        · exact hx
        · exact hs y hy
      rw [List.foldl_cons, ih hmore hins (pairwise_bisectInsert h hx hs ho), List.filter_append,
        filter_bisectInsert h k hx hs ho, List.append_assoc, ← List.filter_append,
        ← List.filter_append, List.singleton_append]

/-- Sorting elements whose order comes from keys keeps those of one key in their order. -/
theorem filter_runInsertionSort (h : OrderedBy precedes key P) (k : κ) {xs : List α}
    (hx : ∀ x ∈ xs, P x) :
    (runInsertionSort precedes xs).filter (key · = k) = xs.filter (key · = k) := by
  have hp := leadingRun_perm precedes xs
  have hrun : ∀ y ∈ (leadingRun precedes xs).1, P y := fun y hy =>
    hx y (hp.subset (List.mem_append_left _ hy))
  have hrest : ∀ y ∈ (leadingRun precedes xs).2, P y := fun y hy =>
    hx y (hp.subset (List.mem_append_right _ hy))
  rw [runInsertionSort, filter_foldl_bisectInsert h k hrest hrun (pairwise_leadingRun h hx),
    filter_leadingRun h k hx]

theorem key_le_trans (key : α → κ) (a b c : α) (hab : decide (key a ≤ key b) = true)
    (hbc : decide (key b ≤ key c) = true) : decide (key a ≤ key c) = true := by
  simp only [decide_eq_true_eq] at hab hbc ⊢
  exact le_trans hab hbc

theorem key_le_total (key : α → κ) (a b : α) :
    (decide (key a ≤ key b) || decide (key b ≤ key a)) = true := by
  simpa using le_total (key a) (key b)

theorem pairwise_mergeSort_key (key : α → κ) (xs : List α) :
    (xs.mergeSort fun a b => decide (key a ≤ key b)).Pairwise fun a b => key a ≤ key b :=
  (List.pairwise_mergeSort (key_le_trans key) (key_le_total key) xs).imp of_decide_eq_true

/-- The library's sort by a key keeps the elements of one key in their order as well. -/
theorem filter_mergeSort_key (key : α → κ) (xs : List α) (k : κ) :
    (xs.mergeSort fun a b => decide (key a ≤ key b)).filter (key · = k) =
      xs.filter (key · = k) := by
  have hties : (xs.filter (key · = k)).Pairwise fun a b => decide (key a ≤ key b) = true := by
    refine List.pairwise_of_forall_mem_list fun a ha b hb => ?_
    have hkey : key a = key b := by simp_all
    simp [hkey]
  have hsub := (List.sublist_mergeSort (key_le_trans key) (key_le_total key) hties
    List.filter_sublist).filter (key · = k)
  rw [List.filter_filter] at hsub
  simp only [Bool.and_self] at hsub
  exact (hsub.eq_of_length ((List.mergeSort_perm xs _).filter _).length_eq.symm).symm

/-- Lists in the order of their keys that have the same elements of each key in the same order are
the same. -/
theorem eq_of_filter_key_eq {xs ys : List α} (hx : xs.Pairwise fun a b => key a ≤ key b)
    (hy : ys.Pairwise fun a b => key a ≤ key b)
    (h : ∀ k, xs.filter (key · = k) = ys.filter (key · = k)) : xs = ys := by
  have hmem {a : α} {zs : List α} : a ∈ zs ↔ a ∈ zs.filter (key · = key a) := by simp
  induction xs generalizing ys with
  | nil =>
      refine (List.eq_nil_iff_forall_not_mem.2 fun a ha => ?_).symm
      rw [hmem, ← h] at ha
      exact List.not_mem_nil ha
  | cons x xs ih =>
      cases ys with
      | nil =>
          have hin : x ∈ x :: xs := List.mem_cons_self
          rw [hmem, h] at hin
          exact (List.not_mem_nil hin).elim
      | cons y ys =>
          have hxy : x ∈ y :: ys := by
            rw [hmem, ← h, ← hmem]
            exact List.mem_cons_self
          have hyx : y ∈ x :: xs := by
            rw [hmem, h, ← hmem]
            exact List.mem_cons_self
          have hle : key x ≤ key y := by
            rcases List.mem_cons.1 hyx with rfl | hyx
            · exact le_refl _
            · exact (List.pairwise_cons.1 hx).1 y hyx
          have hge : key y ≤ key x := by
            rcases List.mem_cons.1 hxy with rfl | hxy
            · exact le_refl _
            · exact (List.pairwise_cons.1 hy).1 x hxy
          have hkey : key y = key x := le_antisymm hge hle
          have hhead := h (key x)
          simp only [List.filter_cons, hkey, decide_true, if_true] at hhead
          obtain ⟨rfl, -⟩ := List.cons.inj hhead
          refine congrArg (x :: ·) (ih hx.of_cons hy.of_cons fun k => ?_)
          have hk := h k
          simp only [List.filter_cons] at hk
          split at hk
          · exact (List.cons.inj hk).2
          · exact hk

theorem runInsertionSort_eq_mergeSort (h : OrderedBy precedes key P) {xs : List α}
    (hx : ∀ x ∈ xs, P x) :
    runInsertionSort precedes xs = xs.mergeSort fun a b => decide (key a ≤ key b) := by
  refine eq_of_filter_key_eq (pairwise_runInsertionSort h hx) (pairwise_mergeSort_key key xs) ?_
  intro k
  rw [filter_runInsertionSort h k hx, filter_mergeSort_key]

end StructLayout
