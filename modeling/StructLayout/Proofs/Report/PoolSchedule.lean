import Mathlib.Data.List.Induction
import Mathlib.Data.List.Nodup
import Mathlib.Data.String.Basic
import StructLayout.Proofs.Layout.RunOrder
import StructLayout.Report.Build

/-!
# Reports do not depend on the schedule

A pool of workers analyses the structs of all packages in one go and puts each result into the slot of
its task.  After some tasks have finished exactly their slots are filled (`getElem?_fillSlots`), so at
the end, when each has finished once, the slots hold the results in the order of the tasks
(`gather_eq_map`).  Cut by the lengths of the packages they are each package's own
(`findPackages_eq_map`).

Sorting by path is stable (`filter_sortByPath`), and where all paths differ there is only one sorted
order (`sortByPath_perm`).  The main statement is `Report.build_eq_sequential`: whatever the schedule
and the number of workers, a report is the one on packages that are analysed struct by struct.
-/

namespace StructLayout

/-- Every task of a pool finishes exactly once, in whatever order. -/
def Schedule.IsComplete (schedule : Schedule) : Prop := ∀ n, (schedule n).Perm (List.range n)

/-! ### Slots -/

section Slots

variable {α β : Type} (run : α → β) (tasks : List α)

theorem fillSlots_nil : fillSlots run tasks [] = tasks.map fun _ => none := rfl

theorem fillSlots_concat (finished : List Nat) (i : Nat) :
    fillSlots run tasks (finished ++ [i]) =
      match tasks[i]? with
      | some task => (fillSlots run tasks finished).set i (some (run task))
      | none => fillSlots run tasks finished := by
  rw [fillSlots, List.foldl_append]
  rfl

theorem length_fillSlots (finished : List Nat) :
    (fillSlots run tasks finished).length = tasks.length := by
  induction finished using List.reverseRecOn with
  | nil => simp [fillSlots_nil]
  | append_singleton finished i ih =>
      rw [fillSlots_concat]
      split
      · rw [List.length_set, ih]
      · exact ih

theorem getElem?_fillSlots (finished : List Nat) (i : Nat) :
    (fillSlots run tasks finished)[i]? =
      tasks[i]?.map fun task => if i ∈ finished then some (run task) else none := by
  -- from the task that finishes last on: it writes over what is there
  induction finished using List.reverseRecOn with
  | nil =>
      rw [fillSlots_nil, List.getElem?_map]
      simp
  | append_singleton finished j ih =>
      rw [fillSlots_concat]
      by_cases hij : j = i
      · subst hij
        cases ht : tasks[j]? with
        | none => simpa [ht] using ih
        | some task =>
            have hj : j < (fillSlots run tasks finished).length := by
              rw [length_fillSlots]
              exact (List.getElem?_eq_some_iff.1 ht).1
            simp [hj]
      · have hmem : i ∈ finished ++ [j] ↔ i ∈ finished := by
          simp [Ne.symm hij]
        simp only [hmem, ← ih]
        split
        · exact List.getElem?_set_ne hij
        · rfl

/-- When every task has finished the results stand in the order of the tasks. -/
theorem gather_eq_map {completion : List Nat} (h : completion.Perm (List.range tasks.length)) :
    gather run tasks completion = tasks.map run := by
  have hslots : fillSlots run tasks completion = tasks.map fun task => some (run task) := by
    refine List.ext_getElem? fun i => ?_
    rw [getElem?_fillSlots, List.getElem?_map]
    cases ht : tasks[i]? with
    | none => rfl
    | some task =>
        have hi : i ∈ completion :=
          h.mem_iff.2 (List.mem_range.2 (List.getElem?_eq_some_iff.1 ht).1)
        simp [hi]
  simp [gather, hslots, List.filterMap_map]

end Slots

/-! ### Packages -/

/-- The findings on a package, struct by struct. -/
def PackageDef.findings (abi : Abi) (p : PackageDef) : PackageFinding where
  path := p.path
  findings := p.structs.map (analyse abi)

variable {schedule : Schedule}

theorem analyseAll_eq_map (abi : Abi) (workers : Option Int) (hs : schedule.IsComplete)
    (structs : List StructDef) : analyseAll abi workers schedule structs = structs.map (analyse abi) := by
  unfold analyseAll
  split
  · rfl
  · exact gather_eq_map _ _ (hs structs.length)

theorem findPackages_eq_map (abi : Abi) (workers : Option Int) (hs : schedule.IsComplete)
    (packages : List PackageDef) :
    findPackages abi workers schedule packages = packages.map (PackageDef.findings abi) := by
  have hcut : splitLengths (packages.map fun p => p.structs.length)
      ((packages.flatMap PackageDef.structs).map (analyse abi)) =
      packages.map fun p => p.structs.map (analyse abi) := by
    have h := splitLengths_flatten (packages.map fun p => p.structs.map (analyse abi))
    rwa [List.map_map, ← List.flatMap_def, ← List.map_flatMap,
      show List.length ∘ (fun p : PackageDef => p.structs.map (analyse abi)) =
        fun p => p.structs.length from funext fun p => List.length_map _] at h
  simp only [findPackages, analyseAll_eq_map abi workers hs, hcut, List.zipWith_map_right,
    List.zipWith_self]
  rfl

/-! ### Sorting by path -/

/-- Packages in the order of their paths, those of one path in the given order. -/
def sortByPath (packages : List PackageDef) : List PackageDef :=
  packages.mergeSort fun a b => decide (a.path ≤ b.path)

theorem sortByPath_perm (packages : List PackageDef) : (sortByPath packages).Perm packages :=
  List.mergeSort_perm _ _

theorem pairwise_sortByPath (packages : List PackageDef) :
    (sortByPath packages).Pairwise fun a b => a.path ≤ b.path :=
  pairwise_mergeSort_key PackageDef.path packages

theorem filter_sortByPath (packages : List PackageDef) (path : String) :
    (sortByPath packages).filter (·.path = path) = packages.filter (·.path = path) :=
  filter_mergeSort_key PackageDef.path packages path

theorem sortByPath_eq_of_perm {packages others : List PackageDef}
    (hd : (packages.map PackageDef.path).Nodup) (hp : others.Perm packages) :
    sortByPath others = sortByPath packages := by
  have hp' : (sortByPath others).Perm (sortByPath packages) :=
    ((sortByPath_perm others).trans hp).trans (sortByPath_perm packages).symm
  refine hp'.eq_of_pairwise ?_ (pairwise_sortByPath others) (pairwise_sortByPath packages)
  intro a b ha hb hab hba
  have ha' : a ∈ packages := hp.subset ((sortByPath_perm others).subset ha)
  have hb' : b ∈ packages := (sortByPath_perm packages).subset hb
  exact List.inj_on_of_nodup_map hd ha' hb' (le_antisymm hab hba)

theorem sortPackages_map (abi : Abi) (packages : List PackageDef) :
    sortPackages (packages.map (PackageDef.findings abi)) =
      (sortByPath packages).map (PackageDef.findings abi) :=
  (List.map_mergeSort (f := PackageDef.findings abi) fun _ _ _ _ => rfl).symm

namespace Report

/-- The report on packages one after the other, each struct in turn. -/
def sequential (abi : Abi) (packages : List PackageDef) : Report where
  packages := packages.map fun p =>
    { path := .str p.path, records := p.structs.map fun s => Record.ofFinding (analyse abi s) }

theorem ofFindings_map (abi : Abi) (packages : List PackageDef) :
    ofFindings (packages.map (PackageDef.findings abi)) = sequential abi packages := by
  simp [ofFindings, sequential, Package.ofFinding, PackageDef.findings, Function.comp_def]

/-- Whatever the number of workers and the order in which they finish, a report is the one on the
packages one after the other, each struct in turn: in the given order, or stably sorted by path.  Where
all paths differ the sorted report does not depend on the given order either. -/
theorem build_eq_sequential (abi : Abi) (workers : Option Int) (schedule : Schedule)
    (hs : schedule.IsComplete) (packages : List PackageDef) :
    build abi workers schedule false packages = sequential abi packages ∧
    (∃ order : List PackageDef, build abi workers schedule true packages = sequential abi order ∧
      order.Perm packages ∧ (order.Pairwise fun a b => a.path ≤ b.path) ∧
      ∀ path, order.filter (·.path = path) = packages.filter (·.path = path)) ∧
    ((packages.map PackageDef.path).Nodup → ∀ (others : List PackageDef) (moreWorkers : Option Int)
      (otherSchedule : Schedule), others.Perm packages → otherSchedule.IsComplete →
      build abi moreWorkers otherSchedule true others = build abi workers schedule true packages) := by
  have hsorted (workers : Option Int) {schedule : Schedule} (hs : schedule.IsComplete)
      (packages : List PackageDef) :
      build abi workers schedule true packages = sequential abi (sortByPath packages) := by
    simp [build, findPackages_eq_map abi workers hs, sortPackages_map, ofFindings_map]
  refine ⟨?_, ⟨sortByPath packages, hsorted workers hs packages, sortByPath_perm packages,
    pairwise_sortByPath packages, filter_sortByPath packages⟩, ?_⟩
  · simp [build, findPackages_eq_map abi workers hs, ofFindings_map]
  · intro hd others moreWorkers otherSchedule hp hother
    rw [hsorted moreWorkers hother, hsorted workers hs, sortByPath_eq_of_perm hd hp]

def lastFirst : Schedule := fun n => (List.range n).reverse

theorem isComplete_lastFirst : lastFirst.IsComplete := fun n => List.reverse_perm (List.range n)

/-- A package with an empty struct, one of unknown size and one with a gap. -/
def mixedPackage : PackageDef where
  path := "b"
  structs := [
    { name := "E", position := { file := "x.go", line := 1 }, fields := [], ignored := true },
    { name := "X", position := { file := "x.go", line := 2 }, ignored := false
      fields := [{ name := "x", typeExpr := "X", size := none, align := none, tag := "", comment := "" }] },
    { name := "P", position := { file := "x.go", line := 3 }, ignored := false
      fields := [
        { name := "a", typeExpr := "bool", size := some 1, align := some 1, tag := "", comment := "" },
        { name := "w", typeExpr := "int64", size := some 8, align := some 8, tag := "", comment := "" },
        { name := "b", typeExpr := "bool", size := some 1, align := some 1, tag := "", comment := "" }] }]

/-- Packages out of order, one of them without structs. -/
def mixedPackages : List PackageDef :=
  [mixedPackage, { path := "c", structs := [] }, { mixedPackage with path := "a" }]

theorem build_eq_sequential_lastFirst :
    (lastFirst.IsComplete ∧ (mixedPackages.map PackageDef.path).Nodup ∧
      mixedPackages.reverse.Perm mixedPackages) ∧
    build .amd64 (some 4) lastFirst false mixedPackages = sequential .amd64 mixedPackages ∧
    (∃ order : List PackageDef,
      build .amd64 (some 4) lastFirst true mixedPackages = sequential .amd64 order ∧
      order.Perm mixedPackages ∧ (order.Pairwise fun a b => a.path ≤ b.path) ∧
      ∀ path, order.filter (·.path = path) = mixedPackages.filter (·.path = path)) ∧
    build .amd64 none lastFirst true mixedPackages.reverse =
      build .amd64 (some 4) lastFirst true mixedPackages := by
  have h := build_eq_sequential .amd64 (some 4) lastFirst isComplete_lastFirst mixedPackages
  have hd : (mixedPackages.map PackageDef.path).Nodup := by decide
  have hp := List.reverse_perm mixedPackages
  exact ⟨⟨isComplete_lastFirst, hd, hp⟩, h.1, h.2.1, h.2.2 hd _ none lastFirst hp isComplete_lastFirst⟩

end Report

end StructLayout
