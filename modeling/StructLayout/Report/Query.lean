import StructLayout.Report.Basic

/-!
# Questions about a report

An exempt struct is listed like any other but is never a problem, and a struct that could not be
checked is not a problem either.  The main statements say that restricting a report keeps exactly the
records in question, in order (`records_restrict`), that a report has problems exactly when it lists
one (`hasProblems_iff`), and that the two restrictions commute (`named_problemsOnly`).
-/

namespace StructLayout.Report

/-- The structs that can be improved and are not exempt, with their packages. -/
def problems (r : Report) : List (Package × Record) := r.records.filter fun p => p.2.hasProblems

/-- The structs whose layout could not be computed, with their packages. -/
def unchecked (r : Report) : List (Package × Record) := r.records.filter fun p => !p.2.isChecked

def find? (r : Report) (name : Value) : Option (Package × Record) :=
  r.records.find? fun p => p.2.isNamed name

/-- A package restricted to some of its structs, or none if no struct is left. -/
def Package.restrict (keep : Record → Bool) (p : Package) : Option Package :=
  match p.records.filter keep with
  | [] => none
  | kept => some { p with records := kept }

/-- The report restricted to some of its structs; packages left without any are dropped. -/
def restrict (keep : Record → Bool) (r : Report) : Report where
  packages := r.packages.filterMap (Package.restrict keep)

def named (r : Report) (name : Value) : Report := r.restrict (·.isNamed name)

/-- The report restricted to structs that can be improved and are not exempt. -/
def problemsOnly (r : Report) : Report := r.restrict (·.hasProblems)

/-- What a report is asked for. -/
inductive Purpose where
  | view
  | check
deriving DecidableEq, Repr, Inhabited

/-- The exit status: a check fails if some struct, of the given name if one is given, can be improved
and is not exempt. -/
def exitCode (r : Report) (purpose : Purpose) (name : Value) : Nat :=
  match purpose with
  | .view => 0
  | .check =>
    let limited := if name.isTruthy then r.named name else r
    if limited.hasProblems then 1 else 0

/-! ### Restriction -/

theorem Package.restrict_records (keep : Record → Bool) (p : Package) :
    ((p.restrict keep).map Package.records).getD [] = p.records.filter keep := by
  unfold Package.restrict
  split
  · next h => simp [h]
  · next h => simp

theorem Package.restrict_bind (keep also : Record → Bool) (p : Package) :
    (p.restrict keep).bind (Package.restrict also) = p.restrict fun s => keep s && also s := by
  have hf : p.records.filter (fun s => keep s && also s) = (p.records.filter keep).filter also := by
    rw [List.filter_filter]
    exact List.filter_congr fun s _ => Bool.and_comm _ _
  unfold Package.restrict
  rw [hf]
  cases p.records.filter keep with
  | nil => rfl
  | cons s rest => rfl

/-- The structs of a restricted report are those of the report that are kept, in order. -/
theorem records_restrict (keep : Record → Bool) (r : Report) :
    (r.restrict keep).records.map Prod.snd = (r.records.map Prod.snd).filter keep := by
  obtain ⟨packages⟩ := r
  have flat (ps : List Package) :
      (ps.flatMap fun p => p.records.map fun s => (p, s)).map Prod.snd =
        ps.flatMap Package.records := by
    simp [List.map_flatMap, Function.comp_def]
  simp only [records, restrict, flat]
  induction packages with
  | nil => rfl
  | cons p rest ih =>
    have hp := p.restrict_records keep
    rw [List.filterMap_cons, List.flatMap_cons, List.filter_append, ← ih, ← hp]
    cases p.restrict keep <;> rfl

theorem hasProblems_iff (r : Report) : r.hasProblems = true ↔ r.problems ≠ [] := by
  have hp : r.problems ≠ [] ↔ ∃ e ∈ r.records, e.2.hasProblems = true := by
    simp only [problems, ne_eq, List.filter_eq_nil_iff, Classical.not_forall, Decidable.not_not, exists_prop]
  rw [hp]
  simp only [hasProblems, Package.hasProblems, List.any_eq_true, records, List.mem_flatMap,
    List.mem_map]
  constructor
  · rintro ⟨p, hp, s, hs, h⟩
    exact ⟨(p, s), ⟨p, hp, s, hs, rfl⟩, h⟩
  · rintro ⟨e, ⟨p, hp, s, hs, rfl⟩, h⟩
    exact ⟨p, hp, s, hs, h⟩

theorem restrict_restrict (keep also : Record → Bool) (r : Report) :
    (r.restrict keep).restrict also = r.restrict fun s => keep s && also s := by
  simp only [restrict, List.filterMap_filterMap, Package.restrict_bind]

/-- The order of the two restrictions does not matter. -/
theorem named_problemsOnly (r : Report) (name : Value) :
    r.problemsOnly.named name = (r.named name).problemsOnly := by
  simp only [named, problemsOnly, restrict_restrict]
  congr 1
  funext s
  exact Bool.and_comm _ _

end StructLayout.Report
