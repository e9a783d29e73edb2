import Mathlib.Data.List.Induction
import StructLayout.Proofs.Source.Scanning

/-!
# Names of declared types

Declarations have a name for each type with an underlying type and for each generic type
(`Declarations.typeNames`).  The names of declarations one after the other are those of both
(`Declarations.mem_typeNames_append`), and a scan never loses one (`Scanner.mem_typeNames_scanLines`).

The main statement on tables is `TypeTable.lookup_update`: what is added decides about the names that
are mentioned there, whatever stood in the table before.
-/

namespace StructLayout.Source

/-! ### Tables -/

namespace TypeTable

variable {table more : TypeTable} {name other t : String}

theorem mem_keys_set : other ∈ (table.set name t).map Prod.fst ↔
    other ∈ table.map Prod.fst ∨ other = name := by
  induction table with
  | nil => simp [set]
  | cons entry table ih =>
    obtain ⟨k, u⟩ := entry
    by_cases hk : k = name
    · rw [set, if_pos hk, List.map_cons, List.map_cons, List.mem_cons, hk]
      exact ⟨.inl, fun h => h.elim id .inl⟩
    · rw [set, if_neg hk, List.map_cons, List.map_cons, List.mem_cons, List.mem_cons, ih, or_assoc]

theorem mem_keys_update : name ∈ (update table more).map Prod.fst ↔
    name ∈ table.map Prod.fst ∨ name ∈ more.map Prod.fst := by
  induction more generalizing table with
  | nil => simp [update]
  | cons entry more ih =>
    have h := @ih (table.set entry.1 entry.2)
    rw [update] at h
    rw [update, List.foldl_cons, h, mem_keys_set, List.map_cons, List.mem_cons, or_assoc]

/-- What is added decides about the names in it, and leaves the others alone. -/
theorem lookup_update (table more : TypeTable) (name : String) :
    List.lookup name (update table more) =
      if name ∈ more.map Prod.fst then List.lookup name (update [] more)
      else List.lookup name table := by
  induction more using List.reverseRecOn with
  | nil => rfl
  | append_singleton more entry ih =>
    have hset (table : TypeTable) :
        update table (more ++ [entry]) = (update table more).set entry.1 entry.2 := by
      simp [update, List.foldl_append]
    by_cases hn : name = entry.1
    · have hm : name ∈ (more ++ [entry]).map Prod.fst := by simp [hn]
      rw [if_pos hm, hset, hset, hn, lookup_set_self, lookup_set_self]
    · have hm : name ∈ (more ++ [entry]).map Prod.fst ↔ name ∈ more.map Prod.fst := by simp [hn]
      rw [hset, hset, lookup_set_ne _ hn, lookup_set_ne _ hn, ih]
      simp only [hm]

end TypeTable

theorem mem_foldl_addName {names more : List String} {name : String} :
    name ∈ more.foldl addName names ↔ name ∈ names ∨ name ∈ more := by
  induction more generalizing names with
  | nil => simp
  | cons other more ih =>
    have hadd : name ∈ addName names other ↔ name ∈ names ∨ name = other := by
      unfold addName
      split
      · next h =>
        refine ⟨.inl, fun hn => hn.elim id ?_⟩
        rintro rfl
        exact List.contains_iff_mem.1 h
      · rw [List.mem_append, List.mem_singleton]
    rw [List.foldl_cons, ih, hadd, List.mem_cons, or_assoc]

/-! ### Names -/

namespace Declarations

def typeNames (d : Declarations) : List String := d.localTypes.map Prod.fst ++ d.genericTypes

theorem mem_typeNames_append {a b : Declarations} {name : String} :
    name ∈ (a.append b).typeNames ↔ name ∈ a.typeNames ∨ name ∈ b.typeNames := by
  simp only [typeNames, append, List.mem_append, TypeTable.mem_keys_update, mem_foldl_addName]
  exact or_or_or_comm

@[simp] theorem append_none (a : Declarations) : a.append .none = a := by
  simp [append, none, TypeTable.update]

end Declarations

theorem Scanner.mem_typeNames_scanLines (s : Scanner) {inGroup : Bool} {doc : List (List Char)}
    {found : Declarations} {name : String} (h : name ∈ found.typeNames) (lines : List Line) :
    name ∈ (s.scanLines inGroup doc found lines).typeNames := by
  fun_induction Scanner.scanLines s inGroup doc found lines with
  | case1 => exact h
  | case7 => next ih => exact ih (Declarations.mem_typeNames_append.2 (.inl h))
  | _ => next ih => exact ih h

end StructLayout.Source
