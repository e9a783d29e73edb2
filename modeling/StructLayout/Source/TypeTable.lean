/-!
# Tables of declared types

A table gives the underlying type of each declared name.  A name declared again takes its later type.
The main statements say what a table holds after a name is set (`lookup_set_self`, `lookup_set_ne`).
-/

namespace StructLayout.Source

/-- Declared names with their underlying types, each name once. -/
abbrev TypeTable := List (String × String)

namespace TypeTable

def set : TypeTable → String → String → TypeTable
  | [], name, t => [(name, t)]
  | (k, u) :: rest, name, t => if k = name then (k, t) :: rest else (k, u) :: set rest name t

/-- The table with the declarations of another one added. -/
def update (table more : TypeTable) : TypeTable :=
  more.foldl (fun table entry => table.set entry.1 entry.2) table

theorem lookup_cons (k u : String) (rest : TypeTable) (name : String) :
    List.lookup name ((k, u) :: rest) = if name = k then some u else List.lookup name rest := by
  by_cases h : name = k
  · simp [h]
  · have hb : (name == k) = false := by simpa using h
    simp [List.lookup_cons, hb, h]

@[simp] theorem lookup_set_self (table : TypeTable) (name t : String) :
    List.lookup name (table.set name t) = some t := by
  induction table with
  | nil => simp [set]
  | cons entry rest ih =>
    obtain ⟨k, u⟩ := entry
    by_cases h : k = name
    · simp [set, h]
    · simp [set, h, lookup_cons, Ne.symm h, ih]

theorem lookup_set_ne {table : TypeTable} {name other : String} (t : String) (h : other ≠ name) :
    List.lookup other (table.set name t) = List.lookup other table := by
  induction table with
  | nil => simp [set, h]
  | cons entry rest ih =>
    obtain ⟨k, u⟩ := entry
    by_cases hk : k = name
    · subst hk
      simp [set, lookup_cons, h]
    · simp [set, hk, lookup_cons, ih]

end TypeTable

def addName (names : List String) (name : String) : List String :=
  if names.contains name then names else names ++ [name]

end StructLayout.Source
