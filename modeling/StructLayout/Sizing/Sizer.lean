import StructLayout.Sizing.StandardTypes
import StructLayout.Sizing.TypeTree
import StructLayout.Source.TypeTable

/-!
# Sizing type expressions

A `Sizer` knows the declarations of one package and gives the size and alignment of type expressions
on one platform.  Names are resolved through the package's declarations and the table of well-known
types; a name that is met again while it is being resolved belongs to a type that contains itself and
has no size.  Layouts that were found are remembered by the trimmed text of the expression; failures
are not.

The main statement says that resolving a name leaves fewer names to resolve
(`length_unresolved_lt`), which is why sizing ends.
-/

namespace StructLayout.Sizing

open Source

/-- The declarations in scope of a type expression. -/
structure Scope where
  abi : Abi
  localTypes : TypeTable
  genericTypes : List String
  typeParams : List String
deriving Repr

/-- The layouts found so far, by the text of the expression. -/
abbrev Cache := List (String × TypeLayout)

/-- A computation that sizes types and remembers what it found, also when it fails in the end. -/
abbrev Memo := ExceptT Indeterminate (StateM Cache)

/-- Fails because a type has no layout. -/
def indeterminate {α : Type} (typeExpr reason : String) : Memo α :=
  throw { typeExpr, reason }

/-- The remembered layout of an expression, or else the one computed now, which is remembered. -/
def remember (text : String) (compute : Memo TypeLayout) : Memo TypeLayout := do
  let cache ← get
  match cache.lookup text with
  | some l => pure l
  | none =>
    let l ← compute
    modify fun cache => (text, l) :: cache
    pure l

namespace Scope

/-- The names with an underlying type. -/
def names (scope : Scope) : List String :=
  scope.localTypes.map Prod.fst ++ wellKnown.map Prod.fst

/-- The underlying type of a name; a generic type hides a well-known one. -/
def underlying? (scope : Scope) (name : String) : Option String :=
  match scope.localTypes.lookup name with
  | some t => some t
  | none => if scope.genericTypes.contains name then none else wellKnown.lookup name

/-- The names with an underlying type that are not being resolved. -/
def unresolved (scope : Scope) (resolving : List String) : List String :=
  scope.names.filter fun name => !resolving.contains name

theorem mem_names_of_underlying? {scope : Scope} {name t : String}
    (h : scope.underlying? name = some t) : name ∈ scope.names := by
  have of_lookup {table : List (String × String)} {t : String} (h : table.lookup name = some t) :
      name ∈ table.map Prod.fst := by
    induction table with
    | nil => cases h
    | cons entry rest ih =>
      obtain ⟨k, v⟩ := entry
      by_cases hk : name = k
      · simp [hk]
      · have hb : (name == k) = false := by simpa using hk
        simp only [List.lookup_cons, hb] at h
        simp [ih h]
  simp only [names, List.mem_append]
  unfold underlying? at h
  split at h
  · next hl => exact .inl (of_lookup hl)
  · split at h
    · cases h
    · exact .inr (of_lookup h)

theorem unresolved_cons (scope : Scope) (name : String) (resolving : List String) :
    scope.unresolved (name :: resolving) = (scope.unresolved resolving).filter (· != name) := by
  simp only [unresolved, List.filter_filter]
  refine List.filter_congr fun x _ => ?_
  by_cases hx : x = name <;> simp [hx]

/-- Resolving a name leaves fewer names to resolve. -/
theorem length_unresolved_lt {scope : Scope} {name t : String} {resolving : List String}
    (h : scope.underlying? name = some t) (hn : name ∉ resolving) :
    (scope.unresolved (name :: resolving)).length < (scope.unresolved resolving).length := by
  rw [unresolved_cons, List.length_filter_lt_length_iff_exists]
  exact ⟨name, by simp [unresolved, mem_names_of_underlying? h, hn], by simp⟩

end Scope

/-- Whether a text is an identifier, optionally qualified by a package. -/
def isTypeName (cs : List Char) : Bool :=
  match identifier? cs with
  | some (_, []) => true
  | some (_, '.' :: rest) =>
    match identifier? rest with
    | some (_, []) => true
    | _ => false
  | _ => false

/-- Why a name without an underlying type has no layout. -/
def unknownReason (scope : Scope) (name : String) : String :=
  let cs := name.toList
  if scope.genericTypes.contains name then "generic type without arguments"
  else if isTypeName cs then
    if cs.contains '.' then "external type" else "unknown type"
  else "unsupported type expression"

/-- The layout of a name: a fixed one, that of an instantiated generic type, or else what `resolve`
makes of it. -/
def nameLayout (scope : Scope) (resolve : String → Memo TypeLayout) (name : String) :
    Memo TypeLayout :=
  match fixedLayout? scope.abi name with
  | some l => pure l
  | none =>
    let cs := name.toList
    if cs.contains '[' then
      -- instances are sized only where their arguments do not matter
      if genericWordTypes.contains (String.ofList (cs.takeWhile (· != '['))) then
        pure (wordLayout scope.abi)
      else indeterminate name "generic type instantiation"
    else resolve name

def TypeLayout.asField (l : TypeLayout) : Field where
  name := ""
  typeExpr := ""
  size := some l.size
  align := some l.align
  tag := ""
  comment := ""

def structLayout (abi : Abi) (fields : List TypeLayout) : TypeLayout :=
  let fields := fields.map TypeLayout.asField
  -- the size is rounded up as far as the platform aligns, the alignment is not cut down to that
  { size := structSize abi fields, align := largestAlignment fields }

def arrayLayout (length : Int) (element : TypeLayout) : TypeLayout :=
  { size := if length ≤ 0 then 0 else element.size * length, align := element.align }

/-- Refuses a type parameter, which stands for no definite type. -/
def unlessParam (scope : Scope) (text : String) (compute : Memo TypeLayout) :
    Memo TypeLayout :=
  remember text <|
    if scope.typeParams.contains text then indeterminate text "type parameter" else compute

mutual

def TypeTree.layout (scope : Scope) (resolve : String → Memo TypeLayout) :
    TypeTree → Memo TypeLayout
  | .empty => remember "" (indeterminate "" "empty type expression")
  | .group text inner => remember text (inner.layout scope resolve)
  | .name text => unlessParam scope text (nameLayout scope resolve text)
  | .word text => unlessParam scope text (pure (wordLayout scope.abi))
  | .slice text => unlessParam scope text (pure (wordsLayout scope.abi 3))
  | .interface text => unlessParam scope text (pure (wordsLayout scope.abi 2))
  | .malformed text reason => unlessParam scope text (indeterminate text reason)
  | .array text length element => unlessParam scope text do
      let l ← element.layout scope resolve
      pure (arrayLayout length l)
  | .struct text fields => unlessParam scope text do
      let ls ← TypeTree.layouts scope resolve fields
      pure (structLayout scope.abi ls)

/-- The layouts of types, one after the other. -/
def TypeTree.layouts (scope : Scope) (resolve : String → Memo TypeLayout) :
    List TypeTree → Memo (List TypeLayout)
  | [] => pure []
  | t :: rest => do
    let l ← t.layout scope resolve
    let ls ← TypeTree.layouts scope resolve rest
    pure (l :: ls)

end

def Scope.layoutOf (scope : Scope) (resolving : List String) (tree : TypeTree) :
    Memo TypeLayout :=
  tree.layout scope fun name =>
    match _h : scope.underlying? name with
    | none => indeterminate name (unknownReason scope name)
    | some t =>
      if _hr : name ∈ resolving then indeterminate name "recursive type"
      else scope.layoutOf (name :: resolving) (TypeTree.parse t.toList)
termination_by (scope.unresolved resolving).length
decreasing_by exact Scope.length_unresolved_lt _h _hr

/-! ### Sizers -/

/-- The sizing of one package's types on one platform. -/
structure Sizer where
  scope : Scope
  cache : Cache
deriving Repr

namespace Sizer

def ofScope (scope : Scope) : Sizer := { scope, cache := [] }

/-- The layout of a type expression, and the sizer that remembers what was found. -/
def layoutOf (s : Sizer) (typeExpr : String) : Except Indeterminate TypeLayout × Sizer :=
  let r := (s.scope.layoutOf [] (TypeTree.parse typeExpr.toList)).run.run s.cache
  (r.1, { s with cache := r.2 })

/-- A field of a type, without size and alignment if they cannot be determined. -/
def field (s : Sizer) (name typeExpr tag comment : String) : Field × Sizer :=
  let r := s.layoutOf typeExpr
  let l := r.1.toOption
  ({ name, typeExpr, size := l.map (·.size), align := l.map (·.align), tag, comment }, r.2)

/-- The sizer with a name declared; what was found before is kept. -/
def declare (s : Sizer) (name underlying : String) : Sizer :=
  { s with scope.localTypes := s.scope.localTypes.set name underlying }

/-- A new sizer for the same declarations with other type parameters in scope. -/
def withTypeParams (s : Sizer) (typeParams : List String) : Sizer :=
  ofScope { s.scope with typeParams }

end Sizer

end StructLayout.Sizing
