import StructLayout.Proofs.Sizing.Derivation

/-!
# Scopes that resolve names alike

Sizing asks a scope for its platform and its type parameters, for what a name stands for, and whether a
name without an underlying type is one of a generic type.  Two scopes that answer these alike
(`Scope.Alike`) need not hold their declarations in the same order.

The main statements say that types have the same layouts in both (`Scope.Alike.layoutOf_eq`) and that
descents into them go the same way (`Scope.Alike.descend_eq`), so that a new sizer answers and gives up
in both alike.
-/

namespace StructLayout.Sizing

/-- Two scopes answer alike whatever sizing asks them. -/
structure Scope.Alike (a b : Scope) : Prop where
  abi : a.abi = b.abi
  typeParams : a.typeParams = b.typeParams
  underlying? : ∀ name, a.underlying? name = b.underlying? name
  genericTypes : ∀ name, a.genericTypes.contains name = b.genericTypes.contains name

namespace Scope.Alike

variable {a b : Scope} {limit : Nat}

theorem of_tables (habi : a.abi = b.abi) (hparams : a.typeParams = b.typeParams)
    (hlocal : ∀ name, a.localTypes.lookup name = b.localTypes.lookup name)
    (hgeneric : ∀ name, a.genericTypes.contains name = b.genericTypes.contains name) :
    a.Alike b where
  abi := habi
  typeParams := hparams
  underlying? name := by rw [Scope.underlying?, Scope.underlying?, hlocal, hgeneric]
  genericTypes := hgeneric

/-- With other type parameters in both, scopes still answer alike. -/
theorem withParams (h : a.Alike b) (params : List String) :
    Scope.Alike { a with typeParams := params } { b with typeParams := params } where
  abi := h.abi
  typeParams := rfl
  underlying? := h.underlying?
  genericTypes := h.genericTypes

theorem unknownReason_eq (h : a.Alike b) (name : String) :
    unknownReason a name = unknownReason b name := by
  rw [unknownReason, unknownReason, h.genericTypes]

/-! ### Layouts -/

theorem unlessParam_eq (h : a.Alike b) (text : String) (m : Memo TypeLayout) :
    unlessParam a text m = unlessParam b text m := by
  rw [unlessParam, unlessParam, h.typeParams]

theorem nameLayout_eq (h : a.Alike b) (resolve : String → Memo TypeLayout) (name : String) :
    nameLayout a resolve name = nameLayout b resolve name := by
  rw [nameLayout, nameLayout, h.abi]

mutual

theorem layout_eq (h : a.Alike b) (resolve : String → Memo TypeLayout) :
    ∀ tree : TypeTree, tree.layout a resolve = tree.layout b resolve
  | .empty => rfl
  | .group text inner => by rw [TypeTree.layout, TypeTree.layout, h.layout_eq resolve inner]
  | .name text => by
    rw [TypeTree.layout, TypeTree.layout, h.unlessParam_eq, h.nameLayout_eq]
  | .word text => by rw [TypeTree.layout, TypeTree.layout, h.unlessParam_eq, h.abi]
  | .slice text => by rw [TypeTree.layout, TypeTree.layout, h.unlessParam_eq, h.abi]
  | .interface text => by rw [TypeTree.layout, TypeTree.layout, h.unlessParam_eq, h.abi]
  | .malformed text reason => by rw [TypeTree.layout, TypeTree.layout, h.unlessParam_eq]
  | .array text length element => by
    rw [TypeTree.layout, TypeTree.layout, h.unlessParam_eq, h.layout_eq resolve element]
  | .struct text fields => by
    rw [TypeTree.layout, TypeTree.layout, h.unlessParam_eq, h.layouts_eq resolve fields, h.abi]

theorem layouts_eq (h : a.Alike b) (resolve : String → Memo TypeLayout) :
    ∀ trees : List TypeTree, TypeTree.layouts a resolve trees = TypeTree.layouts b resolve trees
  | [] => rfl
  | tree :: trees => by
    rw [TypeTree.layouts, TypeTree.layouts, h.layout_eq resolve tree, h.layouts_eq resolve trees]

end

theorem layoutOf_eq (h : a.Alike b) (resolving : List String) (tree : TypeTree) :
    a.layoutOf resolving tree = b.layoutOf resolving tree := by
  have hresolver : a.resolver resolving = b.resolver resolving := by
    funext name
    rw [Scope.resolver, Scope.resolver, ← h.underlying? name, h.unknownReason_eq]
    cases hu : a.underlying? name with
    | none => rfl
    | some t =>
      dsimp only
      split
      · rfl
      · exact h.layoutOf_eq (name :: resolving) _
  rw [Scope.layoutOf_eq, Scope.layoutOf_eq, hresolver, h.layout_eq]
termination_by (a.unresolved resolving).length
decreasing_by exact Scope.length_unresolved_lt ‹_› ‹_›

/-! ### Descents -/

theorem visitUnlessParam_eq (h : a.Alike b) (level : Nat) (text : String) (d : Descent Unit) :
    visitUnlessParam a limit level text d = visitUnlessParam b limit level text d := by
  rw [visitUnlessParam, visitUnlessParam, h.typeParams]

theorem descendName_eq (h : a.Alike b) (resolve : String → Descent Unit) (name : String) :
    descendName a resolve name = descendName b resolve name := by
  rw [descendName, descendName, h.abi]

mutual

/-- A descent into a type goes the same way in both scopes if names are descended into by the same
function. -/
theorem tree_descend_eq (h : a.Alike b) (resolve : Nat → String → Descent Unit) (level : Nat) :
    ∀ tree : TypeTree, tree.descend a limit resolve level = tree.descend b limit resolve level
  | .empty => rfl
  | .group text inner => by
    rw [TypeTree.descend, TypeTree.descend, h.tree_descend_eq resolve _ inner]
  | .name text => by
    rw [TypeTree.descend, TypeTree.descend, h.visitUnlessParam_eq, h.descendName_eq]
  | .word text => by rw [TypeTree.descend, TypeTree.descend, h.visitUnlessParam_eq]
  | .slice text => by rw [TypeTree.descend, TypeTree.descend, h.visitUnlessParam_eq]
  | .interface text => by rw [TypeTree.descend, TypeTree.descend, h.visitUnlessParam_eq]
  | .malformed text reason => by rw [TypeTree.descend, TypeTree.descend, h.visitUnlessParam_eq]
  | .array text length element => by
    rw [TypeTree.descend, TypeTree.descend, h.visitUnlessParam_eq,
      h.tree_descend_eq resolve _ element]
  | .struct text fields => by
    rw [TypeTree.descend, TypeTree.descend, h.visitUnlessParam_eq,
      h.trees_descend_eq resolve _ fields]

theorem trees_descend_eq (h : a.Alike b) (resolve : Nat → String → Descent Unit) (level : Nat) :
    ∀ trees : List TypeTree,
      TypeTree.descendAll a limit resolve level trees =
        TypeTree.descendAll b limit resolve level trees
  | [] => rfl
  | tree :: trees => by
    rw [TypeTree.descendAll, TypeTree.descendAll, h.tree_descend_eq resolve level tree,
      h.trees_descend_eq resolve level trees]

end

theorem descend_eq (h : a.Alike b) (resolving : List String) (level : Nat) (tree : TypeTree) :
    a.descend limit resolving level tree = b.descend limit resolving level tree := by
  have hdescender : a.descender limit resolving = b.descender limit resolving := by
    funext level name
    rw [Scope.descender, Scope.descender, ← h.underlying? name]
    cases hu : a.underlying? name with
    | none => rfl
    | some t =>
      dsimp only
      split
      · rfl
      · exact h.descend_eq (name :: resolving) _ _
  rw [Scope.descend_eq, Scope.descend_eq, hdescender, h.tree_descend_eq]
termination_by (a.unresolved resolving).length
decreasing_by exact Scope.length_unresolved_lt ‹_› ‹_›

/-! ### New sizers -/

theorem field_eq (h : a.Alike b) (name typeExpr tag comment : String) :
    ((Sizer.ofScope a).field name typeExpr tag comment).1 =
      ((Sizer.ofScope b).field name typeExpr tag comment).1 := by
  simp only [Sizer.field, Sizer.layoutOf, Sizer.ofScope, h.layoutOf_eq]

/-- New sizers give up on the same types. -/
theorem isTooDeep_eq (h : a.Alike b) (typeExpr : String) :
    (Sizer.ofScope a).isTooDeep limit typeExpr = (Sizer.ofScope b).isTooDeep limit typeExpr := by
  simp only [Sizer.isTooDeep, Sizer.descent, Sizer.ofScope, h.descend_eq]

end Scope.Alike

end StructLayout.Sizing
