import StructLayout.Error
import StructLayout.Sizing.Sizer

/-!
# How deeply sizing nests

Sizing a type sizes its parts, and the parts of its parts.  A program that does so with a bounded
stack gives up on a type that is nested too deeply.  How many levels there is room for depends on the
stack and on who asks, so the limit is an argument throughout.  A descent follows the same rules as
sizing, part by part and with the same memory of what has been sized, and counts the levels instead of
computing layouts: a pair of parentheses takes two, an array, a struct or a name takes three.

The main statement says that where a descent ends within the limit the layout is the one without a
limit (`layoutWithin_eq`).
-/

namespace StructLayout.Sizing

open Source

/-- Why a descent ends early: the type has no layout, or it is nested too deeply. -/
inductive Halt where
  | indeterminate
  | tooDeep
deriving DecidableEq, Repr

/-- A descent, with the texts of the expressions whose layouts are remembered, the latest first. -/
abbrev Descent := ExceptT Halt (StateM (List String))

/-- The levels that a pair of parentheses takes. -/
def groupLevels : Nat := 2

/-- The levels that an array, a struct or a name takes. -/
def partLevels : Nat := 3

/-- Descends into an expression at a level, unless its layout is remembered; it is from then on. -/
def visit (limit level : Nat) (text : String) (descend : Descent Unit) : Descent Unit := fun known =>
  -- the limit counts even for what is remembered
  if limit < level then (.error .tooDeep, known)
  else if known.contains text then (.ok (), known)
  else
    match descend known with
    | (.ok (), known) => (.ok (), text :: known)
    | r => r

def noLayout : Descent Unit := throw .indeterminate

def visitUnlessParam (scope : Scope) (limit level : Nat) (text : String) (descend : Descent Unit) :
    Descent Unit :=
  visit limit level text <| if scope.typeParams.contains text then noLayout else descend

/-- Descends into a name; `resolve` descends into its underlying type. -/
def descendName (scope : Scope) (resolve : String → Descent Unit) (name : String) : Descent Unit :=
  let cs := name.toList
  if (fixedLayout? scope.abi name).isSome then pure ()
  else if cs.contains '[' then
    if genericWordTypes.contains (String.ofList (cs.takeWhile (· != '['))) then pure ()
    else noLayout
  else resolve name

mutual

/-- Descends into a type at a level, given how to descend into a name at a level. -/
def TypeTree.descend (scope : Scope) (limit : Nat) (resolve : Nat → String → Descent Unit)
    (level : Nat) : TypeTree → Descent Unit
  | .empty => visit limit level "" noLayout
  | .group text inner =>
    visit limit level text (inner.descend scope limit resolve (level + groupLevels))
  | .name text =>
    visitUnlessParam scope limit level text (descendName scope (resolve level) text)
  | .word text | .slice text | .interface text => visitUnlessParam scope limit level text (pure ())
  | .malformed text _ => visitUnlessParam scope limit level text noLayout
  | .array text _ element =>
    visitUnlessParam scope limit level text
      (element.descend scope limit resolve (level + partLevels))
  | .struct text fields =>
    visitUnlessParam scope limit level text
      (TypeTree.descendAll scope limit resolve (level + partLevels) fields)

def TypeTree.descendAll (scope : Scope) (limit : Nat) (resolve : Nat → String → Descent Unit)
    (level : Nat) : List TypeTree → Descent Unit
  | [] => pure ()
  | t :: rest => do
    t.descend scope limit resolve level
    TypeTree.descendAll scope limit resolve level rest

end

def Scope.descend (scope : Scope) (limit : Nat) (resolving : List String) (level : Nat)
    (tree : TypeTree) : Descent Unit :=
  tree.descend scope limit (fun level name =>
    match _h : scope.underlying? name with
    | none => noLayout
    | some t =>
      if _hr : name ∈ resolving then noLayout
      else
        scope.descend limit (name :: resolving) (level + partLevels) (TypeTree.parse t.toList)) level
termination_by (scope.unresolved resolving).length
decreasing_by exact Scope.length_unresolved_lt _h _hr

namespace Sizer

/-- The descent into a type expression, and the texts whose layouts are remembered at its end. -/
def descent (s : Sizer) (limit : Nat) (typeExpr : String) : Except Halt Unit × List String :=
  (s.scope.descend limit [] 0 (TypeTree.parse typeExpr.toList)).run.run (s.cache.map Prod.fst)

def isTooDeep (s : Sizer) (limit : Nat) (typeExpr : String) : Bool :=
  match (s.descent limit typeExpr).1 with
  | .error .tooDeep => true
  | _ => false

def remember (s : Sizer) (texts : List String) : Sizer :=
  -- from the earliest on: parts come before what they are parts of
  texts.foldr (fun text s => (s.layoutOf text).2) s

def tooDeep : Failure := .fault (.tooDeep "")

/-- The layout of a type expression that is not nested too deeply, and the sizer that remembers what
was found. -/
def layoutWithin (s : Sizer) (limit : Nat) (typeExpr : String) : Outcome TypeLayout × Sizer :=
  if s.isTooDeep limit typeExpr then (.error tooDeep, s.remember (s.descent limit typeExpr).2)
  else
    let r := s.layoutOf typeExpr
    (Outcome.ofIndeterminate r.1, r.2)

def sizeWithin (s : Sizer) (limit : Nat) (typeExpr : String) : Outcome Int × Sizer :=
  let r := s.layoutWithin limit typeExpr
  (r.1.map (·.size), r.2)

def alignWithin (s : Sizer) (limit : Nat) (typeExpr : String) : Outcome Int × Sizer :=
  let r := s.layoutWithin limit typeExpr
  (r.1.map (·.align), r.2)

/-- A field of a type that is not nested too deeply. -/
def fieldWithin (s : Sizer) (limit : Nat) (name typeExpr tag comment : String) :
    Outcome Field × Sizer :=
  if s.isTooDeep limit typeExpr then (.error tooDeep, s.remember (s.descent limit typeExpr).2)
  else
    let r := s.field name typeExpr tag comment
    (.ok r.1, r.2)

variable {s : Sizer} {limit : Nat} {typeExpr : String}

theorem fieldWithin_eq (name tag comment : String) (h : s.isTooDeep limit typeExpr = false) :
    s.fieldWithin limit name typeExpr tag comment =
      (.ok (s.field name typeExpr tag comment).1, (s.field name typeExpr tag comment).2) := by
  simp [fieldWithin, h]

/-- Within the limit the layout is the one without a limit. -/
theorem layoutWithin_eq {l : TypeLayout} {s' : Sizer} (h : s.isTooDeep limit typeExpr = false)
    (hl : s.layoutOf typeExpr = (.ok l, s')) : s.layoutWithin limit typeExpr = (.ok l, s') := by
  simp [layoutWithin, h, hl]

end Sizer

end StructLayout.Sizing
