import StructLayout.Layout.Optimize

/-!
# The finding on one struct

`analyse` computes the size of a struct and looks for a smaller order of its fields.  A struct with
a field of unknown size is left unchecked, with the reason, and never stops a run.  A reordering is
offered exactly when bytes are saved (`FieldSort.order?_isSome_iff`).
-/

namespace StructLayout

/-- What an analysis says about a struct. -/
inductive Verdict where
  | unchecked (reason : String)
  | settled (size : Int)
  | improvable (size best : Int) (order : List Field)
deriving DecidableEq, Repr, Inhabited

namespace Verdict

/-- The size of the struct as it was declared. -/
def size? : Verdict → Option Int
  | unchecked _ => none
  | settled size => some size
  | improvable size _ _ => some size

/-- The size of the struct after reordering. -/
def optimalSize? : Verdict → Option Int
  | unchecked _ => none
  | settled size => some size
  | improvable _ best _ => some best

def order? : Verdict → Option (List Field)
  | improvable _ _ order => some order
  | _ => none

/-- Why the struct could not be checked. -/
def reason? : Verdict → Option String
  | unchecked reason => some reason
  | _ => none

/-- Whether the layout of the struct could be computed. -/
def isChecked (v : Verdict) : Bool := v.size?.isSome && v.optimalSize?.isSome

/-- Whether reordering changes the size of the struct. -/
def canBeOptimized (v : Verdict) : Bool := v.isChecked && v.size? != v.optimalSize?

def savedBytes : Verdict → Int
  | improvable size best _ => size - best
  | _ => 0

end Verdict

/-- A struct together with what the analysis says about it. -/
structure Finding where
  subject : StructDef
  verdict : Verdict
deriving DecidableEq, Repr, Inhabited

def FieldSort.judge (sort : FieldSort) (abi : Abi) (fields : List Field) : Verdict :=
  match requireSized fields with
  | .error cause => .unchecked (Error.indeterminate cause).text
  | .ok _ =>
    let size := structSize abi fields
    let order := sort.shrink abi fields
    let best := structSize abi order
    if size ≤ best then .settled size else .improvable size best order

def FieldSort.analyse (sort : FieldSort) (abi : Abi) (s : StructDef) : Finding where
  subject := s
  verdict := sort.judge abi s.fields

def analyse (abi : Abi) (s : StructDef) : Finding := fieldSort.analyse abi s

/-! ### When a struct is checked, and when it can be improved -/

namespace FieldSort

variable (sort : FieldSort)

theorem order?_isSome_iff (abi : Abi) (fields : List Field) :
    (sort.judge abi fields).order?.isSome = true ↔ 0 < (sort.judge abi fields).savedBytes := by
  unfold judge
  split
  · simp [Verdict.order?, Verdict.savedBytes]
  · dsimp only
    split
    · simp [Verdict.order?, Verdict.savedBytes]
    · simp only [Verdict.order?, Verdict.savedBytes, Option.isSome_some, true_iff]
      omega

end FieldSort

end StructLayout
