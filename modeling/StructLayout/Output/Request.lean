import StructLayout.Limits
import StructLayout.Report.Query

/-!
# What an output format is asked for

Every format shows a report for a purpose: a listing of all structs, or a check that shows only the
structs that can be improved.  A request may be limited to the structs of one name.
-/

namespace StructLayout.Output

/-- What a format is asked to show. -/
structure Request where
  limits : Limits
  abi : Abi
  purpose : Report.Purpose
  detailed : Bool
  name : Value
deriving Repr

namespace Request

/-- The name that the request is limited to; a name that counts as absent is no limit. -/
def limit? (r : Request) : Option Value := if r.name.isTruthy then some r.name else none

def isCheck (r : Request) : Bool := r.purpose = .check

/-- Whether a struct is within the limit of the request. -/
def admits (r : Request) (s : Report.Record) : Bool :=
  match r.limit? with
  | some name => s.isNamed name
  | none => true

end Request

end StructLayout.Output
