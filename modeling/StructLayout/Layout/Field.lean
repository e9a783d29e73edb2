/-!
# Fields of a struct

A field carries the size and alignment of its type, each of them absent when the type could not be
resolved.  For arithmetic an absent number counts as zero (`Field.bytes`, `Field.alignment`); what
must not guess asks `Field.isSized` first.
-/

namespace StructLayout

structure Field where
  name : String
  typeExpr : String
  size : Option Int
  align : Option Int
  tag : String
  comment : String
deriving DecidableEq, Repr, Inhabited

namespace Field

def isSized (f : Field) : Bool := f.size.isSome

/-- The size of the field, zero if it is unknown. -/
def bytes (f : Field) : Int := f.size.getD 0

/-- The alignment of the field, zero if it is unknown. -/
def alignment (f : Field) : Int := f.align.getD 0

/-- Whether the field takes up no space. -/
def isEmpty (f : Field) : Bool := f.bytes = 0

end Field

/-- The place of a declaration in its source. -/
structure Position where
  file : String
  line : Int
deriving DecidableEq, Repr, Inhabited

/-- A struct with sized fields, before its layout is analysed. -/
structure StructDef where
  name : String
  position : Position
  fields : List Field
  ignored : Bool
deriving DecidableEq, Repr, Inhabited

/-- The structs of one package, in the order of their declaration. -/
structure PackageDef where
  path : String
  structs : List StructDef
deriving DecidableEq, Repr, Inhabited

end StructLayout
