import StructLayout.Layout.Field
import StructLayout.Sizing.Nesting
import StructLayout.Source.Declarations

/-!
# Sizing declared structs

The structs of a package are sized one after the other by one sizer, which remembers the types it has
met.  A generic struct is sized by a sizer of its own with its type parameters in scope.  A package
with a field of a type that is nested too deeply is refused.

A package is sized as it is without a limit if it is sized at all (`eq_of_sizePackageWithin`).
-/

namespace StructLayout.Analysis

open Sizing Source

def sizeFields (s : Sizer) : List FieldDecl → List Field × Sizer
  | [] => ([], s)
  | d :: rest =>
    let first := s.field d.name d.typeExpr d.tag d.comment
    let others := sizeFields first.2 rest
    (first.1 :: others.1, others.2)

/-- A struct with sized fields; type parameters are in scope of its own fields only. -/
def sizeStruct (s : Sizer) (d : StructDecl) : StructDef × Sizer :=
  let sized := if d.typeParams.isEmpty then sizeFields s d.fields
    else ((sizeFields (s.withTypeParams d.typeParams) d.fields).1, s)
  ({ name := d.name, position := d.position, fields := sized.1, ignored := d.ignored }, sized.2)

def sizeStructs (s : Sizer) : List StructDecl → List StructDef
  | [] => []
  | d :: rest =>
    let first := sizeStruct s d
    first.1 :: sizeStructs first.2 rest

def sizerFor (abi : Abi) (found : Declarations) : Sizer :=
  Sizer.ofScope {
    abi
    localTypes := found.localTypes
    genericTypes := found.genericTypes
    typeParams := [] }

/-- The structs of a package with sized fields. -/
def sizePackage (abi : Abi) (path : String) (found : Declarations) : PackageDef :=
  { path, structs := sizeStructs (sizerFor abi found) found.structs }

/-! ### Types nested too deeply -/

/-- Sizes fields one after the other up to the first of a type that is nested too deeply. -/
def requireFields (limit : Nat) (s : Sizer) : List FieldDecl → Outcome Sizer
  | [] => .ok s
  | d :: rest =>
    match s.fieldWithin limit d.name d.typeExpr d.tag d.comment with
    | (.ok _, s) => requireFields limit s rest
    | (.error e, _) => .error e

/-- Sizes the fields of a struct up to the first of a type that is nested too deeply. -/
def requireStruct (limit : Nat) (s : Sizer) (d : StructDecl) : Outcome Sizer :=
  if d.typeParams.isEmpty then requireFields limit s d.fields
  else (requireFields limit (s.withTypeParams d.typeParams) d.fields).map fun _ => s

/-- The structs of a package with sized fields, unless one of them is of a type that is nested too
deeply. -/
def sizePackageWithin (limit : Nat) (abi : Abi) (path : String) (found : Declarations) :
    Outcome PackageDef := do
  let _ ← found.structs.foldlM (requireStruct limit) (sizerFor abi found)
  pure (sizePackage abi path found)

/-! ### Facts -/

/-- A package that is sized at all is sized as it is without a limit. -/
theorem eq_of_sizePackageWithin {limit : Nat} {abi : Abi} {path : String} {found : Declarations}
    {p : PackageDef} (h : sizePackageWithin limit abi path found = .ok p) :
    p = sizePackage abi path found := by
  unfold sizePackageWithin at h
  cases hf : found.structs.foldlM (requireStruct limit) (sizerFor abi found) with
  | error e => rw [hf] at h; cases h
  | ok s => rw [hf] at h; cases h; rfl

end StructLayout.Analysis
