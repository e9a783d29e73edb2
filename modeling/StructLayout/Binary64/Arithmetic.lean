import StructLayout.Binary64.Basic

/-!
# Arithmetic of floating-point numbers

Sums and differences are exact values rounded once.  The remainder `floorMod` has the sign of the
divisor and is exact except where the divisor has to be added to it.
-/

namespace StructLayout.Binary64

/-- Whether the number has a minus sign; a zero may have one. -/
def isNegative : Binary64 → Bool
  | .nan => false
  | .infinite negative | .finite negative _ _ => negative

def neg : Binary64 → Binary64
  | .nan => .nan
  | .infinite negative => .infinite !negative
  | .finite negative m e => .finite (!negative) m e

/-- The number nearest to a sum.  A sum of zero is negative only if both numbers are. -/
def add (x y : Binary64) : Binary64 :=
  match x, y with
  | .nan, _ | _, .nan => .nan
  | .infinite a, .infinite b => if a = b then .infinite a else .nan
  | .infinite a, _ => .infinite a
  | _, .infinite b => .infinite b
  | x, y =>
    match x.toRatio?, y.toRatio? with
    | some (a, c), some (b, d) =>
      let num := a * d + b * c
      if num = 0 then signedZero (x.isNegative && y.isNegative)
      else ofRatio (num < 0) num.natAbs (c * d)
    | _, _ => .nan

/-- The number nearest to a difference. -/
def sub (x y : Binary64) : Binary64 := x.add y.neg

/-- Whether a number is below another one; not-a-number is below none and above none. -/
def lt (x y : Binary64) : Bool :=
  match x, y with
  | .nan, _ | _, .nan => false
  | .infinite a, .infinite b => a && !b
  | .infinite a, _ => a
  | _, .infinite b => !b
  | x, y =>
    match x.toRatio?, y.toRatio? with
    | some (a, c), some (b, d) => a * d < b * c
    | _, _ => false

/-- The remainder of a division with the quotient cut off; it has the sign of the dividend. -/
def cutMod (x y : Binary64) : Binary64 :=
  match x, y with
  | .nan, _ | _, .nan | .infinite _, _ => .nan
  | x, .infinite _ => x
  | x, y =>
    match x.toRatio?, y.toRatio? with
    | some (a, c), some (b, d) =>
      if b = 0 then .nan
      else ofRatio x.isNegative (a.natAbs * d % (b.natAbs * c)) (c * d)
    | _, _ => .nan

/-- The remainder of a division with the quotient rounded down; it has the sign of the divisor. -/
def floorMod (x y : Binary64) : Binary64 :=
  let r := x.cutMod y
  if r.isZero then signedZero y.isNegative
  else if r.isNegative = y.isNegative then r
  else r.add y

end StructLayout.Binary64
