import StructLayout.Binary64.Basic

/-!
# Shortest decimal text of a binary number

A finite number is shown with the fewest digits that read back as the same number, and of those
with the digits nearest to it.  Numbers from `10 ^ -4` to below `10 ^ 16` are written positionally
and keep a fraction even when it is zero; the others are written with an exponent of at least two
digits.
-/

namespace StructLayout.Binary64

/-- The exponent of the leading decimal digit of a positive quotient. -/
def leadingExponent (num den : Nat) : Int :=
  if den ≤ num then ((Nat.toDigits 10 (num / den)).length : Int) - 1
  else
    let steps := (List.range 400).find? fun k => den ≤ num * Nat.pow 10 k
    Int.negOfNat (steps.getD 400)

/-- The two multiples of `10 ^ e` next to a quotient, the nearer one first. -/
def neighbours (num den : Nat) (e : Int) : List Nat :=
  let (n, d) := if e < 0 then (num * Nat.pow 10 (-e).toNat, den) else (num, den * Nat.pow 10 e.toNat)
  let low := n / d
  let twice := 2 * (n % d)
  if twice < d || (twice = d && low % 2 = 0) then [low, low + 1] else [low + 1, low]

/-- The fewest digits, and the power of ten they are multiplied with, that read back as the positive
number `mantissa * 2 ^ exponent`. -/
def shortestDigits (mantissa : Nat) (exponent : Int) : Nat × Int :=
  let (num, den) := if exponent < 0 then (mantissa, Nat.pow 2 (-exponent).toNat)
    else (mantissa * Nat.pow 2 exponent.toNat, 1)
  let lead := leadingExponent num den
  let hit := (List.range 17).findSome? fun (k : Nat) =>
    let e := lead - (k : Nat)
    ((neighbours num den e).find? fun digits =>
      ofDecimal false digits e = .finite false mantissa exponent).map (·, e)
  hit.getD (num / den, 0)

/-- Digits without trailing zeros, and the power of ten that makes up for them. -/
def stripZeros : Nat → Nat → Int → Nat × Int
  | 0, digits, e => (digits, e)
  | fuel + 1, digits, e =>
    if digits % 10 = 0 && digits != 0 then stripZeros fuel (digits / 10) (e + 1) else (digits, e)

/-- Digits with a decimal point after `point` of them, a zero where a side would be empty. -/
def positional (digits : List Char) (point : Int) : List Char :=
  if point ≤ 0 then '0' :: '.' :: List.replicate (-point).toNat '0' ++ digits
  else
    let whole := digits.take point.toNat
    let padding := List.replicate (point.toNat - digits.length) '0'
    let fraction := digits.drop point.toNat
    whole ++ padding ++ '.' :: (if fraction.isEmpty then ['0'] else fraction)

/-- Digits with a point after the first and the exponent of the leading digit. -/
def scientific (digits : List Char) (lead : Int) : List Char :=
  let magnitude := Nat.toDigits 10 lead.natAbs
  let padded := List.replicate (2 - magnitude.length) '0' ++ magnitude
  let fraction := digits.drop 1
  digits.take 1 ++ (if fraction.isEmpty then [] else '.' :: fraction) ++
    'e' :: (if lead < 0 then '-' else '+') :: padded

/-- The text of a positive number. -/
def magnitudeText (mantissa : Nat) (exponent : Int) : List Char :=
  let (digits, e) := shortestDigits mantissa exponent
  let (digits, e) := stripZeros 20 digits e
  let cs := Nat.toDigits 10 digits
  let point := (cs.length : Int) + e
  if -4 < point && point ≤ 16 then positional cs point else scientific cs (point - 1)

/-- The shortest text that reads back as the number. -/
def toText : Binary64 → String
  | .nan => "nan"
  | .infinite negative => if negative then "-inf" else "inf"
  | .finite negative m e =>
    let body := if m = 0 then ['0', '.', '0'] else magnitudeText m e
    String.ofList (if negative then '-' :: body else body)

end StructLayout.Binary64
