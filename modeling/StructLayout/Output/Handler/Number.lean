import StructLayout.Text.Identifier
import StructLayout.Text.Integer

/-!
# Numbers in expressions

A number is decimal, or has a base chosen by its first two characters.  A decimal number may have a
fraction, an exponent and the unit of imaginary numbers, and single underscores may stand between
digits.  Behind a number no identifier may start in ASCII, except one of the words that can join two
expressions.  `Number.take` reads a number from the start of a text.
-/

namespace StructLayout.Output.Handler

/-- A number as far as it matters: a whole number has a value, unless it has more decimal digits than
are converted. -/
inductive Number where
  | whole (value : Nat)
  | tooLong (digits : Nat)
  | real
  | imaginary
deriving DecidableEq, Repr, Inhabited

namespace Number

/-- The words that may follow a number without a space between. -/
def joiningWords : List String := ["and", "else", "for", "or", "not"]

/-- The beginnings of words that may follow a number without a space between. -/
def joiningBeginnings : List String := ["if", "in", "is"]

/-- Whether a text starts with something that may follow a number. -/
def startsWithJoiningWord (cs : List Char) : Bool :=
  (joiningBeginnings.any fun word => word.toList.isPrefixOf cs) ||
    joiningWords.any fun word =>
      word.toList.isPrefixOf cs &&
        !(cs.drop word.length).head?.any fun c => 0x80 ≤ c.toNat || Text.isWordChar c

/-- Whether a character would make a number and what follows it run together.  Only in ASCII do they. -/
def touches (c : Char) : Bool := c.isAlphanum || c = '_'

/-- A number of some notation with the text behind it, where no identifier may start. -/
def endAt (notationName : String) (number : Number) (rest : List Char) :
    Except String (Number × List Char) :=
  if !startsWithJoiningWord rest && rest.head?.any touches then
    .error ("invalid " ++ notationName ++ " literal")
  else .ok (number, rest)

/-- The digits of a number in a base other than ten, after the two characters that choose it. -/
def takeBased (base : Nat) (notationName : String) (cs : List Char) :
    Except String (Number × List Char) :=
  let (digits, rest) := Text.takeGroup (fun c => (Text.baseDigit? base c).isSome) cs
  let isCut := digits.isEmpty || rest.head? = some '_'
  let next := if rest.head? = some '_' then rest.drop 1 else rest
  match next.head?.filter Text.isAsciiDigit with
  | some digit =>
    .error ("invalid digit '" ++ String.singleton digit ++ "' in " ++ notationName ++ " literal")
  | none =>
    if isCut then .error ("invalid " ++ notationName ++ " literal")
    else endAt notationName (.whole (Text.digitsValue base 0 digits)) rest

/-- The complaint about a decimal number that cannot go on as it does. -/
def badDecimal : String := "invalid decimal literal"

/-- Decimal digits, of which there may be none, with the text behind them. -/
def takeDigits (cs : List Char) : Except String (List Char × List Char) :=
  if cs.head?.any Text.isAsciiDigit then
    let (digits, rest) := Text.takeGroup Text.isAsciiDigit cs
    if rest.head? = some '_' then .error badDecimal else .ok (digits, rest)
  else .ok ([], cs)

/-- The text behind an exponent, if there is one; a letter that only starts a joining word makes no
exponent. -/
def takeExponent (cs : List Char) : Except String (Option (List Char)) :=
  match cs with
  | e :: rest =>
    if e != 'e' && e != 'E' then .ok none
    else
      let hasSign := rest.head? = some '+' || rest.head? = some '-'
      let digits := if hasSign then rest.drop 1 else rest
      if digits.head?.any Text.isAsciiDigit then (takeDigits digits).map fun r => some r.2
      else if !hasSign && startsWithJoiningWord cs then .ok none
      else .error badDecimal
  | [] => .ok none

/-- The value of a whole decimal number. -/
def ofDigits (digits : List Char) : Number :=
  if digits.all (· = '0') then .whole 0
  else if Text.digitLimit < digits.length then .tooLong digits.length
  else .whole (Text.digitsValue 10 0 digits)

/-- The complaint about a whole number that is written with leading zeros. -/
def leadingZeros : String :=
  "leading zeros in decimal integer literals are not permitted; " ++
    "use an 0o prefix for octal integers"

def takeDecimal (cs : List Char) : Except String (Number × List Char) := do
  let (digits, behindWhole) ← takeDigits cs
  let isPadded := digits.head? = some '0' && digits.any (· != '0')
  let hasPoint := behindWhole.head? = some '.'
  let behindFraction ←
    if hasPoint then (takeDigits (behindWhole.drop 1)).map (·.2) else pure behindWhole
  let number := if hasPoint || isPadded then .real else ofDigits digits
  match ← takeExponent behindFraction, behindFraction with
  | some ('j' :: rest), _ | some ('J' :: rest), _ | none, 'j' :: rest | none, 'J' :: rest =>
    endAt "imaginary" .imaginary rest
  | some rest, _ => endAt "decimal" .real rest
  | none, rest =>
    if isPadded && !hasPoint && !(rest.head? = some 'e' || rest.head? = some 'E') then
      .error leadingZeros
    else endAt "decimal" number rest

/-- A number at the start of a text, with the text behind it, or the complaint about it. -/
def take (cs : List Char) : Except String (Number × List Char) :=
  match cs with
  | '0' :: c :: rest =>
    if c = 'x' || c = 'X' then takeBased 16 "hexadecimal" rest
    else if c = 'o' || c = 'O' then takeBased 8 "octal" rest
    else if c = 'b' || c = 'B' then takeBased 2 "binary" rest
    else takeDecimal cs
  | cs => takeDecimal cs

end Number

end StructLayout.Output.Handler
