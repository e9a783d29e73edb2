import StructLayout.Text.Blank
import StructLayout.Text.Digit

/-!
# Reading integers

Two notations are read.  `readDecimal` takes a decimal number with optional surrounding space, an
optional sign, digits of any script and single underscores between digits.  `readLiteral?` takes a
number in the notation of program sources, where `0x`, `0o` and `0b` choose the base and a decimal
number other than zero does not start with `0`.

Decimal numbers of more than `digitLimit` digits are refused, with the number of their digits.  A
group of digits is refused for its length only if it is decimal (`readGrouped_tooManyDigits`).
-/

namespace StructLayout.Text

/-- Why a text is refused: it does not follow its notation, or a decimal number in it has more digits
than are converted. -/
inductive Flaw where
  | malformed
  | tooManyDigits (count : Nat)
deriving DecidableEq, Repr, Inhabited

/-- The most digits that a decimal number may have. -/
def digitLimit : Nat := 4300

/-- Whether an integer is short enough to be written in decimal. -/
def isShowable (n : Int) : Bool := (natDigits n.natAbs).length ≤ digitLimit

/-! ### Characters -/

/-- The space allowed around a number: the blanks other than the four information separators. -/
def isNumberSpace (c : Char) : Bool := isBlank c && !(28 ≤ c.toNat && c.toNat ≤ 31)

/-- A number without the space around it. -/
def trimNumber (cs : List Char) : List Char :=
  ((cs.dropWhile isNumberSpace).reverse.dropWhile isNumberSpace).reverse

/-- A decimal digit of any script as an ASCII digit; any other character is left alone. -/
def toAsciiDigit (c : Char) : Char :=
  match digitValue? c with
  | some value => asciiDigit value
  | none => c

/-- The value of an ASCII letter or digit as a digit up to `z`. -/
def wideDigit? (c : Char) : Option Nat :=
  if 'a' ≤ c && c ≤ 'z' then some (c.toNat - 'a'.toNat + 10)
  else if 'A' ≤ c && c ≤ 'Z' then some (c.toNat - 'A'.toNat + 10)
  else if isAsciiDigit c then some (c.toNat - '0'.toNat)
  else none

def baseDigit? (base : Nat) (c : Char) : Option Nat :=
  (wideDigit? c).bind fun value => if value < base then some value else none

/-! ### Groups of digits -/

/-- The value of digits of a base, read from left to right onto a value already read. -/
def digitsValue (base value : Nat) (digits : List Char) : Nat :=
  digits.foldl (fun value c => value * base + (baseDigit? base c).getD 0) value

/-- Whether underscores stand only one at a time between two other characters, given whether one
may come first. -/
def hasSingleUnderscores (mayStart : Bool) : List Char → Bool
  | [] => mayStart
  | c :: rest => if c = '_' then mayStart && hasSingleUnderscores false rest
    else hasSingleUnderscores true rest

/-- At least one digit of a base, with single underscores between digits.  Underscores are checked
first, then the length of a decimal number, then what follows its digits. -/
def readGrouped (base : Nat) (cs : List Char) : Except Flaw Nat :=
  let belongs (c : Char) := c = '_' || (baseDigit? base c).isSome
  let run := cs.takeWhile belongs
  let digits := run.filter (· != '_')
  if !hasSingleUnderscores false run then .error .malformed
  else if base = 10 && digitLimit < digits.length then .error (.tooManyDigits digits.length)
  else if run.length < cs.length then .error .malformed
  else .ok (digitsValue base 0 digits)

/-- Applies an optional leading sign to the number that follows it. -/
def readSigned (read : List Char → Except Flaw Nat) : List Char → Except Flaw Int
  | '-' :: cs => (read cs).map fun n => -(n : Int)
  | '+' :: cs => (read cs).map fun n => (n : Int)
  | cs => (read cs).map fun n => (n : Int)

/-! ### Notations -/

/-- The integer written in decimal, with optional surrounding space. -/
def readDecimal (cs : List Char) : Except Flaw Int :=
  readSigned (readGrouped 10) ((trimNumber cs).map toAsciiDigit)

/-- The integer written in decimal, if the text is one. -/
def readDecimal? (cs : List Char) : Option Int := (readDecimal cs).toOption

/-- An unsigned number whose base is chosen by its first two characters. -/
def readBased : List Char → Except Flaw Nat
  | '0' :: 'x' :: cs | '0' :: 'X' :: cs => readGrouped 16 cs
  | '0' :: 'o' :: cs | '0' :: 'O' :: cs => readGrouped 8 cs
  | '0' :: 'b' :: cs | '0' :: 'B' :: cs => readGrouped 2 cs
  | cs => do
    let n ← readGrouped 10 cs
    if cs.head? = some '0' && n != 0 then .error .malformed else .ok n

/-- The integer written as a literal, underscores anywhere ignored. -/
def readLiteral? (cs : List Char) : Option Int :=
  (readSigned readBased ((trimNumber (cs.filter (· != '_'))).map toAsciiDigit)).toOption

/-! ### Facts -/

/-- A group of digits is refused for its length only if it is decimal and longer than allowed. -/
theorem readGrouped_tooManyDigits {base count : Nat} {cs : List Char}
    (h : readGrouped base cs = .error (.tooManyDigits count)) : base = 10 ∧ digitLimit < count := by
  unfold readGrouped at h
  dsimp only at h
  split at h
  · cases h
  · split at h
    · next hb =>
      cases h
      simpa using hb
    · split at h <;> cases h

end StructLayout.Text
