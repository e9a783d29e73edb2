import StructLayout.Text.Integer
import StructLayout.Value.Basic

/-!
# Reading JSON

`Json.parse` reads one JSON value that fills the whole text.  A number with a fraction or an
exponent is a floating-point number and any other number an integer of any size; `NaN`, `Infinity`
and `-Infinity` are numbers too.  Of two members with one key the later value counts, in the place of
the first.  Control characters may not stand in strings, and a byte-order mark is not skipped.  A
text is refused where its first flaw stands: a breach of the notation, an integer with too many
digits, or a list or object that is nested too deeply.

The length of the text is the fuel of the reader, and how deeply values may be nested is an argument.
-/

namespace StructLayout.Json

/-- What the reader of a part yields: a result and the text after it. -/
abbrev Reading (α : Type) := Option (α × List Char)

/-- Why a document is refused: it does not follow its notation, an integer in it has too many digits,
or it is nested too deeply, with a text that tells where that showed. -/
inductive Flaw where
  | malformed
  | tooManyDigits (count : Nat)
  | tooDeep (activity : String)
deriving DecidableEq, Repr, Inhabited

/-- What the reader of values yields: a result and the text after it, or the flaw of the text. -/
abbrev Parse (α : Type) := Except Flaw (α × List Char)

/-- A part that has to be there. -/
def Parse.ofReading {α : Type} : Reading α → Parse α
  | some r => .ok r
  | none => .error .malformed

def isSpace (c : Char) : Bool := c = ' ' || c = '\t' || c = '\n' || c = '\r'

def skipSpace (cs : List Char) : List Char := cs.dropWhile isSpace

/-! ### Strings -/

/-- The value of a hexadecimal digit. -/
def hexDigit? (c : Char) : Option Nat :=
  if '0' ≤ c && c ≤ '9' then some (c.toNat - '0'.toNat)
  else if 'a' ≤ c && c ≤ 'f' then some (c.toNat - 'a'.toNat + 10)
  else if 'A' ≤ c && c ≤ 'F' then some (c.toNat - 'A'.toNat + 10)
  else none

/-- The value of four hexadecimal digits. -/
def hexUnit? (a b c d : Char) : Option Nat := do
  let a ← hexDigit? a
  let b ← hexDigit? b
  let c ← hexDigit? c
  let d ← hexDigit? d
  pure (a * 4096 + b * 256 + c * 16 + d)

/-- Whether a 16-bit unit is the first half of a pair. -/
def isHighUnit (n : Nat) : Bool := 0xD800 ≤ n && n ≤ 0xDBFF

/-- Whether a 16-bit unit is the second half of a pair. -/
def isLowUnit (n : Nat) : Bool := 0xDC00 ≤ n && n ≤ 0xDFFF

/-- The character of a 16-bit unit; half of a pair on its own is shown as the replacement
character. -/
def unitChar (n : Nat) : Char :=
  if isHighUnit n || isLowUnit n then Char.ofNat 0xFFFD else Char.ofNat n

/-- The character of a pair of 16-bit units. -/
def pairChar (high low : Nat) : Char :=
  Char.ofNat (0x10000 + (high - 0xD800) * 0x400 + (low - 0xDC00))

/-- The character that a one-letter escape stands for. -/
def escaped? : Char → Option Char
  | '"' => some '"'
  | '\\' => some '\\'
  | '/' => some '/'
  | 'b' => some '\x08'
  | 'f' => some '\x0c'
  | 'n' => some '\n'
  | 'r' => some '\r'
  | 't' => some '\t'
  | _ => none

/-- Puts a character in front of a string that has been read. -/
def consChar (c : Char) (rest : Reading (List Char)) : Reading (List Char) :=
  rest.map fun r => (c :: r.1, r.2)

/-- The characters of a string up to its closing quote. -/
def readString : List Char → Reading (List Char)
  | [] => none
  | '"' :: rest => some ([], rest)
  | '\\' :: 'u' :: a :: b :: c :: d :: '\\' :: 'u' :: e :: f :: g :: h :: rest =>
    match hexUnit? a b c d, hexUnit? e f g h with
    | some high, some low =>
      if isHighUnit high && isLowUnit low then consChar (pairChar high low) (readString rest)
      else consChar (unitChar high) (readString ('\\' :: 'u' :: e :: f :: g :: h :: rest))
    | some unit, none =>
      consChar (unitChar unit) (readString ('\\' :: 'u' :: e :: f :: g :: h :: rest))
    | none, _ => none
  | '\\' :: 'u' :: a :: b :: c :: d :: rest =>
    match hexUnit? a b c d with
    | some unit => consChar (unitChar unit) (readString rest)
    | none => none
  | '\\' :: c :: rest =>
    match escaped? c with
    | some e => consChar e (readString rest)
    | none => none
  | c :: rest => if c.toNat < 0x20 then none else consChar c (readString rest)

/-! ### Numbers -/

def digitsValue (digits : List Char) : Nat :=
  digits.foldl (fun n c => n * 10 + (c.toNat - '0'.toNat)) 0

/-- The digits after a decimal point, with the text after them. -/
def readFraction : List Char → Reading (List Char)
  | '.' :: rest =>
    let digits := rest.takeWhile Text.isAsciiDigit
    if digits.isEmpty then none else some (digits, rest.dropWhile Text.isAsciiDigit)
  | _ => none

/-- An exponent, with the text after it. -/
def readExponent : List Char → Reading Int
  | e :: rest =>
    if e = 'e' || e = 'E' then
      let (negative, rest) := match rest with
        | '-' :: r => (true, r)
        | '+' :: r => (false, r)
        | r => (false, r)
      let digits := rest.takeWhile Text.isAsciiDigit
      if digits.isEmpty then none
      else
        let n : Int := digitsValue digits
        some (if negative then -n else n, rest.dropWhile Text.isAsciiDigit)
    else none
  | [] => none

/-- The integer part of a number: a zero alone, or digits that do not start with zero. -/
def readWhole : List Char → Reading (List Char)
  | '0' :: rest => some (['0'], rest)
  | cs =>
    let digits := cs.takeWhile Text.isAsciiDigit
    if digits.isEmpty then none else some (digits, cs.dropWhile Text.isAsciiDigit)

def integer (negative : Bool) (digits : List Char) : Except Flaw Value :=
  if Text.digitLimit < digits.length then .error (.tooManyDigits digits.length)
  else
    let n : Int := digitsValue digits
    .ok (.int (if negative then -n else n))

def readMagnitude (negative : Bool) (cs : List Char) : Parse Value :=
  match readWhole cs with
  | none => .error .malformed
  | some (whole, rest) =>
    let fraction := readFraction rest
    let afterFraction := (fraction.map (·.2)).getD rest
    let exponent := readExponent afterFraction
    let final := (exponent.map (·.2)).getD afterFraction
    if fraction.isNone && exponent.isNone then
      (integer negative whole).map (·, final)
    else
      let fractionDigits := (fraction.map (·.1)).getD []
      let scale := (exponent.map (·.1)).getD 0 - fractionDigits.length
      .ok (.float (.ofDecimal negative (digitsValue (whole ++ fractionDigits)) scale), final)

/-! ### Values -/

def afterWord? (word : String) (cs : List Char) : Option (List Char) :=
  if word.toList.isPrefixOf cs then some (cs.drop word.length) else none

/-- The words that stand for values. -/
def words : List (String × Value) :=
  [("null", .null), ("true", .bool true), ("false", .bool false), ("NaN", .float .nan),
    ("Infinity", .float (.infinite false)), ("-Infinity", .float (.infinite true))]

def readWord (cs : List Char) : Reading Value :=
  words.findSome? fun entry => (afterWord? entry.1 cs).map (entry.2, ·)

/-- A value that holds no other values. -/
def readScalar (cs : List Char) : Parse Value :=
  match readWord cs with
  | some r => .ok r
  | none =>
    match cs with
    | '"' :: rest => .ofReading ((readString rest).map fun r => (.str (String.ofList r.1), r.2))
    | '-' :: rest => readMagnitude true rest
    | cs => readMagnitude false cs

/-- A list or object, unless there is no room left for one; what is nested in it has less room. -/
def within (room : Nat) (kind : String) (read : Nat → Parse Value) : Parse Value :=
  match room with
  | 0 => .error (.tooDeep (" while decoding a JSON " ++ kind ++ " from a unicode string"))
  | room + 1 => read room

mutual

/-- A value at the start of a text. -/
def readValue : Nat → Nat → List Char → Parse Value
  | 0, _, _ => .error .malformed
  | fuel + 1, room, cs =>
    match cs with
    | '[' :: rest =>
      within room "array" fun room =>
        match skipSpace rest with
        | ']' :: after => .ok (.list [], after)
        | body => (readElements fuel room body).map fun r => (.list r.1, r.2)
    | '\x7b' :: rest =>
      within room "object" fun room =>
        match skipSpace rest with
        | '\x7d' :: after => .ok (.object [], after)
        | body => (readMembers fuel room [] body).map fun r => (.object r.1, r.2)
    | cs => readScalar cs

def readElements : Nat → Nat → List Char → Parse (List Value)
  | 0, _, _ => .error .malformed
  | fuel + 1, room, cs =>
    match readValue fuel room cs with
    | .error flaw => .error flaw
    | .ok (v, rest) =>
      match skipSpace rest with
      | ']' :: after => .ok ([v], after)
      | ',' :: more => (readElements fuel room (skipSpace more)).map fun r => (v :: r.1, r.2)
      | _ => .error .malformed

/-- The members of an object up to its closing brace, added to those already read. -/
def readMembers : Nat → Nat → Members → List Char → Parse Members
  | 0, _, _, _ => .error .malformed
  | fuel + 1, room, acc, cs =>
    match cs with
    | '"' :: rest =>
      match readString rest with
      | none => .error .malformed
      | some (key, rest) =>
        match skipSpace rest with
        | ':' :: rest =>
          match readValue fuel room (skipSpace rest) with
          | .error flaw => .error flaw
          | .ok (v, rest) =>
            let acc := acc.insert (String.ofList key) v
            match skipSpace rest with
            | '\x7d' :: after => .ok (acc, after)
            | ',' :: more => readMembers fuel room acc (skipSpace more)
            | _ => .error .malformed
        | _ => .error .malformed
    | _ => .error .malformed

end

/-- The value that a text holds, or the first flaw of a text that holds none or more lists and objects
nested in each other than a limit. -/
def parse (limit : Nat) (text : String) : Except Flaw Value :=
  let cs := text.toList
  match readValue (cs.length + 1) limit (skipSpace cs) with
  | .ok (v, rest) => if (skipSpace rest).isEmpty then .ok v else .error .malformed
  | .error flaw => .error flaw

end StructLayout.Json
