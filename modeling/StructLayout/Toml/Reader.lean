import StructLayout.Json.Reader
import StructLayout.Toml.Table

/-!
# Reading settings documents

`Toml.parse` reads a settings document of lines: entries `key = value`, headers `[key]` and
`[[key]]`, and comments.  Keys may be dotted and quoted.  Values are strings in four notations,
truth values, dates and times, numbers, lists that may span lines, and tables in braces.  A text is
refused where its first flaw stands: a breach of the notation, an integer with too many digits, or a
list or table that is nested too deeply.

The length of the text is the fuel of the reader: each step that takes fuel takes a character too, so
the fuel never runs out.  The room for values nested in each other is an argument.
-/

namespace StructLayout.Toml

open Json (Reading Flaw Parse)

/-! ### Characters -/

def isBareKey (c : Char) : Bool := c.isAlphanum || c = '-' || c = '_'

/-- Whether a character is blank within a line. -/
def isGap (c : Char) : Bool := c = ' ' || c = '\t'

/-- Whether a control character may not stand in comments and strings. -/
def isForbidden (c : Char) : Bool := (c.toNat < 0x20 && c != '\t') || c = '\x7f'

def skipGap (cs : List Char) : List Char := cs.dropWhile isGap

/-- The text after a comment, if there is one; it ends before the line break. -/
def skipComment? (cs : List Char) : Option (List Char) :=
  match cs with
  | '#' :: rest =>
    let comment := rest.takeWhile (· != '\n')
    if comment.any isForbidden then none else some (rest.dropWhile (· != '\n'))
  | _ => some cs

/-- The text after blanks, line breaks and comments. -/
def skipLines? : Nat → List Char → Option (List Char)
  | 0, cs => some cs
  | fuel + 1, cs =>
    let rest := cs.dropWhile fun c => isGap c || c = '\n'
    match rest with
    | '#' :: _ => (skipComment? rest).bind (skipLines? fuel)
    | _ => some rest

/-! ### Strings -/

def hexValue? (digits : List Char) : Option Nat :=
  digits.foldl (fun acc c => acc.bind fun n => (Json.hexDigit? c).map (n * 16 + ·)) (some 0)

/-- The character of a code point, unless it is half of a pair or out of range. -/
def scalar? (n : Nat) : Option Char :=
  if n < 0xD800 || (0xE000 ≤ n && n ≤ 0x10FFFF) then some (Char.ofNat n) else none

/-- The character that an escape stands for, given the text behind the backslash, and the text after
the escape. -/
def readEscape : List Char → Reading Char
  | 'b' :: rest => some ('\x08', rest)
  | 't' :: rest => some ('\t', rest)
  | 'n' :: rest => some ('\n', rest)
  | 'f' :: rest => some ('\x0c', rest)
  | 'r' :: rest => some ('\r', rest)
  | '"' :: rest => some ('"', rest)
  | '\\' :: rest => some ('\\', rest)
  | 'u' :: rest =>
    if (rest.take 4).length = 4 then
      ((hexValue? (rest.take 4)).bind scalar?).map (·, rest.drop 4)
    else none
  | 'U' :: rest =>
    if (rest.take 8).length = 8 then
      ((hexValue? (rest.take 8)).bind scalar?).map (·, rest.drop 8)
    else none
  | _ => none

/-- The rest of a string in double quotes on one line. -/
def readBasic : Nat → List Char → Reading (List Char)
  | 0, _ => none
  | _ + 1, [] => none
  | _ + 1, '"' :: rest => some ([], rest)
  | fuel + 1, '\\' :: rest =>
    match readEscape rest with
    | some (c, rest) => Json.consChar c (readBasic fuel rest)
    | none => none
  | fuel + 1, c :: rest => if isForbidden c then none else Json.consChar c (readBasic fuel rest)

/-- The rest of a string in single quotes on one line. -/
def readLiteral : List Char → Reading (List Char)
  | [] => none
  | '\'' :: rest => some ([], rest)
  | c :: rest => if isForbidden c then none else Json.consChar c (readLiteral rest)

/-- The text after a line break and the blanks around it, given the text behind a backslash at the
end of a line. -/
def skipContinuation? (cs : List Char) : Option (List Char) :=
  match skipGap cs with
  | '\n' :: rest => some (rest.dropWhile fun c => isGap c || c = '\n')
  | _ => none

/-- The end of a string in three quotes; up to two more quotes belong to the string. -/
def closingQuotes (quote : Char) (rest : List Char) : List Char × List Char :=
  let extra := min 2 (rest.takeWhile (· = quote)).length
  (List.replicate extra quote, rest.drop extra)

/-- Whether a character may not stand in a string of several lines. -/
def isForbiddenInLines (c : Char) : Bool := isForbidden c && c != '\n'

/-- The rest of a string in three double quotes. -/
def readBasicLines : Nat → List Char → Reading (List Char)
  | 0, _ => none
  | _ + 1, [] => none
  | _ + 1, '"' :: '"' :: '"' :: rest => some (closingQuotes '"' rest)
  | fuel + 1, '\\' :: rest =>
    match readEscape rest with
    | some (c, rest) => Json.consChar c (readBasicLines fuel rest)
    | none => (skipContinuation? rest).bind (readBasicLines fuel)
  | fuel + 1, c :: rest =>
    if isForbiddenInLines c then none else Json.consChar c (readBasicLines fuel rest)

/-- The rest of a string in three single quotes. -/
def readLiteralLines : List Char → Reading (List Char)
  | [] => none
  | '\'' :: '\'' :: '\'' :: rest => some (closingQuotes '\'' rest)
  | c :: rest => if isForbiddenInLines c then none else Json.consChar c (readLiteralLines rest)

/-- A text without a line break at its start. -/
def dropBreak : List Char → List Char
  | '\n' :: rest => rest
  | cs => cs

/-- A string in one of its four notations. -/
def readString (fuel : Nat) (cs : List Char) : Reading (List Char) :=
  match cs with
  | '"' :: '"' :: '"' :: rest => readBasicLines fuel (dropBreak rest)
  | '"' :: rest => readBasic fuel rest
  | '\'' :: '\'' :: '\'' :: rest => readLiteralLines (dropBreak rest)
  | '\'' :: rest => readLiteral rest
  | _ => none

/-! ### Keys -/

def readKeyPart (fuel : Nat) (cs : List Char) : Reading String :=
  match cs with
  | '"' :: rest => (readBasic fuel rest).map fun r => (String.ofList r.1, r.2)
  | '\'' :: rest => (readLiteral rest).map fun r => (String.ofList r.1, r.2)
  | cs =>
    let bare := cs.takeWhile isBareKey
    if bare.isEmpty then none else some (String.ofList bare, cs.dropWhile isBareKey)

/-- A key of one or more parts with dots between. -/
def readKey : Nat → List Char → Reading (List String)
  | 0, _ => none
  | fuel + 1, cs =>
    match readKeyPart fuel cs with
    | none => none
    | some (part, rest) =>
      match skipGap rest with
      | '.' :: more => (readKey fuel (skipGap more)).map fun r => (part :: r.1, r.2)
      | rest => some ([part], rest)

/-! ### Numbers -/

/-- At least one digit, with single underscores between digits. -/
def readDigits (isDigit : Char → Bool) (cs : List Char) : Reading (List Char) :=
  match cs with
  | c :: _ => if isDigit c then some (Text.takeGroup isDigit cs) else none
  | [] => none

/-- A number in a base given by its first two characters. -/
def readBased (cs : List Char) : Reading Value :=
  let number (base : Nat) (rest : List Char) : Reading Value :=
    let isDigit (c : Char) := (Json.hexDigit? c).any (· < base)
    (readDigits isDigit rest).map fun r =>
      (.int (r.1.foldl (fun n c => n * base + (Json.hexDigit? c).getD 0) 0 : Nat), r.2)
  match cs with
  | '0' :: 'x' :: rest => number 16 rest
  | '0' :: 'o' :: rest => number 8 rest
  | '0' :: 'b' :: rest => number 2 rest
  | _ => none

/-- A sign in front of a number: whether it is negative, and the text after the sign. -/
def readSign : List Char → Bool × List Char
  | '-' :: rest => (true, rest)
  | '+' :: rest => (false, rest)
  | cs => (false, cs)

/-- The whole part of a decimal number, which has no leading zeros. -/
def readWhole (cs : List Char) : Reading (List Char) :=
  match cs with
  | '0' :: rest => some (['0'], rest)
  | cs => readDigits Text.isAsciiDigit cs

/-- The fraction of a decimal number, if there is one. -/
def readFraction (cs : List Char) : Reading (List Char) :=
  match cs with
  | '.' :: rest => readDigits Text.isAsciiDigit rest
  | _ => none

/-- The exponent of a decimal number, if there is one. -/
def readExponent (cs : List Char) : Reading Int :=
  match cs with
  | e :: rest =>
    if e = 'e' || e = 'E' then
      let (negative, rest) := readSign rest
      (readDigits Text.isAsciiDigit rest).map fun r =>
        let n : Int := Json.digitsValue r.1
        (if negative then -n else n, r.2)
    else none
  | [] => none

/-- A decimal number, if the text starts with one. -/
def readDecimal? (cs : List Char) : Option (Parse Value) :=
  let (negative, rest) := readSign cs
  (readWhole rest).map fun (whole, rest) =>
    let fraction := readFraction rest
    let rest := (fraction.map (·.2)).getD rest
    let exponent := readExponent rest
    let rest := (exponent.map (·.2)).getD rest
    if fraction.isNone && exponent.isNone then (Json.integer negative whole).map (·, rest)
    else
      let digits := (fraction.map (·.1)).getD []
      let scale := (exponent.map (·.1)).getD 0 - digits.length
      .ok (.float (.ofDecimal negative (Json.digitsValue (whole ++ digits)) scale), rest)

/-- A number that is written as a word. -/
def readSpecial (cs : List Char) : Reading Value :=
  let (negative, rest) := readSign cs
  match Json.afterWord? "inf" rest with
  | some rest => some (.float (.infinite negative), rest)
  | none => (Json.afterWord? "nan" rest).map (.float .nan, ·)

def readNumber (cs : List Char) : Parse Value :=
  match readBased cs with
  | some r => .ok r
  | none => (readDecimal? cs).getD (.ofReading (readSpecial cs))

def readBool (cs : List Char) : Reading Value :=
  match Json.afterWord? "true" cs with
  | some rest => some (.bool true, rest)
  | none => (Json.afterWord? "false" cs).map (.bool false, ·)

/-! ### Dates and times -/

/-- A number of a fixed count of digits within bounds. -/
def readFixed (count low high : Nat) (cs : List Char) : Reading Nat :=
  let digits := cs.take count
  let n := Json.digitsValue digits
  if digits.length = count && digits.all Text.isAsciiDigit && low ≤ n && n ≤ high then
    some (n, cs.drop count)
  else none

/-- A text after a character that it has to start with. -/
def afterChar? (c : Char) : List Char → Option (List Char)
  | d :: rest => if d = c then some rest else none
  | [] => none

/-- The notation of a day, which need not be in the calendar. -/
def readDay (cs : List Char) : Option (Day × List Char) := do
  let (year, cs) ← readFixed 4 0 9999 cs
  let (month, cs) ← readFixed 2 1 12 (← afterChar? '-' cs)
  let (day, cs) ← readFixed 2 1 31 (← afterChar? '-' cs)
  pure ({ year, month, day }, cs)

/-- The microseconds of a fraction of a second, of which six digits count, if there is one. -/
def readMicroseconds (cs : List Char) : Nat × List Char :=
  match cs with
  | '.' :: rest =>
    let digits := rest.takeWhile Text.isAsciiDigit
    if digits.isEmpty then (0, cs)
    else
      (Json.digitsValue ((digits ++ List.replicate 6 '0').take 6),
        rest.dropWhile Text.isAsciiDigit)
  | _ => (0, cs)

def readTime (cs : List Char) : Option (ClockTime × List Char) := do
  let (hour, cs) ← readFixed 2 0 23 cs
  let (minute, cs) ← readFixed 2 0 59 (← afterChar? ':' cs)
  let (second, cs) ← readFixed 2 0 59 (← afterChar? ':' cs)
  let (microsecond, cs) := readMicroseconds cs
  pure ({ hour, minute, second, microsecond }, cs)

/-- How far a clock is ahead, in minutes. -/
def readAhead (cs : List Char) : Option (Int × List Char) :=
  match cs with
  | 'Z' :: rest | 'z' :: rest => some (0, rest)
  | sign :: rest => do
    guard (sign = '+' || sign = '-')
    let (hours, rest) ← readFixed 2 0 23 rest
    let (minutes, rest) ← readFixed 2 0 59 (← afterChar? ':' rest)
    let ahead : Int := hours * 60 + minutes
    pure (if sign = '-' then -ahead else ahead, rest)
  | [] => none

/-- The time behind a day, after a letter or a blank. -/
def readTimeOfDay : List Char → Reading ClockTime
  | c :: rest => if c = 'T' || c = 't' || c = ' ' then readTime rest else none
  | [] => none

/-- A moment, if the text starts with one; a day that is not in the calendar is a flaw. -/
def readMoment? (cs : List Char) : Option (Parse Moment) :=
  match readDay cs with
  | none => (readTime cs).map fun r => .ok (.time r.1, r.2)
  | some (d, rest) =>
    if !d.isInCalendar then some (.error .malformed)
    else
      match readTimeOfDay rest with
      | none => some (.ok (.day d, rest))
      | some (t, rest) =>
        match readAhead rest with
        | none => some (.ok (.dayTime d t none, rest))
        | some (ahead, rest) => some (.ok (.dayTime d t (some ahead), rest))

/-! ### Values -/

def listRoom : Nat := 2

def tableRoom : Nat := 3

/-- A list or table that takes up some of the room, unless there is too little left. -/
def within (room needed : Nat) (read : Nat → Parse Value) : Parse Value :=
  if room < needed then .error (.tooDeep "") else read (room - needed)

mutual

/-- A value at the start of a text. -/
def readValue : Nat → Nat → List Char → Parse Value
  | 0, _, _ => .error .malformed
  | fuel + 1, room, cs =>
    match cs with
    | '[' :: rest =>
      within room listRoom fun room =>
        (readElements fuel room [] rest).map fun r => (.list r.1, r.2)
    | '\x7b' :: rest =>
      within room tableRoom fun room =>
        match skipGap rest with
        | '\x7d' :: after => .ok (.object [], after)
        | body => (readMembers fuel room [] body).map fun r => (.object (values r.1), r.2)
    | '"' :: _ | '\'' :: _ =>
      .ofReading ((readString (fuel + 1) cs).map fun r => (.str (String.ofList r.1), r.2))
    | cs =>
      match readBool cs with
      | some r => .ok r
      | none =>
        match readMoment? cs with
        | some moment => moment.map fun r => (.moment r.1, r.2)
        | none => readNumber cs

/-- The elements of a list up to its closing bracket, given those already read, last first. -/
def readElements : Nat → Nat → List Value → List Char → Parse (List Value)
  | 0, _, _, _ => .error .malformed
  | fuel + 1, room, acc, cs =>
    match skipLines? fuel cs with
    | none => .error .malformed
    | some (']' :: after) => .ok (acc.reverse, after)
    | some body =>
      match readValue fuel room body with
      | .error flaw => .error flaw
      | .ok (v, rest) =>
        match skipLines? fuel rest with
        | some (']' :: after) => .ok ((v :: acc).reverse, after)
        | some (',' :: more) => readElements fuel room (v :: acc) more
        | _ => .error .malformed

/-- The members of a table in braces up to its closing brace, given the entries already read. -/
def readMembers : Nat → Nat → Entries → List Char → Parse Entries
  | 0, _, _, _ => .error .malformed
  | fuel + 1, room, acc, cs =>
    match readKey (fuel + 1) cs with
    | some (key, '=' :: rest) =>
      match readValue fuel room (skipGap rest) with
      | .error flaw => .error flaw
      | .ok (v, rest) =>
        match setValue 0 v key acc with
        | none => .error .malformed
        | some acc =>
          match skipGap rest with
          | '\x7d' :: after => .ok (acc, after)
          | ',' :: more => readMembers fuel room acc (skipGap more)
          | _ => .error .malformed
    | _ => .error .malformed

end

/-! ### Documents -/

/-- A document that is being read: its entries, the key of the current header, and the number of the
current section. -/
structure Document where
  entries : Entries
  header : List String
  current : Nat
deriving Repr, Inhabited

namespace Document

def set (d : Document) (key : List String) (v : Value) : Option Document :=
  (atHeader (setValue d.current v key) d.header d.entries).map fun entries => { d with entries }

def openHeader (d : Document) (opening : String → Entries → Option Entries) (key : List String) :
    Option Document :=
  match key.getLast? with
  | none => none
  | some last =>
    (atHeader (opening last) key.dropLast d.entries).map fun entries =>
      { entries, header := key, current := d.current + 1 }

end Document

def readStatement (fuel room : Nat) (d : Document) (cs : List Char) : Parse Document :=
  match cs with
  | '[' :: '[' :: rest =>
    match readKey fuel (skipGap rest) with
    | some (key, ']' :: ']' :: rest) => .ofReading ((d.openHeader openListed key).map (·, rest))
    | _ => .error .malformed
  | '[' :: rest =>
    match readKey fuel (skipGap rest) with
    | some (key, ']' :: rest) => .ofReading ((d.openHeader openTable key).map (·, rest))
    | _ => .error .malformed
  | cs =>
    match readKey fuel cs with
    | some (key, '=' :: rest) =>
      match readValue fuel room (skipGap rest) with
      | .ok (v, rest) => .ofReading ((d.set key v).map (·, rest))
      | .error flaw => .error flaw
    | _ => .error .malformed

def readLines (room : Nat) : Nat → Document → List Char → Except Flaw Document
  | 0, _, _ => .error .malformed
  | fuel + 1, d, cs =>
    match skipGap cs with
    | [] => .ok d
    | '\n' :: rest => readLines room fuel d rest
    | body =>
      let statement :=
        if body.head? = some '#' then .ok (d, body) else readStatement (fuel + 1) room d body
      match statement with
      | .error flaw => .error flaw
      | .ok (d, rest) =>
        match skipComment? (skipGap rest) with
        | some [] => .ok d
        | some ('\n' :: rest) => readLines room fuel d rest
        | _ => .error .malformed

/-- A text with line breaks of two characters made one. -/
def joinBreaks : List Char → List Char
  | '\r' :: '\n' :: rest => '\n' :: joinBreaks rest
  | c :: rest => c :: joinBreaks rest
  | [] => []

/-- The members of the document that a text holds, or the first flaw of a text that is not a
settings document or takes up more than some room. -/
def parse (room : Nat) (text : List Char) : Except Flaw Members :=
  let cs := joinBreaks text
  (readLines room (cs.length + 1) { entries := [], header := [], current := 1 } cs).map
    fun d => values d.entries

end StructLayout.Toml
