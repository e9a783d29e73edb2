import StructLayout.Output.Handler.Number
import StructLayout.Text.Printable
import StructLayout.Text.Quoted

/-!
# Tokens of expressions

An expression is divided into names and keywords, numbers, quoted texts and marks, where brackets
have to match.  `scan` gives the tokens up to the end of a text or up to the first place where no
token can be, together with what stands there (`Ending`).  Each token knows how many brackets are
open behind it.
-/

namespace StructLayout.Output.Handler

/-- A quoted text: whether its letters make bytes of it or a template with fields, and what stands
between the quotes. -/
structure Quotation where
  isBytes : Bool
  isTemplate : Bool
  contents : List Char
deriving DecidableEq, Repr, Inhabited

inductive Token where
  | name (letters : List Char)
  | keyword (word : String)
  | number (n : Number)
  | quotation (q : Quotation)
  | mark (m : String)
  | lineEnd
  | finish
deriving DecidableEq, Repr, Inhabited

/-- A token with the number of brackets that are open behind it. -/
structure Lexeme where
  token : Token
  depth : Nat
deriving DecidableEq, Repr, Inhabited

/-- What stands behind the tokens of a text: nothing, a bracket that is still open, or something that
is no token. -/
inductive Ending where
  | proper
  | unclosed (opener : Char)
  | flaw (reason : String)
deriving DecidableEq, Repr, Inhabited

/-! ### Words -/

/-- The words that cannot be names. -/
def keywords : List String := [
  "False", "None", "True", "and", "as", "assert", "async", "await", "break", "class", "continue",
  "def", "del", "elif", "else", "except", "finally", "for", "from", "global", "if", "import", "in",
  "is", "lambda", "nonlocal", "not", "or", "pass", "raise", "return", "try", "while", "with",
  "yield"]

/-- Whether a character belongs to a run that has to be an identifier. -/
def isRunChar (c : Char) : Bool := 0x80 ≤ c.toNat || Text.isWordChar c

/-- The first character that does not fit where it stands in an identifier. -/
def misfit? : List Char → Option Char
  | [] => none
  | c :: rest =>
    if Text.startsIdentifier c then rest.find? fun d => !Text.continuesIdentifier d else some c

def marked (c : Char) : String := "'" ++ String.singleton c ++ "'"

/-- The complaint about a character that cannot be in an expression. -/
def strange (c : Char) : String :=
  let code := "U+" ++ String.ofList ((Text.hexadecimal 4 c.toNat).map Char.toUpper)
  if Text.isPrintable c then "invalid character " ++ marked c ++ " (" ++ code ++ ")"
  else "invalid non-printable character " ++ code

def wordToken (run : List Char) : Except String Token :=
  match misfit? run with
  | some c => .error (strange c)
  | none =>
    let word := String.ofList run
    .ok (if keywords.contains word then .keyword word else .name run)

/-! ### Quoted texts -/

/-- The letters that may stand in front of a quote, in small letters. -/
def quotationLetters : List String := ["", "b", "u", "r", "f", "br", "rb", "fr", "rf"]

/-- The contents of a text up to its closing quote, and what is behind it. -/
def untilQuote (mark : Char) : List Char → Option (List Char × List Char)
  | [] => none
  | '\\' :: c :: rest => (untilQuote mark rest).map fun r => ('\\' :: c :: r.1, r.2)
  | c :: rest =>
    if c = mark then some ([], rest)
    else if c = '\n' then none
    else (untilQuote mark rest).map fun r => (c :: r.1, r.2)

/-- The contents of a text up to three closing quotes, and what is behind them. -/
def untilThreeQuotes (mark : Char) : List Char → Option (List Char × List Char)
  | [] => none
  | '\\' :: c :: rest => (untilThreeQuotes mark rest).map fun r => ('\\' :: c :: r.1, r.2)
  | c :: rest =>
    if c = mark && rest.take 2 = [mark, mark] then some ([], rest.drop 2)
    else (untilThreeQuotes mark rest).map fun r => (c :: r.1, r.2)

/-- The contents of a quoted text and what is behind it, given its quote and the text after that. -/
def takeQuoted (mark : Char) (cs : List Char) : Except String (List Char × List Char) :=
  if cs.take 2 = [mark, mark] then
    match untilThreeQuotes mark (cs.drop 2) with
    | some r => .ok r
    | none => .error "unterminated triple-quoted string literal (detected at line 1)"
  else
    match untilQuote mark cs with
    | some r => .ok r
    | none => .error "unterminated string literal (detected at line 1)"

/-! ### Marks -/

/-- The marks of more than one character, longer ones first. -/
def longMarks : List String := [
  "**=", "//=", "<<=", ">>=", "...", "!=", "%=", "&=", "**", "*=", "+=", "-=", "->", "//", "/=",
  ":=", "<<", "<=", "<>", "==", ">=", ">>", "@=", "^=", "|="]

/-- The mark at the start of a text, and the text behind it. -/
def takeMark (c : Char) (rest : List Char) : String × List Char :=
  match longMarks.find? fun m => m.toList.isPrefixOf (c :: rest) with
  | some m => (m, (c :: rest).drop m.length)
  | none => (String.singleton c, rest)

/-- The closing bracket of an opening one. -/
def closerOf? (c : Char) : Option Char :=
  if c = '(' then some ')'
  else if c = '[' then some ']'
  else if c = '\x7b' then some '\x7d'
  else none

/-- Whether a character is a closing bracket. -/
def isCloser (c : Char) : Bool := c = ')' || c = ']' || c = '\x7d'

/-- The most brackets that can be open at one place. -/
def bracketLimit : Nat := 200

/-- The complaint about a closing bracket that does not belong to an opening one. -/
def mismatch (closer opener : Char) : String :=
  "closing parenthesis " ++ marked closer ++ " does not match opening parenthesis " ++ marked opener

/-- The open brackets, the last one first, behind a character. -/
def bracketsAfter (openers : List Char) (c : Char) : Except String (List Char) :=
  if (closerOf? c).isSome then
    if bracketLimit ≤ openers.length then .error "too many nested parentheses"
    else .ok (c :: openers)
  else if isCloser c then
    match openers with
    | [] => .error ("unmatched " ++ marked c)
    | opener :: rest =>
      if closerOf? opener = some c then .ok rest else .error (mismatch c opener)
  else .ok openers

/-! ### Scanning -/

/-- Whether a character is space between tokens. -/
def isGap (c : Char) : Bool := c = ' ' || c = '\t' || c = '\x0c'

/-- The token that starts with a character, the brackets that are open behind it, and the text behind
it. -/
def takeToken (openers : List Char) (c : Char) (rest : List Char) :
    Except String (Token × List Char × List Char) := do
  let run := (c :: rest).takeWhile isRunChar
  let behindRun := (c :: rest).dropWhile isRunChar
  let isLetters := quotationLetters.contains (String.ofList (run.map Char.toLower))
  match behindRun.head?.filter fun q => isLetters && (q = '\'' || q = '"') with
  | some q =>
    let (contents, rest) ← takeQuoted q (behindRun.drop 1)
    let has (letter : Char) := run.any fun d => d.toLower = letter
    pure (.quotation { isBytes := has 'b', isTemplate := has 'f', contents }, openers, rest)
  | none =>
    if Text.isAsciiDigit c || (c = '.' && rest.head?.any Text.isAsciiDigit) then
      let (n, rest) ← Number.take (c :: rest)
      pure (.number n, openers, rest)
    else if !run.isEmpty then
      let token ← wordToken run
      pure (token, openers, behindRun)
    else
      let (m, behindMark) := takeMark c rest
      let openers ← bracketsAfter openers c
      if Text.isPrintable c then pure (.mark m, openers, behindMark)
      else throw (strange c)

/-- The tokens of a text and what stands behind them, given the open brackets, the last one first.
The length of the text bounds the number of steps. -/
def scanFrom : Nat → List Char → List Char → List Lexeme × Ending
  | 0, _, _ => ([], .proper)
  | _ + 1, openers, [] =>
    match openers with
    | [] => ([⟨.lineEnd, 0⟩, ⟨.finish, 0⟩], .proper)
    | opener :: _ => ([], .unclosed opener)
  | fuel + 1, openers, c :: rest =>
    if isGap c then scanFrom fuel openers rest
    else if c = '#' then scanFrom fuel openers (rest.dropWhile (· != '\n'))
    else if c = '\n' then
      let r := scanFrom fuel openers rest
      if openers.isEmpty then (⟨.lineEnd, 0⟩ :: r.1, r.2) else r
    else
      match takeToken openers c rest with
      | .error reason => ([], .flaw reason)
      | .ok (token, openers, rest) =>
        let r := scanFrom fuel openers rest
        (⟨token, openers.length⟩ :: r.1, r.2)

/-- The tokens of a text and what stands behind them. -/
def scan (cs : List Char) : List Lexeme × Ending := scanFrom (cs.length + 1) [] cs

end StructLayout.Output.Handler
