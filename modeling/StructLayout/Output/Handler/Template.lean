import StructLayout.Output.Handler.Grammar

/-!
# Templates

A template is a text with fields in braces; a doubled brace stands for itself.  A field is an
expression, perhaps an equals sign, perhaps an exclamation mark with a letter for a conversion, and
perhaps a colon with a format, which may have fields of its own.  `Template.fields` reads all fields
of a template and gives their expressions.

An expression of a field reaches up to the mark that ends it outside all brackets and quotes
(`Template.takeExpression`).
-/

namespace StructLayout.Output.Handler.Template

/-- What is wrong with a template; the reasons are shown behind the name of templates. -/
def wrong {α : Type} (reason : String) : Except String α := .error ("f-string: " ++ reason)

/-- The complaint about a field that has no end. -/
def unended {α : Type} : Except String α := wrong "expecting '\x7d'"

/-! ### The text of an expression -/

/-- The quote that a text in a field is in, and whether there are three of them. -/
abbrev OpenQuote := Option (Char × Bool)

/-- Whether a mark can end the expression of a field. -/
def isStop (c : Char) : Bool := c = '!' || c = ':' || c = '\x7d' || c = '='

/-- Whether two characters are a comparison, which ends no expression. -/
def isComparison (c d : Char) : Bool := d = '=' && (c = '!' || c = '=' || c = '<' || c = '>')

/-- The brackets that are open behind a bracket inside a field. -/
def bracketsAfter (openers : List Char) (c : Char) : Except String (List Char) :=
  if isCloser c then
    match openers with
    | [] => wrong ("unmatched " ++ marked c)
    | opener :: rest =>
      if closerOf? opener = some c then .ok rest else wrong (mismatch c opener)
  else if (closerOf? c).isNone then .ok openers
  else if bracketLimit ≤ openers.length then wrong "too many nested parenthesis"
  else .ok (c :: openers)

/-- The end of a template inside a field. -/
def atEnd (quote : OpenQuote) (openers : List Char) : Except String (List Char × List Char) :=
  if quote.isSome then wrong "unterminated string"
  else
    match openers with
    | opener :: _ => wrong ("unmatched " ++ marked opener)
    | [] => .ok ([], [])

/-- The text of the expression at the start of a field, and what is behind it.  The length of the text
bounds the number of steps. -/
def takeExpression : Nat → OpenQuote → List Char → List Char →
    Except String (List Char × List Char)
  | 0, quote, openers, _ | _, quote, openers, [] => atEnd quote openers
  | fuel + 1, quote, openers, c :: rest =>
    let keep (n : Nat) (quote : OpenQuote) (openers : List Char) :=
      (takeExpression fuel quote openers ((c :: rest).drop n)).map fun r =>
        ((c :: rest).take n ++ r.1, r.2)
    let isTriple := rest.take 2 = [c, c]
    if c = '\\' then .error "f-string expression part cannot include a backslash"
    else
      match quote with
      | some (q, triple) =>
        if c != q then keep 1 quote openers
        else if !triple then keep 1 none openers
        else if isTriple then keep 3 none openers
        else keep 1 quote openers
      | none =>
        if c = '\'' || c = '"' then
          if isTriple then keep 3 (some (c, true)) openers else keep 1 (some (c, false)) openers
        else if c = '#' then .error "f-string expression part cannot include '#'"
        else if openers.isEmpty && rest.head?.any (isComparison c) then keep 2 none openers
        else if openers.isEmpty && isStop c then .ok ([], c :: rest)
        else
          match bracketsAfter openers c with
          | .error reason => .error reason
          | .ok openers => keep 1 none openers

/-! ### Fields -/

/-- Whether a character is space that an expression ignores. -/
def isIgnored (c : Char) : Bool := c = ' ' || c = '\t' || c = '\n' || c = '\x0c'

/-- How the expressions of fields are read, and the words in front of complaints about a template. -/
structure Surroundings where
  heading : String
  parse : List Char → Except Flaw Expression

namespace Surroundings

/-- A complaint about a template as a flaw of the text that it stands in. -/
def lift {α : Type} (s : Surroundings) (r : Except String α) : Except Flaw α :=
  r.mapError fun reason => .breach (s.heading ++ reason)

def expression (s : Surroundings) (text behind : List Char) : Except Flaw Expression :=
  if text.all isIgnored then
    match behind with
    | c :: _ =>
      s.lift (wrong (if c = '\x7d' then "empty expression not allowed"
        else "expression required before " ++ marked c))
    | [] => s.lift unended
  else s.parse (['('] ++ text ++ [')'])

end Surroundings

/-- The text behind an equals sign and the space behind that, if there is one. -/
def skipEcho (cs : List Char) : List Char :=
  match cs with
  | '=' :: rest => rest.dropWhile fun c => isIgnored c || c = '\x0b' || c = '\r'
  | cs => cs

/-- The text behind the letter of a conversion, if there is one. -/
def skipConversion (cs : List Char) : Except String (List Char) :=
  match cs with
  | ['!'] => unended
  | '!' :: c :: rest =>
    if c = 's' || c = 'r' || c = 'a' then .ok rest
    else wrong "invalid conversion character: expected 's', 'r', or 'a'"
  | cs => .ok cs

/-- The expressions of the fields of a template, or of a format inside so many fields, and the text
behind it.  The length of the text bounds the number of steps. -/
def take (s : Surroundings) : Nat → Nat → List Char → Except Flaw (List Expression × List Char)
  | 0, _, _ => s.lift unended
  | _ + 1, _, [] => .ok ([], [])
  | fuel + 1, level, '\x7b' :: rest =>
    if level = 0 && rest.head? = some '\x7b' then take s fuel level (rest.drop 1)
    else if 2 ≤ level then s.lift (wrong "expressions nested too deeply")
    else do
      let (text, behind) ← s.lift (takeExpression (rest.length + 1) none [] rest)
      if behind.isEmpty then s.lift unended
      let e ← s.expression text behind
      let behind ← s.lift (skipConversion (skipEcho behind))
      let (inner, behind) ← match behind with
        | ':' :: format => if format.isEmpty then s.lift unended else take s fuel (level + 1) format
        | behind => pure ([], behind)
      match behind with
      | '\x7d' :: rest => do
        let (others, behind) ← take s fuel level rest
        pure (e :: inner ++ others, behind)
      | _ => s.lift unended
  | fuel + 1, level, '\x7d' :: rest =>
    if level != 0 then .ok ([], '\x7d' :: rest)
    else if rest.head? = some '\x7d' then take s fuel level (rest.drop 1)
    else s.lift (wrong "single '\x7d' is not allowed")
  | fuel + 1, level, _ :: rest => take s fuel level rest

def fields (s : Surroundings) (contents : List Char) : Except Flaw (List Expression) :=
  (take s (contents.length + 1) 0 contents).map (·.1)

/-! ### Parsing with templates -/

/-- Reads a text with templates nested at most so deep, given the words in front of complaints about
it. -/
def parseWithin : Nat → String → Reader Expression → List Char → Except Flaw Expression
  | 0, _, _, _ => .error (.meaning "")
  | fuel + 1, heading, reader, cs =>
    let (lexemes, ending) := scan cs
    let within := parseWithin fuel "f-string: " part
    parseSource
      { lexemes := lexemes.toArray, ending, heading, fields := fields ⟨heading, within⟩ } reader

/-- Reads a text; templates nest at most as deep as it is long. -/
def parse (cs : List Char) : Except Flaw Expression := parseWithin (cs.length + 1) "" whole cs

end StructLayout.Output.Handler.Template
