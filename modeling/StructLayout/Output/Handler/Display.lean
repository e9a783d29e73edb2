import StructLayout.Error
import StructLayout.Output.Handler.Argument

/-!
# Expressions in brackets, and what is attached to them

The smallest expressions: names, literals, texts, and everything in parentheses or braces, that is
tuples, groups, sets, tables and loops over them.  Attributes, loops in parentheses and arguments of
calls can be attached to them.  Square brackets close the tag of a handler, so there are none in its
arguments.
-/

namespace StructLayout.Output.Handler

open Reader

/-! ### Parentheses -/

def tuple : Reader Expression := nested do
  mark "("
  let items ← option <| nested do
    let first ← element
    mark ","
    let others ← option elements
    pure (first :: others.getD [])
  mark ")"
  pure (.tuple (items.getD []))

/-- Stars where only one expression can be. -/
def mistakenGroup : Reader Expression := nested
  (decided (do mark "("; let _ ← starred; mark ")")
    (fun _ => complain "cannot use starred expression here")
    (decided (do mark "("; mark "**"; let _ ← rule .expression; mark ")")
      (fun _ => complain "cannot use double starred expression here")
      absent))

def group : Reader Expression := nested ((do
    mark "("
    let e ← nested (yielded <|> namedExpression)
    mark ")"
    pure e)
  <|> diagnosed mistakenGroup)

def generator : Reader Expression := nested ((do
    mark "("
    let e ← nested (assignment <|> unnamed)
    let clauses ← loops
    mark ")"
    pure (.compound .generator (e :: clauses)))
  <|> diagnosed mistakenComprehension)

/-! ### Braces -/

def entry : Reader Expression := nested do
  let key ← rule .expression
  mark ":"
  let value ← rule .expression
  pure (.entry key value)

/-- An entry of a table, or a table whose entries are taken over. -/
def entryOrSpread : Reader Expression := nested ((do
    mark "**"
    let e ← rule .union
    pure (.spread e))
  <|> entry)

def entries : Reader (List Expression) := nested do
  let found ← commaSeparated entryOrSpread
  let _ ← option (mark ",")
  pure found

/-- A star behind the colon of an entry, or nothing there. -/
def mistakenValue : Reader Unit :=
  decided (do let _ ← rule .expression; mark ":"; mark "*"; rule .union)
    (fun _ => complain "cannot use a starred expression in a dictionary value")
    (decided
      (do
        let _ ← rule .expression
        mark ":"
        followedBy (nested (mark "\x7d" <|> mark ",")))
      (fun _ => complain "expression expected after dictionary key and ':'")
      absent)

/-- A key without a colon, or a mistaken value. -/
def mistakenEntry : Reader Unit := nested
  (decided (do let _ ← rule .expression; notFollowedBy (mark ":"))
    (fun _ => complain "':' expected after dictionary key")
    mistakenValue)

def mistakenEntries : Reader Unit := nested ((do
    let _ ← commaSeparated entryOrSpread
    mark ","
    mistakenEntry)
  <|> mistakenValue)

/-- A table; mistakes in it are always looked for. -/
def table : Reader Expression := nested ((do
    mark "\x7b"
    let found ← option entries
    mark "\x7d"
    pure (.table (found.getD [])))
  <|> (do
    mark "\x7b"
    mistakenEntries
    mark "\x7d"
    pure (.table [])))

def set : Reader Expression := nested do
  mark "\x7b"
  let items ← elements
  mark "\x7d"
  pure (.set items)

/-- A table that a loop fills. -/
def tableComprehension : Reader Expression := nested ((do
    mark "\x7b"
    let e ← entry
    let clauses ← loops
    mark "\x7d"
    pure (.compound .tableComprehension (e :: clauses)))
  <|> diagnosed (nested (decided
    (do
      mark "\x7b"
      mark "**"
      let _ ← rule .union
      let _ ← loops
      mark "\x7d")
    (fun _ => complain "dict unpacking cannot be used in dict comprehension")
    absent)))

/-- A set that a loop fills. -/
def setComprehension : Reader Expression := nested ((do
    mark "\x7b"
    let e ← namedExpression
    let clauses ← loops
    mark "\x7d"
    pure (.compound .setComprehension (e :: clauses)))
  <|> diagnosed mistakenComprehension)

/-! ### Literals -/

/-- What is wrong with a text in quotes beside an earlier one, of which is known whether it is bytes:
bytes are ASCII, and bytes are not put together with other texts. -/
def quotationFlaw? (earlier : Option Bool) (q : Quotation) : Option String :=
  if q.isBytes && q.contents.any (fun c => 0x80 ≤ c.toNat) then
    some "bytes can only contain ASCII literal characters"
  else if earlier.any (· != q.isBytes) then some "cannot mix bytes and nonbytes literals"
  else none

/-- The fields of the templates among texts. -/
def fieldsOf (earlier : Option Bool) : List Quotation → Reader (List Expression)
  | [] => pure []
  | q :: rest =>
    match quotationFlaw? earlier q with
    | some reason => complain reason
    | none => do
      let here ← if q.isTemplate then fieldsIn q.contents else pure []
      let others ← fieldsOf (some q.isBytes) rest
      pure (here ++ others)
where
  /-- The fields of a template. -/
  fieldsIn (contents : List Char) : Reader (List Expression) := fun scene memory place =>
    (scene.source.fields contents).map fun found => (some (found, place), memory)

/-- Texts in quotes, which are put together. -/
def quotations : Reader Expression := do
  let texts ← many1 quotation
  let fields ← fieldsOf none texts
  pure <|
    if texts.any (·.isTemplate) then .compound .template fields
    else .atom (if texts.any (·.isBytes) then .bytes else .text)

/-- A number; one with too many digits ends everything. -/
def number : Reader Expression := do
  let n ← accept fun t =>
    match t with
    | .number n => some n
    | _ => none
  match n with
  | .tooLong digits =>
    complain ((Fault.tooManyDigits digits).text ++ " - Consider hexadecimal for huge integer " ++
      "literals to avoid decimal conversion limits.")
  | n => pure (.atom (.number n))

def smallest : Reader Expression := nested
  (name
  <|> giving (.atom (.truth true)) (word "True")
  <|> giving (.atom (.truth false)) (word "False")
  <|> giving (.atom .none) (word "None")
  <|> (do
    followedBy quotation
    rule .quotations)
  <|> number
  <|> (do
    followedBy (mark "(")
    nested (tuple <|> group <|> generator))
  <|> (do
    followedBy (mark "\x7b")
    nested (table <|> set <|> tableComprehension <|> setComprehension))
  <|> giving (.atom .ellipsis) (mark "..."))

/-! ### Attachments -/

def attachment (behind : Reader Unit) (e : Expression) : Reader Expression :=
  (do
    mark "."
    let _ ← letters
    behind
    pure (.compound .component [e]))
  <|> (do
    let loop ← generator
    behind
    pure (.call e [loop]))
  <|> (do
    mark "("
    let found ← option (rule .arguments)
    mark ")"
    behind
    pure (.call e ((found.map Argument.apart).getD [])))

def primary : Reader Expression := extended smallest (attachment (pure ()))

/-- The start of a target that goes on behind it. -/
def targetPrimary : Reader Expression := extended
  (do
    let e ← smallest
    followedBy goesOn
    pure e)
  (attachment (followedBy goesOn))

end StructLayout.Output.Handler
