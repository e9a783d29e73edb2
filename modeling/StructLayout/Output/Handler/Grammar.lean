import StructLayout.Output.Handler.Display
import StructLayout.Output.Handler.Operator
import StructLayout.Output.Handler.Parameter

/-!
# The grammar of expressions

An expression is a disjunction, a choice between two by a condition, or a function.  `Rule.reader`
says how each remembered rule is read, and `parse` reads a text: first without looking for mistakes,
then, if it is no expression, once more looking for them.  A mistake found by reading is passed over
for one further on where no token can be.
-/

namespace StructLayout.Output.Handler

open Reader

/-! ### Expressions -/

/-- A choice between two expressions by a condition, or one of the other kinds of expressions. -/
def choice : Reader Expression :=
  (do
    let e ← rule .disjunction
    word "if"
    let condition ← rule .disjunction
    word "else"
    let other ← rule .expression
    pure (.compound .conditional [condition, e, other]))
  <|> rule .disjunction
  <|> lambda

/-- The names that are keywords in some places. -/
def softKeywords : List String := ["_", "case", "match"]

/-- The names that once began statements, whose arguments stood without parentheses. -/
def statementNames : List String := ["print", "exec"]

/-- Whether an expression is a name that once began a statement. -/
def beginsStatement : Expression → Bool
  | .name plain => statementNames.contains plain
  | _ => false

/-- Two expressions without a comma between, or a condition without an alternative. -/
def mistakenExpression : Reader Expression := nested
  (decided
    (do
      notFollowedBy (nested ((do let _ ← letters; discard quotation) <|> softKeyword))
      let first ← rule .disjunction
      let _ ← undiagnosed (nested choice)
      let depth ← depthBehind
      pure (first, depth))
    (fun r =>
      if beginsStatement r.1 || r.2 = 0 then absent
      else complain "invalid syntax. Perhaps you forgot a comma?")
    (decided
      (do
        let _ ← rule .disjunction
        word "if"
        let _ ← rule .disjunction
        notFollowedBy (nested (word "else" <|> mark ":")))
      (fun _ => complain "expected 'else' after 'if' expression")
      absent))
where
  /-- A name that is a keyword in some places. -/
  softKeyword : Reader Unit := do
    let cs ← letters
    if softKeywords.contains (String.ofList cs) then pure () else absent

/-- The name of a former statement with arguments that stand without parentheses. -/
def mistakenStatement : Reader Expression := nested
  (decided
    (do
      let e ← name
      notFollowedBy (mark "(")
      let _ ← starredExpressions
      pure e)
    (fun e =>
      match e with
      | .name plain =>
        if statementNames.contains plain then
          complain ("Missing parentheses in call to '" ++ plain ++ "'. Did you mean " ++ plain ++
            "(...)?")
        else absent
      | _ => absent)
    absent)

def expression : Reader Expression :=
  diagnosed mistakenExpression <|> diagnosed mistakenStatement <|> choice

/-- An expression, or the items of something. -/
def starredExpression : Reader Expression :=
  (do
    mark "*"
    let e ← rule .union
    pure (.starred e))
  <|> rule .expression

/-- Something to which no value can be given. -/
def mistakenAssignment : Reader Expression :=
  decided (do let e ← rule .expression; mark ":="; let _ ← rule .expression; pure e)
    (fun e => complain ("cannot use assignment expressions with " ++ e.describe))
    (decided (do let _ ← letters; mark "="; let _ ← rule .union; noOtherAssignment)
      (fun _ => complain Argument.maybeComparison)
      (decided
        (do
          notFollowedBy (nested (discard tuple <|> discard generator <|> word "True" <|>
            word "None" <|> word "False"))
          let e ← rule .union
          mark "="
          let _ ← rule .union
          noOtherAssignment
          pure e)
        (fun e => complain
          ("cannot assign to " ++ e.describe ++ " here. Maybe you meant '==' instead of '='?"))
        absent))
where
  /-- The end of what may have been meant as a comparison. -/
  noOtherAssignment : Reader Unit := notFollowedBy (nested (mark "=" <|> mark ":="))

/-! ### Rules -/

def Rule.reader : Rule → Reader Expression
  | .expression => Handler.expression
  | .starredExpression => Handler.starredExpression
  | .disjunction => Handler.disjunction
  | .conjunction => Handler.conjunction
  | .inversion => Handler.inversion
  | .union => chain ["|"] .difference
  | .difference => chain ["^"] .intersection
  | .intersection => chain ["&"] .shift
  | .shift => chain ["<<", ">>"] .sum
  | .sum => chain sumMarks .product
  | .product => chain productMarks .factor
  | .factor => Handler.factor
  | .awaited => Handler.awaited
  | .primary => Handler.primary
  | .quotations => Handler.quotations
  | .arguments => Handler.arguments
  | .target => Handler.target
  | .starredTarget => Handler.starredTarget
  | .targetPrimary => Handler.targetPrimary
  | .mistakenAssignment => Handler.mistakenAssignment

/-- Reads a rule of a text, with at most so many rules nested. -/
def readRule (source : Source) : Nat → Rule → Bool → Nat → Step Expression
  | 0, _, _, _ => fun _ _ => .error (.meaning "")
  | fuel + 1, r, isDiagnosing, level =>
    r.reader { source, isDiagnosing, level, readRule := readRule source fuel }

/-- Reads a text from its start. -/
def readFrom (source : Source) (isDiagnosing : Bool) (r : Reader Expression) :
    Except Flaw (Found Expression) := do
  let scene : Scene :=
    { source, isDiagnosing, level := 0, readRule := readRule source (levelLimit + 1) }
  let (found, _) ← r scene (Array.replicate (source.lexemes.size + 1) []) 0
  pure found

/-- The complaint about a text that is no expression, unless a place further on has no token. -/
def finalFlaw (source : Source) (flaw : Flaw) : Flaw :=
  match flaw, source.ending with
  | .breach _, .flaw reason => .breach reason
  | flaw, _ => flaw

/-- Reads a text from its start, a second time looking for mistakes if nothing is found. -/
def parseSource (source : Source) (r : Reader Expression) : Except Flaw Expression :=
  match readFrom source false r with
  | .ok (some (e, _)) => .ok e
  | .ok none =>
    match readFrom source true r with
    | .error flaw => .error (finalFlaw source flaw)
    | .ok _ => .error (finalFlaw source (.breach (source.heading ++ "invalid syntax")))
  | .error flaw => .error (finalFlaw source flaw)

/-- Expressions up to the end of the text; several of them with commas between are a tuple. -/
def whole : Reader Expression := nested do
  let e ← tupleOf (rule .expression)
  let _ ← many lineEnd
  finish
  pure e

/-- An expression of which the end need not be the end of the text. -/
def part : Reader Expression := nested starredExpressions

end StructLayout.Output.Handler
