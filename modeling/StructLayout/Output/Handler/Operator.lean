import StructLayout.Output.Handler.Comprehension

/-!
# Operators

The operators of expressions from the weakest to the strongest: `or`, `and`, `not`, comparisons, the
operators on bits, sums, products, signs and powers.  Operators of one strength join from the left.
Of all results only sums, signs and tests for a member are told apart: numbers may be written with
the first two, and the last look like the start of a loop.
-/

namespace StructLayout.Output.Handler

open Reader

/-- Two or more operands with a keyword between, or one operand. -/
def joinedBy (keyword : String) (operand : Rule) : Reader Expression :=
  (do
    let first ← rule operand
    let others ← many1 <| nested do
      word keyword
      rule operand
    pure (.compound .operation (first :: others)))
  <|> rule operand

def disjunction : Reader Expression := joinedBy "or" .conjunction

def conjunction : Reader Expression := joinedBy "and" .inversion

/-- Whether something is in something else, as the second part of a comparison. -/
def isMember : Reader Expression := nested do
  word "in"
  rule .union

def otherComparison : Reader Expression :=
  after (mark "==") <|> after (nested (mark "!=")) <|> after (mark "<=") <|> after (mark "<") <|>
    after (mark ">=") <|> after (mark ">") <|>
    after (do word "not"; word "in")
where
  /-- What is compared behind an operator. -/
  after (operator : Reader Unit) : Reader Expression := nested do
    operator
    rule .union

/-- Whether something is the same as something else, as the second part of a comparison. -/
def isSame : Reader Expression :=
  otherComparison.after (do word "is"; word "not") <|> otherComparison.after (word "is")

/-- The second part of a comparison, and whether it tests for a member. -/
def comparisonPart : Reader (Bool × Expression) := nested
  (((false, ·) <$> otherComparison) <|> ((true, ·) <$> isMember) <|> ((false, ·) <$> isSame))

def comparison : Reader Expression := nested ((do
    let first ← rule .union
    let parts ← many1 comparisonPart
    let others := parts.map (·.2)
    pure (if parts.head?.any (·.1) then .membership first others
      else .compound .comparison (first :: others)))
  <|> rule .union)

def inversion : Reader Expression :=
  (do
    word "not"
    let e ← rule .inversion
    pure (.compound .operation [e]))
  <|> comparison

def chain (marks : List String) (operand : Rule) : Reader Expression :=
  extended (rule operand) fun left =>
    marks.foldr
      (fun m other => (do
        mark m
        let right ← rule operand
        pure (if m = "+" then .sum false left right
          else if m = "-" then .sum true left right
          else .compound .operation [left, right])) <|> other)
      absent

def sumMarks : List String := ["+", "-"]

def productMarks : List String := ["*", "/", "//", "%", "@"]

/-- A signed operand or a power. -/
def factor : Reader Expression :=
  (do
    mark "+"
    let e ← rule .factor
    pure (.signed false e))
  <|> (do
    mark "-"
    let e ← rule .factor
    pure (.signed true e))
  <|> (do
    mark "~"
    let e ← rule .factor
    pure (.compound .operation [e]))
  <|> power
where
  /-- A power, or one operand. -/
  power : Reader Expression := nested ((do
      let base ← rule .awaited
      mark "**"
      let exponent ← rule .factor
      pure (.compound .operation [base, exponent]))
    <|> rule .awaited)

/-- An operand, perhaps one that is waited for. -/
def awaited : Reader Expression :=
  (do
    word "await"
    let e ← rule .primary
    pure (.compound .awaited [e]))
  <|> rule .primary

end StructLayout.Output.Handler
