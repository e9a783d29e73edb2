import StructLayout.Output.Handler.Reader

/-!
# Loops in expressions

An expression in brackets may be followed by loops: `for`, the targets to which the elements are
assigned, `in`, and what is looped over, with conditions behind it.  A target is a name, an attribute
or a group of targets in parentheses.  This module also holds the readers of expressions that other
constructs share: lists of expressions with stars, and expressions that are given a name.
-/

namespace StructLayout.Output.Handler

open Reader

/-! ### Expressions with names and stars -/

def assignment : Reader Expression := nested do
  let target ← name
  mark ":="
  let e ← rule .expression
  pure (.compound .assignment [target, e])

def unnamed : Reader Expression := do
  let e ← rule .expression
  notFollowedBy (mark ":=")
  pure e

/-- An expression that may be given a name. -/
def namedExpression : Reader Expression := nested
  (assignment <|> diagnosed (rule .mistakenAssignment) <|> unnamed)

/-- The items of something, as an argument; behind the star there has to be something. -/
def starred : Reader Expression := nested do
  mark "*"
  match ← option (rule .expression) with
  | some e => pure (.starred e)
  | none => complain "Invalid star expression"

/-- An element of a tuple or a set. -/
def element : Reader Expression := nested ((do
    mark "*"
    let e ← rule .union
    pure (.starred e))
  <|> namedExpression)

/-- Elements with commas between and perhaps one behind. -/
def elements : Reader (List Expression) := nested do
  let items ← commaSeparated element
  let _ ← option (mark ",")
  pure items

/-- Things of which each has a comma in front. -/
def behindCommas (r : Reader Expression) : Reader (List Expression) := many1 <| nested do
  mark ","
  r

/-- One thing, or a tuple of things with commas between and perhaps one behind. -/
def tupleOf (r : Reader Expression) : Reader Expression := nested ((do
    let first ← r
    let others ← behindCommas r
    let _ ← option (mark ",")
    pure (.tuple (first :: others)))
  <|> (do
    let first ← r
    mark ","
    pure (.tuple [first]))
  <|> r)

def starredExpressions : Reader Expression := tupleOf (rule .starredExpression)

/-- An expression that hands a value out of a loop. -/
def yielded : Reader Expression := nested ((do
    word "yield"
    word "from"
    let e ← rule .expression
    pure (.compound .yielded [e]))
  <|> (do
    word "yield"
    let e ← option starredExpressions
    pure (.compound .yielded e.toList)))

/-! ### Targets -/

/-- A mark behind which a target goes on. -/
def goesOn : Reader Unit := nested (mark "(" <|> mark "[" <|> mark ".")

/-- Targets in parentheses: at least two, or one with a comma behind it. -/
def groupedTargets : Reader (List Expression) := nested ((do
    let first ← rule .starredTarget
    let others ← behindCommas (rule .starredTarget)
    let _ ← option (mark ",")
    pure (first :: others))
  <|> (do
    let first ← rule .starredTarget
    mark ","
    pure [first]))

/-- A name, or targets in parentheses. -/
def targetAtom : Reader Expression := nested (name
  <|> (do
    mark "("
    let target ← rule .target
    mark ")"
    pure target)
  <|> (do
    mark "("
    let targets ← option groupedTargets
    mark ")"
    pure (.tuple (targets.getD []))))

def target : Reader Expression :=
  (do
    let e ← rule .targetPrimary
    mark "."
    let _ ← letters
    notFollowedBy goesOn
    pure (.compound .component [e]))
  <|> targetAtom

/-- A target, perhaps with a star. -/
def starredTarget : Reader Expression :=
  (do
    mark "*"
    let e ← nested do
      notFollowedBy (mark "*")
      rule .starredTarget
    pure (.starred e))
  <|> rule .target

def loopTargets : Reader Expression := nested ((do
    let only ← rule .starredTarget
    notFollowedBy (mark ",")
    pure only)
  <|> (do
    let first ← rule .starredTarget
    let others ← many <| nested do
      mark ","
      rule .starredTarget
    let _ ← option (mark ",")
    pure (.tuple (first :: others))))

/-! ### Loops -/

def loopedOver (target : Expression) : Reader Expression := do
  let elements ← rule .disjunction
  let conditions ← many <| nested do
    word "if"
    rule .disjunction
  pure (.compound .generator (target :: elements :: conditions))

def loopStart (isAsync : Bool) : Reader Expression := do
  if isAsync then word "async"
  word "for"
  let targets ← loopTargets
  word "in"
  pure targets

/-- A loop whose targets cannot be assigned to. -/
def mistakenLoop : Reader Expression := nested do
  let _ ← option (word "async")
  word "for"
  let e ← starredExpressions
  match e.invalidTarget? with
  | some bad => complain ("cannot assign to " ++ bad.describe)
  | none => absent

/-- A loop; behind `in` it cannot be anything else. -/
def loop : Reader Expression := nested
  (decided (loopStart true) loopedOver
    (decided (loopStart false) loopedOver (diagnosed mistakenLoop)))

def loops : Reader (List Expression) := nested (many1 loop)

/-- The complaint about loops behind what cannot be looped. -/
def mistakenComprehension : Reader Expression := nested
  (decided
    (do
      nested (mark "[" <|> mark "(" <|> mark "\x7b")
      let _ ← starred
      loops)
    (fun _ => complain "iterable unpacking cannot be used in comprehension")
    (decided
      (do
        nested (mark "[" <|> mark "\x7b")
        let _ ← element
        mark ","
        let _ ← elements
        loops)
      (fun _ => complain unparenthesized)
      (decided
        (do
          nested (mark "[" <|> mark "\x7b")
          let _ ← element
          mark ","
          loops)
        (fun _ => complain unparenthesized)
        absent)))
where
  /-- The complaint about several things in front of a loop. -/
  unparenthesized : String := "did you forget parentheses around the comprehension target?"

end StructLayout.Output.Handler
