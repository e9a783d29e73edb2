import StructLayout.Output.Handler.Comprehension

/-!
# Arguments of calls

The arguments of a call have commas between and perhaps one behind: first expressions and starred
ones, then arguments with names, to which starred ones may be added, and at last arguments with names
and spread tables.  Where they are in another order, or where a loop stands without parentheses
beside other arguments, a complaint names the mistake.
-/

namespace StructLayout.Output.Handler

open Reader

namespace Argument

def together (arguments : List Expression) : Expression := .call (.name "") arguments

/-- The arguments that an expression holds together. -/
def apart : Expression → List Expression
  | .call _ arguments => arguments
  | e => [e]

/-- The complaint about an equals sign where a comparison or a name may be meant. -/
def maybeComparison : String := "invalid syntax. Maybe you meant '==' or ':=' instead of '='?"

def mistakenNamed : Reader Expression := nested
  (decided (do let w ← constantWord; mark "="; pure w) (fun w => complain ("cannot assign to " ++ w))
    (decided (do let _ ← letters; mark "="; let _ ← rule .expression; loops)
      (fun _ => complain maybeComparison)
      (decided
        (do
          notFollowedBy (nested (do let _ ← letters; mark "="))
          let _ ← rule .expression
          mark "=")
        (fun _ => complain "expression cannot contain assignment, perhaps you meant \"==\"?")
        absent)))
where
  /-- A word that is a literal. -/
  constantWord : Reader String := nested
    (giving "True" (word "True") <|> giving "False" (word "False") <|> giving "None" (word "None"))

def namedArgument : Reader Expression := do
  let _ ← letters
  mark "="
  let e ← rule .expression
  pure (.named e)

/-- An argument with a name, or a starred one. -/
def namedOrStarred : Reader Expression := nested
  (diagnosed mistakenNamed <|> namedArgument <|> starred)

/-- An argument with a name, or a spread table. -/
def namedOrSpread : Reader Expression := nested
  (diagnosed mistakenNamed <|> namedArgument <|> do
    mark "**"
    let e ← rule .expression
    pure (.spread e))

/-- The arguments from the first one with a name on. -/
def namedArguments : Reader (List Expression) := nested
  ((do
    let first ← commaSeparated namedOrStarred
    mark ","
    let others ← commaSeparated namedOrSpread
    pure (first ++ others))
  <|> commaSeparated namedOrStarred
  <|> commaSeparated namedOrSpread)

def placed : Reader Expression := nested (starred <|> do
    let e ← nested (assignment <|> unnamed)
    notFollowedBy (mark "=")
    pure e)

def wellFormed : Reader (List Expression) := nested
  ((do
    let first ← commaSeparated placed
    let others ← option <| nested do
      mark ","
      namedArguments
    pure (first ++ others.getD []))
  <|> namedArguments)

/-- The complaint about a loop without parentheses beside other arguments. -/
def unparenthesized : String := "Generator expression must be parenthesized"

/-- Mistakes in the arguments of a call. -/
def mistaken : Reader Expression := nested
  (decided
    (do
      nested ((discard do
          let _ ← commaSeparated placed
          mark ","
          namedArguments)
        <|> discard namedArguments)
      mark ","
      commaSeparated <| nested do
        let _ ← starred
        notFollowedBy (mark "="))
    (fun _ => complain "iterable argument unpacking follows keyword argument unpacking")
    (decided
      (do
        let _ ← rule .expression
        let _ ← loops
        mark ","
        option (nested (discard wellFormed <|> do
          let _ ← rule .expression
          discard loops)))
      (fun _ => complain unparenthesized)
      (decided (do let _ ← letters; mark "="; let _ ← rule .expression; loops)
        (fun _ => complain maybeComparison)
        (decided (do let arguments ← wellFormed; let _ ← loops; pure arguments)
          (fun arguments =>
            if (arguments.filter fun e => !e.isKeyword).length ≤ 1 then absent
            else complain unparenthesized)
          (decided (do let _ ← wellFormed; mark ","; let _ ← rule .expression; loops)
            (fun _ => complain unparenthesized)
            (decided (do let arguments ← wellFormed; mark ","; let _ ← wellFormed; pure arguments)
              (fun arguments => complain
                (if arguments.any (·.isSpread) then
                  "positional argument follows keyword argument unpacking"
                else "positional argument follows keyword argument"))
              absent))))))

end Argument

/-- The arguments of a call, up to its closing parenthesis. -/
def arguments : Reader Expression :=
  (do
    let arguments ← Argument.wellFormed
    let _ ← option (mark ",")
    followedBy (mark ")")
    pure (Argument.together arguments))
  <|> diagnosed Argument.mistaken

end StructLayout.Output.Handler
