import StructLayout.Output.Handler.Comprehension

/-!
# Parameters of functions

A function without a name is written `lambda`, its parameters, a colon and an expression.  Parameters
without a default value stand before those with one; a slash ends the parameters that only have a
place, and behind a star stand those that only have a name.  Of a function only the default values
and the expression are kept.

The order in which mistakes are looked for decides which complaint names them.
-/

namespace StructLayout.Output.Handler

open Reader

namespace Parameter

def stop : Reader Unit := followedBy (mark ":")

def parameter : Reader Unit := nested do
  let _ ← letters

def missingDefault : Reader Expression := nested do
  mark "="
  followedBy (nested (mark ")" <|> mark ","))
  complain "expected default value expression"

def default : Reader Expression := nested ((do
    mark "="
    rule .expression)
  <|> diagnosed missingDefault)

/-- A parameter without a default value. -/
def plain : Reader Unit := nested ((do
    parameter
    mark ",")
  <|> (do
    parameter
    stop))

/-- A parameter with a default value. -/
def valued : Reader Expression := nested ((do
    parameter
    let e ← default
    mark ","
    pure e)
  <|> (do
    parameter
    let e ← default
    stop
    pure e))

/-- A parameter that may have a default value. -/
def either : Reader (List Expression) := nested ((do
    parameter
    let e ← option default
    mark ","
    pure e.toList)
  <|> (do
    parameter
    let e ← option default
    stop
    pure e.toList))

/-- Parameters without default values and a slash. -/
def plainSlash : Reader Unit := nested ((do
    let _ ← many1 plain
    mark "/"
    mark ",")
  <|> (do
    let _ ← many1 plain
    mark "/"
    stop))

def valuedSlash : Reader (List Expression) := nested ((do
    let _ ← many plain
    let values ← many1 valued
    mark "/"
    mark ","
    pure values)
  <|> (do
    let _ ← many plain
    let values ← many1 valued
    mark "/"
    stop
    pure values))

/-- Either kind of parameters with a slash. -/
def anySlash : Reader Unit := nested (plainSlash <|> discard valuedSlash)

/-! ### Behind a star -/

def mistakenTable : Reader Unit := nested
  (decided (do mark "**"; parameter; mark "=")
    (fun _ => complain "var-keyword argument cannot have default value")
    (decided (do mark "**"; parameter; mark ","; parameter)
      (fun _ => complain mustBeLast)
      (decided
        (do
          mark "**"
          parameter
          mark ","
          nested (mark "*" <|> mark "**" <|> mark "/"))
        (fun _ => complain mustBeLast)
        absent)))
where
  /-- The complaint about a parameter behind the one that takes all others. -/
  mustBeLast : String := "arguments cannot follow var-keyword argument"

/-- The parameter that takes all arguments with other names. -/
def table : Reader Unit := nested (diagnosed mistakenTable <|> do
    mark "**"
    plain)

def mistakenStar : Reader Unit := nested
  (decided
    (do
      mark "*"
      nested (mark ":" <|> do
        mark ","
        nested (mark ":" <|> mark "**")))
    (fun _ => complain "named arguments must follow bare *")
    (decided (do mark "*"; parameter; mark "=")
      (fun _ => complain "var-positional argument cannot have default value")
      (decided
        (do
          mark "*"
          nested (plain <|> mark ",")
          let _ ← many either
          mark "*"
          nested (plain <|> mark ","))
        (fun _ => complain "* argument may appear only once")
        absent)))

def star : Reader (List Expression) := nested
  (giving [] (diagnosed mistakenStar)
  <|> (do
    mark "*"
    plain
    let values ← many either
    let _ ← option table
    pure values.flatten)
  <|> (do
    mark "*"
    mark ","
    let values ← many1 either
    let _ ← option table
    pure values.flatten)
  <|> giving [] table)

/-! ### All parameters -/

/-- The parameters of a function, with their default values. -/
def wellFormed : Reader (List Expression) := nested
  ((do
    plainSlash
    let _ ← many plain
    let values ← many valued
    let others ← option star
    pure (values ++ others.getD []))
  <|> (do
    let first ← valuedSlash
    let values ← many valued
    let others ← option star
    pure (first ++ values ++ others.getD []))
  <|> (do
    let _ ← many1 plain
    let values ← many valued
    let others ← option star
    pure (values ++ others.getD []))
  <|> (do
    let values ← many1 valued
    let others ← option star
    pure (values ++ others.getD []))
  <|> star)

/-- Mistakes in the parameters of a function. -/
def mistaken : Reader Unit := nested
  (decided
    (do
      let _ ← many plain
      nested (discard valuedSlash <|> discard (many1 valued))
      plain)
    (fun _ => complain "non-default argument follows default argument")
    (decided
      (do
        let _ ← many plain
        mark "("
        let _ ← commaSeparated parameter
        let _ ← option (mark ",")
        mark ")")
      (fun _ => complain "Lambda expression parameters cannot be parenthesized")
      (decided (do mark "/"; mark ",")
        (fun _ => complain "at least one argument must precede /")
        (decided
          (do
            anySlash
            let _ ← many either
            mark "/")
          (fun _ => complain "/ may appear only once")
          (decided
            (do
              let _ ← option anySlash
              let _ ← many either
              mark "*"
              nested (mark "," <|> plain)
              let _ ← many either
              mark "/")
            (fun _ => complain "/ must be ahead of *")
            (decided
              (do
                let _ ← many1 either
                mark "/"
                mark "*")
              (fun _ => complain "expected comma between / and *")
              absent))))))

/-- The default values of the parameters of a function. -/
def parameters : Reader (List Expression) := nested (giving [] (diagnosed mistaken) <|> wellFormed)

end Parameter

def lambda : Reader Expression := nested do
  word "lambda"
  let defaults ← option Parameter.parameters
  mark ":"
  let body ← rule .expression
  pure (.compound .lambda (defaults.getD [] ++ [body]))

end StructLayout.Output.Handler
