import StructLayout.Output.Handler.Literal
import StructLayout.Text.Blank

/-!
# Handlers

A tag whose name starts with `@` attaches a handler to the text that it encloses.  Its parameter is
the name of a function with arguments in parentheses, or only one of the two, and the arguments have
to be literals.  `Handler.check` decides that; a parameter that is no such thing is reported when
the tag is closed.
-/

namespace StructLayout.Output.Handler

/-- The arguments of a parameter that is the name of a function, arguments in parentheses, or one
behind the other; any other parameter is all arguments. -/
def argumentsOf (cs : List Char) : List Char :=
  let rest := cs.dropWhile fun c => Text.isWordChar c || c = '.'
  if rest.isEmpty then ['(', ')']
  else if rest.head? = some '(' && rest.getLast? = some ')' && !rest.contains '\n' then rest
  else cs

def complaint (parameter arguments : List Char) : Flaw → Fault
  | .meaning reason =>
    .badMarkup ("error parsing " ++ Text.quoted (String.ofList parameter) ++ "; " ++ reason)
  | .breach reason =>
    .badMarkup ("error parsing " ++ Text.quoted (String.ofList arguments) ++ " in " ++
      Text.quoted (String.ofList parameter) ++ "; " ++ reason)

def checkArguments (parameter arguments : List Char) : Except Fault Unit :=
  match Literal.check arguments with
  | .ok () => .ok ()
  | .error flaw => .error (complaint parameter arguments flaw)

def check (parameter : List Char) : Except Fault Unit :=
  checkArguments parameter (argumentsOf (Text.trim parameter))

end StructLayout.Output.Handler
