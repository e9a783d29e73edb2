import StructLayout.Output.Handler.Token

/-!
# Expressions

An expression as far as it matters for the arguments of a handler: literals are kept in full, of all
other expressions only their kind and their parts are kept.  `Expression.describe` names the kind of
an expression in complaints, `Expression.invalidTarget?` finds the part of an expression that stands
in the way when something is assigned to it, and `Expression.height` counts how deep the parts nest.
-/

namespace StructLayout.Output.Handler

inductive Atom where
  | none
  | truth (b : Bool)
  | ellipsis
  | number (n : Number)
  | text
  | bytes
deriving DecidableEq, Repr, Inhabited

/-- The kinds of expressions of which only the parts are kept. -/
inductive Kind where
  | template
  | component
  | lambda
  | operation
  | generator
  | setComprehension
  | tableComprehension
  | yielded
  | awaited
  | comparison
  | conditional
  | assignment
deriving DecidableEq, Repr, Inhabited

/-- An expression.  A table has entries and spread parts; the arguments of a call are expressions,
named arguments and spread parts. -/
inductive Expression where
  | atom (a : Atom)
  | name (plain : String)
  | tuple (items : List Expression)
  | set (items : List Expression)
  | table (entries : List Expression)
  | entry (key value : Expression)
  | spread (e : Expression)
  | starred (e : Expression)
  | named (e : Expression)
  | call (function : Expression) (arguments : List Expression)
  | signed (isMinus : Bool) (e : Expression)
  | sum (isMinus : Bool) (left right : Expression)
  | membership (left : Expression) (others : List Expression)
  | compound (kind : Kind) (parts : List Expression)
deriving Repr, Inhabited

namespace Expression

/-- What a literal without parts is called. -/
def describeAtom : Atom → String
  | .none => "None"
  | .truth true => "True"
  | .truth false => "False"
  | .ellipsis => "ellipsis"
  | .number _ | .text | .bytes => "literal"

/-- What an expression of a kind is called. -/
def describeKind : Kind → String
  | .template => "f-string expression"
  | .component => "attribute"
  | .lambda => "lambda"
  | .operation => "expression"
  | .generator => "generator expression"
  | .setComprehension => "set comprehension"
  | .tableComprehension => "dict comprehension"
  | .yielded => "yield expression"
  | .awaited => "await expression"
  | .comparison => "comparison"
  | .conditional => "conditional expression"
  | .assignment => "named expression"

/-- What an expression is called in complaints. -/
def describe : Expression → String
  | .atom a => describeAtom a
  | .name _ => "name"
  | .tuple _ => "tuple"
  | .set _ => "set display"
  | .table _ => "dict literal"
  | .starred _ => "starred"
  | .call _ _ => "function call"
  | .signed _ _ | .sum _ _ _ => "expression"
  | .membership _ _ => "comparison"
  | .compound kind _ => describeKind kind
  | .entry _ _ | .spread _ | .named _ => "expression"

mutual

/-- The first part of the target of a loop to which nothing can be assigned.  In `a in b` the part
before `in` is the target. -/
def invalidTarget? : Expression → Option Expression
  | .name _ | .compound .component _ | .compound .comparison _ => none
  | .tuple items => invalidTargetOf? items
  | .starred e | .membership e _ => invalidTarget? e
  | e => some e

def invalidTargetOf? : List Expression → Option Expression
  | [] => none
  | e :: rest =>
    match invalidTarget? e with
    | some bad => some bad
    | none => invalidTargetOf? rest

end

mutual

/-- How many expressions are nested at the deepest place. -/
def height : Expression → Nat
  | .atom _ | .name _ => 1
  | .tuple items | .set items | .table items | .compound _ items => heightOf items + 1
  | .entry a b | .sum _ a b => max (height a) (height b) + 1
  | .spread e | .starred e | .named e | .signed _ e => height e + 1
  | .call e items | .membership e items => max (height e) (heightOf items) + 1

def heightOf : List Expression → Nat
  | [] => 0
  | e :: rest => max (height e) (heightOf rest)

end

/-- Whether an argument of a call has a name or is a spread table. -/
def isKeyword : Expression → Bool
  | .named _ | .spread _ => true
  | _ => false

/-- Whether an argument of a call is a spread table. -/
def isSpread : Expression → Bool
  | .spread _ => true
  | _ => false

end Expression

end StructLayout.Output.Handler
