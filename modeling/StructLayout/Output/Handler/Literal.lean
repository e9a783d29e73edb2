import StructLayout.Binary64.Basic
import StructLayout.Output.Handler.Template

/-!
# Literals

The value of an expression that is made of literals only: numbers, which may have a sign, sums of a
real and an imaginary number, texts, bytes, truth values, and tuples, sets and tables of them.  Of a
value only that matters which decides whether there is one: how large a whole number is, and whether
the value can be a member of a set or a key of a table (`Literal.evaluate`).
-/

namespace StructLayout.Output.Handler

/-- What matters about the value of a literal: a number may be part of a sum, and what cannot be a
member of a set has a kind that says so. -/
inductive Literal where
  | whole (magnitude : Nat)
  | real
  | imaginary
  | other (unhashable : Option String)
deriving DecidableEq, Repr, Inhabited

namespace Literal

/-- The complaint about an expression that is no literal. -/
def malformed : String := "malformed node or string on line 1"

/-- The complaint about a spread table among the entries of another. -/
def malformedKey : String := "malformed node or string: None"

def ofAtom : Atom → Literal
  | .number (.whole n) => .whole n
  | .number .imaginary => .imaginary
  | .number _ => .real
  | .none | .truth _ | .ellipsis | .text | .bytes => .other none

/-- The kind of a value that cannot be a member of a set. -/
def unhashable? : Literal → Option String
  | .other kind => kind
  | _ => none

/-- Checks that a value can be a member of a set or a key of a table. -/
def checkMember (l : Literal) : Except String Unit :=
  match l.unhashable? with
  | some kind => .error ("unhashable type: '" ++ kind ++ "'")
  | none => .ok ()

/-- The value of a number without a sign. -/
def number? : Expression → Option Literal
  | .atom (.number n) => some (ofAtom (.number n))
  | _ => none

def signedNumber? : Expression → Option Literal
  | .signed _ e => number? e
  | e => number? e

/-- The value of a sum of a real and an imaginary number. -/
def sum (left right : Expression) : Except String Literal :=
  match signedNumber? left, number? right with
  | some (.whole n), some .imaginary =>
    match Binary64.ofInt n with
    | .infinite _ => .error Fault.tooLargeForFloat.text
    | _ => .ok .imaginary
  | some .real, some .imaginary => .ok .imaginary
  | _, _ => .error malformed

mutual

/-- The value of an expression, or why it has none. -/
def evaluate : Expression → Except String Literal
  | .atom a => .ok (ofAtom a)
  | .tuple items => do
    let found ← evaluateAll items
    pure (.other (found.findSome? unhashable?))
  | .set items => do
    evaluateMembers items
    pure (.other (some "set"))
  | .call (.name "set") [] => .ok (.other (some "set"))
  | .table entries => do
    evaluateEntries entries
    pure (.other (some "dict"))
  | .sum _ left right => sum left right
  | e =>
    match signedNumber? e with
    | some value => .ok value
    | none => .error malformed

/-- The values of the items of a tuple. -/
def evaluateAll : List Expression → Except String (List Literal)
  | [] => .ok []
  | e :: rest => do
    let value ← evaluate e
    let others ← evaluateAll rest
    pure (value :: others)

/-- Checks the members of a set one after the other. -/
def evaluateMembers : List Expression → Except String Unit
  | [] => .ok ()
  | e :: rest => do
    let value ← evaluate e
    checkMember value
    evaluateMembers rest

/-- Checks the entries of a table one after the other: the key, the value, and then whether the key
can be one. -/
def evaluateEntries : List Expression → Except String Unit
  | [] => .ok ()
  | .entry key value :: rest => do
    let key ← evaluate key
    let _ ← evaluate value
    checkMember key
    evaluateEntries rest
  | _ :: _ => .error malformedKey

end

/-- The tallest expression that is looked at. -/
def heightLimit : Nat := 2500

/-- Checks that a text is an expression and has a value. -/
def check (cs : List Char) : Except Flaw Unit := do
  let e ← Template.parse cs
  if heightLimit < e.height then
    throw (.meaning (Fault.tooDeep " during ast construction").text)
  match evaluate e with
  | .ok _ => pure ()
  | .error reason => throw (.meaning reason)

end Literal

end StructLayout.Output.Handler
