import StructLayout.Output.Handler.Expression

/-!
# Readers

A reader reads something from the tokens of an expression: it finds it, with the place behind it, or
finds that it is absent; or it ends everything with a complaint.  Readers are put together in order:
of two alternatives the second is tried only where the first is absent.

A text is read twice.  Only the second time, when no expression was found, readers look for known
mistakes, which end everything with a complaint that names the mistake (`diagnosed`).  The results
of the rules in `Rule` are remembered for each place (`rule`), and rules can nest only to a limit
(`nested`).
-/

namespace StructLayout.Output.Handler

/-- Why arguments are refused: a breach of their notation, or that they have no value. -/
inductive Flaw where
  | breach (reason : String)
  | meaning (reason : String)
deriving DecidableEq, Repr, Inhabited

/-- The rules whose results are remembered. -/
inductive Rule where
  | expression
  | starredExpression
  | disjunction
  | conjunction
  | inversion
  | union
  | difference
  | intersection
  | shift
  | sum
  | product
  | factor
  | awaited
  | primary
  | quotations
  | arguments
  | target
  | starredTarget
  | targetPrimary
  | mistakenAssignment
deriving DecidableEq, Repr, Inhabited

/-- What is found and the place behind it, or nothing. -/
abbrev Found (α : Type) := Option (α × Nat)

/-- The remembered results for each place. -/
abbrev Memory := Array (List (Rule × Found Expression))

abbrev Step (α : Type) := Memory → Nat → Except Flaw (Found α × Memory)

/-- The text that is read: its tokens, what stands behind them, the words in front of complaints
about it, and how the fields of templates in it are read. -/
structure Source where
  lexemes : Array Lexeme
  ending : Ending
  heading : String
  fields : List Char → Except Flaw (List Expression)

/-- The circumstances of reading: whether mistakes are looked for, how many rules are being read, and
how a rule is read. -/
structure Scene where
  source : Source
  isDiagnosing : Bool
  level : Nat
  readRule : Rule → Bool → Nat → Step Expression

def Reader (α : Type) : Type := Scene → Step α

namespace Reader

/-- Goes on with what is found. -/
def andThen {α β : Type} (r : Reader α) (next : α → Reader β) : Reader β := fun scene memory place =>
  match r scene memory place with
  | .error flaw => .error flaw
  | .ok (none, memory) => .ok (none, memory)
  | .ok (some (a, place), memory) => next a scene memory place

/-- The second reader where the first finds nothing. -/
def orElse {α : Type} (r : Reader α) (other : Unit → Reader α) : Reader α :=
  fun scene memory place =>
    match r scene memory place with
    | .ok (none, memory) => other () scene memory place
    | result => result

def absent {α : Type} : Reader α := fun _ memory _ => .ok (none, memory)

instance : Monad Reader where
  pure a := fun _ memory place => .ok (some (a, place), memory)
  bind := andThen

instance : Alternative Reader where
  failure := absent
  orElse := orElse

def complain {α : Type} (reason : String) : Reader α := fun scene _ _ =>
  .error (.breach (scene.source.heading ++ reason))

/-! ### Circumstances -/

def levelLimit : Nat := 6000

/-- A reader one level deeper, if that is not too deep. -/
def nested {α : Type} (r : Reader α) : Reader α := fun scene memory place =>
  if levelLimit ≤ scene.level then .error (.meaning "")
  else r { scene with level := scene.level + 1 } memory place

/-- A reader that looks for a mistake. -/
def diagnosed {α : Type} (r : Reader α) : Reader α := fun scene memory place =>
  if scene.isDiagnosing then r scene memory place else .ok (none, memory)

/-- A reader that looks for no mistakes. -/
def undiagnosed {α : Type} (r : Reader α) : Reader α := fun scene memory place =>
  r { scene with isDiagnosing := false } memory place

/-- Reads a rule, unless its result for this place is remembered. -/
def rule (r : Rule) : Reader Expression := nested fun scene memory place =>
  match (memory[place]?).bind fun results => results.lookup r with
  | some found => .ok (found, memory)
  | none =>
    match scene.readRule r scene.isDiagnosing scene.level memory place with
    | .error flaw => .error flaw
    | .ok (found, memory) => .ok (found, memory.modify place ((r, found) :: ·))

/-! ### Tokens -/

/-- The complaint about what stands behind the last token. -/
def Ending.flaw? (heading : String) : Ending → Option Flaw
  | .proper => none
  | .unclosed opener => some (.breach (heading ++ marked opener ++ " was never closed"))
  | .flaw reason => some (.breach reason)

/-- The next token; what stands behind the last one ends everything. -/
def lexeme : Reader Lexeme := fun scene memory place =>
  match scene.source.lexemes[place]? with
  | some l => .ok (some (l, place + 1), memory)
  | none =>
    match Ending.flaw? scene.source.heading scene.source.ending with
    | some flaw => .error flaw
    | none => .ok (none, memory)

/-- The next token, if something can be made of it. -/
def accept {α : Type} (select : Token → Option α) : Reader α := do
  let l ← lexeme
  match select l.token with
  | some a => pure a
  | none => absent

def mark (m : String) : Reader Unit := accept fun t => if t = .mark m then some () else none

def word (w : String) : Reader Unit := accept fun t => if t = .keyword w then some () else none

def letters : Reader (List Char) := accept fun t =>
  match t with
  | .name letters => some letters
  | _ => none

def name : Reader Expression := do
  let cs ← letters
  pure (.name (Text.plainName cs))

def quotation : Reader Quotation := accept fun t =>
  match t with
  | .quotation q => some q
  | _ => none

def lineEnd : Reader Unit := accept fun t => if t = .lineEnd then some () else none

/-- Reads the end of the text. -/
def finish : Reader Unit := accept fun t => if t = .finish then some () else none

/-- The number of brackets that are open behind the last token. -/
def depthBehind : Reader Nat := fun scene memory place =>
  .ok (some (((scene.source.lexemes[place - 1]?).map (·.depth)).getD 0, place), memory)

/-! ### Repetition -/

/-- A fixed result for what is found. -/
def giving {α β : Type} (b : β) (r : Reader α) : Reader β := (fun _ => b) <$> r

def option {α : Type} (r : Reader α) : Reader (Option α) := (some <$> r) <|> pure none

def followedBy {α : Type} (r : Reader α) : Reader Unit := fun scene memory place =>
  match r scene memory place with
  | .error flaw => .error flaw
  | .ok (none, memory) => .ok (none, memory)
  | .ok (some _, memory) => .ok (some ((), place), memory)

/-- Nothing, where something does not follow. -/
def notFollowedBy {α : Type} (r : Reader α) : Reader Unit := fun scene memory place =>
  match r scene memory place with
  | .error flaw => .error flaw
  | .ok (none, memory) => .ok (some ((), place), memory)
  | .ok (some _, memory) => .ok (none, memory)

/-- What a reader finds at most so many times. -/
def upTo {α : Type} (r : Reader α) : Nat → Reader (List α)
  | 0 => pure []
  | n + 1 => do
    match ← option r with
    | none => pure []
    | some a => do
      let others ← upTo r n
      pure (a :: others)

/-- What a reader finds as often as it finds something; the number of tokens bounds the number of
times. -/
def many {α : Type} (r : Reader α) : Reader (List α) := nested fun scene =>
  upTo r (scene.source.lexemes.size + 1) scene

/-- What a reader finds at least once. -/
def many1 {α : Type} (r : Reader α) : Reader (List α) := do
  match ← many r with
  | [] => absent
  | found => pure found

def commaSeparated {α : Type} (r : Reader α) : Reader (List α) := nested do
  let first ← r
  let others ← many do
    mark ","
    r
  pure (first :: others)

/-- Something joined by further parts as often as they follow. -/
def extended {α : Type} (r : Reader α) (further : α → Reader α) : Reader α := nested do
  let first ← r
  fun scene => extend (scene.source.lexemes.size + 1) first scene
where
  /-- Joins at most so many parts. -/
  extend : Nat → α → Reader α
    | 0, a => pure a
    | n + 1, a => do
      match ← option (further a) with
      | some longer => extend n longer
      | none => pure a

/-- Where the first reader finds something, what is made of it counts, and the other reader is not
tried. -/
def decided {α β : Type} (r : Reader α) (verdict : α → Reader β) (other : Reader β) : Reader β := do
  match ← option r with
  | some a => verdict a
  | none => other

end Reader

end StructLayout.Output.Handler
