import StructLayout.Binary64.Shortest
import StructLayout.Text.Digit
import StructLayout.Text.Quoted
import StructLayout.Value.Basic

/-!
# Writing JSON

Two layouts of the same notation: `Json.compact` writes a value on one line, and `Json.pretty` gives
every element and member a line of its own, indented by two spaces for each level; an empty list or
object stays on one line.  Characters beyond ASCII are written as they are.
-/

namespace StructLayout.Json

/-- One character inside a string: the quote, the backslash and the control characters are
escaped. -/
def escapeChar (c : Char) : List Char :=
  if c = '"' then ['\\', '"']
  else if c = '\\' then ['\\', '\\']
  else if c = '\n' then ['\\', 'n']
  else if c = '\r' then ['\\', 'r']
  else if c = '\t' then ['\\', 't']
  else if c = '\x08' then ['\\', 'b']
  else if c = '\x0c' then ['\\', 'f']
  else if c.toNat < 0x20 then '\\' :: 'u' :: Text.hexadecimal 4 c.toNat
  else [c]

def stringText (s : String) : String :=
  String.ofList ('"' :: s.toList.flatMap escapeChar ++ ['"'])

/-- A floating-point number; the values that are not numbers are written as words. -/
def numberText : Binary64 → String
  | .nan => "NaN"
  | .infinite negative => if negative then "-Infinity" else "Infinity"
  | x => x.toText

mutual

/-- A value on one line.  The notation has no moments, so one is written as a string. -/
def compact : Value → String
  | .null => "null"
  | .bool b => if b then "true" else "false"
  | .int n => Text.intText n
  | .float x => numberText x
  | .str s => stringText s
  | .moment m => stringText m.text
  | .list elements => "[" ++ ", ".intercalate (compactElements elements) ++ "]"
  | .object members => "\x7b" ++ ", ".intercalate (compactMembers members) ++ "\x7d"

def compactElements : List Value → List String
  | [] => []
  | v :: rest => compact v :: compactElements rest

/-- The members of an object, each on one line. -/
def compactMembers : List (String × Value) → List String
  | [] => []
  | (key, v) :: rest => (stringText key ++ ": " ++ compact v) :: compactMembers rest

end

def newLine (level : Nat) : String := String.ofList ('\n' :: List.replicate (2 * level) ' ')

def bracketed (opening closing : String) (level : Nat) (items : List String) : String :=
  if items.isEmpty then opening ++ closing
  else
    opening ++ newLine (level + 1) ++ (("," ++ newLine (level + 1)).intercalate items) ++
      newLine level ++ closing

mutual

/-- A value with its lists and objects spread over lines, at a level of indentation. -/
def prettyAt (level : Nat) : Value → String
  | .list elements => bracketed "[" "]" level (prettyElements (level + 1) elements)
  | .object members => bracketed "\x7b" "\x7d" level (prettyMembers (level + 1) members)
  | v => compact v

def prettyElements (level : Nat) : List Value → List String
  | [] => []
  | v :: rest => prettyAt level v :: prettyElements level rest

def prettyMembers (level : Nat) : List (String × Value) → List String
  | [] => []
  | (key, v) :: rest => (stringText key ++ ": " ++ prettyAt level v) :: prettyMembers level rest

end

def pretty (v : Value) : String := prettyAt 0 v

end StructLayout.Json
