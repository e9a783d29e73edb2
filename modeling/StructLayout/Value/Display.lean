import StructLayout.Binary64.Shortest
import StructLayout.Error
import StructLayout.Value.Basic

/-!
# Showing values in messages

A string is shown as it is; every other value is shown in the notation of messages, where strings
inside lists and objects are quoted.  Output goes through `shown`, which refuses a value that is
nested more deeply than a limit or holds an integer of too many digits.  The main statements say that a
string is shown unchanged (`display_str`, `shown_str`).
-/

namespace StructLayout.Value

def kindName : Value → String
  | .null => "NoneType"
  | .bool _ => "bool"
  | .int _ => "int"
  | .float _ => "float"
  | .str _ => "str"
  | .moment m => m.kindName
  | .list _ => "list"
  | .object _ => "dict"

def braced (body : String) : String := "\x7b" ++ body ++ "\x7d"

mutual

/-- A value in the notation of messages, strings quoted. -/
def written : Value → String
  | .null => "None"
  | .bool b => if b then "True" else "False"
  | .int n => Text.intText n
  | .float x => x.toText
  | .str s => Text.quoted s
  | .moment m => m.written
  | .list elements => "[" ++ ", ".intercalate (elementNotations elements) ++ "]"
  | .object members => braced (", ".intercalate (memberNotations members))

def elementNotations : List Value → List String
  | [] => []
  | v :: rest => written v :: elementNotations rest

/-- The members of an object in the notation of messages. -/
def memberNotations : List (String × Value) → List String
  | [] => []
  | (key, v) :: rest => (Text.quoted key ++ ": " ++ written v) :: memberNotations rest

end

/-- A value as text: a string as it is, a moment as people write it, anything else in the notation of
messages. -/
def display : Value → String
  | .str s => s
  | .moment m => m.text
  | v => written v

/-! ### Numbers too long to show -/

mutual

/-- Whether every integer in a value is short enough to be written in decimal. -/
def isShowable : Value → Bool
  | .int n => Text.isShowable n
  | .list elements => areShowable elements
  | .object members => areMembersShowable members
  | .null | .bool _ | .float _ | .str _ | .moment _ => true

/-- Whether every integer in some values is short enough to be written in decimal. -/
def areShowable : List Value → Bool
  | [] => true
  | v :: rest => isShowable v && areShowable rest

/-- Whether every integer in some members is short enough to be written in decimal. -/
def areMembersShowable : List (String × Value) → Bool
  | [] => true
  | (_, v) :: rest => isShowable v && areMembersShowable rest

end

/-! ### Values nested too deeply to show -/

mutual

/-- How many lists and objects are nested in each other in a value. -/
def nesting : Value → Nat
  | .list elements => nestingOfElements elements + 1
  | .object members => nestingOfMembers members + 1
  | .null | .bool _ | .int _ | .float _ | .str _ | .moment _ => 0

/-- The deepest nesting in some values. -/
def nestingOfElements : List Value → Nat
  | [] => 0
  | v :: rest => max (nesting v) (nestingOfElements rest)

def nestingOfMembers : List (String × Value) → Nat
  | [] => 0
  | (_, v) :: rest => max (nesting v) (nestingOfMembers rest)

end

/-! ### Values that can be shown -/

/-- A value that is not nested too deeply, and in which every integer is short enough, to be
written. -/
def requireShowable (limit : Nat) (v : Value) : Except Fault Value :=
  if limit < v.nesting then
    .error (.tooDeep " while getting the repr of an object")
  else if v.isShowable then .ok v
  else .error .tooLongToShow

/-- A value as text, unless it cannot be written. -/
def shown (limit : Nat) (v : Value) : Except Fault String := display <$> v.requireShowable limit

@[simp] theorem display_str (s : String) : display (.str s) = s := rfl

@[simp] theorem shown_str (limit : Nat) (s : String) : shown limit (.str s) = .ok s := by
  simp [shown, requireShowable, nesting, isShowable, Functor.map, Except.map]

@[simp] theorem display_int (n : Int) : display (.int n) = Text.intText n := by
  simp [display, written]

end StructLayout.Value
