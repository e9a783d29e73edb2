/-!
# Code and literals

Source text is read character by character in one of three modes: in code, inside a literal, or just
after a backslash inside a double-quoted literal.  A literal starts at a double quote, a single quote
or a backtick and ends at the next quote of its kind; only in double quotes a backslash keeps the
character behind it from ending the literal.  `mark` tells for every character whether it is code.
The main statements say that marking keeps the text (`map_fst_mark`) and that a text without quotes
is all code (`mark_code_eq`).
-/

namespace StructLayout.Source

/-- What the next character is part of. -/
inductive Mode where
  | code
  | literal (quote : Char)
  | escaped
deriving DecidableEq, Repr, Inhabited

/-- Whether a character starts a literal. -/
def isQuote (c : Char) : Bool := c = '"' || c = '\x60' || c = '\''

def Mode.next : Mode → Char → Mode
  | .code, c => if isQuote c then .literal c else .code
  | .literal quote, c =>
    if c = '\\' && quote = '"' then .escaped
    else if c = quote then .code
    else .literal quote
  | .escaped, _ => .literal '"'

/-- Whether a character read in a mode is code; quotes belong to their literals. -/
def Mode.isCode (m : Mode) (c : Char) : Bool := m = .code && !isQuote c

def Mode.after (m : Mode) (cs : List Char) : Mode := cs.foldl Mode.next m

/-- The characters of a text, each with whether it is code. -/
def mark (m : Mode) : List Char → List (Char × Bool)
  | [] => []
  | c :: rest => (c, m.isCode c) :: mark (m.next c) rest

@[simp] theorem map_fst_mark (m : Mode) (cs : List Char) : (mark m cs).map Prod.fst = cs := by
  induction cs generalizing m with
  | nil => rfl
  | cons c rest ih => simp [mark, ih]

@[simp] theorem length_mark (m : Mode) (cs : List Char) : (mark m cs).length = cs.length := by
  rw [← List.length_map Prod.fst, map_fst_mark]

theorem mark_append (m : Mode) (xs ys : List Char) :
    mark m (xs ++ ys) = mark m xs ++ mark (m.after xs) ys := by
  induction xs generalizing m with
  | nil => rfl
  | cons c rest ih => simp [mark, ih, Mode.after]

/-- A text without quotes is all code. -/
theorem mark_code_eq {cs : List Char} (h : ∀ c ∈ cs, isQuote c = false) :
    mark .code cs = cs.map fun c => (c, true) := by
  induction cs with
  | nil => rfl
  | cons c rest ih =>
    have hc := h c (by simp)
    simp [mark, Mode.isCode, Mode.next, hc, ih fun d hd => h d (by simp [hd])]

end StructLayout.Source
