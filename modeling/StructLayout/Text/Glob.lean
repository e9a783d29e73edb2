/-!
# Glob patterns

A pattern matches a whole text: `*` stands for any run of characters, `?` for any one character, and
a bracket set for one character that is, or with a leading `!` is not, in the set.  Sets hold
characters and ranges; a range whose ends are the wrong way round is empty and takes its ends with
it.  A bracket that is not closed stands for itself, and there are no escapes.  The main statements
say that a text without wildcards matches only itself (`matches_literals_iff`) and that the table by
which a pattern is decided answers as the recursive reading of its parts does (`isMatch_eq`).
-/

namespace StructLayout.Text.Glob

/-- A member of a bracket set: all characters between two, both included. -/
structure Range where
  low : Char
  high : Char
deriving DecidableEq, Repr

inductive Part where
  | literal (c : Char)
  | anyChar
  | anyRun
  | set (negated : Bool) (ranges : List Range)
deriving DecidableEq, Repr

def Part.admits : Part → Char → Bool
  | .literal d, c => c = d
  | .anyChar, _ => true
  | .anyRun, _ => false
  | .set negated ranges, c => (ranges.any fun r => r.low ≤ c && c ≤ r.high) != negated

def matchParts : List Part → List Char → Bool
  | [], cs => cs.isEmpty
  | .anyRun :: parts, [] => matchParts parts []
  | .anyRun :: parts, c :: cs => matchParts parts (c :: cs) || matchParts (.anyRun :: parts) cs
  | _ :: _, [] => false
  | part :: parts, c :: cs => part.admits c && matchParts parts cs
termination_by parts cs => parts.length + cs.length

/-! ### Bracket sets -/

/-- What is inside a bracket set, and the pattern behind it; a closing bracket that comes first, also
behind `!`, belongs to the set. -/
def setBody? (cs : List Char) : Option (List Char × List Char) :=
  let (bang, rest) := match cs with
    | '!' :: r => (['!'], r)
    | r => ([], r)
  let (first, rest) := match rest with
    | ']' :: r => ([']'], r)
    | r => ([], r)
  match rest.dropWhile (· != ']') with
  | ']' :: after => some (bang ++ first ++ rest.takeWhile (· != ']'), after)
  | _ => none

/-- Cuts the inside of a set at the hyphens that make ranges: the first hyphen not before the place
`start`, then the first one at least two characters further on, and so forth. -/
def cutAtHyphens : Nat → Nat → List Char → List (List Char)
  | 0, _, cs => [cs]
  | fuel + 1, start, cs =>
    let head := cs.take start
    let tail := cs.drop start
    match tail.dropWhile (· != '-') with
    | '-' :: after => (head ++ tail.takeWhile (· != '-')) :: cutAtHyphens fuel 2 after
    | _ => [cs]

/-- A last chunk that is empty gives its hyphen back to the chunk before it. -/
def giveBackHyphen : List (List Char) → List (List Char)
  | [] => []
  | [chunk] => [chunk]
  | [chunk, []] => [chunk ++ ['-']]
  | chunk :: rest => chunk :: giveBackHyphen rest

/-- Joins chunks whose range would be empty, from the right; both ends of the range are dropped. -/
def dropEmptyRanges : List (List Char) → List (List Char)
  | [] => []
  | chunk :: rest =>
    match dropEmptyRanges rest with
    | [] => [chunk]
    | next :: more =>
      match chunk.getLast?, next.head? with
      | some high, some low =>
        if low < high then (chunk.dropLast ++ next.drop 1) :: more else chunk :: next :: more
      | _, _ => chunk :: next :: more

def single (c : Char) : Range := { low := c, high := c }

/-- The ranges of chunks: between two chunks a range from the last character of one to the first of
the other, and all other characters by themselves.  A hyphen without a character before it makes no
range and stands for itself. -/
def rangesOf : List (List Char) → List Range
  | [] => []
  | [chunk] => chunk.map single
  | chunk :: next :: rest =>
    match chunk.getLast?, next with
    | some low, high :: more =>
      chunk.dropLast.map single ++ { low, high } :: rangesOf (more :: rest)
    | _, _ => chunk.map single ++ single '-' :: rangesOf (next :: rest)
termination_by chunks => chunks.length

/-- The chunks of the inside of a set. -/
def chunksOf (body : List Char) : List (List Char) :=
  if body.contains '-' then
    let start := if body.head? = some '!' then 2 else 1
    dropEmptyRanges (giveBackHyphen (cutAtHyphens body.length start body))
  else [body]

def setPart (body : List Char) : Part :=
  match chunksOf body with
  | ('!' :: first) :: rest => .set true (rangesOf (first :: rest))
  | chunks => .set false (rangesOf chunks)

/-! ### Patterns -/

def parse : Nat → List Char → List Part
  | 0, _ => []
  | _ + 1, [] => []
  | fuel + 1, '*' :: rest => .anyRun :: parse fuel rest
  | fuel + 1, '?' :: rest => .anyChar :: parse fuel rest
  | fuel + 1, '[' :: rest =>
    match setBody? rest with
    | some (body, after) => setPart body :: parse fuel after
    | none => .literal '[' :: parse fuel rest
  | fuel + 1, c :: rest => .literal c :: parse fuel rest

/-- The answers of a question for every suffix of a text, the whole text first. -/
def suffixRow (ask : List Char → Bool) : List Char → List Bool
  | [] => [ask []]
  | c :: cs => ask (c :: cs) :: suffixRow ask cs

/-- Which suffixes of a text match a part and the parts behind it, given which ones match the parts
behind it. -/
def extendRow (part : Part) : List Char → List Bool → List Bool
  | c :: cs, here :: row =>
    let later := extendRow part cs row
    (if part = .anyRun then here || later.headD false else part.admits c && row.headD false) :: later
  | _, row => [part = .anyRun && row.headD false]

/-- Which suffixes of a text match parts; every part is tried once at every place. -/
def matchRow (parts : List Part) (cs : List Char) : List Bool :=
  parts.foldr (fun part row => extendRow part cs row) (suffixRow List.isEmpty cs)

def isMatch (pattern text : String) : Bool :=
  let cs := pattern.toList
  (matchRow (parse cs.length cs) text.toList).headD false

/-! ### Matching -/

/-- Without wildcards only the text itself matches. -/
theorem matches_literals_iff (ds cs : List Char) :
    matchParts (ds.map .literal) cs = true ↔ cs = ds := by
  induction ds generalizing cs with
  | nil => simp [matchParts]
  | cons d ds ih =>
    cases cs with
    | nil => simp [matchParts]
    | cons c cs => simp [matchParts, Part.admits, ih]

/-! ### The table -/

@[simp] theorem headD_suffixRow (ask : List Char → Bool) (cs : List Char) :
    (suffixRow ask cs).headD false = ask cs := by
  cases cs <;> rfl

theorem extendRow_suffixRow (part : Part) (parts : List Part) (cs : List Char) :
    extendRow part cs (suffixRow (matchParts parts) cs) =
      suffixRow (matchParts (part :: parts)) cs := by
  induction cs with
  | nil => cases part <;> simp [suffixRow, extendRow, matchParts]
  | cons c cs ih =>
    simp only [suffixRow, extendRow, ih, headD_suffixRow, List.cons.injEq, and_true]
    cases part <;> simp [matchParts]

theorem matchRow_eq (parts : List Part) (cs : List Char) :
    matchRow parts cs = suffixRow (matchParts parts) cs := by
  induction parts with
  | nil =>
    have h : matchParts [] = List.isEmpty := funext fun cs => by simp [matchParts]
    simp [matchRow, h]
  | cons part parts ih =>
    rw [← extendRow_suffixRow, ← ih]
    rfl

/-- The table answers as the recursive reading does. -/
theorem isMatch_eq (pattern text : String) :
    isMatch pattern text =
      matchParts (parse pattern.toList.length pattern.toList) text.toList := by
  simp only [isMatch, matchRow_eq, headD_suffixRow]

end StructLayout.Text.Glob
