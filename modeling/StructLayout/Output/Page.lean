import StructLayout.Output.Markup
import StructLayout.Output.Printer
import StructLayout.Text.Blank
import StructLayout.Text.Lines

/-!
# The page

Listings are printed on a page of fixed width.  A line that is too long is broken between words; a
word keeps the blanks behind it, and a word longer than a line is cut into pieces.  A rule is a
horizontal line across the page, with a title at its left end if there is one.  The main statements
say that a rule is exactly as wide as the page (`length_plainRule`) and that a broken line is never
wider (`length_fit_le`).
-/

namespace StructLayout.Output.Page

/-- The number of columns of a page. -/
def width : Nat := 120

/-- The first word of a text with the blanks around it, and the rest. -/
def firstWord (cs : List Char) : List Char × List Char :=
  let lead := cs.takeWhile Text.isBlank
  let rest := cs.dropWhile Text.isBlank
  let body := rest.takeWhile fun c => !Text.isBlank c
  let rest := rest.dropWhile fun c => !Text.isBlank c
  (lead ++ body ++ rest.takeWhile Text.isBlank, rest.dropWhile Text.isBlank)

/-- The words of a text, each with the blanks behind it and the first one also with those in front
of it. -/
def words : Nat → List Char → List (List Char)
  | 0, _ => []
  | fuel + 1, cs =>
    if Text.isAllBlank cs then []
    else
      let w := firstWord cs
      w.1 :: words fuel w.2

/-- Where a line has been read to: the place of the next word, the columns used on the current line,
and the places of the breaks so far, last first. -/
structure Cursor where
  start : Nat
  used : Nat
  breaks : List Nat
deriving Repr

/-- The places at which a word of some length is cut into pieces as wide as the page. -/
def cuts (start length : Nat) : List Nat :=
  ((List.range ((length + width - 1) / width)).map fun k => start + k * width).filter (0 < ·)

/-- Places a word: on the current line if it fits without its blanks, otherwise on a new one, cut
into pieces if it is longer than a line. -/
def Cursor.place (cursor : Cursor) (word : List Char) : Cursor :=
  let bare := (Text.trimEnd word).length
  let next := cursor.start + word.length
  if cursor.used + bare ≤ width then
    { cursor with start := next, used := cursor.used + word.length }
  else if bare > width then
    let last := word.length - (word.length - 1) / width * width
    { start := next, used := last, breaks := (cuts cursor.start word.length).reverse ++ cursor.breaks }
  else if 0 < cursor.used && 0 < cursor.start then
    { start := next, used := word.length, breaks := cursor.start :: cursor.breaks }
  else { cursor with start := next }

/-- The places at which a line is broken. -/
def breaksOf (line : List Char) : List Nat :=
  ((words line.length line).foldl Cursor.place { start := 0, used := 0, breaks := [] }).breaks.reverse

/-- A text divided at increasing places, the first of them counted from `start`. -/
def divideAt (start : Nat) : List Nat → List Char → List (List Char)
  | [], cs => [cs]
  | place :: rest, cs => cs.take (place - start) :: divideAt place rest (cs.drop (place - start))

/-- A line cut to the width of the page. -/
def fit (line : List Char) : List Char := line.take width

/-- A line broken to the width of the page. -/
def wrap (line : List Char) : List (List Char) := (divideAt 0 (breaksOf line) line).map fit

/-- What printing a text puts on the page: every line broken to the width, and a line break at the
end. -/
def print (text : List Char) : String :=
  String.ofList (((Text.splitLines text).flatMap wrap).flatMap fun line => line ++ ['\n'])

/-! ### Styles -/

/-- The places where the pieces of a line that starts at a place start and end, given the places in
the line where it is broken and its length. -/
def piecesBetween (start : Nat) : List Nat → List (Nat × Nat)
  | first :: second :: rest => (start + first, start + second) :: piecesBetween start (second :: rest)
  | _ => []

/-- The places in a text where the lines that it is printed on start and end. -/
def ranges (start : Nat) : List (List Char) → List (Nat × Nat)
  | [] => []
  | line :: rest =>
    piecesBetween start (0 :: breaksOf line ++ [line.length]) ++ ranges (start + line.length + 1) rest

/-- Whether a span reaches what is left of a line after it was cut to the width. -/
def reaches (line : Nat × Nat) (s : Markup.Span) : Bool :=
  line.2 - line.1 ≤ width || s.start - line.1 < width

def covers (line : Nat × Nat) (s : Markup.Span) : Bool := max s.start line.1 < min s.stop line.2

/-- The tags whose styles are looked up when a text is printed, line by line.  A span that covers
nothing is lost when the text is divided into lines. -/
def styledTags (r : Markup.Rendered) : List Markup.OpenTag :=
  match ranges 0 (Text.splitLines r.text) with
  | [line] => (r.spans.filter (reaches line)).map (·.tag)
  | lines => lines.flatMap fun line =>
    (r.spans.filter fun s => covers line s && reaches line s).map (·.tag)

/-- What printing marked-up text puts on the page. -/
def printMarkup (s : String) : Except Fault String := do
  let r ← Markup.render s
  (styledTags r).forM Markup.OpenTag.checkStyle
  pure (print r.text)

/-! ### Rules -/

/-- A horizontal line of some length. -/
def dashes (n : Nat) : List Char := List.replicate n '─'

/-- A horizontal line across the page. -/
def plainRule : List Char := dashes width

/-- A title cut to leave room for a blank and a dash behind it. -/
def ruleTitle (title : List Char) : List Char :=
  if title.length ≤ width - 2 then title else title.take (width - 3) ++ ['…']

/-- A horizontal line with a title at its left end. -/
def titledRule (title : List Char) : List Char :=
  let head := ruleTitle (title.map fun c => if c = '\n' then ' ' else c) ++ [' ']
  head ++ dashes (width - head.length)

def printRule (title : String) : Except Fault String :=
  if title.isEmpty then .ok (String.ofList (plainRule ++ ['\n']))
  else (Markup.render title).map fun r => String.ofList (titledRule r.text ++ ['\n'])

/-- A page prints marked-up lines and rules. -/
def printer : Printer where
  escape := Markup.escape
  line := printMarkup
  rule := printRule

theorem length_plainRule : plainRule.length = width := by simp [plainRule, dashes]

theorem length_fit_le (line : List Char) : (fit line).length ≤ width := by
  simp only [fit, List.length_take]
  omega

theorem length_ruleTitle_le (title : List Char) : (ruleTitle title).length ≤ width - 2 := by
  unfold ruleTitle
  split
  · assumption
  · simp only [List.length_append, List.length_take, List.length_singleton, width]
    omega

theorem length_titledRule (title : List Char) : (titledRule title).length = width := by
  have h := length_ruleTitle_le (title.map fun c => if c = '\n' then ' ' else c)
  simp only [titledRule, dashes, List.length_append, List.length_replicate,
    List.length_singleton, width] at *
  omega

end StructLayout.Output.Page
