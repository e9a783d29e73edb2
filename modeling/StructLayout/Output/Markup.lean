import StructLayout.Output.Handler
import StructLayout.Output.Style

/-!
# Markup

Listings are written with style tags in square brackets.  A tag starts with a lower-case letter,
`#`, `/` or `@` right after the bracket and ends at the next closing bracket, with no opening bracket
between; a backslash in front makes it literal.  On plain output the tags vanish (`Markup.render`),
and text that is to show as it is has its tags made literal first (`Markup.escape`).  A closing tag
has to close a tag that is open; styles that mean the same have the same name.  What stands behind an
equals sign in a tag is its parameter.  The main statement says that text without brackets and
backslashes is not changed by escaping (`escape_plain`).
-/

namespace StructLayout.Output.Markup

/-- Whether a character can follow the opening bracket of a tag. -/
def startsTag (c : Char) : Bool :=
  ('a' ≤ c && c ≤ 'z') || c = '#' || c = '/' || c = '@'

/-- The inside of a tag and the text after it, given the text after an opening bracket. -/
def tagAfterBracket? (cs : List Char) : Option (List Char × List Char) :=
  match cs with
  | [] => none
  | c :: rest =>
    if startsTag c then
      match rest.dropWhile fun d => d != '[' && d != ']' with
      | ']' :: after => some (c :: rest.takeWhile (fun d => d != '[' && d != ']'), after)
      | _ => none
    else none

/-- A piece of marked-up text: text to show, or a tag with the place where it stands. -/
inductive Piece where
  | text (cs : List Char)
  | tag (start : Nat) (inside : List Char)
deriving DecidableEq, Repr

/-- The run of backslashes at the start of a text, and a tag right behind it. -/
def backslashesAndTag? (cs : List Char) : Option (Nat × List Char × List Char) :=
  let count := (cs.takeWhile (· = '\\')).length
  match cs.dropWhile (· = '\\') with
  | '[' :: rest => (tagAfterBracket? rest).map fun t => (count, t.1, t.2)
  | _ => none

theorem length_of_tagAfterBracket? {cs inside after : List Char}
    (h : tagAfterBracket? cs = some (inside, after)) : after.length < cs.length := by
  unfold tagAfterBracket? at h
  split at h
  · cases h
  · next c rest =>
    split at h
    · split at h
      · next after' hd =>
        have hl := (List.dropWhile_sublist fun d => d != '[' && d != ']' : List.Sublist _ rest).length_le
        rw [hd] at hl
        simp only [List.length_cons] at hl
        cases h
        simp only [List.length_cons]
        omega
      · cases h
    · cases h

theorem length_of_backslashesAndTag? {cs inside after : List Char} {count : Nat}
    (h : backslashesAndTag? cs = some (count, inside, after)) : after.length < cs.length := by
  unfold backslashesAndTag? at h
  dsimp only at h
  split at h
  · next rest hd =>
    obtain ⟨t, ht, he⟩ := Option.map_eq_some_iff.1 h
    have hl := (List.dropWhile_sublist fun d => decide (d = '\\') : List.Sublist _ cs).length_le
    rw [hd] at hl
    have : t.2.length < rest.length := length_of_tagAfterBracket? ht
    cases he
    simp only [List.length_cons] at hl
    omega
  · cases h

def bracketed (inside : List Char) : List Char := '[' :: inside ++ [']']

/-- Text with every tag made literal; the backslashes in front of a tag are doubled. -/
def escapeChars : List Char → List Char
  | [] => []
  | c :: rest =>
    match _h : backslashesAndTag? (c :: rest) with
    | some (count, inside, after) =>
      List.replicate (2 * count + 1) '\\' ++ bracketed inside ++ escapeChars after
    | none =>
      if c = '\\' then
        '\\' :: rest.takeWhile (· = '\\') ++ escapeChars (rest.dropWhile (· = '\\'))
      else c :: escapeChars rest
termination_by cs => cs.length
decreasing_by
  · exact length_of_backslashesAndTag? _h
  · have := (List.dropWhile_sublist fun d => decide (d = '\\') : List.Sublist _ rest).length_le
    simp only [List.length_cons]
    omega
  · simp only [List.length_cons]
    omega

def endsWithLoneBackslash (cs : List Char) : Bool :=
  (cs.reverse.takeWhile (· = '\\')).length = 1

/-- Text that shows as it is when it is rendered. -/
def escape (s : String) : String :=
  let cs := escapeChars s.toList
  String.ofList (if endsWithLoneBackslash cs then cs ++ ['\\'] else cs)

/-- Text between tags, where a backslash in front of a bracket does not show. -/
def unescapeBrackets : List Char → List Char
  | '\\' :: '[' :: rest => '[' :: unescapeBrackets rest
  | c :: rest => c :: unescapeBrackets rest
  | [] => []

/-- Puts a character in front of the first piece, which is text. -/
def consText (c : Char) : List Piece → List Piece
  | .text cs :: rest => .text (c :: cs) :: rest
  | pieces => .text [c] :: pieces

/-- Puts characters in front of the first piece, which is text. -/
def appendText (cs : List Char) (pieces : List Piece) : List Piece := cs.foldr consText pieces

/-- The pieces of marked-up text that starts at a place. -/
def pieces (start : Nat) : List Char → List Piece
  | [] => []
  | c :: rest =>
    match _h : backslashesAndTag? (c :: rest) with
    | some (count, inside, after) =>
      let next := start + (rest.length + 1 - after.length)
      let shown := List.replicate (count / 2) '\\'
      let others := pieces next after
      .text shown ::
        (if count % 2 = 1 then .text (bracketed inside) :: others
          else .tag (start + count) inside :: others)
    | none =>
      if c = '\\' then
        let run := rest.takeWhile (· = '\\')
        appendText ('\\' :: run) (pieces (start + 1 + run.length) (rest.dropWhile (· = '\\')))
      else consText c (pieces (start + 1) rest)
termination_by cs => cs.length
decreasing_by
  · exact length_of_backslashesAndTag? _h
  · have := (List.dropWhile_sublist fun d => decide (d = '\\') : List.Sublist _ rest).length_le
    simp only [List.length_cons]
    omega
  · simp only [List.length_cons]
    omega

/-- A tag that is open: the normal form of its name, and its parameter if it has one. -/
structure OpenTag where
  name : List Char
  parameter : Option (List Char)
deriving DecidableEq, Repr, Inhabited

def beforeEquals (inside : List Char) : List Char := inside.takeWhile (· != '=')

def OpenTag.ofInside (inside : List Char) : Except Fault OpenTag := do
  let name ← Style.normalize (beforeEquals inside)
  let parameter := match inside.dropWhile (· != '=') with
    | _ :: rest => some rest
    | [] => none
  pure { name, parameter }

def OpenTag.isHandler (t : OpenTag) : Bool := t.name.head? = some '@'

/-- Checks the parameter of a handler that is closed; a style has nothing to check. -/
def OpenTag.checkClosed (t : OpenTag) : Except Fault Unit :=
  match t.parameter with
  | some (c :: rest) => if t.isHandler then Handler.check (c :: rest) else .ok ()
  | _ => .ok ()

/-- Checks that the style of a tag, its parameter included, has no number that cannot be read; words
that are no style have no effect. -/
def OpenTag.checkStyle (t : OpenTag) : Except Fault Unit :=
  let words := t.name ++ (t.parameter.map (' ' :: ·)).getD []
  match Style.read words with
  | .error (.number fault) => if t.isHandler then .ok () else .error fault
  | _ => .ok ()

/-- A tag that is open, and where the text that it marks starts. -/
abbrev Opened := Nat × OpenTag

/-- The open tags, the last one first, after a closing tag, with the one that it closes; a closing
tag without a name closes the last one. -/
def closeTag (stack : List Opened) (place : Nat) (inside : List Char) :
    Except Fault (Opened × List Opened) :=
  let place := " at position " ++ Text.intText place
  let words := Text.trim (beforeEquals (inside.drop 1))
  if words.isEmpty then
    match stack with
    | last :: rest => .ok (last, rest)
    | [] => .error (.badMarkup ("closing tag '[/]'" ++ place ++ " has nothing to close"))
  else do
    let name ← Style.normalize words
    match stack.find? (·.2.name = name) with
    | some tag => pure (tag, stack.eraseP (·.2.name = name))
    | none =>
      let tag := String.ofList (bracketed inside)
      .error (.badMarkup ("closing tag '" ++ tag ++ "'" ++ place ++ " doesn't match any open tag"))

/-- The control characters that never show. -/
def isControl (c : Char) : Bool :=
  c = '\x07' || c = '\x08' || c = '\x0b' || c = '\x0c' || c = '\r'

/-- A piece of text as it shows. -/
def shownText (cs : List Char) : List Char := (unescapeBrackets cs).filter fun c => !isControl c

/-- A stretch of text with a tag. -/
structure Span where
  start : Nat
  stop : Nat
  tag : OpenTag
deriving DecidableEq, Repr, Inhabited

/-- Text as it shows, with the stretches that have styles. -/
structure Rendered where
  text : List Char
  spans : List Span
deriving DecidableEq, Repr, Inhabited

/-- The same with text in front, which the places of the spans already count. -/
def Rendered.withText (cs : List Char) (r : Rendered) : Rendered := { r with text := cs ++ r.text }

/-- The same with the span of a closed tag, unless the tag is a handler, which has no style. -/
def Rendered.withSpan (s : Span) (r : Rendered) : Rendered :=
  if s.tag.isHandler then r else { r with spans := s :: r.spans }

/-- The text of pieces that start at a place, given the tags that are open.  The spans come in the
order in which their tags are closed; tags that are never closed reach to the end, the last first. -/
def renderPieces (start : Nat) (stack : List Opened) : List Piece → Except Fault Rendered
  | [] => .ok { text := [], spans := stack.map fun t => { start := t.1, stop := start, tag := t.2 } }
  | .text cs :: rest => do
    let shown := shownText cs
    (·.withText shown) <$> renderPieces (start + shown.length) stack rest
  | .tag place inside :: rest =>
    if inside.head? = some '/' then do
      let (closed, stack) ← closeTag stack place inside
      closed.2.checkClosed
      (·.withSpan { start := closed.1, stop := start, tag := closed.2 }) <$>
        renderPieces start stack rest
    else do
      let tag ← OpenTag.ofInside inside
      renderPieces start ((start, tag) :: stack) rest

/-- Marked-up text as it shows on plain output, with its spans from left to right; of two that start
at one place the one that was closed last comes first. -/
def render (s : String) : Except Fault Rendered := do
  let r ← renderPieces 0 [] (pieces 0 s.toList)
  pure { r with spans := r.spans.reverse.mergeSort fun a b => decide (a.start ≤ b.start) }

/-- Text without brackets and backslashes holds no tag. -/
theorem backslashesAndTag?_plain {cs : List Char} (h : ∀ c ∈ cs, c ≠ '[' ∧ c ≠ '\\') :
    backslashesAndTag? cs = none := by
  cases cs with
  | nil => rfl
  | cons c rest =>
    have hc := h c (by simp)
    unfold backslashesAndTag?
    simp only [List.dropWhile_cons, decide_eq_true_eq, hc.2, if_false]
    split
    · next heq => exact absurd (List.cons.inj heq).1 hc.1
    · rfl

/-- Text without brackets and backslashes is not changed by escaping. -/
theorem escape_plain {cs : List Char} (h : ∀ c ∈ cs, c ≠ '[' ∧ c ≠ '\\') : escapeChars cs = cs := by
  fun_induction escapeChars cs with
  | case1 => rfl
  | case2 c rest count inside after hs => simp [backslashesAndTag?_plain h] at hs
  | case3 rest => exact absurd rfl (h '\\' (by simp)).2
  | case4 c rest _ _ ih => rw [ih fun d hd => h d (by simp [hd])]

end StructLayout.Output.Markup
