import StructLayout.Source.Bracket
import StructLayout.Text.Blank

/-!
# Type expressions on one line

A type expression that was written over several lines is brought onto one: a line break counts as a
semicolon, a semicolon is followed by one blank, braces stand close to what they enclose without
semicolons between, and runs of blanks become one.  The main statement says that this neither adds
nor removes an opening bracket (`openers_compact`).
-/

namespace StructLayout.Source

def semicolonsForBreaks (cs : List Char) : List Char := cs.map fun c => if c = '\n' then ';' else c

/-- A text without the blanks in front of its semicolons. -/
def closeUpSemicolons : List Char → List Char
  | [] => []
  | c :: rest =>
    let closed := closeUpSemicolons rest
    if Text.isBlank c && closed.head? = some ';' then closed else c :: closed

/-- A text with exactly one blank behind every semicolon; `gap` says whether blanks are being
dropped. -/
def spaceSemicolons (gap : Bool) : List Char → List Char
  | [] => []
  | c :: rest =>
    if gap && Text.isBlank c then spaceSemicolons true rest
    else if c = ';' then ';' :: ' ' :: spaceSemicolons true rest
    else c :: spaceSemicolons false rest

/-- What may still be dropped behind a brace: blanks and one semicolon, blanks only, or nothing. -/
inductive Slack where
  | semicolon
  | blanks
  | nothing
deriving DecidableEq, Repr, Inhabited

/-- A text without the blanks behind each brace and one semicolon among them; `behind` is what may
still be dropped behind that semicolon. -/
def tighten (brace : Char) (behind : Slack) : Slack → List Char → List Char
  | _, [] => []
  | slack, c :: rest =>
    if slack != .nothing && Text.isBlank c then tighten brace behind slack rest
    else if slack = .semicolon && c = ';' then tighten brace behind behind rest
    else c :: tighten brace behind (if c = brace then .semicolon else .nothing) rest

/-- A text without the blanks behind opening braces and a semicolon among them. -/
def tightenOpening (cs : List Char) : List Char := tighten '\x7b' .blanks .nothing cs

/-- A text without the blanks in front of closing braces and a semicolon before those blanks. -/
def tightenClosing (cs : List Char) : List Char :=
  (tighten '\x7d' .nothing .nothing cs.reverse).reverse

/-- A text with each run of blanks replaced by one; `inRun` says whether the character before was
blank. -/
def squeeze (inRun : Bool) : List Char → List Char
  | [] => []
  | c :: rest =>
    if Text.isBlank c then (if inRun then squeeze true rest else ' ' :: squeeze true rest)
    else c :: squeeze false rest

/-- A type expression on one line. -/
def compact (cs : List Char) : List Char :=
  Text.trim <| squeeze false <| tightenClosing <| tightenOpening <| spaceSemicolons false <|
    closeUpSemicolons <| Text.trim <| semicolonsForBreaks cs

/-! ### Opening brackets -/

/-- The number of opening brackets in a text. -/
def openers (cs : List Char) : Nat := cs.countP isOpener

theorem openers_cons (c : Char) (cs : List Char) :
    openers (c :: cs) = openers cs + if isOpener c then 1 else 0 := by
  simp [openers, List.countP_cons]

@[simp] theorem openers_append (xs ys : List Char) :
    openers (xs ++ ys) = openers xs + openers ys := by
  simp [openers]

@[simp] theorem openers_reverse (cs : List Char) : openers cs.reverse = openers cs := by
  simp [openers]

theorem openers_le_of_sublist {xs ys : List Char} (h : xs.Sublist ys) : openers xs ≤ openers ys :=
  h.countP_le

theorem isOpener_of_isBlank {c : Char} (h : Text.isBlank c = true) : isOpener c = false := by
  by_cases h1 : c = '('
  · subst h1
    exact absurd h (by decide)
  · by_cases h2 : c = '['
    · subst h2
      exact absurd h (by decide)
    · by_cases h3 : c = '\x7b'
      · subst h3
        exact absurd h (by decide)
      · simp [isOpener, h1, h2, h3]

theorem openers_dropWhile_isBlank (cs : List Char) :
    openers (cs.dropWhile Text.isBlank) = openers cs := by
  induction cs with
  | nil => rfl
  | cons c rest ih =>
    by_cases h : Text.isBlank c = true
    · simp [h, ih, openers_cons, isOpener_of_isBlank h]
    · simp [h]

@[simp] theorem openers_trim (cs : List Char) : openers (Text.trim cs) = openers cs := by
  simp only [Text.trim, Text.trimEnd, Text.trimStart, openers_reverse, openers_dropWhile_isBlank]

theorem openers_semicolonsForBreaks (cs : List Char) :
    openers (semicolonsForBreaks cs) = openers cs := by
  induction cs with
  | nil => rfl
  | cons c rest ih =>
    simp only [semicolonsForBreaks, List.map_cons, openers_cons] at ih ⊢
    rw [ih]
    by_cases h : c = '\n'
    · subst h
      rfl
    · simp [h]

theorem openers_closeUpSemicolons (cs : List Char) :
    openers (closeUpSemicolons cs) = openers cs := by
  induction cs with
  | nil => rfl
  | cons c rest ih =>
    unfold closeUpSemicolons
    dsimp only
    split
    · next h =>
      simp only [Bool.and_eq_true] at h
      simp [openers_cons, ih, isOpener_of_isBlank h.1]
    · simp [openers_cons, ih]

theorem openers_spaceSemicolons (gap : Bool) (cs : List Char) :
    openers (spaceSemicolons gap cs) = openers cs := by
  induction cs generalizing gap with
  | nil => rfl
  | cons c rest ih =>
    unfold spaceSemicolons
    split
    · next h =>
      simp only [Bool.and_eq_true] at h
      simp [openers_cons, ih, isOpener_of_isBlank h.2]
    · split
      · next h =>
        subst h
        simp only [openers_cons, ih]
        rfl
      · simp [openers_cons, ih]

theorem openers_tighten (brace : Char) (behind slack : Slack) (cs : List Char) :
    openers (tighten brace behind slack cs) = openers cs := by
  induction cs generalizing slack with
  | nil => rfl
  | cons c rest ih =>
    unfold tighten
    split
    · next h =>
      simp only [Bool.and_eq_true] at h
      simp [openers_cons, ih, isOpener_of_isBlank h.2]
    · split
      · next h =>
        simp only [Bool.and_eq_true, decide_eq_true_eq] at h
        simp only [openers_cons, ih, h.2]
        rfl
      · simp [openers_cons, ih]

theorem openers_squeeze (inRun : Bool) (cs : List Char) :
    openers (squeeze inRun cs) = openers cs := by
  induction cs generalizing inRun with
  | nil => rfl
  | cons c rest ih =>
    unfold squeeze
    split
    · next h =>
      have hb : isOpener ' ' = false := by decide
      split <;> simp [openers_cons, ih, isOpener_of_isBlank h, hb]
    · simp [openers_cons, ih]

/-- Bringing a type expression onto one line keeps its opening brackets. -/
theorem openers_compact (cs : List Char) : openers (compact cs) = openers cs := by
  simp only [compact, tightenOpening, tightenClosing, openers_trim, openers_squeeze,
    openers_reverse, openers_tighten, openers_spaceSemicolons, openers_closeUpSemicolons,
    openers_semicolonsForBreaks]

end StructLayout.Source
