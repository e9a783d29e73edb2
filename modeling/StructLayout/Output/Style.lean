import StructLayout.Error
import StructLayout.Text.Case

/-!
# Styles

A style tells how text is shown: in a colour, on a background, as a link, with attributes switched on
or off.  It is written as words: an attribute or its short form, `not` and an attribute, a colour,
`on` and a colour, `link` and a target.  Colours are names, numbers of a palette or their three
components.

`Style.read` reads the words and `Style.text` writes a style in its normal form, which is how tags
that mean the same are recognised.
-/

namespace StructLayout.Output

/-- The attributes of shown text with their short forms, in the order in which they are written. -/
def attributes : List (String × Option String) := [
  ("bold", some "b"), ("dim", some "d"), ("italic", some "i"), ("underline", some "u"),
  ("blink", none), ("blink2", none), ("reverse", some "r"), ("conceal", some "c"),
  ("strike", some "s"), ("underline2", some "uu"), ("frame", none), ("encircle", none),
  ("overline", some "o")]

def attributeOf? (word : String) : Option String :=
  (attributes.find? fun a => a.1 = word || a.2 = some word).map (·.1)

structure Style where
  switched : List (String × Bool) := []
  color : Option String := none
  background : Option String := none
  link : Option String := none
deriving DecidableEq, Repr, Inhabited

/-- Why words are not read as a style: they are none, or a number in them cannot be read. -/
inductive StyleFlaw where
  | notAStyle
  | number (fault : Fault)
deriving DecidableEq, Repr, Inhabited

/-! ### Colours -/

def greyShades : List Nat := [
  0, 3, 7, 11, 15, 19, 23, 27, 30, 35, 37, 39, 42, 46, 50, 53, 54, 58, 62, 63, 66, 69, 70, 74, 78,
  82, 84, 85, 89, 93, 100]

/-- The names of the other colours. -/
def namedColors : List String := [
  "black", "red", "green", "yellow", "blue", "magenta", "cyan", "white", "bright_black",
  "bright_red", "bright_green", "bright_yellow", "bright_blue", "bright_magenta", "bright_cyan",
  "bright_white", "navy_blue", "dark_blue", "blue3", "blue1", "dark_green", "deep_sky_blue4",
  "dodger_blue3", "dodger_blue2", "green4", "spring_green4", "turquoise4", "deep_sky_blue3",
  "dodger_blue1", "green3", "spring_green3", "dark_cyan", "light_sea_green", "deep_sky_blue2",
  "deep_sky_blue1", "spring_green2", "cyan3", "dark_turquoise", "turquoise2", "green1",
  "spring_green1", "medium_spring_green", "cyan2", "cyan1", "dark_red", "deep_pink4", "purple4",
  "purple3", "blue_violet", "orange4", "medium_purple4", "slate_blue3", "royal_blue1",
  "chartreuse4", "dark_sea_green4", "pale_turquoise4", "steel_blue", "steel_blue3",
  "cornflower_blue", "chartreuse3", "cadet_blue", "sky_blue3", "steel_blue1", "pale_green3",
  "sea_green3", "aquamarine3", "medium_turquoise", "chartreuse2", "sea_green2", "sea_green1",
  "aquamarine1", "dark_slate_gray2", "dark_magenta", "dark_violet", "purple", "light_pink4",
  "plum4", "medium_purple3", "slate_blue1", "yellow4", "wheat4", "light_slate_grey",
  "light_slate_gray", "medium_purple", "light_slate_blue", "dark_olive_green3", "dark_sea_green",
  "light_sky_blue3", "sky_blue2", "dark_sea_green3", "dark_slate_gray3", "sky_blue1", "chartreuse1",
  "light_green", "pale_green1", "dark_slate_gray1", "red3", "medium_violet_red", "magenta3",
  "dark_orange3", "indian_red", "hot_pink3", "medium_orchid3", "medium_orchid", "medium_purple2",
  "dark_goldenrod", "light_salmon3", "rosy_brown", "medium_purple1", "gold3", "dark_khaki",
  "navajo_white3", "light_steel_blue3", "light_steel_blue", "yellow3", "dark_sea_green2",
  "light_cyan3", "light_sky_blue1", "green_yellow", "dark_olive_green2", "dark_sea_green1",
  "pale_turquoise1", "deep_pink3", "magenta2", "hot_pink2", "orchid", "medium_orchid1", "orange3",
  "light_pink3", "pink3", "plum3", "violet", "light_goldenrod3", "tan", "misty_rose3", "thistle3",
  "plum2", "khaki3", "light_goldenrod2", "light_yellow3", "light_steel_blue1", "yellow2",
  "dark_olive_green1", "honeydew2", "light_cyan1", "red1", "deep_pink2", "deep_pink1", "magenta1",
  "orange_red1", "indian_red1", "hot_pink", "dark_orange", "salmon1", "light_coral",
  "pale_violet_red1", "orchid2", "orchid1", "orange1", "sandy_brown", "light_salmon1",
  "light_pink1", "pink1", "plum1", "gold1", "navajo_white1", "misty_rose1", "thistle1", "yellow1",
  "light_goldenrod1", "khaki1", "wheat1", "cornsilk1"]

def colorNames : List String :=
  "default" :: namedColors ++
    greyShades.flatMap fun (n : Nat) => ["grey" ++ Text.intText n, "gray" ++ Text.intText n]

/-- The most that a number of the palette or a component of a colour can be. -/
def mostOfColor : Nat := 255

/-- Whether a text is `#` with six hexadecimal digits in small letters. -/
def isHexColor (cs : List Char) : Bool :=
  match cs with
  | '#' :: digits =>
    digits.length = 6 && digits.all fun c => Text.isAsciiDigit c || ('a' ≤ c && c ≤ 'f')
  | _ => false

/-- What stands between an opening text and a closing parenthesis at the end. -/
def argument? (opening : String) (cs : List Char) : Option (List Char) :=
  if opening.toList.isPrefixOf cs && cs.getLast? = some ')' then
    some (cs.drop opening.length).dropLast
  else none

/-- Whether a text is a number of the palette in parentheses. -/
def isPaletteColor (cs : List Char) : Bool :=
  match argument? "color(" cs with
  | some digits =>
    !digits.isEmpty && digits.length ≤ 3 && digits.all Text.isAsciiDigit &&
      Text.digitsValue 10 0 digits ≤ mostOfColor
  | none => false

/-- The parts of a text between commas. -/
def componentsOf : List Char → List (List Char)
  | [] => [[]]
  | ',' :: rest => [] :: componentsOf rest
  | c :: rest =>
    match componentsOf rest with
    | first :: more => (c :: first) :: more
    | [] => [[c]]

def readComponent (cs : List Char) : Except StyleFlaw Int :=
  (Text.readDecimal cs).mapError fun flaw => .number (.ofNumber (String.ofList cs) flaw)

def checkComponents (cs : List Char) : Except StyleFlaw Unit :=
  match componentsOf cs with
  | [red, green, blue] => do
    let values ← [red, green, blue].mapM readComponent
    if values.all (· ≤ mostOfColor) then pure () else .error .notAStyle
  | _ => .error .notAStyle

/-- Reads a colour; its name is in small letters. -/
def readColor (word : List Char) : Except StyleFlaw String := do
  let cs := Text.lower word
  let name := String.ofList cs
  if colorNames.contains name || isHexColor cs || isPaletteColor cs then pure name
  else
    match argument? "rgb(" cs with
    | some components =>
      if !components.isEmpty && components.all fun c => c = ',' || (Text.digitValue? c).isSome then
        checkComponents components
        pure name
      else .error .notAStyle
    | none => .error .notAStyle

/-! ### Reading -/

namespace Style

def switch (s : Style) (name : String) (on : Bool) : Style :=
  { s with switched := (name, on) :: s.switched }

def readWords (s : Style) : List (List Char) → Except StyleFlaw Style
  | [] => .ok s
  | word :: rest =>
    let name := String.ofList (Text.lower word)
    if name = "on" then
      match rest with
      | [] => .error .notAStyle
      | color :: rest => do
        let color ← readColor color
        readWords { s with background := some color } rest
    else if name = "not" then
      match rest with
      | [] => .error .notAStyle
      | word :: rest =>
        match attributeOf? (String.ofList word) with
        | some a => readWords (s.switch a false) rest
        | none => .error .notAStyle
    else if name = "link" then
      match rest with
      | [] => .error .notAStyle
      | target :: rest => readWords { s with link := some (String.ofList target) } rest
    else
      match attributeOf? name with
      | some a => readWords (s.switch a true) rest
      | none => do
        let color ← readColor word
        readWords { s with color := some color } rest

def read (cs : List Char) : Except StyleFlaw Style :=
  if Text.trim cs = "none".toList then .ok {} else readWords {} (Text.blankWords cs)

/-! ### Writing -/

def attributeWords (s : Style) (name : String) : List String :=
  match s.switched.lookup name with
  | some true => [name]
  | some false => ["not", name]
  | none => []

def words (s : Style) : List String :=
  attributes.flatMap (fun a => s.attributeWords a.1) ++ s.color.toList ++
    (s.background.map fun c => ["on", c]).getD [] ++ (s.link.map fun t => ["link", t]).getD []

/-- The normal form of a style. -/
def text (s : Style) : String := if s.words.isEmpty then "none" else " ".intercalate s.words

/-- The normal form of the words of a style; words that are none are trimmed and written in small
letters. -/
def normalize (cs : List Char) : Except Fault (List Char) :=
  match read cs with
  | .ok s => .ok s.text.toList
  | .error .notAStyle => .ok (Text.lower (Text.trim cs))
  | .error (.number fault) => .error fault

end Style

end StructLayout.Output
