import StructLayout.Layout.Field
import StructLayout.Source.Comment
import StructLayout.Source.FieldDecl
import StructLayout.Source.TypeTable
import StructLayout.Text.Digit
import StructLayout.Text.Lines

/-!
# Declarations in a source file

A source is read line by line.  Struct declarations are collected with their fields, and the other
type declarations with their underlying types, so that names declared in a package can be resolved.
A struct is exempt from checks if the marker occurs in the comment lines directly above it or in the
comment on its first line.

A body that is not closed runs to the end of the source, with a warning.  The main statements say
that reading a body or a type never gives lines back (`length_structBody_rest_le`,
`length_collectType_rest_le`), so that scanning ends.
-/

namespace StructLayout.Source

/-! ### Lines -/

/-- A line of a source without its block comments: its number from one, its trimmed code, the text of
its line comment, and whether that comment is all there is on the line. -/
structure Line where
  number : Nat
  code : List Char
  comment : List Char
  isComment : Bool
deriving Repr, Inhabited

def Line.ofText (number : Nat) (text : List Char) : Line :=
  let r := splitComment text
  { number
    code := Text.trim r.1
    comment := r.2
    isComment := ['/', '/'].isPrefixOf (Text.trim text) }

def sourceLines (source : List Char) : List Line :=
  (Text.splitLines (stripBlockComments source)).zipIdx.map fun p => Line.ofText (p.2 + 1) p.1

/-! ### Declarations -/

structure StructDecl where
  name : String
  position : Position
  typeParams : List String
  ignored : Bool
  fields : List FieldDecl
deriving Repr, DecidableEq, Inhabited

/-- The declarations of a source, with the warnings about it. -/
structure Declarations where
  package : String
  structs : List StructDecl
  localTypes : TypeTable
  genericTypes : List String
  warnings : List String
deriving Repr, DecidableEq, Inhabited

namespace Declarations

def none : Declarations where
  package := ""
  structs := []
  localTypes := []
  genericTypes := []
  warnings := []

/-- The declarations of one source followed by those of another. -/
def append (a b : Declarations) : Declarations where
  package := a.package
  structs := a.structs ++ b.structs
  localTypes := TypeTable.update a.localTypes b.localTypes
  genericTypes := b.genericTypes.foldl addName a.genericTypes
  warnings := a.warnings ++ b.warnings

end Declarations

def structExpr (fields : List FieldDecl) : String :=
  "struct\x7b" ++ "; ".intercalate (fields.map fun d => d.name ++ " " ++ d.typeExpr) ++ "\x7d"

/-! ### Struct bodies -/

/-- An entry of a struct body that may go on over further lines: its lines so far, last first, and
the comment and number of its first line. -/
structure OpenEntry where
  lines : List (List Char)
  comment : String
  line : Nat
deriving Repr, Inhabited

namespace OpenEntry

def ofLine (line : Line) : OpenEntry :=
  { lines := [line.code], comment := String.ofList line.comment, line := line.number }

def add (entry : OpenEntry) (line : Line) : OpenEntry :=
  { entry with lines := line.code :: entry.lines }

def text (entry : OpenEntry) : List Char := ['\n'].intercalate entry.lines.reverse

end OpenEntry

def entriesOf (comment : String) (line : Nat) (text : List Char) : List FieldDecl :=
  (splitTopLevel [';'] text).flatMap (fieldEntry comment line)

/-- A struct body that has been read: its fields, whether it was closed, and the lines behind it. -/
structure Body where
  fields : List FieldDecl
  closed : Bool
  rest : List Line
deriving Repr, Inhabited

def Body.prepend (fields : List FieldDecl) (body : Body) : Body :=
  { body with fields := fields ++ body.fields }

def closesBody (code : List Char) : Bool := depthDelta code < 0 && code.getLast? = some '\x7d'

/-- Reads the lines of a struct body, given how deep the current entry is nested. -/
def structBody : Int → OpenEntry → List Line → Body
  | _, _, [] => { fields := [], closed := false, rest := [] }
  | depth, entry, line :: rest =>
    if line.code.isEmpty then structBody depth entry rest
    else if depth = 0 && closesBody line.code then
      { fields := entriesOf (String.ofList line.comment) line.number (Text.trim line.code.dropLast)
        closed := true
        rest }
    else
      let entry := if depth = 0 then OpenEntry.ofLine line else entry.add line
      let depth := depth + depthDelta line.code
      if depth ≤ 0 then
        (structBody 0 entry rest).prepend (entriesOf entry.comment entry.line entry.text)
      else structBody depth entry rest

theorem length_structBody_rest_le (depth : Int) (entry : OpenEntry) (lines : List Line) :
    (structBody depth entry lines).rest.length ≤ lines.length := by
  induction lines generalizing depth entry with
  | nil => simp [structBody]
  | cons line rest ih =>
    unfold structBody
    split
    · exact Nat.le_succ_of_le (ih _ _)
    · split
      · exact Nat.le_succ _
      · dsimp only
        split
        · exact Nat.le_succ_of_le (ih _ _)
        · exact Nat.le_succ_of_le (ih _ _)

/-! ### Other types -/

/-- The lines of code over which a type goes on until its brackets are closed, and the lines behind
them. -/
def collectType : Int → List Line → List (List Char) × List Line
  | _, [] => ([], [])
  | depth, line :: rest =>
    if depth ≤ 0 then ([], line :: rest)
    else if line.code.isEmpty then collectType depth rest
    else
      let r := collectType (depth + depthDelta line.code) rest
      (line.code :: r.1, r.2)

theorem length_collectType_rest_le (depth : Int) (lines : List Line) :
    (collectType depth lines).2.length ≤ lines.length := by
  induction lines generalizing depth with
  | nil => simp [collectType]
  | cons line rest ih =>
    unfold collectType
    split
    · exact Nat.le_refl _
    · split
      · exact Nat.le_succ_of_le (ih _)
      · exact Nat.le_succ_of_le (ih _)

/-- An underlying type on one line; the methods of an interface do not matter. -/
def underlyingType (parts : List (List Char)) : String :=
  let t := compact (['\n'].intercalate parts)
  if "interface".toList.isPrefixOf t then "interface\x7b\x7d" else String.ofList t

/-! ### Type specifications -/

/-- A type specification taken apart: the declared name, the inside of its type parameter list, and
the type. -/
structure TypeSpec where
  name : String
  params : List Char
  typeText : List Char
deriving Repr, Inhabited

/-- The inside of a list in square brackets at the start of a text, and the rest. -/
def bracketList (cs : List Char) : List Char × List Char :=
  match cs with
  | '[' :: rest =>
    match rest.dropWhile (· != ']') with
    | ']' :: after => (rest.takeWhile (· != ']'), after)
    | _ => ([], cs)
  | _ => ([], cs)

/-- A text without an equals sign and blanks in front. -/
def dropEquals (cs : List Char) : List Char :=
  match Text.trimStart cs with
  | '=' :: rest => Text.trimStart rest
  | rest => rest

def TypeSpec.ofText? (cs : List Char) : Option TypeSpec :=
  (identifier? cs).map fun r =>
    let params := bracketList r.2
    { name := String.ofList r.1
      params := params.1
      typeText := Text.trim (dropEquals params.2) }

def structBodyText? (typeText : List Char) : Option (List Char) :=
  if "struct".toList.isPrefixOf typeText then
    match Text.trimStart (typeText.drop 6) with
    | '\x7b' :: rest => some rest
    | _ => none
  else none

/-- What a scan is looking for: the file's name and the marker of exempt structs. -/
structure Scanner where
  file : String
  marker : String
deriving Repr

def occursIn (part : List Char) : List Char → Bool
  | [] => part.isEmpty
  | c :: rest => part.isPrefixOf (c :: rest) || occursIn part rest

namespace Scanner

def marks (s : Scanner) (comments : List (List Char)) : Bool :=
  comments.any (occursIn s.marker.toList)

/-- The warning about a struct that is not closed. -/
def unterminated (d : StructDecl) : String :=
  "Unterminated struct " ++ d.name ++ " at " ++ d.position.file ++ ":" ++
    Text.intText d.position.line

def declareStruct (d : StructDecl) (warnings : List String) : Declarations where
  package := ""
  structs := [d]
  localTypes := if d.typeParams.isEmpty then [(d.name, structExpr d.fields)] else []
  genericTypes := if d.typeParams.isEmpty then [] else [d.name]
  warnings

def declareType (name : String) (typeParams : List String) (underlying : String) : Declarations where
  package := ""
  structs := []
  localTypes := if typeParams.isEmpty && !underlying.isEmpty then [(name, underlying)] else []
  genericTypes := if typeParams.isEmpty then [] else [name]
  warnings := []

def readStruct (s : Scanner) (spec : TypeSpec) (line : Line) (doc : List (List Char))
    (text : List Char) (rest : List Line) : Declarations × List Line :=
  let comment := String.ofList line.comment
  let decl : StructDecl := {
    name := spec.name
    position := { file := s.file, line := line.number }
    typeParams := typeParamNames spec.params
    ignored := s.marks doc || s.marks [line.comment]
    fields := [] }
  match enclosed? ('\x7b' :: text) with
  | some (inside, _) =>
    let fields := (fieldList inside).map fun d => { d with comment, line := line.number }
    (declareStruct { decl with fields } [], rest)
  | none =>
    let body := structBody 0 { lines := [], comment := "", line := line.number } rest
    -- fields behind the opening brace have no comment: it is that of the struct
    let decl := { decl with fields := entriesOf "" line.number (Text.trim text) ++ body.fields }
    (declareStruct decl (if body.closed then [] else [unterminated decl]), body.rest)

def readSpec (s : Scanner) (text : List Char) (line : Line) (doc : List (List Char))
    (rest : List Line) : Declarations × List Line :=
  match TypeSpec.ofText? text with
  | none => (.none, rest)
  | some spec =>
    match structBodyText? spec.typeText with
    | some body => s.readStruct spec line doc body rest
    | none =>
      let r := collectType (depthDelta spec.typeText) rest
      (declareType spec.name (typeParamNames spec.params)
        (underlyingType (spec.typeText :: r.1)), r.2)

theorem length_readSpec_rest_le (s : Scanner) (text : List Char) (line : Line)
    (doc : List (List Char)) (rest : List Line) :
    (s.readSpec text line doc rest).2.length ≤ rest.length := by
  unfold readSpec
  split
  · exact Nat.le_refl _
  · split
    · unfold readStruct
      dsimp only
      split
      · exact Nat.le_refl _
      · exact length_structBody_rest_le _ _ _
    · exact length_collectType_rest_le _ _

/-! ### Scanning -/

def packageName? (code : List Char) : Option String :=
  (Text.afterWord? "package" code).bind fun rest =>
    (identifier? rest).map fun r => String.ofList r.1

def opensGroup (code : List Char) : Bool :=
  "type".toList.isPrefixOf code && Text.trimStart (code.drop 4) = ['(']

/-- The type specification on a line of code: behind the keyword, or the whole line in a group. -/
def specText? (inGroup : Bool) (code : List Char) : Option (List Char) :=
  match Text.afterWord? "type" code with
  | some text => some text
  | none => if inGroup then some code else none

/-- Scans lines, given whether a group is open, the comment lines directly above, last first, and
the declarations so far. -/
def scanLines (s : Scanner) (inGroup : Bool) (doc : List (List Char)) (found : Declarations) :
    List Line → Declarations
  | [] => found
  | line :: rest =>
    if line.code.isEmpty then
      let doc := if line.isComment && !line.comment.isEmpty then line.comment :: doc else []
      s.scanLines inGroup doc found rest
    else
      let package? := if found.package.isEmpty then packageName? line.code else none
      match package? with
      | some name => s.scanLines inGroup [] { found with package := name } rest
      | none =>
        if opensGroup line.code then s.scanLines true [] found rest
        else if inGroup && line.code = [')'] then s.scanLines false [] found rest
        else
          match specText? inGroup line.code with
          | none => s.scanLines inGroup [] found rest
          | some text =>
            let r := s.readSpec text line doc rest
            s.scanLines inGroup [] (found.append r.1) r.2
termination_by lines => lines.length
decreasing_by
  · exact Nat.lt_succ_self _
  · exact Nat.lt_succ_self _
  · exact Nat.lt_succ_self _
  · exact Nat.lt_succ_self _
  · exact Nat.lt_succ_self _
  · exact Nat.lt_succ_of_le (length_readSpec_rest_le s text line doc rest)

def scan (s : Scanner) (source : String) : Declarations :=
  s.scanLines false [] .none (sourceLines source.toList)

end Scanner

end StructLayout.Source
