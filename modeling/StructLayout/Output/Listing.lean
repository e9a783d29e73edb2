import StructLayout.Output.ByteMap
import StructLayout.Output.Printer
import StructLayout.Output.Request

/-!
# Listings for people

Structs are listed in the syntax of their source, package by package under rules, with the size and
the best size above each of them.  A detailed listing draws a byte map behind every field.  Entries
of a report may hold values of any kind; what has to be text is required to be text.
-/

namespace StructLayout.Output

open Report

open Listing (attempt)

def printLine (s : String) : Listing := [.ok (.line s)]

/-- A line of marked-up text if there is one. -/
def printResult (r : Except Fault String) : Listing := attempt (Outcome.ofFault r) printLine

def requireText : Value → Except Fault String
  | .str s => .ok s
  | v => .error (.notText v.kindName)

/-- The number of characters of a text, or of the elements of another value. -/
def lengthOf : Value → Except Fault Nat
  | .str s => .ok s.length
  | .list xs => .ok xs.length
  | .object ms => .ok ms.length
  | v => .error (.noLength v.kindName)

/-- A value that has to be text because it is going to be padded with blanks. -/
def requirePaddable : Value → Except Fault String
  | .str s => .ok s
  | v => .error (.noMember v.kindName "ljust")

/-- A text padded with blanks at its right end. -/
def padRight (width : Nat) (s : String) : String :=
  s ++ String.ofList (List.replicate (width - s.length) ' ')

def shownTypeLength : Nat := 32

/-- A type as it is shown: a long one is cut and marked with an ellipsis. -/
def shortenType (v : Value) : Except Fault Value := do
  let n ← lengthOf v
  -- a short value passes even if it is no text
  if n ≤ shownTypeLength then pure v
  else
    let s ← requireText v
    pure (.str (String.ofList (s.toList.take (shownTypeLength - 1)) ++ "…"))

/-- The tag of a field as its source writes it, empty if there is none. -/
def tagText (e : Entry) : String :=
  if e.tag.isTruthy then "`" ++ e.tag.display ++ "`" else ""

def greatest (lengths : List Nat) : Nat := lengths.foldl max 0

/-- The widths of the columns of a listing. -/
structure Columns where
  name : Nat
  typeExpr : Nat
  tag : Nat
deriving Repr

/-- The widths that the entries of a struct need. -/
def Columns.ofEntries (entries : List Entry) : Except Fault Columns := do
  let names ← entries.mapM fun e => lengthOf e.name
  let types ← entries.mapM fun e => do lengthOf (← shortenType e.typeExpr)
  pure {
    name := greatest names
    typeExpr := greatest types
    tag := greatest (entries.map fun e => (tagText e).length) }

variable (printer : Printer)

/-! ### Fields -/

/-- The name of a field at the start of its line. -/
def nameCell (columns : Columns) (e : Entry) : Except Fault String := do
  let name ← requirePaddable e.name
  pure ("  " ++ printer.escape (padRight columns.name name) ++ " ")

def paddedType (columns : Columns) (e : Entry) : Except Fault String := do
  let t ← requirePaddable (← shortenType e.typeExpr)
  pure ("[bold]" ++ printer.escape (padRight columns.typeExpr t) ++ "[/bold]")

/-- The line of a field without a byte map. -/
def simpleLine (columns : Columns) (e : Entry) : Except Fault String := do
  let name ← nameCell printer columns e
  let tag := tagText e
  if tag.isEmpty then
    let t ← requireText (← shortenType e.typeExpr)
    pure (name ++ "[bold]" ++ printer.escape t ++ "[/bold]")
  else
    let t ← paddedType printer columns e
    pure (name ++ t ++ " [yellow]" ++ printer.escape tag ++ "[/yellow]")

/-- The lines of fields without byte maps. -/
def simpleFields (entries : List Entry) : Listing :=
  attempt (Outcome.ofFault (Columns.ofEntries entries)) fun columns =>
    entries.flatMap fun e => printResult (simpleLine printer columns e)

/-- A cell as it is drawn, with a blank behind it. -/
def cellText : Cell → String
  | .used => "[green]■[/green] "
  | .gap => "[red]□[/red] "
  | .tail => "[yellow]□[/yellow] "
  | .more bytes => "[dim]… +" ++ bytes.text ++ " bytes[/dim] "

def blanks (n : Nat) : String := String.ofList (List.replicate n ' ')

def trimRight (s : String) : String := String.ofList (Text.trimEnd s.toList)

/-- The lines of a field with its byte map: the first starts with the field's label, the others
with as many blanks. -/
def mappedLines (label : String) (labelWidth column width : Nat) (cells : List Cell) : List String :=
  let lead := label ++ "  " ++ blanks (2 * column)
  let next := blanks labelWidth ++ "  "
  match rows width column cells with
  | [] => []
  | first :: rest =>
    let draw (start : String) (row : List Cell) := trimRight (start ++ String.join (row.map cellText))
    draw lead first :: rest.map (draw next)

def mapLabel (columns : Columns) (e : Entry) : Except Fault String := do
  let name ← nameCell printer columns e
  let t ← paddedType printer columns e
  let tag := if columns.tag = 0 then ""
    else " [yellow]" ++ printer.escape (padRight columns.tag (tagText e)) ++ "[/yellow]"
  pure (name ++ t ++ tag)

def mappedField (most : Nat) (abi : Abi) (columns : Columns) (slot : EntrySlot)
    (behind : Number × Cell) : Listing :=
  let tagWidth := if columns.tag = 0 then 0 else 1 + columns.tag
  let labelWidth := 2 + columns.name + 1 + columns.typeExpr + tagWidth
  let drawn := do
    let label ← mapLabel printer columns slot.entry
    let cells ← entryCells most slot behind
    let column ← entryColumn most abi slot
    pure (mappedLines label labelWidth column abi.maxAlign.toNat cells)
  attempt (Outcome.ofFault drawn) fun lines => lines.flatMap printLine

/-- The lines of fields with byte maps. -/
def detailedFields (most : Nat) (abi : Abi) (entries : List Entry) : Listing :=
  attempt (entryMap abi entries) fun m =>
    attempt (Outcome.ofFault (Columns.ofEntries entries)) fun columns =>
      (m.slots.zip (entryPaddingBehind m)).flatMap fun p =>
        mappedField printer most abi columns p.1 p.2

/-! ### Structs -/

/-- The place of a struct in parentheses.  It is not made literal. -/
def placeNote (s : Record) : String := "[dim](" ++ s.place.text ++ ")[/dim]"

def boldName (s : Record) : Except Fault String := do
  let name ← requireText s.name
  pure ("[bold]" ++ printer.escape name ++ "[/bold]")

/-- The line above a struct that says how it can be improved. -/
def improvableHeader (limit : Nat) (s : Record) : Except Fault String := do
  let name ← boldName printer s
  let size ← s.size.shown limit
  let optimal ← s.optimalSize.shown limit
  pure ("Struct " ++ name ++ " " ++ placeNote s ++ " fields order can be optimized (" ++
    size ++ " → " ++ optimal ++ ")\n")

/-- The line above a struct that tells its size. -/
def sizeHeader (limit : Nat) (s : Record) : Except Fault String :=
  if s.isChecked then do
    let size ← s.size.shown limit
    let optimal ← s.optimalSize.shown limit
    let exempt := if s.isExempt then " | ignored" else ""
    pure ("[dim]// " ++ s.place.text ++ " | Size: " ++ size ++ " (Optimal: " ++ optimal ++ ")" ++
      exempt ++ "[/dim]")
  else do
    let reason ←
      if s.reason.isTruthy then requireText s.reason else pure "layout could not be determined"
    pure ("[dim]// " ++ s.place.text ++ " | Size: unknown (" ++ printer.escape reason ++ ")[/dim]")

def header (limit : Nat) (improving : Bool) (s : Record) : Listing :=
  printResult (if improving then improvableHeader printer limit s else sizeHeader printer limit s)

/-- The fields of a struct; `improving` shows their better order. -/
def fieldLines (limits : Limits) (abi : Abi) (detailed improving : Bool) (s : Record) : Listing :=
  let entries := if improving then s.reordered.getD s.fields else s.fields
  if detailed && s.isChecked then detailedFields printer limits.drawing abi entries
  else simpleFields printer entries

def listStruct (limits : Limits) (abi : Abi) (detailed improving : Bool) (s : Record) : Listing :=
  header printer limits.showing improving s ++
    printResult ((boldName printer s).map fun name => "type " ++ name ++ " struct \x7b") ++
    fieldLines printer limits abi detailed improving s ++ printLine "\x7d\n"

/-- The line about a struct that a check finds nothing to improve in. -/
def alreadyOptimal (limit : Nat) (s : Record) : Listing :=
  if s.isChecked then
    let state := if s.isExempt && s.canBeOptimized then "ignored" else "already optimal"
    printResult do
      let name ← boldName printer s
      let size ← s.size.shown limit
      pure ("Struct " ++ name ++ " " ++ placeNote s ++ " is " ++ state ++ " [dim](size " ++ size ++
        ")[/dim]\n")
  else header printer limit false s

def packageRule (p : Package) : Listing :=
  attempt (Outcome.ofFault (requireText p.path)) fun path =>
    [.ok (.rule (printer.escape path))]

def closingRule : Listing := [.ok (.rule "")]

/-! ### Listings -/

/-- All structs of a report with byte maps. -/
def listAll (limits : Limits) (abi : Abi) (report : Report) : Listing :=
  (report.nonEmpty.flatMap fun p =>
    packageRule printer p ++ p.records.flatMap (listStruct printer limits abi true false)) ++
      closingRule

/-- The structs of a report that can be improved and are not exempt. -/
def listProblems (request : Request) (report : Report) : Listing :=
  let packages := report.nonEmpty.filter Package.hasProblems
  if packages.isEmpty then printLine "[green]All structs are well aligned[/green]"
  else
    (packages.flatMap fun p =>
      packageRule printer p ++ (p.records.filter Record.hasProblems).flatMap
        (listStruct printer request.limits request.abi request.detailed true)) ++ closingRule

def listNamed (request : Request) (name : Value) (report : Report) : Listing :=
  match report.find? name with
  | none =>
    printResult do
      let name ← requireText name
      pure ("[yellow]Can't find struct with name [bold]" ++ printer.escape name ++
        "[/bold][/yellow]")
  | some (p, s) =>
    packageRule printer p ++
      (if request.isCheck && !s.hasProblems then alreadyOptimal printer request.limits.showing s
        else listStruct printer request.limits request.abi request.detailed request.isCheck s) ++
      closingRule

def listing (request : Request) (report : Report) : Listing :=
  if report.isEmpty then printLine "[yellow]Given package doesn't have any structs[/yellow]"
  else
    match request.limit? with
    | some name => listNamed printer request name report
    | none =>
      if request.isCheck then listProblems printer request report
      else listAll printer request.limits request.abi report

end StructLayout.Output
