import StructLayout.Json.Printer
import StructLayout.Output.Request
import StructLayout.Report.Document

/-!
# Output formats for programs

Three formats are read by programs rather than people: the report as a document (`Output.document`),
annotations for a continuous-integration service with a summary table (`Output.annotations`), and
bare qualified names (`Output.names`).
-/

namespace StructLayout.Output

open Report

/-- The report a request is about, as a document: limited to the request's name, and to problems if
it is a check. -/
def document (request : Request) (report : Report) : Except Fault String :=
  let report := match request.limit? with
    | some name => report.named name
    | none => report
  -- which of the two restrictions comes first does not matter
  let report := if request.isCheck then report.problemsOnly else report
  Json.pretty <$> report.toValue.requireShowable request.limits.showing

def listed (request : Request) (report : Report) : List (Package × Record) :=
  report.records.filter fun e =>
    request.admits e.2 && (!request.isCheck || e.2.hasProblems)

def names (request : Request) (report : Report) : String :=
  "\n".intercalate ((listed request report).map fun e => e.1.path.display ++ "." ++ e.2.name.display)

/-! ### Annotations and summary -/

def annotationPlace (s : Record) : String :=
  "file=" ++ s.place.file.display ++ ",line=" ++ s.place.line.display

/-- The warning about a struct that can be improved. -/
def warning (limit : Nat) (s : Record) : Except Fault String := do
  let size ← s.size.shown limit
  let optimal ← s.optimalSize.shown limit
  pure <| "::warning " ++ annotationPlace s ++ "::Struct " ++ s.name.display ++
    " fields order can be optimized (" ++ size ++ " → " ++ optimal ++ ")"

/-- The notice about a struct that was not checked. -/
def notice (s : Record) : String :=
  "::notice " ++ annotationPlace s ++ "::Struct " ++ s.name.display ++ " was not checked: " ++
    s.reason.display

/-- The row of the summary table for a struct that can be improved. -/
def tableRow (limit : Nat) (e : Package × Record) : Except Fault String := do
  let saved ← e.2.wastedBytes
  pure <| "| `" ++ e.1.path.display ++ "` | `" ++ e.2.name.display ++ "` | " ++ e.2.size.display ++
    " | " ++ e.2.optimalSize.display ++ " | " ++ (← saved.shown limit) ++ " |"

/-- The sum of the bytes that reordering saves. -/
def totalSaved (problems : List (Package × Record)) : Except Fault Number :=
  problems.foldlM (fun total e => do total.add (← Number.ofValue (← e.2.wastedBytes))) (.whole 0)

def annotated (request : Request) (report : Report) : List (Package × Record) :=
  report.problems.filter fun e => request.admits e.2

/-- Annotations, then a summary in Markdown. -/
def annotations (request : Request) (report : Report) : Except Fault String := do
  let problems := annotated request report
  let notices := if request.isCheck then [] else report.unchecked.map fun e => notice e.2
  let heading := ["", "## Struct alignment (" ++ request.abi.name ++ ")", ""]
  let limit := request.limits.showing
  let top := (← problems.mapM fun e => warning limit e.2) ++ notices ++ heading
  if problems.isEmpty then pure ("\n".intercalate (top ++ ["All structs are well aligned."]))
  else
    let rows ← problems.mapM (tableRow limit)
    let total ← totalSaved problems
    let table := ["| Package | Struct | Size | Optimal | Saved |",
      "|---------|--------|------|---------|-------|"] ++ rows ++ [""]
    let summary := "**Summary:** " ++ Text.intText problems.length ++ " structs, " ++
      (← total.toValue.shown limit) ++ " bytes of padding to recover"
    pure ("\n".intercalate (top ++ table ++ [summary]))

end StructLayout.Output
