import StructLayout.Analysis.Descriptor
import StructLayout.Analysis.Sizing
import StructLayout.Limits
import StructLayout.Packages.Scan
import StructLayout.Report.Build

/-!
# Analysing inputs

The inputs of a run are descriptor documents and sources.  The platform is selected before any source
is looked at: the documents must not name different ones, and a platform that is asked for must be
the one they name.  The packages of the documents come first, then those found in the sources.
-/

namespace StructLayout.Analysis

open Files

structure Result where
  abi : Abi
  report : Report

/-! ### The platform -/

/-- The different names among those that documents give; an empty name counts as none. -/
def declaredNames (platforms : List (Option String)) : List String :=
  (platforms.filterMap id).foldl
    (fun names name => if name.isEmpty || names.contains name then names else names ++ [name]) []

/-- Selects the platform, given the one asked for and those that documents name. -/
def selectArch (wanted : Option String) (platforms : List (Option String)) :
    Except Error (Option String) :=
  match declaredNames platforms, wanted with
  | [], _ => .ok wanted
  | [name], none => .ok (some name)
  -- spellings are compared, not platforms
  | [name], some arch =>
    if arch = name then .ok (some arch)
    else .error (.invalidSetting "arch" arch ("descriptor files were sized for " ++ name))
  | names, _ =>
    .error (.invalidSetting "platform" (", ".intercalate (Error.sortedNames names))
      "descriptor files disagree")

/-! ### Inputs -/

def documentEnding : List Char := ".json".toList

def isDocument (input : String) : Bool := documentEnding.isSuffixOf input.toList

/-- The inputs of a run; none given means the working directory. -/
def inputsOrHere (inputs : List String) : List String := if inputs.isEmpty then ["."] else inputs

/-- What a run starts from: the platform, the packages of the documents, and the packages found in
the sources. -/
structure Start where
  abi : Abi
  described : List PackageDef
  found : List Packages.SourcePackage

def start (limits : Limits) (v : View) (machine : String) (settings : Settings)
    (inputs : List String) : Outcome Start := do
  let selection ← Outcome.ofFault (Packages.Selection.ofSettings settings)
  -- documents are read before the platform is looked up, and sources are looked for last
  let documents ← (inputs.filter isDocument).mapM fun p =>
    Descriptor.load limits.reading v (Path.ofText p)
  let arch ← Outcome.ofError (selectArch settings.arch (documents.map (·.platform)))
  let abi ← Outcome.ofError (Abi.resolve machine arch)
  let found ← (Packages.discover v selection (inputs.filter fun p => !isDocument p) []).1
  pure { abi, described := documents.flatMap (·.packages), found }

/-- The packages found in the sources, with sized fields, and the warnings about them up to the first
package that cannot be sized. -/
def readSources (limit : Nat) (v : View) (abi : Abi) (marker : String) :
    List Packages.SourcePackage → Outcome (List PackageDef) × List String
  | [] => (.ok [], [])
  | p :: rest =>
    let declared := Packages.scanFiles v marker p.files
    match sizePackageWithin limit abi p.path declared with
    | .error e => (.error e, declared.warnings)
    | .ok sized =>
      let others := readSources limit v abi marker rest
      (others.1.map (sized :: ·), declared.warnings ++ others.2)

/-- The report on the packages of a run, of which there must be one. -/
def conclude (settings : Settings) (inputs : List String) (abi : Abi) (packages : List PackageDef) :
    Outcome Result :=
  if packages.isEmpty then .error (.error (.noInputs inputs))
  else .ok { abi, report := Report.build abi settings.workerCount List.range true packages }

/-- Analyses inputs, with the warnings given on the way. -/
def run (limits : Limits) (v : View) (machine : String) (settings : Settings)
    (inputs : List String) : Outcome Result × List String :=
  let inputs := inputsOrHere inputs
  match start limits v machine settings inputs with
  | .error e => (.error e, [])
  | .ok s =>
    let sources := readSources limits.sizing v s.abi settings.ignoreMarker s.found
    (sources.1.bind fun sized => conclude settings inputs s.abi (s.described ++ sized), sources.2)

end StructLayout.Analysis
