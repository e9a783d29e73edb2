import StructLayout.Report.Basic

/-!
# Building a report

The structs of all packages share one pool of workers.  Results are collected by position, so that a
report does not depend on the order in which the workers finish, and packages are sorted by path
unless their order is to be kept.  The main statement says that cutting a list into pieces of given
lengths gives back the pieces it was joined from (`splitLengths_flatten`).
-/

namespace StructLayout

structure PackageFinding where
  path : String
  findings : List Finding
deriving DecidableEq, Repr, Inhabited

/-- The place of each result, filled in the order of completion. -/
def fillSlots {α β : Type} (run : α → β) (tasks : List α) (completion : List Nat) :
    List (Option β) :=
  completion.foldl
    (fun slots i =>
      match tasks[i]? with
      | some task => slots.set i (some (run task))
      | none => slots)
    (tasks.map fun _ => none)

/-- The results of tasks in the order of the tasks, whatever the order of completion. -/
def gather {α β : Type} (run : α → β) (tasks : List α) (completion : List Nat) : List β :=
  (fillSlots run tasks completion).filterMap id

/-- The order in which the tasks of a pool finish, for each number of tasks. -/
abbrev Schedule := Nat → List Nat

/-- The findings on structs, by a pool of workers if there are at least two of both. -/
def analyseAll (abi : Abi) (workers : Option Int) (schedule : Schedule) (structs : List StructDef) :
    List Finding :=
  if workers.getD 0 < 2 || structs.length < 2 then structs.map (analyse abi)
  else gather (analyse abi) structs (schedule structs.length)

def splitLengths {α : Type} : List Nat → List α → List (List α)
  | [], _ => []
  | n :: rest, xs => xs.take n :: splitLengths rest (xs.drop n)

def findPackages (abi : Abi) (workers : Option Int) (schedule : Schedule)
    (packages : List PackageDef) : List PackageFinding :=
  let findings := analyseAll abi workers schedule (packages.flatMap PackageDef.structs)
  let pieces := splitLengths (packages.map fun p => p.structs.length) findings
  packages.zipWith (fun p findings => { path := p.path, findings }) pieces

/-- Packages in the order of their paths, those of one path in the given order. -/
def sortPackages (packages : List PackageFinding) : List PackageFinding :=
  packages.mergeSort fun a b => decide (a.path ≤ b.path)

namespace Report

/-- The report on a package's findings. -/
def Package.ofFinding (p : PackageFinding) : Package where
  path := .str p.path
  records := p.findings.map Record.ofFinding

def ofFindings (packages : List PackageFinding) : Report where
  packages := packages.map Package.ofFinding

/-- Analyses packages; they are sorted by path if `sorted` is set. -/
def build (abi : Abi) (workers : Option Int) (schedule : Schedule) (sorted : Bool)
    (packages : List PackageDef) : Report :=
  let found := findPackages abi workers schedule packages
  ofFindings (if sorted then sortPackages found else found)

/-- Analyses packages with results collected as they were handed out, sorted by path. -/
def ofPackages (abi : Abi) (packages : List PackageDef) : Report :=
  build abi none List.range true packages

end Report

/-- Cutting what was joined gives back the pieces. -/
theorem splitLengths_flatten {α : Type} (pieces : List (List α)) :
    splitLengths (pieces.map List.length) pieces.flatten = pieces := by
  induction pieces with
  | nil => rfl
  | cons p rest ih => simp [splitLengths, ih]

end StructLayout
