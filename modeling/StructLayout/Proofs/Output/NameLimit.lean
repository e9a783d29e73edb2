import Mathlib.Algebra.Ring.Nat
import StructLayout.Output.Format
import StructLayout.Proofs.Output.CheckViews

/-!
# Output that is limited to a name

A request that is limited to a name is about the structs of that name, so a report should be written
like the report restricted to them.  The document and the list of names are.  Annotations are taken
apart into what is about problems, which depends on the structs of the name only
(`annotations_eq_parts`), and the notices about structs that were not checked, which a listing takes
from the whole report.

The main statement is `write_named`: which outputs depend on structs of the name only, and exactly when
annotations do.
-/

namespace StructLayout.Output

open Report

variable {request : Request} {report : Report} {name : Value}

/-! ### What a limited request is about -/

theorem withPaths_listed (request : Request) (report : Report) :
    withPaths (listed request report) = report.entries.filter fun e =>
      request.admits e.2 && (!request.isCheck || e.2.hasProblems) := by
  simp [entries, withPaths, listed, List.filter_map, Function.comp_def]

/-- Restricting a report to the name that a request is limited to makes no difference to what the
request admits. -/
theorem filter_entries_named (h : request.limit? = some name) (keep : Record → Bool) :
    (report.named name).entries.filter (fun e => request.admits e.2 && keep e.2) =
      report.entries.filter fun e => request.admits e.2 && keep e.2 := by
  rw [named, entries_restrict, List.filter_filter]
  refine List.filter_congr fun e _ => ?_
  simp only [Request.admits, h]
  cases e.2.isNamed name <;> simp

theorem document_named (h : request.limit? = some name) :
    document request (report.named name) = document request report := by
  have hn : (report.named name).named name = report.named name := by
    simp only [named, restrict_restrict, Bool.and_self]
  simp only [document, h, hn]

theorem names_named (h : request.limit? = some name) :
    names request (report.named name) = names request report := by
  have hnames (r : Report) : names request r = "\n".intercalate
      ((withPaths (listed request r)).map fun e => e.1.display ++ "." ++ e.2.name.display) := by
    simp only [names, withPaths, List.map_map]
    rfl
  rw [hnames, hnames, withPaths_listed, withPaths_listed,
    filter_entries_named h fun s => !request.isCheck || s.hasProblems]

/-! ### Annotations -/

/-- A struct of a package of which only the path is known. -/
def ofPath (e : Value × Record) : Package × Record := ({ path := e.1, records := [] }, e.2)

/-- The notices among annotations: a listing has one for each struct that was not checked. -/
def noticeLines (request : Request) (report : Report) : List String :=
  if request.isCheck then [] else report.unchecked.map fun e => notice e.2

/-- The heading of the summary among annotations. -/
def headingLines (request : Request) : List String :=
  ["", "## Struct alignment (" ++ request.abi.name ++ ")", ""]

/-- The warnings about problems and the summary of them. -/
def problemLines (limit : Nat) (problems : List (Value × Record)) :
    Except Fault (List String × List String) := do
  let warnings ← problems.mapM fun e => warning limit e.2
  if problems.isEmpty then pure (warnings, ["All structs are well aligned."])
  else
    let rows ← problems.mapM fun e => tableRow limit (ofPath e)
    let total ← totalSaved (problems.map ofPath)
    let table := ["| Package | Struct | Size | Optimal | Saved |",
      "|---------|--------|------|---------|-------|"] ++ rows ++ [""]
    let summary := "**Summary:** " ++ Text.intText problems.length ++ " structs, " ++
      (← total.toValue.shown limit) ++ " bytes of padding to recover"
    pure (warnings, table ++ [summary])

theorem mapM_withPaths {α : Type} (f : Value × Record → Except Fault α)
    (problems : List (Package × Record)) :
    (withPaths problems).mapM f = problems.mapM fun e => f (e.1.path, e.2) := by
  rw [withPaths, List.mapM_map]
  rfl

theorem annotations_eq_parts (request : Request) (report : Report) :
    annotations request report =
      (problemLines request.limits.showing (withPaths (annotated request report))).map fun lines =>
        "\n".intercalate (lines.1 ++ noticeLines request report ++ (headingLines request ++ lines.2)) := by
  have htotal (problems : List (Package × Record)) :
      totalSaved ((withPaths problems).map ofPath) = totalSaved problems := by
    simp only [totalSaved, withPaths, List.map_map, List.foldlM_map]
    rfl
  have hrows (limit : Nat) (problems : List (Package × Record)) :
      (withPaths problems).mapM (fun e => tableRow limit (ofPath e)) =
        problems.mapM (tableRow limit) :=
    mapM_withPaths (fun e => tableRow limit (ofPath e)) problems
  have hwarnings (limit : Nat) (problems : List (Package × Record)) :
      (withPaths problems).mapM (fun e => warning limit e.2) =
        problems.mapM fun e => warning limit e.2 :=
    mapM_withPaths (fun e => warning limit e.2) problems
  have hempty (problems : List (Package × Record)) :
      (withPaths problems).isEmpty = problems.isEmpty := by simp [withPaths]
  have hlength (problems : List (Package × Record)) :
      (withPaths problems).length = problems.length := by simp [withPaths]
  simp only [annotations, problemLines, htotal, hrows, hwarnings, hempty, hlength, noticeLines,
    headingLines]
  generalize annotated request report = problems
  cases problems.mapM fun e => warning request.limits.showing e.2 with
  | error e => rfl
  | ok warnings =>
      cases problems.isEmpty with
      | true => simp [bind, Except.bind, pure, Except.pure, Except.map]
      | false =>
          cases problems.mapM (tableRow request.limits.showing) with
          | error e => rfl
          | ok rows =>
              cases totalSaved problems with
              | error e => rfl
              | ok total =>
                  simp only [bind, Except.bind]
                  cases total.toValue.shown request.limits.showing with
                  | error e => rfl
                  | ok shown => simp [pure, Except.pure, Except.map]

theorem noticeLines_eq (request : Request) (report : Report) :
    noticeLines request report = if request.isCheck then []
      else (report.entries.filter fun e => !e.2.isChecked).map fun e => notice e.2 := by
  simp [noticeLines, unchecked, entries, List.filter_map, Function.comp_def]

theorem noticeLines_named (request : Request) (report : Report) (name : Value) :
    noticeLines request (report.named name) = if request.isCheck then []
      else ((report.unchecked.filter fun e => e.2.isNamed name).map fun e => notice e.2) := by
  rw [noticeLines_eq, named, entries_restrict, List.filter_filter]
  simp only [unchecked, entries, List.filter_map, List.filter_filter, List.map_map,
    Function.comp_def, Bool.and_comm]

/-- What annotations say about problems does not depend on structs of other names. -/
theorem problemLines_named (h : request.limit? = some name) :
    problemLines request.limits.showing (withPaths (annotated request (report.named name))) =
      problemLines request.limits.showing (withPaths (annotated request report)) := by
  have hfound (r : Report) : annotated request r = request.findings r := rfl
  rw [hfound, hfound, withPaths_findings, withPaths_findings, filter_entries_named h (·.hasProblems)]

/-! ### Lines that are missing -/

/-- A text of lines has the characters of the lines and a line break between any two of them. -/
theorem length_intercalate_newline {lines : List String} (h : lines ≠ []) :
    ("\n".intercalate lines).length + 1 = (lines.map fun line => line.length + 1).sum := by
  induction lines with
  | nil => exact absurd rfl h
  | cons line rest ih =>
      cases rest with
      | nil => simp
      | cons next rest =>
          have hbreak : "\n".length = 1 := rfl
          have hrest := ih (List.cons_ne_nil next rest)
          rw [String.intercalate_cons_cons, String.length_append, String.length_append, hbreak,
            List.map_cons, List.sum_cons, ← hrest]
          omega

/-- Some elements weigh as much as all only if they are all. -/
theorem forall_of_sum_map_filter {α : Type} {weight : α → Nat} (hw : ∀ x, 0 < weight x)
    {keep : α → Bool} {xs : List α}
    (h : ((xs.filter keep).map weight).sum = (xs.map weight).sum) : ∀ x ∈ xs, keep x = true := by
  have hsum := ((List.filter_append_perm keep xs).map weight).sum_nat
  rw [List.map_append, List.sum_append, h, Nat.add_eq_left,
    List.sum_eq_zero_iff_forall_eq_nat] at hsum
  intro x hx
  by_contra hk
  have hmem : x ∈ xs.filter fun x => !keep x := List.mem_filter.2 ⟨hx, by simpa using hk⟩
  exact absurd (hsum _ (List.mem_map_of_mem hmem)) (Nat.ne_of_gt (hw x))

theorem forall_of_intercalate_eq {α : Type} {line : α → String} {keep : α → Bool} {xs : List α}
    {front back : List String} (hb : back ≠ [])
    (h : "\n".intercalate (front ++ (xs.filter keep).map line ++ back) =
      "\n".intercalate (front ++ xs.map line ++ back)) : ∀ x ∈ xs, keep x = true := by
  have hlength := congrArg (fun text => text.length + 1) h
  simp only [length_intercalate_newline (List.append_ne_nil_of_right_ne_nil _ hb), List.map_append,
    List.sum_append, List.map_map] at hlength
  have hsum : ((xs.filter keep).map fun x => (line x).length + 1).sum =
      (xs.map fun x => (line x).length + 1).sum := by
    simp only [Function.comp_def] at hlength
    omega
  exact forall_of_sum_map_filter (fun _ => Nat.succ_pos _) hsum

/-! ### The limit -/

/-- **Limiting output to a name.**  The document and the list of names are the same for a report and
for the structs of the name alone.  Annotations are the same if they are those of a check, if all
structs that were not checked have the name, or if they cannot be written, and in no other case. -/
theorem write_named (printer : Printer) (h : request.limit? = some name) (report : Report) :
    let write (f : Format) (r : Report) := f.write printer request r
    write .document report = write .document (report.named name) ∧
      write .names report = write .names (report.named name) ∧
      (write .annotations report = write .annotations (report.named name) ↔
        request.isCheck = true ∨ (∀ e ∈ report.unchecked, e.2.isNamed name = true) ∨
          ∃ e, write .annotations (report.named name) = .error e) := by
  intro write
  refine ⟨by simp only [write, Format.write, document_named h],
    by simp only [write, Format.write, names_named h], ?_⟩
  simp only [write, Format.write, annotations_eq_parts, problemLines_named h, noticeLines_named]
  cases hp : problemLines request.limits.showing (withPaths (annotated request report)) with
  | error e => exact iff_of_true rfl (.inr (.inr ⟨_, rfl⟩))
  | ok lines =>
      simp only [Except.map, Outcome.ofFault_ok, Except.ok.injEq, reduceCtorEq, exists_false, or_false,
        noticeLines]
      cases request.isCheck with
      | true => simp
      | false =>
          simp only [Bool.false_eq_true, if_false, false_or]
          refine ⟨fun htext => forall_of_intercalate_eq (by simp [headingLines]) htext.symm,
            fun hall => ?_⟩
          rw [List.filter_eq_self.2 hall]

/-- A report on two structs, one of which has a field of unknown size. -/
def partlyChecked : Report :=
  ofFindings [{
    path := "p"
    findings := [
      analyse .amd64 { plainStruct with
        fields := [{ name := "a", typeExpr := "t", size := some 8, align := some 8, tag := "",
                     comment := "" }] },
      analyse .amd64 { plainStruct with
        name := "B"
        fields := [{ name := "b", typeExpr := "t", size := none, align := none, tag := "",
                     comment := "" }] }] }]

/-- A listing of the structs of one name. -/
def listA : Request where
  limits := .uniform reportNesting
  abi := .amd64
  purpose := .view
  detailed := false
  name := .str "A"

/-- Of the two structs the document and the list of names show the one of the name; annotations mention
the other one. -/
theorem write_named_partlyChecked :
    let write (f : Format) (r : Report) := f.write Page.printer listA r
    listA.limit? = some (.str "A") ∧
      write .document partlyChecked = write .document (partlyChecked.named (.str "A")) ∧
      write .names (partlyChecked.named (.str "A")) = .ok "p.A" ∧
      write .names partlyChecked = .ok "p.A" ∧
      write .annotations partlyChecked ≠ write .annotations (partlyChecked.named (.str "A")) := by
  intro write
  have hl : listA.limit? = some (.str "A") := by decide
  obtain ⟨hdocument, hnames, hannotations⟩ := write_named Page.printer hl partlyChecked
  have hpart : write .names (partlyChecked.named (.str "A")) = .ok "p.A" := by
    decide +kernel
  have hwritten : write .annotations (partlyChecked.named (.str "A")) =
      .ok "\n## Struct alignment (amd64)\n\nAll structs are well aligned." := by decide +kernel
  refine ⟨hl, hdocument, hpart, hnames.trans hpart, fun heq => ?_⟩
  rcases hannotations.1 heq with hcheck | hall | ⟨e, he⟩
  · exact absurd hcheck (by decide)
  · exact absurd hall (by decide +kernel)
  · cases hwritten.symm.trans he

/-- The annotations of a listing depend on a struct of another name that was not checked. -/
theorem annotations_not_limited :
    let write (r : Report) := Format.write .annotations Page.printer listA r
    listA.limit? = some (.str "A") ∧
      write partlyChecked =
        .ok ("::notice file=a.go,line=1::Struct B was not checked: Cannot determine layout of t " ++
          "(type=t, reason=size of field 'b' is unknown)\n\n## Struct alignment (amd64)\n\n" ++
          "All structs are well aligned.") ∧
      write (partlyChecked.named (.str "A")) =
        .ok "\n## Struct alignment (amd64)\n\nAll structs are well aligned." := by
  refine ⟨by decide, ?_, ?_⟩
  · decide +kernel
  · decide +kernel

end StructLayout.Output
