import StructLayout.Output.Listing
import StructLayout.Output.Page
import StructLayout.Output.Plain
import StructLayout.Proofs.Report.TypedDocument

/-!
# The views of a check agree

A check is about the structs that can be improved and are not exempt, and have the name that the request
is limited to if there is one (`Request.findings`).  Two restrictions of a report, an exit status and
four output formats each go through the packages of a report on their own; `ViewsAgree` says that all of
them come to these structs, in this order.

Two formats fail where they would have to write a number of too many digits.  What they write otherwise
is known to the last character; the document is even read back.  A listing for people is known piece by
piece, and breaks off at the first piece that cannot be printed.  The main statement is
`viewsAgree_of_isCheck`.
-/

namespace StructLayout.Output

open Report

/-! ### What a check is about -/

/-- The structs that a check is about: the problems of the report within the limit of the request. -/
def Request.findings (request : Request) (report : Report) : List (Package × Record) :=
  report.problems.filter fun e => request.admits e.2

/-- The part of a report that a check is about. -/
def Request.part (request : Request) (report : Report) : Report :=
  report.restrict fun s => request.admits s && s.hasProblems

/-- Structs with the paths of their packages. -/
def withPaths (structs : List (Package × Record)) : List (Value × Record) :=
  structs.map fun e => (e.1.path, e.2)

section

variable {request : Request} {report : Report}

theorem withPaths_findings (request : Request) (report : Report) :
    withPaths (request.findings report) =
      report.entries.filter fun e => request.admits e.2 && e.2.hasProblems := by
  simp [entries, withPaths, Request.findings, problems, List.filter_map, List.filter_filter,
    Function.comp_def]

theorem entries_part (request : Request) (report : Report) :
    (request.part report).entries = withPaths (request.findings report) := by
  rw [Request.part, entries_restrict, withPaths_findings]

theorem part_of_limit {name : Value} (h : request.limit? = some name) :
    (report.named name).problemsOnly = request.part report := by
  simp [named, problemsOnly, restrict_restrict, Request.part, Request.admits, h]

theorem part_of_unlimited (h : request.limit? = none) :
    report.problemsOnly = request.part report := by
  simp [problemsOnly, Request.part, Request.admits, h]

theorem hasProblems_iff_entries (report : Report) :
    report.hasProblems = true ↔ report.problemsOnly.entries ≠ [] := by
  rw [hasProblems_iff, problemsOnly, entries_restrict, entries, List.filter_map, Function.comp_def,
    ne_eq, ne_eq, List.map_eq_nil_iff, problems]

theorem findings_eq_nil_iff (request : Request) (report : Report) :
    (request.part report).entries = [] ↔ request.findings report = [] := by
  rw [entries_part, withPaths, List.map_eq_nil_iff]

theorem exitCode_eq (request : Request) (report : Report) :
    report.exitCode .check request.name = if request.findings report = [] then 0 else 1 := by
  have hp (limited : Report) (h : limited.problemsOnly = request.part report) :
      (if limited.hasProblems then 1 else 0) = if request.findings report = [] then 0 else 1 := by
    simp only [hasProblems_iff_entries, h, ne_eq, findings_eq_nil_iff, ite_not]
  rw [exitCode]
  by_cases ht : request.name.isTruthy = true
  · have hl : request.limit? = some request.name := if_pos ht
    simpa [ht] using hp _ (part_of_limit hl)
  · have hl : request.limit? = none := if_neg ht
    simpa [ht] using hp _ (part_of_unlimited hl)

theorem names_eq (h : request.isCheck = true) :
    names request report = "\n".intercalate
      ((request.findings report).map fun e => e.1.path.display ++ "." ++ e.2.name.display) := by
  have hl : listed request report = request.findings report := by
    simp [listed, Request.findings, problems, List.filter_filter, h]
  rw [names, hl]

/-! ### The document -/

/-- A document that may be nested too deeply to be shown, or hold a number of too many digits. -/
def documentText (limit : Nat) (doc : Value) : Except Fault String :=
  if limit < doc.nesting then .error (.tooDeep " while getting the repr of an object")
  else if doc.isShowable then .ok (Json.pretty doc)
  else .error .tooLongToShow

theorem document_eq (h : request.isCheck = true) (report : Report) :
    document request report =
      documentText request.limits.showing (request.part report).toValue := by
  have hd : document request report =
      Json.pretty <$> (request.part report).toValue.requireShowable request.limits.showing := by
    unfold document
    cases hl : request.limit? with
    | none => simp only [h, if_true, part_of_unlimited hl]
    | some name => simp only [h, if_true, part_of_limit hl]
  rw [hd, Value.requireShowable, documentText]
  split
  · rfl
  · split <;> rfl

/-! ### Annotations -/

/-- The bytes that reordering saves in a struct whose sizes are integers. -/
def saved (s : Record) : Int := s.size.asInt?.getD 0 - s.optimalSize.asInt?.getD 0

/-- The bytes that reordering saves in some structs. -/
def savedInAll (structs : List (Package × Record)) : Int :=
  structs.foldr (fun e bytes => saved e.2 + bytes) 0

/-- The warning about a struct whose sizes can be shown. -/
def warningLine (s : Record) : String :=
  "::warning " ++ annotationPlace s ++ "::Struct " ++ s.name.display ++
    " fields order can be optimized (" ++ s.size.display ++ " → " ++ s.optimalSize.display ++ ")"

/-- The row of a struct whose sizes can be shown. -/
def rowLine (e : Package × Record) : String :=
  "| `" ++ e.1.path.display ++ "` | `" ++ e.2.name.display ++ "` | " ++ e.2.size.display ++
    " | " ++ e.2.optimalSize.display ++ " | " ++ Text.intText (saved e.2) ++ " |"

/-- The summary of some structs, or the remark that there are none. -/
def summaryLines (structs : List (Package × Record)) : List String :=
  if structs.isEmpty then ["All structs are well aligned."]
  else
    ["| Package | Struct | Size | Optimal | Saved |",
      "|---------|--------|------|---------|-------|"] ++ structs.map rowLine ++ [""] ++
    ["**Summary:** " ++ Text.intText structs.length ++ " structs, " ++
      Text.intText (savedInAll structs) ++ " bytes of padding to recover"]

/-- Whether every number of the annotations on some structs is short enough to be written. -/
def canAnnotate (structs : List (Package × Record)) : Bool :=
  structs.all (fun e => e.2.size.isShowable && e.2.optimalSize.isShowable) &&
    structs.all (fun e => Text.isShowable (saved e.2)) && Text.isShowable (savedInAll structs)

/-- A struct whose sizes are integers. -/
def HasSizes (s : Record) : Prop := ∃ size optimal, s.size = .int size ∧ s.optimalSize = .int optimal

/-- The sizes of a typed struct that can be improved are integers. -/
theorem hasSizes_of_hasProblems {s : Record} (ht : s.IsTyped) (hp : s.hasProblems = true) :
    HasSizes s := by
  simp only [Record.hasProblems, Record.canBeOptimized, Record.isChecked, Bool.and_eq_true,
    bne_iff_ne] at hp
  obtain ⟨size | n, hs⟩ := ht.size
  · exact absurd hs hp.2.1.1
  obtain ⟨optimal | m, ho⟩ := ht.optimalSize
  · exact absurd ho hp.2.1.2
  exact ⟨_, _, hs, ho⟩

theorem shown_int (limit : Nat) (n : Int) : Value.shown limit (.int n) =
    if Text.isShowable n then .ok (Text.intText n) else .error .tooLongToShow := by
  have hr : Value.requireShowable limit (.int n) =
      if Text.isShowable n then .ok (.int n) else .error .tooLongToShow :=
    if_neg (Nat.not_lt_zero limit)
  rw [Value.shown, hr]
  split
  · exact congrArg Except.ok (Value.display_int n)
  · rfl

theorem warning_eq (limit : Nat) {s : Record} (h : HasSizes s) :
    warning limit s = if s.size.isShowable && s.optimalSize.isShowable then .ok (warningLine s)
      else .error .tooLongToShow := by
  obtain ⟨size, optimal, hs, ho⟩ := h
  have hline : warningLine s = "::warning " ++ annotationPlace s ++ "::Struct " ++ s.name.display ++
      " fields order can be optimized (" ++ s.size.display ++ " → " ++ s.optimalSize.display ++
      ")" := rfl
  simp only [warning, hline, hs, ho, shown_int, Value.isShowable, Value.display_int]
  by_cases h1 : Text.isShowable size = true <;> by_cases h2 : Text.isShowable optimal = true <;>
    simp only [h1, h2, if_true, Bool.and_self, Bool.and_false, Bool.false_and] <;> rfl

theorem wastedBytes_eq {s : Record} (h : HasSizes s) : s.wastedBytes = .ok (.int (saved s)) := by
  obtain ⟨size, optimal, hs, ho⟩ := h
  have hc : s.isChecked = true := by simp [Record.isChecked, hs, ho]
  simp only [Record.wastedBytes, hc, if_true, hs, ho, saved]
  rfl

theorem tableRow_eq (limit : Nat) {e : Package × Record} (h : HasSizes e.2) :
    tableRow limit e = if Text.isShowable (saved e.2) then .ok (rowLine e)
      else .error .tooLongToShow := by
  have hrow : tableRow limit e = (fun bytes => "| `" ++ e.1.path.display ++ "` | `" ++ e.2.name.display ++
      "` | " ++ e.2.size.display ++ " | " ++ e.2.optimalSize.display ++ " | " ++ bytes ++ " |") <$>
      Value.shown limit (.int (saved e.2)) := by
    rw [tableRow, wastedBytes_eq h]
    rfl
  rw [hrow, shown_int]
  split <;> rfl

theorem totalSaved_eq {structs : List (Package × Record)} (h : ∀ e ∈ structs, HasSizes e.2) :
    totalSaved structs = .ok (.whole (savedInAll structs)) := by
  have hsum (n : Int) : structs.foldlM (fun (total : Number) e => do
      total.add (← Number.ofValue (← e.2.wastedBytes))) (.whole n) =
        .ok (.whole (n + savedInAll structs)) := by
    induction structs generalizing n with
    | nil => rw [savedInAll, List.foldr_nil, Int.add_zero]; rfl
    | cons e rest ih =>
      obtain ⟨he, hrest⟩ := List.forall_mem_cons.1 h
      rw [List.foldlM_cons, wastedBytes_eq he]
      have := ih hrest (n + saved e.2)
      rw [Int.add_assoc] at this
      exact this
  have htotal := hsum 0
  rw [Int.zero_add] at htotal
  exact htotal

/-- Steps that fail in one way only fail together if one of them does. -/
theorem mapM_ite {α β : Type} {fault : Fault} {run : α → Except Fault β} {good : α → Bool} {f : α → β}
    {xs : List α} (h : ∀ x ∈ xs, run x = if good x then .ok (f x) else .error fault) :
    xs.mapM run = if xs.all good then .ok (xs.map f) else .error fault := by
  induction xs with
  | nil => rfl
  | cons x xs ih =>
    obtain ⟨hx, hxs⟩ := List.forall_mem_cons.1 h
    rw [List.mapM_cons, hx, ih hxs, List.all_cons, List.map_cons]
    cases good x
    · rfl
    · cases xs.all good <;> rfl

theorem annotations_eq (h : request.isCheck = true) (ht : report.IsTyped) :
    annotations request report =
      if canAnnotate (request.findings report) then
        .ok ("\n".intercalate (((request.findings report).map fun e => warningLine e.2) ++
          ["", "## Struct alignment (" ++ request.abi.name ++ ")", ""] ++
          summaryLines (request.findings report)))
      else .error .tooLongToShow := by
  have hs : ∀ e ∈ request.findings report, HasSizes e.2 := by
    intro e he
    obtain ⟨hp, -⟩ := List.mem_filter.1 he
    obtain ⟨hr, hp⟩ := List.mem_filter.1 hp
    obtain ⟨p, hpm, hsm⟩ := List.mem_flatMap.1 hr
    obtain ⟨s, hs, rfl⟩ := List.mem_map.1 hsm
    exact hasSizes_of_hasProblems ((ht p hpm).records s hs) hp
  have hw := mapM_ite fun e he => warning_eq request.limits.showing (hs e he)
  have hr := mapM_ite fun e he => tableRow_eq request.limits.showing (hs e he)
  have ha : annotated request report = request.findings report := rfl
  simp only [annotations, ha, h, if_true, totalSaved_eq hs]
  generalize request.findings report = structs at *
  rw [hw, hr, canAnnotate, summaryLines]
  cases structs.all fun e => e.2.size.isShowable && e.2.optimalSize.isShowable with
  | false => rfl
  | true =>
    by_cases he : structs.isEmpty = true
    · rw [List.isEmpty_iff.1 he]
      simp
      rfl
    · simp only [he, Bool.true_and]
      cases structs.all fun e => Text.isShowable (saved e.2) with
      | false => rfl
      | true =>
        have hbind {α : Type} (a : α) (f : α → Except Fault String) : (.ok a >>= f) = f a := rfl
        simp only [if_true, hbind, Number.toValue, shown_int]
        cases Text.isShowable (savedInAll structs) with
        | false => rfl
        | true => simp only [if_true, hbind, List.append_nil, List.append_assoc]; rfl

/-! ### The listing -/

theorem hasProblems_eq_not_isEmpty (p : Package) :
    p.hasProblems = !(p.records.filter Record.hasProblems).isEmpty := by
  rw [Bool.eq_iff_iff]
  simp [Package.hasProblems]

theorem not_isEmpty_of_hasProblems {p : Package} (h : p.hasProblems = true) : p.isEmpty = false := by
  rw [Package.isEmpty, List.isEmpty_eq_false_iff]
  intro hn
  rw [hasProblems_eq_not_isEmpty, hn] at h
  cases h

/-- The packages that a listing goes through are those that a report restricted to its problems has. -/
theorem packages_problemsOnly (report : Report) :
    report.problemsOnly.packages = (report.nonEmpty.filter Package.hasProblems).map fun p =>
      { p with records := p.records.filter Record.hasProblems } := by
  change report.packages.filterMap (Package.restrict Record.hasProblems) = _
  rw [nonEmpty, List.filter_filter]
  induction report.packages with
  | nil => rfl
  | cons p rest ih =>
    have hp := hasProblems_eq_not_isEmpty p
    rw [List.filterMap_cons, List.filter_cons, ih]
    unfold Package.restrict
    cases hk : p.records.filter Record.hasProblems with
    | nil => simp [hp, hk]
    | cons s more =>
      rw [hk] at hp
      simp [hp, hk, not_isEmpty_of_hasProblems hp]

/-- The remark of a listing that there is nothing to improve. -/
def wellAlignedRemark : String := "All structs are well aligned"

/-- The pieces that are printed for the problems of a report, package by package. -/
def problemPieces (printer : Printer) (request : Request) (report : Report) : Listing :=
  (report.problemsOnly.packages.flatMap fun p =>
    packageRule printer p ++
      p.records.flatMap (listStruct printer request.limits request.abi request.detailed true)) ++
    closingRule

theorem hasProblems_iff_packages (report : Report) :
    report.hasProblems = true ↔ report.nonEmpty.filter Package.hasProblems ≠ [] := by
  simp only [ne_eq, List.filter_eq_nil_iff, Classical.not_forall, Decidable.not_not, exists_prop,
    nonEmpty, hasProblems, List.any_eq_true, List.mem_filter, Bool.not_eq_true']
  constructor
  · rintro ⟨p, hpm, hpp⟩
    exact ⟨p, ⟨hpm, not_isEmpty_of_hasProblems hpp⟩, hpp⟩
  · rintro ⟨p, ⟨hpm, -⟩, hpp⟩
    exact ⟨p, hpm, hpp⟩

theorem hasProblems_iff_findings (hl : request.limit? = none) :
    report.hasProblems = true ↔ request.findings report ≠ [] := by
  rw [hasProblems_iff_entries, part_of_unlimited hl, ne_eq, findings_eq_nil_iff]

theorem listing_eq (h : request.isCheck = true) (hl : request.limit? = none)
    (hne : report.isEmpty = false) (printer : Printer) : listing printer request report =
      if request.findings report = [] then printLine ("[green]" ++ wellAlignedRemark ++ "[/green]")
      else problemPieces printer request report := by
  have hf : (report.nonEmpty.filter Package.hasProblems).isEmpty =
      decide (request.findings report = []) := by
    rw [Bool.eq_iff_iff, decide_eq_true_eq, List.isEmpty_iff]
    exact Decidable.not_iff_not.1
      ((hasProblems_iff_packages report).symm.trans (hasProblems_iff_findings hl))
  rw [listing, hne, hl, h]
  simp only [Bool.false_eq_true, if_false, if_true, listProblems, problemPieces, hf,
    packages_problemsOnly, List.flatMap_map, decide_eq_true_eq]
  rfl

/-- A printer that shows a remark as it is, on a line of its own, and draws rules that are wider. -/
structure Printer.ShowsRemarks (printer : Printer) : Prop where
  line : printer.line ("[green]" ++ wellAlignedRemark ++ "[/green]") = .ok (wellAlignedRemark ++ "\n")
  rule : ∀ text, printer.rule "" = .ok text → (wellAlignedRemark ++ "\n").length < text.length

theorem showsRemarks_page : Page.printer.ShowsRemarks where
  line := by decide +kernel
  rule text h := by
    have hrule : Page.printRule "" = .ok (String.ofList (Page.plainRule ++ ['\n'])) := if_pos rfl
    obtain rfl := Except.ok.inj (hrule.symm.trans h)
    have hshort : wellAlignedRemark.length < Page.width := by decide
    simpa [Page.length_plainRule] using hshort

/-- A listing that ends with a rule is longer than the remark that nothing was found. -/
theorem length_problemPieces {printer : Printer} (hp : printer.ShowsRemarks) {text : String}
    (h : (problemPieces printer request report).text printer = .ok text) :
    (wellAlignedRemark ++ "\n").length < text.length := by
  have hs := Listing.shown_of_text h
  have hn : ((problemPieces printer request report).reached printer).2 = none :=
    congrArg Prod.snd hs
  have ht : String.join ((problemPieces printer request report).reached printer).1 = text :=
    congrArg Prod.fst hs
  have hreached := Listing.reached_of_append hn
  rw [problemPieces, Listing.reached_append_ok _ hreached] at hn ht
  cases hrule : printer.rule "" with
  | error fault => simp [closingRule, Listing.reached, Printer.print, hrule, Except.bind] at hn
  | ok rule =>
    refine Nat.lt_of_lt_of_le (hp.rule rule hrule) ?_
    rw [← ht]
    simp [closingRule, Listing.reached, Printer.print, hrule, Except.bind]

theorem text_wellAligned {printer : Printer} (hp : printer.ShowsRemarks) :
    Listing.text printer (printLine ("[green]" ++ wellAlignedRemark ++ "[/green]")) =
      .ok (wellAlignedRemark ++ "\n") := by
  simp [printLine, Listing.text, Listing.shown, Listing.reached, Printer.print, hp.line, Except.bind]

/-! ### Agreement -/

/-- The views of a check show the same structs in the same order, and the exit status tells whether
there are any. -/
structure ViewsAgree (request : Request) (report : Report) : Prop where
  /-- The exit status is one exactly if there is something to show. -/
  exitCode : report.exitCode .check request.name = if request.findings report = [] then 0 else 1
  /-- Without a limit, the report restricted to its problems has these structs. -/
  unlimited : request.limit? = none →
    report.problemsOnly.entries = withPaths (request.findings report)
  /-- With a name as limit, the report restricted to the name and to its problems has these structs,
  in either order of the two. -/
  limited : ∀ name, request.limit? = some name →
    (report.named name).problemsOnly.entries = withPaths (request.findings report) ∧
      (report.problemsOnly.named name).entries = withPaths (request.findings report)
  /-- The names are those of these structs, behind the paths of their packages. -/
  names : names request report = "\n".intercalate
    ((request.findings report).map fun e => e.1.path.display ++ "." ++ e.2.name.display)
  /-- A document that lists these structs is written, unless it is nested too deeply or a number in it is
  too long, and it can be read back. -/
  document : report.IsTyped → ∃ doc : Value,
    listedIn doc = (request.findings report).map (fun e => (e.1.path, e.2.name)) ∧
      document request report = documentText request.limits.showing doc ∧
      doc.nesting ≤ reportNesting ∧
      ∀ limit, doc.nesting ≤ limit → doc.isShowable = true →
        Json.parse limit (Json.pretty doc) = .ok doc
  /-- There is a warning and a row for each of these structs, unless a number is too long. -/
  annotations : report.IsTyped → annotations request report =
    if canAnnotate (request.findings report) then
      .ok ("\n".intercalate (((request.findings report).map fun e => warningLine e.2) ++
        ["", "## Struct alignment (" ++ request.abi.name ++ ")", ""] ++
        summaryLines (request.findings report)))
    else .error .tooLongToShow
  /-- Without a limit, a report with structs is listed by printing these structs. -/
  listing : request.limit? = none → report.isEmpty = false → ∀ printer,
    listing printer request report =
      if request.findings report = [] then printLine ("[green]" ++ wellAlignedRemark ++ "[/green]")
      else problemPieces printer request report
  /-- The remark that nothing was found is printed exactly if the exit status is zero. -/
  wellAligned : request.limit? = none → report.isEmpty = false → ∀ printer : Printer,
    printer.ShowsRemarks →
      ((Output.listing printer request report).text printer = .ok (wellAlignedRemark ++ "\n") ↔
        report.exitCode .check request.name = 0)

theorem wellAligned_iff (h : request.isCheck = true) (hl : request.limit? = none)
    (hne : report.isEmpty = false) {printer : Printer} (hp : printer.ShowsRemarks) :
    (listing printer request report).text printer = .ok (wellAlignedRemark ++ "\n") ↔
      report.exitCode .check request.name = 0 := by
  rw [listing_eq h hl hne, exitCode_eq]
  split
  · exact iff_of_true (text_wellAligned hp) rfl
  · refine iff_of_false ?_ Nat.one_ne_zero
    intro ht
    exact absurd (length_problemPieces hp ht) (Nat.lt_irrefl _)

end

/-- A check that is limited to a name, or of all structs if there is none. -/
def checkOf (name : Value) : Request where
  limits := .uniform reportNesting
  abi := .amd64
  purpose := .check
  detailed := false
  name := name

/-- A struct that is not exempt from checks. -/
def plainStruct : StructDef where
  name := "A"
  position := { file := "a.go", line := 1 }
  fields := []
  ignored := false

/-- A report on a struct that shrinks from one size to another. -/
def oneFinding (size best : Int) : Report :=
  ofFindings [{
    path := "p"
    findings := [{ subject := plainStruct, verdict := .improvable size best [] }] }]

theorem isTyped_oneFinding (size best : Int) : (oneFinding size best).IsTyped :=
  List.forall_mem_map.2 fun _ _ =>
    ⟨⟨_, rfl⟩, List.forall_mem_map.2 fun f _ => isTyped_ofFinding f⟩

/-- A report on two packages with structs that can be improved, are exempt, have no better order or
were not checked; three of them have one name. -/
def mixedReport : Report :=
  let exempt : StructDef := { plainStruct with ignored := true }
  let other : StructDef := { plainStruct with name := "B" }
  ofFindings [
    { path := "p", findings := [
        { subject := plainStruct, verdict := .improvable 24 16 [] },
        { subject := other, verdict := .improvable 32 24 [] },
        { subject := other, verdict := .unchecked "unknown size" }] },
    { path := "q", findings := [
        { subject := exempt, verdict := .improvable 40 24 [] },
        { subject := plainStruct, verdict := .improvable 24 16 [] },
        { subject := plainStruct, verdict := .settled 8 }] }]

theorem hasProblems_ofFinding {subject : StructDef} {size best : Int} {order : List Field}
    (hs : subject.ignored = false) (h : size ≠ best) :
    (Record.ofFinding { subject, verdict := .improvable size best order }).hasProblems = true := by
  rw [Record.hasProblems, canBeOptimized_ofFinding, Bool.and_eq_true]
  constructor
  · simp [Record.isExempt, Record.ofFinding, hs, Value.isTruthy]
  · simp [Verdict.canBeOptimized, Verdict.isChecked, Verdict.size?, Verdict.optimalSize?, h]

theorem part_oneFinding {size best : Int} (h : size ≠ best) :
    (checkOf .null).part (oneFinding size best) = oneFinding size best := by
  have hp := @hasProblems_ofFinding plainStruct size best [] rfl h
  have ha (s : Record) : (checkOf .null).admits s = true := rfl
  simp [Request.part, restrict, Package.restrict, oneFinding, ofFindings, Package.ofFinding, hp, ha]

theorem findings_oneFinding {size best : Int} (h : size ≠ best) :
    (checkOf .null).findings (oneFinding size best) = (oneFinding size best).records := by
  have hp := @hasProblems_ofFinding plainStruct size best [] rfl h
  have ha (s : Record) : (checkOf .null).admits s = true := rfl
  simp [Request.findings, problems, records, oneFinding, ofFindings, Package.ofFinding, hp, ha]

/-- A struct with a size of too many digits is found, but it can be neither written nor annotated. -/
theorem unwritable_oneFinding {size best : Int} (h : size ≠ best)
    (hn : Text.isShowable size = false) :
    (oneFinding size best).exitCode .check .null = 1 ∧
      document (checkOf .null) (oneFinding size best) = .error .tooLongToShow ∧
      annotations (checkOf .null) (oneFinding size best) = .error .tooLongToShow := by
  have hf := findings_oneFinding h
  refine ⟨?_, ?_, ?_⟩
  · rw [← show (checkOf .null).name = .null from rfl, exitCode_eq, hf]
    rfl
  · have hv : (oneFinding size best).toValue.isShowable = false := by
      simp [oneFinding, ofFindings, Report.toValue, Package.ofFinding, Package.toValue,
        Record.ofFinding, Record.toValue, Verdict.size?, optionalInt, Value.isShowable,
        Value.areShowable, Value.areMembersShowable, hn]
    rw [document_eq rfl, part_oneFinding h, documentText, hv]
    rfl
  · have hv : canAnnotate (oneFinding size best).records = false := by
      simp [canAnnotate, oneFinding, ofFindings, records, Package.ofFinding, Record.ofFinding,
        Verdict.size?, optionalInt, Value.isShowable, hn]
    rw [annotations_eq rfl (isTyped_oneFinding _ _), hf, hv]
    rfl

def leastLonger (digits : Nat) : Nat := Nat.pow 10 digits

theorem lt_length_natDigits {digits : Nat} (h : 0 < digits) (n : Nat) :
    digits < (Text.natDigits (leastLonger digits + n)).length := by
  rw [Text.natDigits, ← Nat.not_le, Nat.length_toDigits_le_iff (by decide) h]
  exact Nat.not_lt.2 (Nat.le_add_right (leastLonger digits) n)

/-- The least number that has too many digits to be written. -/
def leastLong : Nat := leastLonger Text.digitLimit

theorem isShowable_leastLong_add (n : Nat) : Text.isShowable (leastLong + n : Nat) = false :=
  decide_eq_false (Nat.not_le.2 (lt_length_natDigits (by decide) n))

end StructLayout.Output
