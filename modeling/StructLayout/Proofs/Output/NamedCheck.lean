import StructLayout.Proofs.Output.CheckViews

/-!
# Checking the structs of a name

A check that is limited to a name lists the first struct of the name, while its exit status is about
all of them.  A listing announces a struct by printing it under a header which says that it can be
improved (`Announces`); how many pieces a listing has tells whether it is there to be printed.

The main statement is `exitCode_iff_announces`: an announcement always goes with the exit status one,
and the two agree unless a struct with problems stands behind a first one of the name without, or the
header of the first one cannot be printed.
-/

namespace StructLayout.Output

open Report

variable {printer : Printer} {request : Request} {report : Report} {name : Value}

/-! ### The pieces of a listing -/

@[simp] theorem length_printLine (s : String) : (printLine s).length = 1 := rfl

@[simp] theorem length_printResult (r : Except Fault String) : (printResult r).length = 1 := by
  cases r <;> rfl

@[simp] theorem length_packageRule (p : Package) : (packageRule printer p).length = 1 := by
  unfold packageRule
  cases requireText p.path <;> rfl

@[simp] theorem length_header (limit : Nat) (improving : Bool) (s : Record) :
    (header printer limit improving s).length = 1 :=
  length_printResult _

@[simp] theorem length_closingRule : closingRule.length = 1 := rfl

@[simp] theorem length_alreadyOptimal (limit : Nat) (s : Record) :
    (alreadyOptimal printer limit s).length = 1 := by
  unfold alreadyOptimal
  split
  · exact length_printResult _
  · exact length_printResult _

/-- A struct is listed with its header and its first and last line. -/
theorem length_listStruct (printer : Printer) (limits : Limits) (abi : Abi)
    (detailed improving : Bool) (s : Record) :
    3 ≤ (listStruct printer limits abi detailed improving s).length := by
  simp only [listStruct, List.length_append, length_header, length_printResult, length_printLine]
  omega

/-! ### Announcements -/

/-- The pieces of a check that lists a struct: under the rule of its package a header which says that it
can be improved, and the struct in its better order. -/
def improvablePieces (printer : Printer) (request : Request) (p : Package) (s : Record) : Listing :=
  packageRule printer p ++
    listStruct printer request.limits request.abi request.detailed true s ++ closingRule

/-- The rule of a package and the header of a struct that can be improved are printed. -/
def PrintsHeader (printer : Printer) (request : Request) (p : Package) (s : Record) : Prop :=
  ((packageRule printer p ++ header printer request.limits.showing true s).reached printer).2 = none

/-- A listing announces that a struct can be improved: it lists the struct, and the header is printed. -/
def Announces (printer : Printer) (request : Request) (l : Listing) : Prop :=
  ∃ p s, l = improvablePieces printer request p s ∧ PrintsHeader printer request p s

/-- An announcement takes more pieces than a remark. -/
theorem not_announces_of_length {l : Listing} (h : l.length ≤ 3) : ¬ Announces printer request l := by
  rintro ⟨p, s, rfl, -⟩
  have := length_listStruct printer request.limits request.abi request.detailed true s
  simp only [improvablePieces, List.length_append, length_packageRule, length_closingRule] at h
  omega

/-- The first two pieces are the rule and the header. -/
theorem take_improvablePieces (p : Package) (s : Record) :
    (improvablePieces printer request p s).take 2 =
      packageRule printer p ++ header printer request.limits.showing true s := by
  rw [improvablePieces, listStruct, List.append_assoc, List.append_assoc, List.append_assoc,
    List.append_assoc, ← List.append_assoc]
  exact List.take_left' (by simp)

theorem announces_improvablePieces (p : Package) (s : Record) :
    Announces printer request (improvablePieces printer request p s) ↔
      PrintsHeader printer request p s := by
  constructor
  · rintro ⟨q, t, heq, hprinted⟩
    rw [PrintsHeader, ← take_improvablePieces, ← heq, take_improvablePieces] at hprinted
    exact hprinted
  · exact fun h => ⟨p, s, rfl, h⟩

theorem failure_of_not_printsHeader {p : Package} {s : Record}
    (h : ¬ PrintsHeader printer request p s) :
    ∃ e, ((improvablePieces printer request p s).shown printer).2 = some e := by
  rw [← Option.isSome_iff_exists, ← Option.ne_none_iff_isSome]
  intro hnone
  rw [← List.take_append_drop 2 (improvablePieces printer request p s)] at hnone
  rw [PrintsHeader, ← take_improvablePieces] at h
  exact h (Listing.reached_of_append hnone)

theorem find?_eq_none_of_isEmpty (h : report.isEmpty = true) : report.find? name = none := by
  simp only [isEmpty, List.all_eq_true, Package.isEmpty, List.isEmpty_iff] at h
  simp only [Report.find?, List.find?_eq_none, records, List.mem_flatMap, List.mem_map]
  rintro _ ⟨p, hp, s, hs, rfl⟩
  simp [h p hp] at hs

theorem listing_eq_of_find? (hc : request.isCheck = true) (h : request.limit? = some name)
    {p : Package} {s : Record} (hf : report.find? name = some (p, s)) :
    listing printer request report =
      if s.hasProblems then improvablePieces printer request p s
      else packageRule printer p ++ alreadyOptimal printer request.limits.showing s ++
        closingRule := by
  have hne : report.isEmpty = false := by
    by_contra hempty
    rw [Bool.not_eq_false] at hempty
    simp [find?_eq_none_of_isEmpty hempty] at hf
  simp only [listing, hne, Bool.false_eq_true, if_false, h, listNamed, hf, hc, Bool.true_and]
  cases s.hasProblems <;> rfl

/-- Without a struct of the name there is only a remark. -/
theorem length_listing_of_find?_eq_none (h : request.limit? = some name)
    (hf : report.find? name = none) : (listing printer request report).length = 1 := by
  simp only [listing, h]
  split
  · exact length_printLine _
  · simp only [listNamed, hf, length_printResult]

/-- A limited check announces the first struct of the name if that has problems and its header can be
printed, and nothing else. -/
theorem announces_iff (hc : request.isCheck = true) (h : request.limit? = some name)
    (report : Report) : Announces printer request (listing printer request report) ↔
      ∃ e, report.find? name = some e ∧ e.2.hasProblems = true ∧
        PrintsHeader printer request e.1 e.2 := by
  cases hf : report.find? name with
  | none =>
      refine iff_of_false (not_announces_of_length ?_) (by simp)
      rw [length_listing_of_find?_eq_none h hf]
      decide
  | some e =>
      obtain ⟨p, s⟩ := e
      rw [listing_eq_of_find? hc h hf]
      cases hp : s.hasProblems with
      | true => simp [announces_improvablePieces, hp]
      | false =>
          refine iff_of_false (not_announces_of_length (by simp)) ?_
          rintro ⟨e, he, hproblems, -⟩
          obtain rfl := Option.some.inj he
          cases hp.symm.trans hproblems

/-! ### The exit status -/

/-- The exit status of a limited check is about all structs of the name. -/
theorem exitCode_eq_one_iff (h : request.limit? = some name) (report : Report) :
    report.exitCode .check name = 1 ↔
      ∃ e ∈ report.records, e.2.isNamed name = true ∧ e.2.hasProblems = true := by
  have hname : request.name = name := by
    unfold Request.limit? at h
    split at h
    · exact Option.some.inj h
    · cases h
  rw [← hname, exitCode_eq, hname]
  have hfindings : request.findings report = [] ↔
      ¬ ∃ e ∈ report.records, e.2.isNamed name = true ∧ e.2.hasProblems = true := by
    simp only [Request.findings, problems, List.filter_filter, List.filter_eq_nil_iff,
      Request.admits, h, Bool.and_eq_true, not_exists, not_and]
  split
  · next hf => simpa using hfindings.1 hf
  · next hf => simpa using Classical.not_not.1 (mt hfindings.2 hf)

/-- **Announcements and exit status** of a check that is limited to a name: what is announced counts
for the exit status.  Where nothing is announced in spite of it, the first struct of the name is said to
be optimal, exempt or unchecked, or printing fails before its header is on the page.  The two agree
exactly if the first struct of the name has problems and a header that can be printed whenever some
struct of the name has problems. -/
theorem exitCode_iff_announces (printer : Printer) (hc : request.isCheck = true)
    (h : request.limit? = some name) (report : Report) :
    let l := listing printer request report
    let announced := Announces printer request l
    let counted := report.exitCode .check name = 1
    (announced → counted) ∧
      (counted → ¬ announced → ∃ p s, report.find? name = some (p, s) ∧
        if s.hasProblems then ∃ e, (l.shown printer).2 = some e
        else l = packageRule printer p ++ alreadyOptimal printer request.limits.showing s ++
          closingRule) ∧
      ((counted ↔ announced) ↔ ∀ p s, report.find? name = some (p, s) →
        (∃ e ∈ report.records, e.2.isNamed name = true ∧ e.2.hasProblems = true) →
          s.hasProblems = true ∧ PrintsHeader printer request p s) := by
  intro l announced counted
  have hannounced : announced ↔ _ := announces_iff hc h report
  have hcounted := exitCode_eq_one_iff h report
  have hfirst : announced → counted := by
    intro ha
    obtain ⟨e, he, hp, -⟩ := hannounced.1 ha
    have hnamed := List.find?_some he
    exact hcounted.2 ⟨e, List.mem_of_find?_eq_some he, hnamed, hp⟩
  have hexists (hx : counted) : ∃ p s, report.find? name = some (p, s) := by
    obtain ⟨e, he, hnamed, -⟩ := hcounted.1 hx
    have hsome : (report.find? name).isSome := List.find?_isSome.2 ⟨e, he, hnamed⟩
    obtain ⟨⟨p, s⟩, hf⟩ := Option.isSome_iff_exists.1 hsome
    exact ⟨p, s, hf⟩
  refine ⟨hfirst, fun hx hn => ?_, ⟨fun hagree p s hf hsome => ?_, fun hall => ⟨fun hx => ?_, hfirst⟩⟩⟩
  · obtain ⟨p, s, hf⟩ := hexists hx
    refine ⟨p, s, hf, ?_⟩
    have hl : l = _ := listing_eq_of_find? hc h hf
    cases hp : s.hasProblems with
    | false => simpa [hp] using hl
    | true =>
        have hheader : ¬ PrintsHeader printer request p s := fun hh =>
          hn (hannounced.2 ⟨_, hf, hp, hh⟩)
        obtain ⟨e, he⟩ := failure_of_not_printsHeader hheader
        rw [if_pos rfl, hl, if_pos hp]
        exact ⟨e, he⟩
  · obtain ⟨e, he, hp, hh⟩ := hannounced.1 (hagree.1 (hcounted.2 hsome))
    obtain rfl := Option.some.inj (hf.symm.trans he)
    exact ⟨hp, hh⟩
  · obtain ⟨p, s, hf⟩ := hexists hx
    exact hannounced.2 ⟨_, hf, hall p s hf (hcounted.1 hx)⟩

/-! ### Printing on a page -/

namespace Page

theorem exists_span_of_mem_styledTags {r : Markup.Rendered} {tag : Markup.OpenTag}
    (h : tag ∈ styledTags r) : ∃ span ∈ r.spans, span.tag = tag := by
  unfold styledTags at h
  split at h
  · obtain ⟨span, hspan, rfl⟩ := List.mem_map.1 h
    exact ⟨span, List.mem_of_mem_filter hspan, rfl⟩
  · obtain ⟨line, -, htag⟩ := List.mem_flatMap.1 h
    obtain ⟨span, hspan, rfl⟩ := List.mem_map.1 htag
    exact ⟨span, List.mem_of_mem_filter hspan, rfl⟩

theorem forM_ok {tags : List Markup.OpenTag} (h : ∀ tag ∈ tags, tag.checkStyle = .ok ()) :
    tags.forM Markup.OpenTag.checkStyle = .ok () := by
  induction tags with
  | nil => rfl
  | cons tag rest ih =>
    obtain ⟨htag, hrest⟩ := List.forall_mem_cons.1 h
    change (do tag.checkStyle; rest.forM Markup.OpenTag.checkStyle) = Except.ok ()
    rw [htag]
    exact ih hrest

/-- Marked-up text is printed if its tags match and their styles can be read. -/
theorem printMarkup_eq {s : String} {r : Markup.Rendered}
    (h : Markup.renderPieces 0 [] (Markup.pieces 0 s.toList) = .ok r)
    (hr : ∀ span ∈ r.spans, span.tag.checkStyle = .ok ()) :
    printMarkup s = .ok (print r.text) := by
  have hrender : Markup.render s = .ok { r with
      spans := r.spans.reverse.mergeSort fun a b => decide (a.start ≤ b.start) } := by
    rw [Markup.render, h]
    rfl
  rw [printMarkup, hrender]
  refine congrArg (· >>= fun _ => .ok (print r.text)) (forM_ok fun tag ht => ?_)
  obtain ⟨span, hspan, rfl⟩ := exists_span_of_mem_styledTags ht
  exact hr span (List.mem_reverse.1 (List.mem_mergeSort.1 hspan))

end Page

/-! ### One name in two packages -/

/-- A report on two structs of one name in two packages. -/
def sameName (first second : Verdict) : Report :=
  ofFindings [
    { path := "p", findings := [{ subject := plainStruct, verdict := first }] },
    { path := "q", findings := [{ subject := plainStruct, verdict := second }] }]

/-- A struct that takes less in another order. -/
def improvableA : Finding := { subject := plainStruct, verdict := .improvable 24 16 [] }

theorem header_improvableA : header Page.printer reportNesting true (.ofFinding improvableA) = printLine
    "Struct [bold]A[/bold] [dim](a.go:1)[/dim] fields order can be optimized (24 → 16)\n" := by
  decide +kernel

theorem renderPieces_header : Markup.renderPieces 0 [] (Markup.pieces 0
    "Struct [bold]A[/bold] [dim](a.go:1)[/dim] fields order can be optimized (24 → 16)\n".toList) =
      .ok {
        text := "Struct A (a.go:1) fields order can be optimized (24 → 16)\n".toList
        spans := [⟨7, 8, "bold".toList, none⟩, ⟨9, 17, "dim".toList, none⟩] } := by
  decide +kernel

theorem printsHeader_improvableA : PrintsHeader Page.printer (checkOf (.str "A"))
    (.ofFinding { path := "p", findings := [improvableA] }) (.ofFinding improvableA) := by
  have hpackage : packageRule Page.printer (.ofFinding { path := "p", findings := [improvableA] }) =
      [.ok (.rule "p")] := by decide +kernel
  have hheader : header Page.printer (checkOf (.str "A")).limits.showing true
      (.ofFinding improvableA) = _ := header_improvableA
  have hrule : Page.printRule "p" = .ok (String.ofList (Page.titledRule ['p'] ++ ['\n'])) := by
    decide +kernel
  have hline := Page.printMarkup_eq renderPieces_header (by decide +kernel)
  rw [PrintsHeader, hpackage, hheader]
  simp [Listing.reached, printLine, Printer.print, Page.printer, hrule, hline, Except.bind]

/-- The first struct of the name can be improved and is announced, and the exit status agrees. -/
theorem exitCode_iff_announces_sameName :
    let request := checkOf (.str "A")
    let report := sameName (.improvable 24 16 []) (.settled 8)
    request.isCheck = true ∧ request.limit? = some (.str "A") ∧
      Announces Page.printer request (listing Page.printer request report) ∧
      report.exitCode .check (.str "A") = 1 := by
  intro request report
  have hc : request.isCheck = true := by decide
  have hl : request.limit? = some (.str "A") := by decide
  obtain ⟨hcounts, -, hagree⟩ := exitCode_iff_announces Page.printer hc hl report
  have hexit : report.exitCode .check (.str "A") = 1 := by decide
  have hannounced := (hagree.2 fun p s hf _ => by
    obtain ⟨rfl, rfl⟩ := Prod.mk.inj (Option.some.inj (hf.symm.trans rfl))
    exact ⟨by decide, printsHeader_improvableA⟩).1 hexit
  exact ⟨hc, hl, hannounced, hcounts hannounced⟩

/-- A struct that takes eight bytes in any order. -/
def settledA : Record := .ofFinding { subject := plainStruct, verdict := .settled 8 }

theorem alreadyOptimal_settledA : alreadyOptimal Page.printer reportNesting settledA = printLine
    "Struct [bold]A[/bold] [dim](a.go:1)[/dim] is already optimal [dim](size 8)[/dim]\n" := by
  decide +kernel

/-- The first struct of the name is said to be optimal, and the check fails for the second one. -/
theorem exitCode_ne_announces :
    let request := checkOf (.str "A")
    let report := sameName (.settled 8) (.improvable 24 16 [])
    request.isCheck = true ∧ request.limit? = some (.str "A") ∧
      report.exitCode .check (.str "A") = 1 ∧
      (∃ p, listing Page.printer request report = packageRule Page.printer p ++ printLine
        "Struct [bold]A[/bold] [dim](a.go:1)[/dim] is already optimal [dim](size 8)[/dim]\n" ++
          closingRule) ∧
      ¬ Announces Page.printer request (listing Page.printer request report) := by
  intro request report
  have hlisting : ∃ p, listing Page.printer request report =
      packageRule Page.printer p ++ alreadyOptimal Page.printer reportNesting settledA ++
        closingRule := ⟨_, rfl⟩
  rw [alreadyOptimal_settledA] at hlisting
  obtain ⟨p, hp⟩ := hlisting
  refine ⟨by decide, by decide, by decide, ⟨p, hp⟩, not_announces_of_length ?_⟩
  simp [hp]

end StructLayout.Output
