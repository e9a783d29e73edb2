import StructLayout.Proofs.Analysis.DocumentReading
import StructLayout.Proofs.Report.PoolSchedule

/-!
# Reports are descriptor documents

A report is written with the keys that a descriptor document is read with, and with the defaults of
the reader made explicit: a field that was given a size but no alignment has its alignment of one.
Part by part, a report describes what it is on (`describesField_toValue`, `describesStruct_toValue`,
`describesPackage_toValue`).

Read as a descriptor document, a report gives back the packages that it is on (`read_toValue`).  The main
statement is `ofPackages_reread`: a report on the packages of a document can be analysed again, on the
same platform, and that gives the same report.
-/

namespace StructLayout

namespace Analysis.Descriptor

/-! ### What a report describes -/

theorem describesEach_map {α β : Type} {describes : Value → α → Prop} {ms : Members} {key : String}
    (write : β → Value) (give : β → α) {xs : List β}
    (hm : Value.member ms key .null = .list (xs.map write))
    (h : ∀ x ∈ xs, describes (write x) (give x)) :
    DescribesEach describes ms key (xs.map give) := by
  refine ⟨xs.map write, .inl hm, ?_⟩
  rw [List.forall₂_map_left_iff, List.forall₂_map_right_iff, List.forall₂_same]
  exact h

theorem display_memberOr_str (ms : Members) {key : String} {text : String}
    (h : Value.member ms key .null = .str text) : (Value.memberOr ms key (.str "")).display = text := by
  rw [Value.memberOr, h]
  split
  · exact Value.display_str text
  · next ht =>
      have he : text = "" := by simpa using ht
      rw [he, Value.display_str]

theorem describesField_toValue {f : Field} (h : f.IsDescribed) :
    DescribesField (Report.Entry.ofField f).toValue f :=
  ⟨_, rfl,
    { name_eq := rfl
      type_eq := rfl
      size_eq := rfl
      align_eq := .inl rfl
      tag_eq := display_memberOr_str _ rfl
      comment_eq := display_memberOr_str _ rfl
      isDescribed := h }⟩

theorem describesStruct_toValue {f : Finding} (h : f.subject.IsDescribed) :
    DescribesStruct (Report.Record.ofFinding f).toValue f.subject := by
  refine ⟨_, rfl, { name_eq := rfl, position := ?_, fields := ?_, ignored_eq := rfl }⟩
  · exact ⟨_, rfl, rfl, rfl, h.line_nonneg⟩
  · rw [← List.map_id f.subject.fields]
    refine describesEach_map (fun g => (Report.Entry.ofField g).toValue) id ?_ ?_
    · exact congrArg Value.list List.map_map
    · exact fun g hg => describesField_toValue (h.fields g hg)

theorem describesPackage_toValue {p : PackageFinding} (h : ∀ f ∈ p.findings, f.subject.IsDescribed) :
    DescribesPackage (Report.Package.ofFinding p).toValue
      { path := p.path, structs := p.findings.map Finding.subject } := by
  refine ⟨_, rfl, { path_eq := rfl, structs := ?_ }⟩
  refine describesEach_map (fun f => (Report.Record.ofFinding f).toValue) Finding.subject ?_ ?_
  · exact congrArg Value.list List.map_map
  · exact fun f hf => describesStruct_toValue (h f hf)

theorem map_subject_findings (abi : Abi) (p : PackageDef) :
    (p.findings abi).findings.map Finding.subject = p.structs := by
  rw [PackageDef.findings, List.map_map]
  exact List.map_id p.structs

theorem read_toValue {source : String} (abi : Abi) {packages : List PackageDef}
    (h : ∀ p ∈ packages, p.IsDescribed) :
    read source (Report.ofFindings (packages.map (PackageDef.findings abi))).toValue =
      .ok { platform := none, packages } := by
  refine ((reads_read source _).eq_ok_iff _).2 ⟨_, rfl, { platform_eq := rfl, packages := ?_ }⟩
  rw [← List.map_id packages]
  refine describesEach_map (fun p => (Report.Package.ofFinding (p.findings abi)).toValue) id ?_ ?_
  · refine congrArg Value.list ?_
    rw [Report.ofFindings, List.map_map, List.map_map, List.map_id]
    rfl
  · intro p hp
    have hs : ∀ f ∈ (p.findings abi).findings, f.subject.IsDescribed := by
      intro f hf
      refine h p hp f.subject ?_
      rw [← map_subject_findings abi p]
      exact List.mem_map_of_mem hf
    have hd := describesPackage_toValue hs
    rwa [map_subject_findings] at hd

end Analysis.Descriptor

/-! ### Analysing a report again -/

theorem sortByPath_sortByPath (packages : List PackageDef) :
    sortByPath (sortByPath packages) = sortByPath packages :=
  List.mergeSort_of_pairwise ((pairwise_sortByPath packages).imp decide_eq_true)

namespace Report

open Analysis

theorem ofPackages_eq (abi : Abi) (packages : List PackageDef) :
    ofPackages abi packages = ofFindings ((sortByPath packages).map (PackageDef.findings abi)) := by
  have hs : Schedule.IsComplete List.range := fun n => .refl _
  simp only [ofPackages, build, findPackages_eq_map abi none hs, if_true, sortPackages_map]

/-- A report on the packages of a document is a document itself.  It describes the same packages, and
analysing them on the same platform gives the same report. -/
theorem ofPackages_reread (abi : Abi) {source : String} {document : Value} {set : DescriptorSet}
    (h : Descriptor.read source document = .ok set) (other : String) :
    ∃ again, Descriptor.read other (ofPackages abi set.packages).toValue = .ok again ∧
      again.packages.Perm set.packages ∧
      ofPackages abi again.packages = ofPackages abi set.packages := by
  have hd : ∀ p ∈ sortByPath set.packages, p.IsDescribed := fun p hp =>
    Descriptor.isDescribed_read h p ((sortByPath_perm set.packages).subset hp)
  refine ⟨{ platform := none, packages := sortByPath set.packages }, ?_, sortByPath_perm _, ?_⟩
  · rw [ofPackages_eq]
    exact Descriptor.read_toValue abi hd
  · rw [ofPackages_eq, ofPackages_eq, sortByPath_sortByPath]

/-- A document with packages out of order, and with structs that leave much to the defaults: a mark
that is a number, a tag and a type that are no texts, a size without an alignment, and no size. -/
def sparseDocument : Value :=
  .object [("packages", .list [
    .object [("path", .str "b"), ("structs", .list [
      .object [("name", .str "S"), ("ignore", .int 1), ("position", .object [("file", .null)]),
        ("fields", .list [
          .object [("name", .str "a"), ("size", .int 1)],
          .object [("name", .str "w"), ("size", .int 8), ("align", .int 8), ("tag", .bool true)],
          .object [("name", .str "b"), ("size", .int 1), ("tag", .list [])]])],
      .object [("name", .str "U"),
        ("fields", .list [.object [("name", .str "x"), ("type", .list [.null])]])]])],
    .object [("path", .str "a"), ("structs", .null)]])]

def sparsePackages : List PackageDef := [
  { path := "b"
    structs := [
      { name := "S", position := { file := "None", line := 0 }, ignored := true
        fields := [
          { name := "a", typeExpr := "", size := some 1, align := some 1, tag := "", comment := "" },
          { name := "w", typeExpr := "", size := some 8, align := some 8, tag := "True", comment := "" },
          { name := "b", typeExpr := "", size := some 1, align := some 1, tag := "", comment := "" }] },
      { name := "U", position := { file := "", line := 0 }, ignored := false
        fields := [
          { name := "x", typeExpr := "[None]", size := none, align := none
            tag := "", comment := "" }] }] },
  { path := "a", structs := [] }]

theorem ofPackages_reread_sparse :
    Descriptor.read "d.json" sparseDocument = .ok { platform := none, packages := sparsePackages } ∧
    ∃ again, Descriptor.read "r.json" (ofPackages .amd64 sparsePackages).toValue = .ok again ∧
      again.packages.Perm sparsePackages ∧
      ofPackages .amd64 again.packages = ofPackages .amd64 sparsePackages := by
  have h : Descriptor.read "d.json" sparseDocument =
      .ok { platform := none, packages := sparsePackages } := by rfl
  exact ⟨h, ofPackages_reread .amd64 h "r.json"⟩

end Report

end StructLayout
