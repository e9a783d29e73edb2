import StructLayout.Proofs.Analysis.ReportDocuments
import StructLayout.Proofs.Report.SavedBytes
import StructLayout.Proofs.Report.TypedDocument

/-!
# Reports on what a document describes

Whatever is read from a descriptor document can be analysed.  A field without a size is one whose size the
document leaves out or gives as null (`DescribesField.size_eq_none_iff`), and a struct with such a field is
the only one that is left unchecked (`reportsOn_ofFinding`).

The main statement is `build_of_read`: what is read corresponds to the document element by element and has
no negative numbers, and on every platform the report on it has a record for each struct of the document,
which is unchecked exactly if the document leaves out a size in it.
-/

namespace StructLayout

theorem Value.HasItems.itemsOf_eq {ms : Members} {key : String} {xs : List Value}
    (h : HasItems ms key xs) : (Value.object ms).itemsOf key = xs := by
  rcases h with h | ⟨h, rfl⟩
  · rw [Value.itemsOf, Value.entry, h]
  · rw [Value.itemsOf, Value.entry]
    cases hv : Value.member ms key .null with
    | list ys =>
        rw [hv] at h
        cases ys with
        | nil => rfl
        | cons y ys => cases h
    | null | bool _ | int _ | float _ | str _ | moment _ | object _ => rfl

namespace Analysis

open Report (Record)

/-- In a struct of a document a field has no size. -/
def OmitsSize (v : Value) : Prop := ∃ field ∈ v.itemsOf "fields", field.entry "size" = .null

/-- A record on a struct of a document: it has what the document describes, it is unchecked exactly if a
size is left out, and otherwise it shows the sizes of the layouts. -/
def ReportsOn (abi : Abi) (v : Value) (r : Record) : Prop :=
  ∃ s, Descriptor.DescribesStruct v s ∧ r.name = .str s.name ∧
    r.place = { file := .str s.position.file, line := .int s.position.line } ∧
    r.fields = s.fields.map Report.Entry.ofField ∧ r.ignored = .bool s.ignored ∧
    (r.IsUnchecked ↔ OmitsSize v) ∧
    (r.IsUnchecked ∨ ∃ size best, r.Shows fieldSort abi s.fields size best)

/-- The records on a package of a document, one for each struct and in order. -/
def ReportsOnPackage (abi : Abi) (v : Value) (p : Report.Package) : Prop :=
  p.path = v.entry "path" ∧ List.Forall₂ (ReportsOn abi) (v.itemsOf "structs") p.records

namespace Descriptor

theorem DescribesEach.forall₂ {α : Type} {describes : Value → α → Prop} {ms : Members} {key : String}
    {as : List α} (h : DescribesEach describes ms key as) :
    List.Forall₂ describes ((Value.object ms).itemsOf key) as := by
  obtain ⟨xs, hxs, has⟩ := h
  rwa [hxs.itemsOf_eq]

theorem DescribesField.size_eq_none_iff {v : Value} {f : Field} (h : DescribesField v f) :
    f.size = none ↔ v.entry "size" = .null := by
  obtain ⟨ms, rfl, h⟩ := h
  rw [Value.entry, h.size_eq]
  cases f.size <;> simp [Report.optionalInt]

theorem DescribesStruct.omitsSize_iff {v : Value} {s : StructDef} (h : DescribesStruct v s) :
    OmitsSize v ↔ ∃ f ∈ s.fields, f.size = none := by
  obtain ⟨ms, rfl, h⟩ := h
  have hfields := h.fields.forall₂
  rw [OmitsSize]
  generalize (Value.object ms).itemsOf "fields" = items at hfields
  generalize s.fields = fields at hfields
  induction hfields with
  | nil => simp
  | cons hf _ ih => simp only [List.exists_mem_cons_iff, hf.size_eq_none_iff, ih]

theorem reportsOn_ofFinding (abi : Abi) {v : Value} {s : StructDef} (h : DescribesStruct v s) :
    ReportsOn abi v (Record.ofFinding (analyse abi s)) := by
  refine ⟨s, h, rfl, rfl, rfl, rfl, ?_⟩
  rw [h.omitsSize_iff]
  cases hfind : s.fields.find? fun f => !f.isSized with
  | none =>
      have hsized : ∀ f ∈ s.fields, f.isSized = true := by simpa using List.find?_eq_none.1 hfind
      obtain ⟨size, best, hj⟩ := @FieldSort.judge_of_isSized fieldSort abi s.fields hsized
      have hshows := Record.shows_ofFinding (f := analyse abi s) hj
      refine ⟨iff_of_false (fun hu => ?_) ?_, .inr ⟨size, best, hshows⟩⟩
      · cases hshows.size_eq.symm.trans hu.size_eq
      · rintro ⟨f, hf, hnone⟩
        exact hshows.size_ne_none hf hnone
  | some f =>
      have hu : (Record.ofFinding (analyse abi s)).IsUnchecked :=
        Record.isUnchecked_ofFinding (FieldSort.judge_eq_unchecked_iff.2 ⟨f, hfind, rfl⟩)
      have hnone : f.size = none := by simpa [Field.isSized] using List.find?_some hfind
      exact ⟨iff_of_true hu ⟨f, List.mem_of_find?_eq_some hfind, hnone⟩, .inl hu⟩

theorem reportsOnPackage_sequential (abi : Abi) {v : Value} {p : PackageDef}
    (h : DescribesPackage v p) :
    ReportsOnPackage abi v
      { path := .str p.path, records := p.structs.map fun s => Record.ofFinding (analyse abi s) } := by
  obtain ⟨ms, rfl, h⟩ := h
  refine ⟨h.path_eq.symm, ?_⟩
  rw [List.forall₂_map_right_iff]
  exact h.structs.forall₂.imp fun _ _ => reportsOn_ofFinding abi

/-- What is read corresponds to the document and can be described, and whatever the platform, the number of
workers and their schedule, the report on it has a record for each struct of the document.  Sorting
the report only changes the order of its packages. -/
theorem build_of_read (abi : Abi) (workers : Option Int) {schedule : Schedule} {source : String}
    {document : Value} {set : DescriptorSet} (hs : schedule.IsComplete)
    (h : read source document = .ok set) :
    DescribesDocument document set ∧
    (∀ p ∈ set.packages, p.IsDescribed) ∧
    List.Forall₂ (ReportsOnPackage abi) (document.itemsOf "packages")
      (Report.build abi workers schedule false set.packages).packages ∧
    (Report.build abi workers schedule true set.packages).packages.Perm
      (Report.build abi workers schedule false set.packages).packages := by
  have hd := ((reads_read source document).eq_ok_iff set).1 h
  refine ⟨hd, isDescribed_read h, ?_, ?_⟩
  · have hseq : Report.build abi workers schedule false set.packages =
        Report.sequential abi set.packages := by
      simp [Report.build, findPackages_eq_map abi workers hs, Report.ofFindings_map]
    obtain ⟨ms, rfl, hd⟩ := hd
    rw [hseq, Report.sequential, List.forall₂_map_right_iff]
    exact hd.packages.forall₂.imp fun _ _ => reportsOnPackage_sequential abi
  · exact (List.mergeSort_perm _ _).map _

theorem build_of_read_sparse :
    (Report.lastFirst.IsComplete ∧
      read "d.json" Report.sparseDocument =
        .ok { platform := none, packages := Report.sparsePackages }) ∧
    DescribesDocument Report.sparseDocument { platform := none, packages := Report.sparsePackages } ∧
    (∀ p ∈ Report.sparsePackages, p.IsDescribed) ∧
    List.Forall₂ (ReportsOnPackage .amd64) (Report.sparseDocument.itemsOf "packages")
      (Report.build .amd64 (some 4) Report.lastFirst false Report.sparsePackages).packages ∧
    (Report.build .amd64 (some 4) Report.lastFirst true Report.sparsePackages).packages.Perm
      (Report.build .amd64 (some 4) Report.lastFirst false Report.sparsePackages).packages := by
  have h : read "d.json" Report.sparseDocument =
      .ok { platform := none, packages := Report.sparsePackages } := by rfl
  exact ⟨⟨Report.isComplete_lastFirst, h⟩,
    build_of_read .amd64 (some 4) Report.isComplete_lastFirst h⟩

end Descriptor

end Analysis

end StructLayout
