import StructLayout.Proofs.Json.RoundTrip
import StructLayout.Report.Build
import StructLayout.Report.Document
import StructLayout.Report.Query

/-!
# Documents of reports with values of the right kinds

The entries of a report hold document values.  In a typed report (`Report.IsTyped`) they are of the
kinds that are meant: names and paths are texts, sizes are integers or absent, and so on.  Every report
of an analysis is typed (`isTyped_build`), and restricting a report leaves it typed.

The document of a typed report holds no floating-point number and is nested in at most seven levels, so
that it is read back from its text.  `listedIn` follows the keys of such a document down to its
structs; the main statements are `listedIn_toValue`, that it finds the structs of the report in order,
and `parse_pretty_toValue`.
-/

namespace StructLayout

/-! ### Values of documents -/

namespace Value

/-- A value with an exact notation and a bounded nesting. -/
def IsPlain (depth : Nat) (v : Value) : Prop := v.isExact = true ∧ v.nesting ≤ depth

theorem isPlain_list {depth : Nat} {elements : List Value} (h : ∀ v ∈ elements, v.IsPlain depth) :
    (Value.list elements).IsPlain (depth + 1) := by
  constructor
  · exact (areExact_iff elements).2 fun v hv => (h v hv).1
  · exact (nesting_list_le_iff elements depth).2 fun v hv => (h v hv).2

theorem isPlain_object {depth : Nat} {members : Members} (hd : (members.map Prod.fst).Nodup)
    (h : ∀ m ∈ members, m.2.IsPlain depth) : (Value.object members).IsPlain (depth + 1) := by
  constructor
  · rw [isExact, Bool.and_eq_true, decide_eq_true_eq]
    exact ⟨hd, (areMembersExact_iff members).2 fun m hm => (h m hm).1⟩
  · exact (nesting_object_le_iff members depth).2 fun m hm => (h m hm).2

theorem IsPlain.mono {depth more : Nat} {v : Value} (h : v.IsPlain depth) (hd : depth ≤ more) :
    v.IsPlain more := ⟨h.1, Nat.le_trans h.2 hd⟩

def IsText (v : Value) : Prop := ∃ s, v = .str s

def IsOptionalInt (v : Value) : Prop := ∃ n, v = Report.optionalInt n

def IsOptionalText (v : Value) : Prop := ∃ s, v = Report.optionalText s

theorem IsText.isPlain {v : Value} (h : v.IsText) : v.IsPlain 0 := by
  obtain ⟨s, rfl⟩ := h
  exact ⟨rfl, Nat.le_refl 0⟩

theorem IsOptionalInt.isPlain {v : Value} (h : v.IsOptionalInt) : v.IsPlain 0 := by
  obtain ⟨_ | n, rfl⟩ := h <;> exact ⟨rfl, Nat.le_refl 0⟩

theorem IsOptionalText.isPlain {v : Value} (h : v.IsOptionalText) : v.IsPlain 0 := by
  obtain ⟨_ | s, rfl⟩ := h <;> exact ⟨rfl, Nat.le_refl 0⟩

/-- The value of a key, null if there is none. -/
def entry (key : String) : Value → Value
  | .object members => Value.member members key .null
  | _ => .null

/-- The elements of the list that is the value of a key, none if there is no such list. -/
def itemsOf (key : String) (v : Value) : List Value :=
  match v.entry key with
  | .list elements => elements
  | _ => []

end Value

namespace Report

open Value (IsText IsOptionalInt IsOptionalText IsPlain)

/-! ### Typed reports -/

/-- The texts of a field are texts, and its numbers are integers or absent. -/
structure Entry.IsTyped (e : Entry) : Prop where
  name : e.name.IsText
  typeExpr : e.typeExpr.IsText
  tag : e.tag.IsText
  comment : e.comment.IsText
  size : e.size.IsOptionalInt
  align : e.align.IsOptionalInt

/-- The file is a text and the line an integer. -/
structure Place.IsTyped (p : Place) : Prop where
  file : p.file.IsText
  line : ∃ n, p.line = .int n

/-- The texts of a struct are texts, its numbers integers or absent, and its fields typed. -/
structure Record.IsTyped (r : Record) : Prop where
  name : r.name.IsText
  place : r.place.IsTyped
  fields : ∀ e ∈ r.fields, e.IsTyped
  reordered : ∀ entries, r.reordered = some entries → ∀ e ∈ entries, e.IsTyped
  size : r.size.IsOptionalInt
  optimalSize : r.optimalSize.IsOptionalInt
  ignored : ∃ b, r.ignored = .bool b
  reason : r.reason.IsOptionalText

/-- The path is a text and the structs are typed. -/
structure Package.IsTyped (p : Package) : Prop where
  path : p.path.IsText
  records : ∀ s ∈ p.records, s.IsTyped

def IsTyped (r : Report) : Prop := ∀ p ∈ r.packages, p.IsTyped

theorem Entry.IsTyped.isPlain {e : Entry} (h : e.IsTyped) : e.toValue.IsPlain 1 := by
  refine Value.isPlain_object (by simp) ?_
  simp only [List.forall_mem_cons, List.not_mem_nil, false_implies, implies_true, and_true]
  exact ⟨h.name.isPlain, h.typeExpr.isPlain, h.tag.isPlain, h.comment.isPlain, h.size.isPlain,
    h.align.isPlain⟩

theorem isPlain_entriesValue {entries : List Entry} (h : ∀ e ∈ entries, e.IsTyped) :
    (entriesValue entries).IsPlain 2 := by
  refine Value.isPlain_list ?_
  rw [List.forall_mem_map]
  exact fun e he => (h e he).isPlain

theorem Place.IsTyped.isPlain {p : Place} (h : p.IsTyped) : p.toValue.IsPlain 1 := by
  obtain ⟨n, hn⟩ := h.line
  refine Value.isPlain_object (by simp) ?_
  simp only [List.forall_mem_cons, List.not_mem_nil, false_implies, implies_true, and_true, hn]
  exact ⟨h.file.isPlain, rfl, Nat.le_refl 0⟩

theorem Record.IsTyped.isPlain {r : Record} (h : r.IsTyped) : r.toValue.IsPlain 3 := by
  have hr : ((r.reordered.map entriesValue).getD .null).IsPlain 2 := by
    cases hr : r.reordered with
    | none => exact ⟨rfl, Nat.zero_le 2⟩
    | some entries => exact isPlain_entriesValue (h.reordered entries hr)
  obtain ⟨b, hb⟩ := h.ignored
  refine Value.isPlain_object (by simp) ?_
  simp only [List.forall_mem_cons, List.not_mem_nil, false_implies, implies_true, and_true, hb]
  exact ⟨h.name.isPlain.mono (by decide), h.place.isPlain.mono (by decide),
    isPlain_entriesValue h.fields, hr, h.size.isPlain.mono (by decide),
    h.optimalSize.isPlain.mono (by decide), ⟨rfl, Nat.zero_le 2⟩, ⟨rfl, Nat.zero_le 2⟩,
    h.reason.isPlain.mono (by decide)⟩

theorem Package.IsTyped.isPlain {p : Package} (h : p.IsTyped) : p.toValue.IsPlain 5 := by
  refine Value.isPlain_object (by simp) ?_
  simp only [List.forall_mem_cons, List.not_mem_nil, false_implies, implies_true, and_true]
  refine ⟨h.path.isPlain.mono (by decide), Value.isPlain_list ?_⟩
  rw [List.forall_mem_map]
  exact fun s hs => (h.records s hs).isPlain

/-- How deeply the document of a typed report is nested. -/
def reportNesting : Nat := 7

theorem IsTyped.isPlain {r : Report} (h : r.IsTyped) : r.toValue.IsPlain reportNesting := by
  refine Value.isPlain_object (by simp) ?_
  simp only [List.forall_mem_cons, List.not_mem_nil, false_implies, implies_true, and_true]
  refine Value.isPlain_list ?_
  rw [List.forall_mem_map]
  exact fun p hp => (h p hp).isPlain

theorem isTyped_ofField (f : Field) : (Entry.ofField f).IsTyped :=
  ⟨⟨_, rfl⟩, ⟨_, rfl⟩, ⟨_, rfl⟩, ⟨_, rfl⟩, ⟨_, rfl⟩, ⟨_, rfl⟩⟩

theorem isTyped_ofFinding (f : Finding) : (Record.ofFinding f).IsTyped where
  name := ⟨_, rfl⟩
  place := ⟨⟨_, rfl⟩, ⟨_, rfl⟩⟩
  fields := List.forall_mem_map.2 fun f _ => isTyped_ofField f
  reordered := by
    intro entries h
    obtain ⟨order, -, rfl⟩ := Option.map_eq_some_iff.1 h
    exact List.forall_mem_map.2 fun f _ => isTyped_ofField f
  size := ⟨_, rfl⟩
  optimalSize := ⟨_, rfl⟩
  ignored := ⟨_, rfl⟩
  reason := ⟨_, rfl⟩

/-- The report of an analysis is typed. -/
theorem isTyped_build (abi : Abi) (workers : Option Int) (schedule : Schedule) (sorted : Bool)
    (packages : List PackageDef) : (build abi workers schedule sorted packages).IsTyped :=
  List.forall_mem_map.2 fun _ _ =>
    ⟨⟨_, rfl⟩, List.forall_mem_map.2 fun f _ => isTyped_ofFinding f⟩

/-- The document of a typed report is read back from its text, unless a number in it is too long. -/
theorem parse_pretty_toValue {r : Report} (h : r.IsTyped) {limit : Nat}
    (hl : r.toValue.nesting ≤ limit) (hs : r.toValue.isShowable = true) :
    Json.parse limit (Json.pretty r.toValue) = .ok r.toValue :=
  Json.parse_pretty h.isPlain.1 hs hl

theorem IsTyped.restrict {r : Report} (h : r.IsTyped) (keep : Record → Bool) :
    (r.restrict keep).IsTyped := by
  intro p hp
  obtain ⟨q, hq, hk⟩ := List.mem_filterMap.1 hp
  unfold Package.restrict at hk
  split at hk
  · cases hk
  · cases hk
    constructor
    · exact (h q hq).path
    · exact fun s hs => (h q hq).records s (List.mem_of_mem_filter hs)

/-! ### The structs of a report and of its document -/

/-- Every struct with the path of its package, in the order of the report. -/
def entries (r : Report) : List (Value × Record) := r.records.map fun e => (e.1.path, e.2)

/-- The path and the name of every struct that the document of a report lists. -/
def listedIn (document : Value) : List (Value × Value) :=
  (document.itemsOf "packages").flatMap fun p =>
    (p.itemsOf "structs").map fun s => (p.entry "path", s.entry "name")

theorem entries_eq_flatMap (r : Report) :
    r.entries = r.packages.flatMap fun p => p.records.map fun s => (p.path, s) := by
  simp [entries, records, List.map_flatMap, Function.comp_def]

theorem listedIn_toValue (r : Report) :
    listedIn r.toValue = r.entries.map fun e => (e.1, e.2.name) := by
  have hpackages : r.toValue.itemsOf "packages" = r.packages.map Package.toValue := rfl
  have hstructs (p : Package) : p.toValue.itemsOf "structs" = p.records.map Record.toValue := rfl
  have hpath (p : Package) : p.toValue.entry "path" = p.path := rfl
  have hname (s : Record) : s.toValue.entry "name" = s.name := rfl
  simp only [listedIn, hpackages, entries_eq_flatMap, List.map_flatMap, List.flatMap_map, hstructs,
    List.map_map, hpath, Function.comp_def, hname]

/-- The structs of a restricted report are those that are kept, with the paths of their packages. -/
theorem entries_restrict (keep : Record → Bool) (r : Report) :
    (r.restrict keep).entries = r.entries.filter fun e => keep e.2 := by
  simp only [entries_eq_flatMap, restrict]
  induction r.packages with
  | nil => rfl
  | cons p rest ih =>
    rw [List.filterMap_cons, List.flatMap_cons, List.filter_append, ← ih, List.filter_map]
    unfold Package.restrict
    cases h : p.records.filter keep with
    | nil => simp [Function.comp_def, h]
    | cons s more => simp [Function.comp_def, h]

end Report

end StructLayout
