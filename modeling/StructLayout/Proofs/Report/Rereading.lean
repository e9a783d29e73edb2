import StructLayout.Proofs.Analysis.ReportDocuments
import StructLayout.Report.Document

/-!
# Reading a report back

Reading a report from a document fills in what the document leaves out: an absent tag or comment is an
empty text, absent fields and structs are none, the line of a place becomes an integer and the mark of
a struct a truth value.  In a canonical report (`IsCanonical`) nothing is left to be filled in or
converted.  Names, types, sizes and reasons may be any values.

What is read is canonical (`isCanonical_ofValue`), so is the report of an analysis
(`isCanonical_build`), and the canonical reports are those that are read back from their documents
(`ofValue_toValue_iff`).
The main statement is `reread`: a report that was read from a document or built by an analysis is read
back from its own document, and rewriting a document a second time changes nothing.
-/

namespace StructLayout

/-! ### Results one after the other -/

/-- A result of two steps is a result of the second on one of the first. -/
theorem Outcome.bind_eq_ok_iff {ε α β : Type} {m : Except ε α} {f : α → Except ε β} {b : β} :
    m >>= f = .ok b ↔ ∃ a, m = .ok a ∧ f a = .ok b := by
  cases m with
  | error e =>
      constructor
      · intro h
        cases h
      · rintro ⟨a, h, -⟩
        cases h
  | ok a =>
      constructor
      · exact fun h => ⟨a, rfl, h⟩
      · rintro ⟨a, h, hf⟩
        cases h
        exact hf

/-- The results of a list are the results of its elements. -/
theorem Outcome.mapM_eq_ok_iff {ε α β : Type} {f : α → Except ε β} {xs : List α} {ys : List β} :
    xs.mapM f = .ok ys ↔ List.Forall₂ (fun x y => f x = .ok y) xs ys := by
  induction xs generalizing ys with
  | nil =>
      rw [List.mapM_nil]
      constructor
      · intro h
        cases h
        exact .nil
      · intro h
        cases h
        rfl
  | cons x xs ih =>
      simp only [List.mapM_cons, bind_eq_ok_iff, ih]
      constructor
      · rintro ⟨y, hy, ys', hys, h⟩
        cases h
        exact .cons hy hys
      · rintro (_ | ⟨hy, hys⟩)
        exact ⟨_, hy, _, hys, rfl⟩

/-! ### Values that fill in -/

namespace Value

/-- A value that is present, or the empty text in its place. -/
def IsFilled (v : Value) : Prop := v.isTruthy = true ∨ v = .str ""

/-- The value of a key with the empty text where it counts as absent. -/
def filled (v : Value) : Value := if v.isTruthy then v else .str ""

theorem isFilled_filled (v : Value) : v.filled.IsFilled := by
  unfold filled
  split
  · next h => exact .inl h
  · exact .inr rfl

theorem filled_eq_self_iff {v : Value} : v.filled = v ↔ v.IsFilled := by
  constructor
  · intro h
    rw [← h]
    exact isFilled_filled v
  · rintro (h | rfl)
    · exact if_pos h
    · rfl

/-- Where the fallback is the empty text, the value of a key is filled. -/
theorem isFilled_memberOr (ms : Members) (key : String) : (memberOr ms key (.str "")).IsFilled :=
  isFilled_filled _

end Value

namespace Report

open Value (IsFilled)

variable {α : Type} {v : Value}

/-! ### Elements one after the other -/

section elements

variable {read : Value → Except Fault α} {as : List α}

theorem readEach_eq_ok_iff :
    readEach read v = .ok as ↔
      ∃ xs, v.elements = .ok xs ∧ List.Forall₂ (fun x a => read x = .ok a) xs as := by
  rw [readEach, Outcome.bind_eq_ok_iff]
  exact exists_congr fun xs => and_congr_right fun _ => Outcome.mapM_eq_ok_iff

/-- What holds of everything that can be read holds of all elements that are read. -/
theorem forall_of_readEach {P : α → Prop} (hread : ∀ v a, read v = .ok a → P a)
    (h : readEach read v = .ok as) : ∀ a ∈ as, P a := by
  obtain ⟨xs, -, hxs⟩ := readEach_eq_ok_iff.1 h
  exact forall_mem_of_forall₂ hxs hread

/-- A list of written elements is read back if and only if every element is. -/
theorem readEach_map_iff {write : α → Value} :
    readEach read (.list (as.map write)) = .ok as ↔ ∀ a ∈ as, read (write a) = .ok a := by
  rw [readEach_eq_ok_iff]
  constructor
  · rintro ⟨xs, hxs, h⟩
    cases hxs
    exact List.forall₂_same.1 (List.forall₂_map_left_iff.1 h)
  · exact fun h => ⟨_, rfl, List.forall₂_map_left_iff.2 (List.forall₂_same.2 h)⟩

end elements

/-! ### Canonical reports -/

/-- The tag and the comment are filled. -/
structure Entry.IsCanonical (e : Entry) : Prop where
  tag : e.tag.IsFilled
  comment : e.comment.IsFilled

def Place.IsCanonical (p : Place) : Prop := ∃ n, p.line = .int n

/-- The place and the fields are canonical, and the mark is a truth value. -/
structure Record.IsCanonical (r : Record) : Prop where
  place : r.place.IsCanonical
  fields : ∀ e ∈ r.fields, e.IsCanonical
  reordered : ∀ entries, r.reordered = some entries → ∀ e ∈ entries, e.IsCanonical
  ignored : ∃ b, r.ignored = .bool b

def Package.IsCanonical (p : Package) : Prop := ∀ s ∈ p.records, s.IsCanonical

def IsCanonical (r : Report) : Prop := ∀ p ∈ r.packages, p.IsCanonical

/-! ### What is read is canonical -/

theorem Entry.isCanonical_ofValue {e : Entry} (h : Entry.ofValue v = .ok e) : e.IsCanonical := by
  obtain ⟨ms, -, h⟩ := Outcome.bind_eq_ok_iff.1 h
  cases h
  exact ⟨Value.isFilled_memberOr ms "tag", Value.isFilled_memberOr ms "comment"⟩

theorem Place.isCanonical_ofValue {p : Place} (h : Place.ofValue v = .ok p) : p.IsCanonical := by
  obtain ⟨ms, -, h⟩ := Outcome.bind_eq_ok_iff.1 h
  obtain ⟨line, -, h⟩ := Outcome.bind_eq_ok_iff.1 h
  cases h
  exact ⟨line, rfl⟩

theorem isCanonical_readReordered {entries : List Entry}
    (h : readReordered v = .ok (some entries)) : ∀ e ∈ entries, e.IsCanonical := by
  unfold readReordered at h
  split at h
  · cases h
  · cases hr : readEach Entry.ofValue v with
    | error _ =>
      rw [hr] at h
      cases h
    | ok _ =>
      rw [hr] at h
      cases h
      exact forall_of_readEach (fun _ _ => Entry.isCanonical_ofValue) hr

theorem Record.isCanonical_ofValue {r : Record} (h : Record.ofValue v = .ok r) : r.IsCanonical := by
  obtain ⟨ms, -, h⟩ := Outcome.bind_eq_ok_iff.1 h
  obtain ⟨place, hplace, h⟩ := Outcome.bind_eq_ok_iff.1 h
  obtain ⟨fields, hfields, h⟩ := Outcome.bind_eq_ok_iff.1 h
  obtain ⟨reordered, hreordered, h⟩ := Outcome.bind_eq_ok_iff.1 h
  cases h
  refine ⟨Place.isCanonical_ofValue hplace,
    forall_of_readEach (fun _ _ => Entry.isCanonical_ofValue) hfields, ?_, ⟨_, rfl⟩⟩
  rintro entries rfl
  exact isCanonical_readReordered hreordered

theorem Package.isCanonical_ofValue {p : Package} (h : Package.ofValue v = .ok p) :
    p.IsCanonical := by
  obtain ⟨ms, -, h⟩ := Outcome.bind_eq_ok_iff.1 h
  obtain ⟨records, hrecords, h⟩ := Outcome.bind_eq_ok_iff.1 h
  cases h
  exact forall_of_readEach (fun _ _ => Record.isCanonical_ofValue) hrecords

theorem isCanonical_ofValue {r : Report} (h : ofValue v = .ok r) : r.IsCanonical := by
  obtain ⟨ms, -, h⟩ := Outcome.bind_eq_ok_iff.1 h
  obtain ⟨packages, hpackages, h⟩ := Outcome.bind_eq_ok_iff.1 h
  cases h
  exact forall_of_readEach (fun _ _ => Package.isCanonical_ofValue) hpackages

/-! ### What is built is canonical -/

theorem isFilled_str (s : String) : (Value.str s).IsFilled := by
  by_cases h : s = ""
  · exact .inr (by rw [h])
  · exact .inl (by simpa using h)

theorem isCanonical_ofField (f : Field) : (Entry.ofField f).IsCanonical :=
  ⟨isFilled_str f.tag, isFilled_str f.comment⟩

theorem isCanonical_ofFinding (f : Finding) : (Record.ofFinding f).IsCanonical where
  place := ⟨_, rfl⟩
  fields := List.forall_mem_map.2 fun f _ => isCanonical_ofField f
  reordered := by
    intro entries h
    obtain ⟨order, -, rfl⟩ := Option.map_eq_some_iff.1 h
    exact List.forall_mem_map.2 fun f _ => isCanonical_ofField f
  ignored := ⟨_, rfl⟩

/-- The report of an analysis is canonical. -/
theorem isCanonical_build (abi : Abi) (workers : Option Int) (schedule : Schedule) (sorted : Bool)
    (packages : List PackageDef) : (build abi workers schedule sorted packages).IsCanonical :=
  List.forall_mem_map.2 fun _ _ => List.forall_mem_map.2 fun f _ => isCanonical_ofFinding f

/-! ### What is canonical is read back -/

theorem Entry.ofValue_toValue {e : Entry} (h : e.IsCanonical) : Entry.ofValue e.toValue = .ok e := by
  have hread : Entry.ofValue e.toValue =
      .ok { e with tag := e.tag.filled, comment := e.comment.filled } := rfl
  rw [hread, Value.filled_eq_self_iff.2 h.tag, Value.filled_eq_self_iff.2 h.comment]

theorem Place.ofValue_toValue {p : Place} (h : p.IsCanonical) : Place.ofValue p.toValue = .ok p := by
  obtain ⟨n, hn⟩ := h
  obtain ⟨file, line⟩ := p
  cases hn
  rfl

theorem readReordered_toValue {reordered : Option (List Entry)}
    (h : ∀ entries, reordered = some entries → ∀ e ∈ entries, e.IsCanonical) :
    readReordered ((reordered.map entriesValue).getD .null) = .ok reordered := by
  cases reordered with
  | none => rfl
  | some entries =>
    have hr : readEach Entry.ofValue (entriesValue entries) = .ok entries :=
      readEach_map_iff.2 fun e he => Entry.ofValue_toValue (h entries rfl e he)
    change (readEach Entry.ofValue (entriesValue entries)).map some = .ok (some entries)
    rw [hr]
    rfl

/-- A list of written elements under a key is read back if and only if every element is. -/
theorem readEach_memberOr_iff {read : Value → Except Fault α} {write : α → Value} {as : List α}
    {ms : Members} {key : String} (h : Value.member ms key .null = .list (as.map write)) :
    readEach read (Value.memberOr ms key (.list [])) = .ok as ↔
      ∀ a ∈ as, read (write a) = .ok a := by
  rw [Value.memberOr_list h, readEach_map_iff]

theorem Record.ofValue_toValue {r : Record} (h : r.IsCanonical) :
    Record.ofValue r.toValue = .ok r := by
  have hfields : ∀ e ∈ r.fields, Entry.ofValue e.toValue = .ok e := fun e he =>
    Entry.ofValue_toValue (h.fields e he)
  obtain ⟨name, place, fields, reordered, size, optimalSize, ignored, reason⟩ := r
  obtain ⟨b, hb⟩ := h.ignored
  cases hb
  refine Outcome.bind_eq_ok_iff.2 ⟨_, rfl, Outcome.bind_eq_ok_iff.2
    ⟨place, Place.ofValue_toValue h.place, Outcome.bind_eq_ok_iff.2 ⟨fields, ?_,
      Outcome.bind_eq_ok_iff.2 ⟨reordered, readReordered_toValue h.reordered, rfl⟩⟩⟩⟩
  exact (readEach_memberOr_iff rfl).2 hfields

theorem Package.ofValue_toValue {p : Package} (h : p.IsCanonical) :
    Package.ofValue p.toValue = .ok p := by
  refine Outcome.bind_eq_ok_iff.2 ⟨_, rfl, Outcome.bind_eq_ok_iff.2 ⟨p.records, ?_, rfl⟩⟩
  exact (readEach_memberOr_iff rfl).2 fun s hs => Record.ofValue_toValue (h s hs)

theorem IsCanonical.ofValue_toValue {r : Report} (h : r.IsCanonical) :
    ofValue r.toValue = .ok r := by
  refine Outcome.bind_eq_ok_iff.2 ⟨_, rfl, Outcome.bind_eq_ok_iff.2 ⟨r.packages, ?_, rfl⟩⟩
  exact (readEach_memberOr_iff rfl).2 fun p hp => Package.ofValue_toValue (h p hp)

/-- The canonical reports are those that are read back from their documents. -/
theorem ofValue_toValue_iff {r : Report} : ofValue r.toValue = .ok r ↔ r.IsCanonical :=
  ⟨isCanonical_ofValue, IsCanonical.ofValue_toValue⟩

/-! ### Rewriting documents -/

/-- The document of the report that a document holds. -/
def rewrite (document : Value) : Except Fault Value := (ofValue document).map toValue

theorem rewrite_toValue {r : Report} (h : r.IsCanonical) : rewrite r.toValue = .ok r.toValue := by
  rw [rewrite, h.ofValue_toValue]
  rfl

/-- A report that was read from a document, whatever that leaves out or holds in place of texts and
numbers, is read back from its own document; so is every report of an analysis; and rewriting a
document a second time changes nothing. -/
theorem reread :
    (∀ document r, ofValue document = .ok r → ofValue r.toValue = .ok r) ∧
    (∀ abi workers schedule sorted packages,
      ofValue (build abi workers schedule sorted packages).toValue =
        .ok (build abi workers schedule sorted packages)) ∧
    ∀ document, rewrite document >>= rewrite = rewrite document := by
  refine ⟨fun _ r h => (isCanonical_ofValue h).ofValue_toValue,
    fun abi workers schedule sorted packages =>
      (isCanonical_build abi workers schedule sorted packages).ofValue_toValue, fun document => ?_⟩
  cases h : ofValue document with
  | error fault =>
    have hr : rewrite document = .error fault := by
      rw [rewrite, h]
      rfl
    rw [hr]
    rfl
  | ok r =>
    have hr : rewrite document = .ok r.toValue := by
      rw [rewrite, h]
      rfl
    rw [hr]
    exact rewrite_toValue (isCanonical_ofValue h)

/-- A document that leaves much out and holds values of other kinds: a line that is a text, a mark that
is a number, a tag that is an empty list, a comment that is a number, and an empty text for the
reordered fields. -/
def looseDocument : Value :=
  .object [("packages", .list [
    .object [("structs", .list [
      .object [("name", .null), ("position", .object [("line", .str " 7")]), ("ignore", .int 2),
        ("fields", .list [
          .object [("tag", .list []), ("comment", .int 3), ("size", .str "big")], .object []]),
        ("aligned_fields", .str "")],
      .object [("position", .null), ("fields", .null), ("aligned_fields", .null)]])],
    .object [("path", .int 5), ("structs", .null)]])]

/-- The report that is read from the document. -/
def looseReport : Report where
  packages := [
    { path := .str ""
      records := [
        { name := .null, place := { file := .str "", line := .int 7 }
          fields := [
            { name := .str "", typeExpr := .str "", tag := .str "", comment := .int 3
              size := .str "big", align := .null },
            { name := .str "", typeExpr := .str "", tag := .str "", comment := .str ""
              size := .null, align := .null }]
          reordered := some [], size := .null, optimalSize := .null, ignored := .bool true
          reason := .null },
        { name := .str "", place := { file := .str "", line := .int 0 }, fields := []
          reordered := none, size := .null, optimalSize := .null, ignored := .bool false
          reason := .null }] },
    { path := .int 5, records := [] }]

theorem reread_loose :
    ofValue looseDocument = .ok looseReport ∧ ofValue looseReport.toValue = .ok looseReport := by
  have h : ofValue looseDocument = .ok looseReport := by rfl
  exact ⟨h, reread.1 looseDocument looseReport h⟩

end Report

end StructLayout
