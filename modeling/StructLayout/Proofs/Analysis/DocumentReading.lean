import Mathlib.Data.List.Forall2
import StructLayout.Analysis.Descriptor
import StructLayout.Proofs.Json.ReadValues

/-!
# How reading a descriptor document can end

Reading ends in one of three ways: with what the document describes, with a complaint about the document,
or with the fault that something cannot be gone through.  What a value describes is said member by member
(`DescribesField`, `DescribesStruct`, `DescribesPackage`, `DescribesDocument`), and where a value is
stumbled over likewise (`StumblesIn` and the predicates after it): a member that should be a list is a
number or a truth value, and all that is read before it is in order.

`Reads` says which values an outcome belongs to in the first and in the third case.  It holds of the
parts of the reader by its combinators (`Reads.bind`, `Reads.named`, `Reads.each`), and so of the whole
reader (`reads_read`).  What is read has lines, sizes and alignments that are not negative, and an
alignment for every size (`isDescribed_read`).  The main statement is `read_complains_iff`: which documents
are read or complained about.  One with a number in the place of the packages is neither
(`read_bare_packages`).
-/

namespace StructLayout

/-! ### What a document can describe -/

/-- The numbers of the field are not negative, and it has an alignment if it has a size. -/
structure Field.IsDescribed (f : Field) : Prop where
  size_nonneg : ∀ n, f.size = some n → 0 ≤ n
  align_nonneg : ∀ n, f.align = some n → 0 ≤ n
  align_isSome : f.size.isSome = true → f.align.isSome = true

/-- The struct stands on a line that is not negative, and its fields can be described. -/
structure StructDef.IsDescribed (s : StructDef) : Prop where
  line_nonneg : 0 ≤ s.position.line
  fields : ∀ f ∈ s.fields, f.IsDescribed

def PackageDef.IsDescribed (p : PackageDef) : Prop := ∀ s ∈ p.structs, s.IsDescribed

/-! ### Lists in documents -/

/-- What every result has all elements of a list of results have. -/
theorem forall_mem_of_forall₂ {α β : Type} {R : α → β → Prop} {P : β → Prop} {xs : List α}
    {ys : List β} (h : List.Forall₂ R xs ys) (hP : ∀ x y, R x y → P y) : ∀ y ∈ ys, P y := by
  induction h with
  | nil => exact List.forall_mem_nil _
  | cons hxy _ ih => exact List.forall_mem_cons.2 ⟨hP _ _ hxy, ih⟩

namespace Value

/-- A number, a truth value or a moment that counts as present: nothing that can be gone through. -/
def IsBare : Value → Prop
  | .bool b => b = true
  | .int n => n ≠ 0
  | .float x => x.isZero = false
  | .moment _ => True
  | .null | .str _ | .list _ | .object _ => False

/-- Under a key stands a list, or nothing that counts as present, which is as good as an empty list. -/
def HasItems (ms : Members) (key : String) (xs : List Value) : Prop :=
  member ms key .null = .list xs ∨ (member ms key .null).isTruthy = false ∧ xs = []

variable {ms : Members} {key : String} {xs : List Value}

theorem memberOr_list (h : member ms key .null = .list xs) :
    memberOr ms key (.list []) = .list xs := by
  rw [memberOr, h]
  cases xs <;> rfl

theorem HasItems.elements (h : HasItems ms key xs) :
    (memberOr ms key (.list [])).elements = .ok xs := by
  rcases h with h | ⟨h, rfl⟩
  · rw [memberOr_list h]
    rfl
  · rw [memberOr, if_neg (by rw [h]; decide)]
    rfl

/-- What is gone through under a key are the items of the key, or it begins with a text: a character or
a key. -/
theorem hasItems_or_str (h : (memberOr ms key (.list [])).elements = .ok xs) :
    HasItems ms key xs ∨ ∃ s rest, xs = .str s :: rest := by
  rw [memberOr] at h
  split at h
  · next ht =>
      generalize hw : member ms key .null = w at h ht
      cases w with
      | null | bool b | int n | float x | moment m => cases h
      | list ys =>
          cases h
          exact .inl (.inl hw)
      | str s =>
          cases h
          cases hs : s.toList with
          | nil =>
              have he : s = "" := String.toList_eq_nil_iff.1 hs
              simp [he] at ht
          | cons c cs => exact .inr ⟨_, _, rfl⟩
      | object ns =>
          cases h
          cases ns with
          | nil => cases ht
          | cons n ns => exact .inr ⟨_, _, rfl⟩
  · next ht =>
      cases h
      exact .inl (.inr ⟨Bool.eq_false_iff.2 ht, rfl⟩)

theorem isBare_iff (v : Value) :
    v.IsBare ↔ v.isTruthy = true ∧ v.elements = .error (.notIterable v.kindName) := by
  cases v <;> simp [IsBare, isTruthy, Value.elements]

theorem eq_notIterable_of_elements {v : Value} {fault : Fault} (h : v.elements = .error fault) :
    fault = .notIterable v.kindName := by
  cases v <;> cases h <;> rfl

/-- What cannot be gone through under a key is bare. -/
theorem elements_eq_error_iff {fault : Fault} :
    (memberOr ms key (.list [])).elements = .error fault ↔
      (member ms key .null).IsBare ∧ fault = .notIterable (member ms key .null).kindName := by
  rw [memberOr, isBare_iff]
  split
  · next ht =>
      constructor
      · intro h
        have hf := eq_notIterable_of_elements h
        exact ⟨⟨ht, by rw [h, hf]⟩, hf⟩
      · rintro ⟨⟨-, h⟩, rfl⟩
        exact h
  · next ht => exact iff_of_false (fun h => by cases h) fun h => ht h.1.1

end Value

namespace Analysis.Descriptor

variable {α β : Type} {source place key : String}

/-- Things are described one by one, and in order, by the elements of the list under a key. -/
def DescribesEach (describes : Value → α → Prop) (ms : Members) (key : String) (as : List α) : Prop :=
  ∃ xs, Value.HasItems ms key xs ∧ List.Forall₂ describes xs as

/-- An element is stumbled over, and the elements before it describe something. -/
def StumblesIn (describes : Value → α → Prop) (stumbles : Value → Prop) : List Value → Prop
  | [] => False
  | v :: rest => stumbles v ∨ (∃ a, describes v a) ∧ StumblesIn describes stumbles rest

/-- What stands under a key cannot be gone through, or an element of it is stumbled over. -/
def StumblesUnder (describes : Value → α → Prop) (stumbles : Value → Prop) (ms : Members)
    (key : String) : Prop :=
  (Value.member ms key .null).IsBare ∨
    ∃ xs, Value.HasItems ms key xs ∧ StumblesIn describes stumbles xs

/-! ### What values describe -/

/-- The members of an object describe a field: name, sizes and texts are those given, and a size
without an alignment comes with an alignment of one. -/
structure FieldMembers (ms : Members) (f : Field) : Prop where
  name_eq : Value.member ms "name" .null = .str f.name
  type_eq : (Value.member ms "type" (.str "")).display = f.typeExpr
  size_eq : Value.member ms "size" .null = Report.optionalInt f.size
  align_eq : Value.member ms "align" .null = Report.optionalInt f.align ∨
    Value.member ms "align" .null = .null ∧ f.size.isSome = true ∧ f.align = some 1
  tag_eq : (Value.memberOr ms "tag" (.str "")).display = f.tag
  comment_eq : (Value.memberOr ms "comment" (.str "")).display = f.comment
  isDescribed : f.IsDescribed

def DescribesField (v : Value) (f : Field) : Prop := ∃ ms, v = .object ms ∧ FieldMembers ms f

def DescribesPosition (v : Value) (p : Position) : Prop :=
  ∃ ms, v = .object ms ∧ (Value.member ms "file" (.str "")).display = p.file ∧
    Value.member ms "line" (.int 0) = .int p.line ∧ 0 ≤ p.line

structure StructMembers (ms : Members) (s : StructDef) : Prop where
  name_eq : Value.member ms "name" .null = .str s.name
  position : DescribesPosition (Value.memberOr ms "position" (.object [])) s.position
  fields : DescribesEach DescribesField ms "fields" s.fields
  ignored_eq : (Value.member ms "ignore" (.bool false)).isTruthy = s.ignored

def DescribesStruct (v : Value) (s : StructDef) : Prop := ∃ ms, v = .object ms ∧ StructMembers ms s

structure PackageMembers (ms : Members) (p : PackageDef) : Prop where
  path_eq : Value.member ms "path" .null = .str p.path
  structs : DescribesEach DescribesStruct ms "structs" p.structs

def DescribesPackage (v : Value) (p : PackageDef) : Prop :=
  ∃ ms, v = .object ms ∧ PackageMembers ms p

structure DocumentMembers (ms : Members) (set : DescriptorSet) : Prop where
  platform_eq : Value.member ms "platform" .null = Report.optionalText set.platform
  packages : DescribesEach DescribesPackage ms "packages" set.packages

def DescribesDocument (v : Value) (set : DescriptorSet) : Prop :=
  ∃ ms, v = .object ms ∧ DocumentMembers ms set

/-! ### What is stumbled over -/

/-- A struct is stumbled over at its fields, if its name and its place are in order. -/
def StumblesOverStruct (v : Value) : Prop :=
  ∃ ms, v = .object ms ∧ ∃ name position, Value.member ms "name" .null = .str name ∧
    DescribesPosition (Value.memberOr ms "position" (.object [])) position ∧
    StumblesUnder DescribesField (fun _ => False) ms "fields"

/-- A package is stumbled over at its structs, if its path is in order. -/
def StumblesOverPackage (v : Value) : Prop :=
  ∃ ms, v = .object ms ∧ ∃ path, Value.member ms "path" .null = .str path ∧
    StumblesUnder DescribesStruct StumblesOverStruct ms "structs"

/-- A document is stumbled over at its packages, if its platform is in order. -/
def StumblesOverDocument (v : Value) : Prop :=
  ∃ ms, v = .object ms ∧ ∃ platform,
    Value.member ms "platform" .null = Report.optionalText platform ∧
    StumblesUnder DescribesPackage StumblesOverPackage ms "packages"

/-! ### Outcomes of readers -/

/-- An outcome is a result exactly if something is described, and that; it is a fault exactly if something
is stumbled over; and otherwise it is a complaint about the source. -/
structure Reads (source : String) (r : Outcome α) (describes : α → Prop) (stumbles : Prop) : Prop where
  eq_ok_iff : ∀ a, r = .ok a ↔ describes a
  fault_iff : (∃ fault, r = .error (.fault fault)) ↔ stumbles
  blames : ∀ e, r = .error e → (∃ reason, e = .error (.parsing source reason)) ∨
    ∃ v : Value, v.IsBare ∧ e = .fault (.notIterable v.kindName)

theorem named?_eq_some_iff (v : Value) (key : String) (ms : Members) (name : String) :
    named? v key = some (ms, name) ↔
      v = .object ms ∧ Value.member ms key .null = .str name := by
  unfold named?
  split
  · next ns =>
      rw [Value.object.injEq, Value.member]
      split
      · next s hs =>
          constructor
          · intro h
            cases h
            exact ⟨rfl, by rw [hs]; rfl⟩
          · rintro ⟨rfl, h⟩
            rw [hs] at h
            cases h
            rfl
      · next hns =>
          refine iff_of_false nofun ?_
          rintro ⟨rfl, h⟩
          cases hget : Members.get? ns key with
          | none => rw [hget] at h; cases h
          | some w =>
              rw [hget] at h
              exact hns name (hget.trans (congrArg some h))
  · next hv => exact iff_of_false nofun fun h => hv ms h.1

namespace Reads

variable {r : Outcome α} {describes : α → Prop} {stumbles : Prop}

theorem congr {describes' : α → Prop} {stumbles' : Prop} (h : Reads source r describes stumbles)
    (hd : ∀ a, describes a ↔ describes' a) (hs : stumbles ↔ stumbles') :
    Reads source r describes' stumbles' :=
  ⟨fun a => (h.eq_ok_iff a).trans (hd a), h.fault_iff.trans hs, h.blames⟩

theorem pure (source : String) (a : α) : Reads source (.ok a) (a = ·) False := by
  refine ⟨fun b => ?_, ?_, fun e h => by cases h⟩
  · rw [Except.ok.injEq]
  · simp

theorem complain (source reason : String) :
    Reads source (complain source reason : Outcome α) (fun _ => False) False := by
  refine ⟨fun a => ?_, ?_, fun e h => ?_⟩
  · simp [Descriptor.complain]
  · simp [Descriptor.complain]
  · cases h
    exact .inl ⟨reason, rfl⟩

theorem fault {v : Value} (hv : v.IsBare) :
    Reads source (.error (.fault (.notIterable v.kindName)) : Outcome α) (fun _ => False) True := by
  refine ⟨fun a => ?_, ?_, fun e h => ?_⟩
  · simp
  · simp
  · cases h
    exact .inr ⟨v, hv, rfl⟩

theorem bind {f : α → Outcome β} {describes' : α → β → Prop} {stumbles' : α → Prop}
    (hr : Reads source r describes stumbles)
    (hf : ∀ a, describes a → Reads source (f a) (describes' a) (stumbles' a)) :
    Reads source (r >>= f) (fun b => ∃ a, describes a ∧ describes' a b)
      (stumbles ∨ ∃ a, describes a ∧ stumbles' a) := by
  cases r with
  | error e =>
      have hnone : ∀ a, ¬ describes a := fun a ha => by cases (hr.eq_ok_iff a).2 ha
      have hbind : (Except.error e >>= f) = .error e := rfl
      rw [hbind]
      refine ⟨fun b => ?_, ?_, fun e' he' => hr.blames e' (by cases he'; rfl)⟩
      · simp [hnone]
      · rw [← hr.fault_iff]
        simp [hnone]
  | ok a =>
      have ha : ∀ b, describes b ↔ a = b := fun b => by rw [← hr.eq_ok_iff b, Except.ok.injEq]
      have hs : ¬ stumbles := fun h => by
        obtain ⟨fault, hfault⟩ := hr.fault_iff.2 h
        cases hfault
      exact (hf a ((ha a).2 rfl)).congr (fun b => by simp [ha]) (by simp [ha, hs])

/-- Elements are read one after the other; their places only matter for complaints. -/
theorem mapM {read : String → Value → Outcome α} {describes : Value → α → Prop}
    {stumbles : Value → Prop}
    (h : ∀ place v, Reads source (read place v) (describes v) (stumbles v)) (place : String)
    (xs : List Value) (start : Nat) :
    Reads source ((xs.zipIdx start).mapM fun p => read (indexed place p.2) p.1)
      (List.Forall₂ describes xs) (StumblesIn describes stumbles xs) := by
  induction xs generalizing start with
  | nil =>
      refine (Reads.pure source []).congr (fun as => ?_) Iff.rfl
      rw [List.forall₂_nil_left_iff, eq_comm]
  | cons v xs ih =>
      rw [List.zipIdx_cons, List.mapM_cons]
      refine ((h _ v).bind fun a _ => (ih (start + 1)).bind fun as _ =>
        Reads.pure source (a :: as)).congr (fun bs => ?_) ?_
      · rw [List.forall₂_cons_left_iff]
        constructor
        · rintro ⟨a, ha, as, has, rfl⟩
          exact ⟨a, as, ha, has, rfl⟩
        · rintro ⟨a, as, ha, has, rfl⟩
          exact ⟨a, ha, as, has, rfl⟩
      · simp [StumblesIn]

/-- What stands under a key is gone through, unless it is bare. -/
theorem elements (source : String) (ms : Members) (key : String) :
    Reads source (Outcome.ofFault (Value.memberOr ms key (.list [])).elements)
      ((Value.memberOr ms key (.list [])).elements = .ok ·) (Value.member ms key .null).IsBare := by
  cases h : (Value.memberOr ms key (.list [])).elements with
  | error fault =>
      obtain ⟨hv, rfl⟩ := Value.elements_eq_error_iff.1 h
      exact (Reads.fault hv).congr (fun xs => by simp) (by simp [hv])
  | ok xs =>
      have hv : ¬ (Value.member ms key .null).IsBare := fun hv => by
        cases h.symm.trans (Value.elements_eq_error_iff.2 ⟨hv, rfl⟩)
      exact (Reads.pure source xs).congr (fun ys => by simp) (by simp [hv])

theorem each {read : String → Value → Outcome α} {describes : Value → α → Prop}
    {stumbles : Value → Prop}
    (h : ∀ place v, Reads source (read place v) (describes v) (stumbles v))
    (htext : ∀ s, (∀ a, ¬ describes (.str s) a) ∧ ¬ stumbles (.str s)) (ms : Members)
    (key place : String) :
    Reads source (readEach ms key place read) (DescribesEach describes ms key)
      (StumblesUnder describes stumbles ms key) := by
  refine ((Reads.elements source ms key).bind fun xs _ => Reads.mapM h place xs 0).congr
    (fun as => exists_congr fun xs => ?_) (or_congr Iff.rfl (exists_congr fun xs => ?_))
  · refine ⟨fun ⟨hxs, has⟩ => ⟨?_, has⟩, fun ⟨hxs, has⟩ => ⟨hxs.elements, has⟩⟩
    rcases Value.hasItems_or_str hxs with hitems | ⟨s, rest, rfl⟩
    · exact hitems
    · obtain ⟨a, _, ha, -⟩ := List.forall₂_cons_left_iff.1 has
      exact absurd ha ((htext s).1 a)
  · refine ⟨fun ⟨hxs, hs⟩ => ⟨?_, hs⟩, fun ⟨hxs, hs⟩ => ⟨hxs.elements, hs⟩⟩
    rcases Value.hasItems_or_str hxs with hitems | ⟨s, rest, rfl⟩
    · exact hitems
    · rcases hs with hs | ⟨⟨a, ha⟩, -⟩
      · exact absurd hs (htext s).2
      · exact absurd ha ((htext s).1 a)

theorem named {f : Members → String → Outcome α} {describes : Members → String → α → Prop}
    {stumbles : Members → String → Prop} (reason : String) (v : Value) (key : String)
    (h : ∀ ms name, Reads source (f ms name) (describes ms name) (stumbles ms name)) :
    Reads source (match named? v key with
        | none => Descriptor.complain source reason
        | some (ms, name) => f ms name)
      (fun a => ∃ ms, v = .object ms ∧
        ∃ name, Value.member ms key .null = .str name ∧ describes ms name a)
      (∃ ms, v = .object ms ∧ ∃ name, Value.member ms key .null = .str name ∧ stumbles ms name) := by
  have hv := named?_eq_some_iff v key
  cases hn : named? v key with
  | none =>
      have hnone : ∀ ms name, ¬ (v = .object ms ∧ Value.member ms key .null = .str name) :=
        fun ms name hms => by cases hn.symm.trans ((hv ms name).2 hms)
      refine (Reads.complain source reason).congr (fun a => ?_) ?_
      · refine iff_of_false id ?_
        rintro ⟨ms, hms, name, hname, -⟩
        exact hnone ms name ⟨hms, hname⟩
      · refine iff_of_false id ?_
        rintro ⟨ms, hms, name, hname, -⟩
        exact hnone ms name ⟨hms, hname⟩
  | some p =>
      obtain ⟨ms, name⟩ := p
      obtain ⟨rfl, hname⟩ := (hv ms name).1 hn
      refine (h ms name).congr (fun a => ?_) ?_
      · simp [hname]
      · simp [hname]

end Reads

/-! ### The parts of a document -/

theorem optionalInt_injective {m n : Option Int} (h : Report.optionalInt m = Report.optionalInt n) :
    m = n := by
  cases m <;> cases n <;> simp_all [Report.optionalInt]

theorem natural?_eq_some_iff {v : Value} {n : Int} :
    natural? v = some n ↔ v = .int n ∧ 0 ≤ n := by
  cases v with
  | int m =>
      simp only [natural?, Option.ite_none_right_eq_some, Option.some.injEq, Value.int.injEq]
      constructor
      · rintro ⟨hm, rfl⟩
        exact ⟨rfl, hm⟩
      · rintro ⟨rfl, hm⟩
        exact ⟨hm, rfl⟩
  | null | bool _ | float _ | str _ | moment _ | list _ | object _ => simp [natural?]

/-- A number that may be absent is given or null, and it is not negative. -/
theorem reads_optionalNatural (source place key : String) (v : Value) :
    Reads source (optionalNatural source place key v)
      (fun n => v = Report.optionalInt n ∧ ∀ m, n = some m → 0 ≤ m) False := by
  unfold optionalNatural
  split
  · refine (Reads.pure source none).congr (fun n => ?_) Iff.rfl
    cases n <;> simp [Report.optionalInt]
  · next hv =>
      cases hn : natural? v with
      | none =>
          refine (Reads.complain source _).congr (fun n => iff_of_false id ?_) Iff.rfl
          rintro ⟨rfl, h⟩
          cases n with
          | none => exact hv rfl
          | some m => cases hn.symm.trans (natural?_eq_some_iff.2 ⟨rfl, h m rfl⟩)
      | some n =>
          obtain ⟨rfl, h⟩ := natural?_eq_some_iff.1 hn
          refine (Reads.pure source (some n)).congr (fun m => ?_) Iff.rfl
          constructor
          · rintro rfl
            exact ⟨rfl, fun m hm => by cases hm; exact h⟩
          · rintro ⟨hm, -⟩
            exact optionalInt_injective (m := some n) hm

theorem defaultAlign_eq_iff {v : Value} {size align : Option Int} :
    (∃ given, (v = Report.optionalInt given ∧ ∀ m, given = some m → 0 ≤ m) ∧
        defaultAlign size given = align) ↔
      (v = Report.optionalInt align ∨ v = .null ∧ size.isSome = true ∧ align = some 1) ∧
        (∀ m, align = some m → 0 ≤ m) ∧ (size.isSome = true → align.isSome = true) := by
  constructor
  · rintro ⟨given, ⟨rfl, hg⟩, rfl⟩
    cases size <;> cases given <;> simp_all [defaultAlign, Report.optionalInt]
  · rintro ⟨rfl | ⟨rfl, hs, rfl⟩, ha, hsa⟩
    · refine ⟨align, ⟨rfl, ha⟩, ?_⟩
      cases size <;> cases align <;> simp_all [defaultAlign]
    · refine ⟨none, ⟨rfl, fun m hm => by cases hm⟩, ?_⟩
      simp [defaultAlign, hs]

theorem reads_readField (source place : String) (v : Value) :
    Reads source (readField source place v) (DescribesField v) False := by
  refine (Reads.named _ v "name" fun ms name =>
    (reads_optionalNatural source place "size" _).bind fun size _ =>
      (reads_optionalNatural source place "align" _).bind fun align _ =>
        Reads.pure source _).congr (fun f => exists_congr fun ms => and_congr_right fun _ => ?_) ?_
  · constructor
    · rintro ⟨name, hname, size, ⟨hsize, hs⟩, align, halign, rfl⟩
      obtain ⟨ha, hn, hsome⟩ := defaultAlign_eq_iff.1 ⟨align, halign, rfl⟩
      exact ⟨hname, rfl, hsize, ha, rfl, rfl, hs, hn, hsome⟩
    · rintro ⟨hname, htype, hsize, halign, htag, hcomment, hs, ha, hsome⟩
      obtain ⟨given, hgiven, hdefault⟩ := defaultAlign_eq_iff.2 ⟨halign, ha, hsome⟩
      refine ⟨_, hname, _, ⟨hsize, hs⟩, given, hgiven, ?_⟩
      rw [htype, htag, hcomment, hdefault]
  · simp

theorem reads_readPosition (source place : String) (v : Value) :
    Reads source (readPosition source place v) (DescribesPosition v) False := by
  unfold readPosition
  split
  · next ms =>
      cases hn : natural? (Value.member ms "line" (.int 0)) with
      | none =>
          refine (Reads.complain source _).congr (fun p => iff_of_false id ?_) Iff.rfl
          rintro ⟨ns, hms, -, hline⟩
          cases hms
          cases hn.symm.trans (natural?_eq_some_iff.2 hline)
      | some line =>
          obtain ⟨hline, h⟩ := natural?_eq_some_iff.1 hn
          refine (Reads.pure source _).congr (fun p => ?_) Iff.rfl
          constructor
          · rintro rfl
            exact ⟨ms, rfl, rfl, hline, h⟩
          · rintro ⟨ns, hms, hfile, hp, -⟩
            cases hms
            cases hline.symm.trans hp
            rw [hfile]
  · next hv =>
      refine (Reads.complain source _).congr (fun p => iff_of_false id ?_) Iff.rfl
      rintro ⟨ms, hms, -⟩
      exact hv ms hms

theorem not_exists_object {s : String} {P : Members → Prop} :
    ¬ ∃ ms, Value.str s = .object ms ∧ P ms := by
  rintro ⟨ms, h, -⟩
  cases h

theorem reads_readStruct (source place : String) (v : Value) :
    Reads source (readStruct source place v) (DescribesStruct v) (StumblesOverStruct v) := by
  refine (Reads.named _ v "name" fun ms name =>
    (reads_readPosition source place _).bind fun position _ =>
      (Reads.each (reads_readField source) (fun s => ⟨fun a => not_exists_object, id⟩) ms "fields"
        (place ++ ".fields")).bind fun fields _ => Reads.pure source _).congr
    (fun s => exists_congr fun ms => and_congr_right fun _ => ?_)
    (exists_congr fun ms => and_congr_right fun _ => ?_)
  · constructor
    · rintro ⟨name, hname, position, hposition, fields, hfields, rfl⟩
      exact ⟨hname, hposition, hfields, rfl⟩
    · rintro ⟨hname, hposition, hfields, hignored⟩
      exact ⟨_, hname, _, hposition, _, hfields, by rw [hignored]⟩
  · simp

theorem reads_readPackage (source place : String) (v : Value) :
    Reads source (readPackage source place v) (DescribesPackage v) (StumblesOverPackage v) := by
  refine (Reads.named _ v "path" fun ms path =>
    (Reads.each (reads_readStruct source) (fun s => ⟨fun a => not_exists_object, ?_⟩) ms "structs"
      (place ++ ".structs")).bind fun structs _ => Reads.pure source _).congr
    (fun p => exists_congr fun ms => and_congr_right fun _ => ?_)
    (exists_congr fun ms => and_congr_right fun _ => ?_)
  · exact not_exists_object
  · constructor
    · rintro ⟨path, hpath, structs, hstructs, rfl⟩
      exact ⟨hpath, hstructs⟩
    · rintro ⟨hpath, hstructs⟩
      exact ⟨_, hpath, _, hstructs, rfl⟩
  · simp

theorem reads_readPlatform (source : String) (v : Value) :
    Reads source (readPlatform source v) (v = Report.optionalText ·) False := by
  unfold readPlatform
  split
  · refine (Reads.pure source none).congr (fun p => ?_) Iff.rfl
    cases p <;> simp [Report.optionalText]
  · next s =>
      refine (Reads.pure source (some s)).congr (fun p => ?_) Iff.rfl
      cases p <;> simp [Report.optionalText]
  · next hnull hstr =>
      refine (Reads.complain source _).congr (fun p => iff_of_false id ?_) Iff.rfl
      rintro rfl
      cases p with
      | none => exact hnull rfl
      | some s => exact hstr s rfl

theorem reads_read (source : String) (v : Value) :
    Reads source (read source v) (DescribesDocument v) (StumblesOverDocument v) := by
  unfold read
  split
  · next ms =>
      refine ((reads_readPlatform source _).bind fun platform _ =>
        (Reads.each (reads_readPackage source) (fun s => ⟨fun a => not_exists_object, ?_⟩) ms
          "packages" "packages").bind fun packages _ => Reads.pure source _).congr
        (fun set => ?_) ?_
      · exact not_exists_object
      · constructor
        · rintro ⟨platform, hplatform, packages, hpackages, rfl⟩
          exact ⟨ms, rfl, hplatform, hpackages⟩
        · rintro ⟨ns, hms, hplatform, hpackages⟩
          cases hms
          exact ⟨_, hplatform, _, hpackages, rfl⟩
      · simp [StumblesOverDocument]
  · next hv =>
      refine (Reads.complain source _).congr (fun set => iff_of_false id ?_) (iff_of_false id ?_)
      · rintro ⟨ms, hms, -⟩
        exact hv ms hms
      · rintro ⟨ms, hms, -⟩
        exact hv ms hms

/-! ### What can be described -/

theorem DescribesField.isDescribed {v : Value} {f : Field} (h : DescribesField v f) :
    f.IsDescribed := by
  obtain ⟨ms, -, h⟩ := h
  exact h.isDescribed

theorem DescribesStruct.isDescribed {v : Value} {s : StructDef} (h : DescribesStruct v s) :
    s.IsDescribed := by
  obtain ⟨ms, -, h⟩ := h
  obtain ⟨_, -, -, -, hline⟩ := h.position
  obtain ⟨vs, -, hvs⟩ := h.fields
  exact ⟨hline, forall_mem_of_forall₂ hvs fun _ _ => DescribesField.isDescribed⟩

theorem DescribesPackage.isDescribed {v : Value} {p : PackageDef} (h : DescribesPackage v p) :
    p.IsDescribed := by
  obtain ⟨ms, -, h⟩ := h
  obtain ⟨vs, -, hvs⟩ := h.structs
  exact forall_mem_of_forall₂ hvs fun _ _ => DescribesStruct.isDescribed

theorem isDescribed_read {source : String} {v : Value} {set : DescriptorSet}
    (h : read source v = .ok set) : ∀ p ∈ set.packages, p.IsDescribed := by
  obtain ⟨ms, -, h⟩ := ((reads_read source v).eq_ok_iff set).1 h
  obtain ⟨vs, -, hvs⟩ := h.packages
  exact forall_mem_of_forall₂ hvs fun _ _ => DescribesPackage.isDescribed

/-! ### How reading ends -/

/-- Reading gives a result or complains about the source exactly if nothing is stumbled over; and it ends
in the fault that something cannot be gone through exactly if something is.  It never ends in a type, tag,
comment or file that cannot be shown, since what was decoded can be. -/
theorem read_complains_iff (source : String) (v : Value) :
    (((∃ set, read source v = .ok set) ∨
        ∃ reason, read source v = .error (.error (.parsing source reason))) ↔
      ¬ StumblesOverDocument v) ∧
    ((∃ bare : Value, bare.IsBare ∧
        read source v = .error (.fault (.notIterable bare.kindName))) ↔
      StumblesOverDocument v) ∧
    ∀ (limits : Limits) text, Json.parse limits.reading text = .ok v →
      v.requireShowable limits.showing = .ok v := by
  have h := reads_read source v
  rw [← h.fault_iff, ← and_assoc]
  refine ⟨?_, fun limits text => Json.requireShowable_of_parse limits⟩
  cases hr : read source v with
  | ok set => simp
  | error e =>
      rcases h.blames e hr with ⟨reason, rfl⟩ | ⟨bare, hbare, rfl⟩
      · simp
      · simpa using ⟨bare, hbare, rfl⟩

/-- A number in the place of the packages is neither read nor complained about. -/
theorem read_bare_packages :
    ¬ ∀ (source : String) (v : Value), (∃ set, read source v = .ok set) ∨
      ∃ reason, read source v = .error (.error (.parsing source reason)) := by
  intro h
  have hr : read "<memory>" (.object [("packages", .int 5)]) =
      .error (.fault (.notIterable "int")) := by rfl
  rcases h "<memory>" (.object [("packages", .int 5)]) with ⟨set, hset⟩ | ⟨reason, hreason⟩
  · cases hr.symm.trans hset
  · cases hr.symm.trans hreason

end Analysis.Descriptor

end StructLayout
