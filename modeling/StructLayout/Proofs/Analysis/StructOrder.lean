import StructLayout.Proofs.Sizing.History

/-!
# The order of structs

The structs of a package are sized by one sizer, one after the other.  As it answers like a new one, a
struct is sized as it is alone (`sizeStructs_eq`), and in another order the structs are the same in that
order.

The main statement is `sizing_independent_of_history`, which puts the answers of a sizer and the structs
of a package together.
-/

namespace StructLayout.Analysis

open Sizing Source Relation

variable {s : Sizer} {limit : Nat}

def fieldScope (scope : Scope) (d : StructDecl) : Scope := { scope with typeParams := d.typeParams }

/-- A field sized by a new sizer. -/
def fieldAlone (scope : Scope) (d : FieldDecl) : Field :=
  ((Sizer.ofScope scope).field d.name d.typeExpr d.tag d.comment).1

/-- A struct whose fields are sized by a new sizer each. -/
def structAlone (scope : Scope) (d : StructDecl) : StructDef where
  name := d.name
  position := d.position
  fields := d.fields.map (fieldAlone (fieldScope scope d))
  ignored := d.ignored

theorem fieldScope_of_isEmpty {scope : Scope} (hp : scope.typeParams = []) {d : StructDecl}
    (hd : d.typeParams.isEmpty = true) : fieldScope scope d = scope := by
  rw [fieldScope, List.isEmpty_iff.1 hd, ← hp]

/-! ### Structs are sized as they are alone -/

theorem sizeFields_eq (hs : s.IsSound) (ds : List FieldDecl) :
    (sizeFields s ds).1 = ds.map (fieldAlone s.scope) ∧ (sizeFields s ds).2.IsSound ∧
      (sizeFields s ds).2.scope = s.scope := by
  induction ds generalizing s with
  | nil => exact ⟨rfl, hs, rfl⟩
  | cons d ds ih =>
      obtain ⟨hfields, hsound, hscope⟩ := ih (hs.layoutOf d.typeExpr)
      refine ⟨?_, hsound, hscope⟩
      simp only [sizeFields, List.map_cons, fieldAlone, Sizer.field, ← hs.layoutOf_eq]
      exact congrArg _ hfields

theorem sizeStruct_eq (hs : s.IsSound) (hp : s.scope.typeParams = []) (d : StructDecl) :
    (sizeStruct s d).1 = structAlone s.scope d ∧ (sizeStruct s d).2.IsSound ∧
      (sizeStruct s d).2.scope = s.scope := by
  unfold sizeStruct structAlone
  by_cases hd : d.typeParams.isEmpty = true
  · obtain ⟨hfields, hsound, hscope⟩ := sizeFields_eq hs d.fields
    simp only [hd, if_true, fieldScope_of_isEmpty hp hd, hfields, true_and]
    exact ⟨hsound, hscope⟩
  · have hnew : (s.withTypeParams d.typeParams).IsSound := Sizer.isSound_ofScope _
    obtain ⟨hfields, -⟩ := sizeFields_eq hnew d.fields
    simp only [hd, if_false, hfields, Bool.false_eq_true]
    exact ⟨rfl, hs, trivial⟩

theorem sizeStructs_eq (hs : s.IsSound) (hp : s.scope.typeParams = []) (ds : List StructDecl) :
    sizeStructs s ds = ds.map (structAlone s.scope) := by
  induction ds generalizing s with
  | nil => rfl
  | cons d ds ih =>
      obtain ⟨hfirst, hsound, hscope⟩ := sizeStruct_eq hs hp d
      rw [sizeStructs, List.map_cons, hfirst, ih hsound (hscope ▸ hp), hscope]

theorem sizePackage_perm (abi : Abi) (path : String) (found : Declarations)
    {structs : List StructDecl} (hp : structs.Perm found.structs) :
    (sizePackage abi path { found with structs }).structs.Perm
      (sizePackage abi path found).structs := by
  have hs : (sizerFor abi found).IsSound := Sizer.isSound_ofScope _
  have hr : sizerFor abi { found with structs } = sizerFor abi found := rfl
  simp only [sizePackage, hr, sizeStructs_eq hs rfl]
  exact hp.map _

/-! ### Structs that can be sized in any order -/

/-- A new sizer gives up on none of the fields of a struct. -/
def IsShallow (limit : Nat) (scope : Scope) (d : StructDecl) : Prop :=
  ∀ f ∈ d.fields, (Sizer.ofScope (fieldScope scope d)).isTooDeep limit f.typeExpr = false

theorem requireFields_ok (hs : s.IsSound) {ds : List FieldDecl}
    (h : ∀ d ∈ ds, (Sizer.ofScope s.scope).isTooDeep limit d.typeExpr = false) :
    ∃ s', requireFields limit s ds = .ok s' ∧ s'.IsSound ∧ s'.scope = s.scope := by
  induction ds generalizing s with
  | nil => exact ⟨s, rfl, hs, rfl⟩
  | cons d ds ih =>
      obtain ⟨hd, hds⟩ := List.forall_mem_cons.1 h
      obtain ⟨s', hs', hsound, hscope⟩ := ih (hs.layoutOf d.typeExpr) hds
      refine ⟨s', ?_, hsound, hscope⟩
      rw [requireFields, Sizer.fieldWithin_eq d.name d.tag d.comment (hs.isTooDeep_eq_false hd)]
      exact hs'

theorem requireStruct_ok (hs : s.IsSound) (hp : s.scope.typeParams = []) {d : StructDecl}
    (h : IsShallow limit s.scope d) :
    ∃ s', requireStruct limit s d = .ok s' ∧ s'.IsSound ∧ s'.scope = s.scope := by
  unfold requireStruct
  by_cases hd : d.typeParams.isEmpty = true
  · rw [IsShallow, fieldScope_of_isEmpty hp hd] at h
    rw [if_pos hd]
    exact requireFields_ok hs h
  · obtain ⟨s', hs', -⟩ := requireFields_ok (Sizer.isSound_ofScope (fieldScope s.scope d)) h
    rw [if_neg hd]
    refine ⟨s, ?_, hs, rfl⟩
    have hw : s.withTypeParams d.typeParams = Sizer.ofScope (fieldScope s.scope d) := rfl
    rw [hw, hs']
    rfl

theorem foldlM_requireStruct_ok (hs : s.IsSound) (hp : s.scope.typeParams = [])
    {ds : List StructDecl} (h : ∀ d ∈ ds, IsShallow limit s.scope d) :
    ∃ s', ds.foldlM (requireStruct limit) s = .ok s' := by
  induction ds generalizing s with
  | nil => exact ⟨s, rfl⟩
  | cons d ds ih =>
      obtain ⟨hd, hds⟩ := List.forall_mem_cons.1 h
      obtain ⟨s', hs', hsound, hscope⟩ := requireStruct_ok hs hp hd
      rw [List.foldlM_cons, hs']
      exact ih hsound (hscope ▸ hp) (hscope ▸ hds)

/-- A package is sized if a new sizer gives up on none of its fields. -/
theorem sizePackageWithin_ok {abi : Abi} {found : Declarations} (path : String)
    (h : ∀ d ∈ found.structs, IsShallow limit (sizerFor abi found).scope d) :
    ∃ p, sizePackageWithin limit abi path found = .ok p := by
  obtain ⟨s', hs'⟩ := foldlM_requireStruct_ok (Sizer.isSound_ofScope _) rfl h
  refine ⟨sizePackage abi path found, ?_⟩
  rw [sizePackageWithin, sizerFor, hs']
  rfl

/-! ### Names that hold each other -/

/-- Two structs over a name that is resolved and two names that hold each other; one of these is a type
parameter of the second struct. -/
def mutualNames : Declarations where
  package := "p"
  structs := [
    { name := "First"
      position := { file := "p.go", line := 1 }
      typeParams := []
      ignored := false
      fields := [
        { name := "id", typeExpr := "Id", tag := "", comment := "", line := 2 },
        { name := "t", typeExpr := "T", tag := "", comment := "", line := 3 }] },
    { name := "Second"
      position := { file := "p.go", line := 5 }
      typeParams := ["T"]
      ignored := false
      fields := [{ name := "t", typeExpr := "T", tag := "", comment := "", line := 6 }] }]
  localTypes := [("Id", "int64"), ("T", "U"), ("U", "T")]
  genericTypes := []
  warnings := []

namespace MutualNames

def scope : Scope := (sizerFor .amd64 mutualNames).scope

theorem parse_T : TypeTree.parse "T".toList = .name "T" :=
  (TypeTree.parse_bare (show Text.trim _ = ['T'] from rfl) (by decide)).trans rfl

theorem parse_U : TypeTree.parse "U".toList = .name "U" :=
  (TypeTree.parse_bare (show Text.trim _ = ['U'] from rfl) (by decide)).trans rfl

theorem parse_Id : TypeTree.parse "Id".toList = .name "Id" :=
  (TypeTree.parse_bare (show Text.trim _ = ['I', 'd'] from rfl) (by decide)).trans rfl

theorem parse_int64 : TypeTree.parse "int64".toList = .name "int64" :=
  (TypeTree.parse_bare (show Text.trim _ = ['i', 'n', 't', '6', '4'] from rfl) (by decide)).trans rfl

theorem sized_Id : Sized scope 3 (TypeTree.parse "Id".toList) { size := 8, align := 8 } := by
  have hu : scope.underlying? "Id" = some "int64" := by decide
  rw [parse_Id]
  refine .declared (n := 0) (by decide) (by decide) (by decide) hu ?_
  rw [parse_int64]
  exact .fixed (by decide) (by decide)

/-- The two names hold each other. -/
theorem transGen_T : TransGen (Part scope) (.name "T") (.name "T") := by
  have hT : Part scope (.name "T") (.name "U") :=
    parse_U ▸ .declared (by decide) (by decide) (by decide) (by decide)
  have hU : Part scope (.name "U") (.name "T") :=
    parse_T ▸ .declared (by decide) (by decide) (by decide) (by decide)
  exact .tail (.single hT) hU

theorem layoutOf_T :
    ((Sizer.ofScope scope).layoutOf "T").1 = .error ⟨"T", "recursive type"⟩ := by
  have h₁ : nameLayout scope (scope.resolver []) "T" = scope.layoutOf ["T"] (.name "U") := by
    rw [nameLayout_eq_resolve (by decide) (by decide),
      Scope.resolver_underlying (t := "U") (by decide) (by decide), parse_U]
  have h₂ : nameLayout scope (scope.resolver ["T"]) "U" = scope.layoutOf ["U", "T"] (.name "T") := by
    rw [nameLayout_eq_resolve (by decide) (by decide),
      Scope.resolver_underlying (t := "T") (by decide) (by decide), parse_T]
  have h₃ : nameLayout scope (scope.resolver ["U", "T"]) "T" = indeterminate "T" "recursive type" := by
    rw [nameLayout_eq_resolve (by decide) (by decide)]
    rfl
  simp only [Sizer.layoutOf, Sizer.ofScope, parse_T, Scope.layoutOf_eq, TypeTree.layout, h₁, h₂, h₃]
  rfl

theorem isTooDeep_T : (Sizer.ofScope scope).isTooDeep 6 "T" = false := by
  have h₁ (level : Nat) : descendName scope (scope.descender 6 [] level) "T" =
      scope.descend 6 ["T"] (level + partLevels) (.name "U") := by
    rw [descendName_eq_resolve (by decide) (by decide),
      Scope.descender_underlying (t := "U") (by decide) (by decide), parse_U]
  have h₂ (level : Nat) : descendName scope (scope.descender 6 ["T"] level) "U" =
      scope.descend 6 ["U", "T"] (level + partLevels) (.name "T") := by
    rw [descendName_eq_resolve (by decide) (by decide),
      Scope.descender_underlying (t := "T") (by decide) (by decide), parse_T]
  have h₃ (level : Nat) : descendName scope (scope.descender 6 ["U", "T"] level) "T" = noLayout := by
    rw [descendName_eq_resolve (by decide) (by decide)]
    rfl
  simp only [Sizer.isTooDeep, Sizer.descent, Sizer.ofScope, parse_T, Scope.descend_eq,
    TypeTree.descend, h₁, h₂, h₃]
  rfl

/-- A new sizer does not give up on the name that holds itself, but refuses it. -/
theorem ask_T : (Sizer.Query.ask 6 (Sizer.ofScope scope) (.layout "T")).1 =
    .error (.error (.indeterminate ⟨"T", "recursive type"⟩)) := by
  have h : (Sizer.Query.layout "T").answer scope =
      .error (.error (.indeterminate ⟨"T", "recursive type"⟩)) := by
    simp only [Sizer.Query.answer, Sizer.Query.typeExpr, layoutOf_T]
    rfl
  exact (Sizer.Query.ask_eq_answer (q := .layout "T") (Sizer.isSound_ofScope scope) isTooDeep_T).trans h

theorem isShallow : ∀ d ∈ mutualNames.structs, IsShallow 6 scope d := by
  have hId : (Sizer.ofScope scope).isTooDeep 6 "Id" = false :=
    Sizer.isTooDeep_of_sized sized_Id (by decide)
  have hparam : (Sizer.ofScope { scope with typeParams := ["T"] }).isTooDeep 6 "T" = false := by
    simp only [Sizer.isTooDeep, Sizer.descent, Sizer.ofScope, parse_T, Scope.descend_eq]
    rfl
  refine List.forall_mem_cons.2 ⟨?_, List.forall_mem_singleton.2 ?_⟩
  · exact List.forall_mem_cons.2 ⟨hId, List.forall_mem_singleton.2 isTooDeep_T⟩
  · exact List.forall_mem_singleton.2 hparam

end MutualNames

/-! ### Independence of history -/

/-- Sizing does not depend on its history, under whatever limit.  Whatever a sizer was asked before, it
gives up on a type for its depth or answers as a new sizer without a limit does, and it answers as a new
sizer does where that one does not give up; the layouts that it finds obey the sizing rules.  So another
order of a package's structs gives the same structs in another order, where both are sized; and every
order is sized if a new sizer gives up on none of the fields. -/
theorem sizing_independent_of_history :
    (∀ (scope : Scope) (history : List (Nat × Sizer.Query)) (limit : Nat),
      let fresh := Sizer.ofScope scope
      let s := fresh.after history
      (∀ q : Sizer.Query,
        ((q.ask limit s).1 = .error Sizer.tooDeep ∨ (q.ask limit s).1 = q.answer scope) ∧
        ((q.ask limit fresh).1 ≠ .error Sizer.tooDeep →
          (q.ask limit s).1 = (q.ask limit fresh).1)) ∧
      ∀ typeExpr : String,
        Sizer.Obeys scope limit (TypeTree.parse typeExpr.toList) (s.layoutWithin limit typeExpr).1) ∧
    ∀ (limit : Nat) (abi : Abi) (path : String) (found : Declarations) (structs : List StructDecl),
      structs.Perm found.structs →
      (∀ p p', sizePackageWithin limit abi path found = .ok p →
        sizePackageWithin limit abi path { found with structs } = .ok p' →
          p'.path = p.path ∧ p'.structs.Perm p.structs) ∧
      ((∀ d ∈ found.structs, IsShallow limit (sizerFor abi found).scope d) →
        (∃ p, sizePackageWithin limit abi path found = .ok p) ∧
          ∃ p', sizePackageWithin limit abi path { found with structs } = .ok p') := by
  refine ⟨fun scope history limit =>
      ⟨Sizer.ask_after scope history limit, fun typeExpr => ?_⟩,
    fun limit abi path found structs hp => ⟨fun p p' h h' => ?_, fun h => ?_⟩⟩
  · obtain ⟨hs, hscope⟩ := (Sizer.isSound_ofScope scope).after history
    have hobeys := hs.obeys limit typeExpr
    rwa [hscope] at hobeys
  · rw [eq_of_sizePackageWithin h, eq_of_sizePackageWithin h']
    exact ⟨rfl, sizePackage_perm abi path found hp⟩
  · exact ⟨sizePackageWithin_ok path h, sizePackageWithin_ok path fun d hd => h d (hp.mem_iff.1 hd)⟩

open MutualNames in
theorem sizing_independent_of_history_mutualNames :
    let fresh := Sizer.ofScope scope
    let s := fresh.after [(6, .layout "T"), (0, .size "Id")]
    let cause : Indeterminate := { typeExpr := "T", reason := "recursive type" }
    let reordered := { mutualNames with structs := mutualNames.structs.reverse }
    ((Sizer.Query.layout "T").ask 6 fresh).1 = .error (.error (.indeterminate cause)) ∧
      ((Sizer.Query.layout "T").ask 6 s).1 = .error (.error (.indeterminate cause)) ∧
      Sized scope 3 (TypeTree.parse "Id".toList) { size := 8, align := 8 } ∧
      (s.layoutWithin 6 "Id").1 = .ok { size := 8, align := 8 } ∧
      TransGen (Part scope) (.name "T") (.name "T") ∧
      ((∃ e, (s.layoutWithin 6 "T").1 = .error (.error (.indeterminate e))) ∨
        (s.layoutWithin 6 "T").1 = .error Sizer.tooDeep) ∧
      (s.layoutWithin 6 "T").1 = .error (.error (.indeterminate cause)) ∧
      ReflTransGen (Part scope) (TypeTree.parse "T".toList) (.name cause.typeExpr) ∧
      ∃ p p', sizePackageWithin 6 .amd64 "p" mutualNames = .ok p ∧
        sizePackageWithin 6 .amd64 "p" reordered = .ok p' ∧ p'.structs.Perm p.structs := by
  intro fresh s cause reordered
  obtain ⟨hsizer, hpackage⟩ := sizing_independent_of_history
  obtain ⟨hask, hobeys⟩ := hsizer scope [(6, .layout "T"), (0, .size "Id")] 6
  obtain ⟨hperm, hall⟩ := hpackage 6 .amd64 "p" mutualNames mutualNames.structs.reverse
    (List.reverse_perm _)
  obtain ⟨⟨p, hp⟩, p', hp'⟩ := hall isShallow
  have hne : ((Sizer.Query.layout "T").ask 6 fresh).1 ≠ .error Sizer.tooDeep := by
    rw [ask_T]
    simp [Sizer.tooDeep]
  have hs : ((Sizer.Query.layout "T").ask 6 s).1 = .error (.error (.indeterminate cause)) :=
    ((hask (.layout "T")).2 hne).trans ask_T
  have hT : (s.layoutWithin 6 "T").1 = .error (.error (.indeterminate cause)) := by
    rw [Sizer.Query.ask] at hs
    cases hl : (s.layoutWithin 6 "T").1 with
    | ok l =>
        rw [hl] at hs
        cases hs
    | error e =>
        rw [hl] at hs
        cases hs
        rfl
  exact ⟨ask_T, hs, sized_Id, (hobeys "Id").within 3 _ sized_Id (by decide), transGen_T,
    (hobeys "T").cyclic (.name "T") (parse_T ▸ .refl) transGen_T, hT,
    ((hobeys "T").guarded cause hT rfl).1, p, p', hp, hp', (hperm p p' hp hp').2⟩

end StructLayout.Analysis
