import StructLayout.Proofs.Analysis.StructOrder
import StructLayout.Proofs.Sizing.Coherence
import StructLayout.Proofs.Sizing.Descending
import StructLayout.Proofs.Sizing.StructTexts

/-!
# A struct on its own and as the type of a field

A struct is laid out twice: on its own from its fields, which are sized one after the other, and as the
type of a field from its text, which is read back and sized as a whole.  Both go through the types of the
fields in the same order and with the same memory (`run_fieldLayouts`), so they come to the same layout.

They differ in depth: the text takes some levels itself, so it may be given up on where the fields are
not; once the fields have been sized, it is not (`layoutWithin_of_knownFields`).  And where the text was
remembered before, so were the texts of the fields (`exists_knownFields`), whatever was declared anew in
between.  The main statement is `layoutWithin_structExpr`.
-/

namespace StructLayout.Analysis

open Sizing Source

variable {abi : Abi} {scope : Scope} {s s' : Sizer} {decls : List FieldDecl} {fields : List Field}
  {l : TypeLayout} {ls : List TypeLayout} {limit : Nat}

/-! ### Fields with layouts -/

/-- Fields have layouts, in their order. -/
def HaveLayouts (fields : List Field) (ls : List TypeLayout) : Prop :=
  List.Forall₂ (fun f l => f.size = some l.size ∧ f.align = some l.align) fields ls

namespace HaveLayouts

theorem isSized (h : HaveLayouts fields ls) : ∀ f ∈ fields, f.isSized = true := by
  induction h with
  | nil => exact List.forall_mem_nil _
  | cons hl _ ih => exact List.forall_mem_cons.2 ⟨by simp [Field.isSized, hl.1], ih⟩

theorem endFrom_eq (h : HaveLayouts fields ls) (offset : Int) :
    endFrom offset fields = endFrom offset (ls.map TypeLayout.asField) := by
  induction h generalizing offset with
  | nil => rfl
  | @cons f l fields ls hl _ ih =>
      obtain ⟨hsize, halign⟩ := hl
      have hbytes : f.bytes = l.asField.bytes := by simp [Field.bytes, hsize, TypeLayout.asField]
      have hgap : f.gapAfter offset = l.asField.gapAfter offset := by
        rw [Field.gapAfter, Field.isEmpty, hbytes, Field.alignment, halign]
        rfl
      rw [List.map_cons, endFrom, endFrom, hbytes, hgap, ih]

theorem largestAlignment_eq (h : HaveLayouts fields ls) :
    largestAlignment fields = largestAlignment (ls.map TypeLayout.asField) := by
  induction h with
  | nil => rfl
  | cons hl _ ih =>
      rw [List.map_cons, largestAlignment, largestAlignment, ih]
      simp [Field.alignment, hl.2, TypeLayout.asField]

theorem structLayout_eq (h : HaveLayouts fields ls) :
    structLayout abi ls = { size := structSize abi fields, align := largestAlignment fields } := by
  simp only [structLayout, structSize, effectiveAlignment, h.endFrom_eq, h.largestAlignment_eq]

theorem one_le_alignment (h : HaveLayouts fields ls) (ha : ∀ l ∈ ls, 1 ≤ l.align) :
    ∀ f ∈ fields, 1 ≤ f.alignment := by
  induction h with
  | nil => exact List.forall_mem_nil _
  | cons hl _ ih =>
      obtain ⟨hhead, htail⟩ := List.forall_mem_cons.1 ha
      exact List.forall_mem_cons.2 ⟨by simpa [Field.alignment, hl.2] using hhead, ih htail⟩

end HaveLayouts

/-- The greatest alignment is the greatest one there is, or else one. -/
theorem largestAlignment_eq_max? (h : ∀ f ∈ fields, 1 ≤ f.alignment) :
    largestAlignment fields = (fields.map Field.alignment).max?.getD 1 := by
  induction fields with
  | nil => rfl
  | cons f fields ih =>
      obtain ⟨hf, hfields⟩ := List.forall_mem_cons.1 h
      rw [largestAlignment, ih hfields, List.map_cons, List.max?_cons, Option.getD_some]
      cases (fields.map Field.alignment).max? with
      | none => exact Int.max_eq_left hf
      | some a => rfl

/-- The layout of a struct whose fields are sized: its size is that of its fields in their order, and
its alignment is the greatest among theirs, one if there are none. -/
structure LaidOut (abi : Abi) (fields : List Field) (l : TypeLayout) : Prop where
  sized : ∀ f ∈ fields, f.isSized = true
  size : layoutSize abi fields = .ok l.size
  align : l.align = (fields.map Field.alignment).max?.getD 1

theorem HaveLayouts.laidOut (h : HaveLayouts fields ls) (ha : ∀ l ∈ ls, 1 ≤ l.align) :
    LaidOut abi fields (structLayout abi ls) := by
  rw [h.structLayout_eq]
  exact ⟨h.isSized, layoutSize_of_isSized abi h.isSized, largestAlignment_eq_max? (h.one_le_alignment ha)⟩

/-! ### Alignments are positive -/

theorem one_le_align_of_madeOf {known : String → Option TypeLayout} {tree : TypeTree}
    (hknown : ∀ text l, known text = some l → 1 ≤ l.align) (h : MadeOf abi known tree l) :
    1 ≤ l.align := by
  have hword : 1 ≤ abi.wordSize := abi.wordSize_pos
  cases h with
  | group h => exact hknown _ _ h
  | fixed h => exact one_le_fixedLayout?_align h
  | instantiated => exact hword
  | declared h => exact hknown _ _ h
  | word => exact hword
  | slice => exact hword
  | interface => exact hword
  | array h =>
      have hl := hknown _ _ h
      exact hl
  | struct h => exact one_le_largestAlignment _

/-! ### Sizing the fields one after the other -/

def fieldTrees (decls : List FieldDecl) : List TypeTree :=
  decls.map fun d => TypeTree.parse d.typeExpr.toList

def fieldLayouts (scope : Scope) (decls : List FieldDecl) : Memo (List TypeLayout) :=
  TypeTree.layouts scope (scope.resolver []) (fieldTrees decls)

/-- Descending into the types of the fields of a struct. -/
def fieldDescents (limit : Nat) (scope : Scope) (decls : List FieldDecl) : Descent Unit :=
  TypeTree.descendAll scope limit (scope.descender limit []) partLevels (fieldTrees decls)

theorem scope_sizeFields (s : Sizer) (decls : List FieldDecl) :
    (sizeFields s decls).2.scope = s.scope := by
  induction decls generalizing s with
  | nil => rfl
  | cons d decls ih => exact ih _

theorem run_layout_field (s : Sizer) (d : FieldDecl) :
    ((TypeTree.parse d.typeExpr.toList).layout s.scope (s.scope.resolver [])).run.run s.cache =
      ((s.layoutOf d.typeExpr).1, (s.layoutOf d.typeExpr).2.cache) := by
  rw [← Scope.layoutOf_eq]
  rfl

theorem run_fieldLayouts (s : Sizer) (decls : List FieldDecl) :
    (∃ ls, (fieldLayouts s.scope decls).run.run s.cache = (.ok ls, (sizeFields s decls).2.cache) ∧
      HaveLayouts (sizeFields s decls).1 ls) ∨
    (∃ e cache, (fieldLayouts s.scope decls).run.run s.cache = (.error e, cache)) ∧
      ∃ f ∈ (sizeFields s decls).1, f.isSized = false := by
  induction decls generalizing s with
  | nil => exact .inl ⟨[], rfl, .nil⟩
  | cons d decls ih =>
      have hd := run_layout_field s d
      cases hl : (s.layoutOf d.typeExpr).1 with
      | error e =>
          rw [hl] at hd
          refine .inr ⟨⟨e, _, run_bind_error hd⟩, _, List.mem_cons_self, ?_⟩
          simp [Sizer.field, hl, Field.isSized, Except.toOption]
      | ok l =>
          rw [hl] at hd
          rcases ih (s.layoutOf d.typeExpr).2 with
            ⟨ls, hls, hhave⟩ | ⟨⟨e, cache, he⟩, f, hf, hsized⟩
          · refine .inl ⟨l :: ls, (run_bind_ok hd).trans (run_bind_ok hls), .cons ?_ hhave⟩
            simp [Sizer.field, hl, Except.toOption]
          · refine .inr ⟨⟨e, cache, (run_bind_ok hd).trans (run_bind_error he)⟩, f, ?_, hsized⟩
            exact List.mem_cons_of_mem _ hf

theorem haveLayouts_of_run {cache : Cache}
    (hrun : (fieldLayouts s.scope decls).run.run s.cache = (.ok ls, cache)) :
    HaveLayouts (sizeFields s decls).1 ls := by
  rcases run_fieldLayouts s decls with ⟨ls', hrun', hhave⟩ | ⟨⟨e, cache', he⟩, -⟩
  · obtain rfl := Except.ok.inj (congrArg Prod.fst (hrun'.symm.trans hrun))
    exact hhave
  · cases he.symm.trans hrun

theorem exists_run_of_isSized (h : ∀ f ∈ (sizeFields s decls).1, f.isSized = true) :
    ∃ ls, (fieldLayouts s.scope decls).run.run s.cache = (.ok ls, (sizeFields s decls).2.cache) := by
  rcases run_fieldLayouts s decls with ⟨ls, hrun, -⟩ | ⟨-, f, hf, hunsized⟩
  · exact ⟨ls, hrun⟩
  · rw [h f hf] at hunsized
    cases hunsized

theorem eq_of_requireFields (h : requireFields limit s decls = .ok s') : s' = (sizeFields s decls).2 := by
  induction decls generalizing s with
  | nil => exact (Except.ok.inj h).symm
  | cons d decls ih =>
      cases hd : s.isTooDeep limit d.typeExpr with
      | true =>
          rw [requireFields, Sizer.fieldWithin, hd] at h
          cases h
      | false =>
          rw [requireFields, Sizer.fieldWithin_eq _ _ _ hd] at h
          exact ih h

/-- A descent into the fields of a struct takes the way of sizing them. -/
theorem mirrors_fields (limit : Nat) (scope : Scope) (decls : List FieldDecl) :
    Mirrors (fieldLayouts scope decls) (fieldDescents limit scope decls)
      (fieldDescents limit scope decls) := by
  refine Mirrors.descendAll fun tree hm => ?_
  obtain ⟨d, -, rfl⟩ := List.mem_map.1 hm
  rw [← Scope.layoutOf_eq, ← Scope.descend_eq]
  exact (Scope.IsAt.parse scope _).mirrors (Nat.le_refl _)

/-- Fields that a descent into their struct goes through are not given up on. -/
theorem requireFields_of_descends {known : List String}
    (h : (fieldDescents limit s.scope decls).run.run (s.cache.map Prod.fst) = (.ok (), known)) :
    requireFields limit s decls = .ok (sizeFields s decls).2 := by
  induction decls generalizing s known with
  | nil => rfl
  | cons d decls ih =>
      let first := (TypeTree.parse d.typeExpr.toList).descend s.scope limit
        (s.scope.descender limit []) partLevels
      rcases hfirst : first.run.run (s.cache.map Prod.fst) with ⟨halt | ⟨⟩, known'⟩
      · cases (run_bind_error hfirst).symm.trans h
      · -- on its own a field starts some levels further up, with the same memory
        let tree := TypeTree.parse d.typeExpr.toList
        have hmirrors : Mirrors (s.scope.layoutOf [] tree) (s.scope.descend limit [] partLevels tree)
            (s.scope.descend limit [] 0 tree) :=
          (Scope.IsAt.parse s.scope d.typeExpr.toList).mirrors (Nat.zero_le partLevels)
        rw [Scope.descend_eq] at hmirrors
        obtain ⟨hdeep, hhigh⟩ := hmirrors s.cache (by rw [hfirst]; simp)
        have hd : s.isTooDeep limit d.typeExpr = false := by
          rw [Sizer.isTooDeep_eq_false_iff, Sizer.descent, hhigh]
          cases ((s.scope.layoutOf [] _).run.run s.cache).1 <;> simp [outline]
        obtain ⟨-, rfl⟩ := Prod.mk.inj (hfirst.symm.trans hdeep)
        rw [requireFields, Sizer.fieldWithin_eq _ _ _ hd]
        exact ih ((run_bind_ok hfirst).symm.trans h)

/-! ### Fields of known types -/

/-- The layouts of the types of fields are remembered. -/
def KnownFields (cache : Cache) (decls : List FieldDecl) (ls : List TypeLayout) : Prop :=
  List.Forall₂ (fun tree l => cache.lookup tree.text = some l) (fieldTrees decls) ls

variable {cache : Cache}

theorem run_layouts_known (resolving : List String) {trees : List TypeTree}
    (h : List.Forall₂ (fun tree l => cache.lookup tree.text = some l) trees ls) :
    (TypeTree.layouts scope (scope.resolver resolving) trees).run.run cache = (.ok ls, cache) := by
  induction h with
  | nil => rfl
  | cons hl _ ih =>
      have hfirst := @Scope.run_layoutOf_known scope _ _ _ resolving hl
      rw [Scope.layoutOf_eq] at hfirst
      exact (run_bind_ok hfirst).trans (run_bind_ok ih)

theorem run_descendAll_known (resolving : List String) {level : Nat} (hd : ¬ limit < level)
    {trees : List TypeTree}
    (h : List.Forall₂ (fun tree l => cache.lookup tree.text = some l) trees ls) :
    (TypeTree.descendAll scope limit (scope.descender limit resolving) level trees).run.run
      (cache.map Prod.fst) = (.ok (), cache.map Prod.fst) := by
  induction h with
  | nil => rfl
  | cons hl _ ih =>
      have hfirst := @run_descend_known scope limit resolving _ _ _ hd (mem_keys_iff.2 ⟨_, hl⟩)
      rw [Scope.descend_eq] at hfirst
      exact (run_bind_ok hfirst).trans ih

theorem requireFields_of_known (h : KnownFields s.cache decls ls) :
    requireFields limit s decls = .ok s := by
  induction decls generalizing ls with
  | nil => rfl
  | cons d decls ih =>
      cases h with
      | @cons _ l _ ls hl hls =>
          have hl : s.cache.lookup (Text.trimmed d.typeExpr) = some l := by
            rwa [TypeTree.text_parse] at hl
          have hd : s.isTooDeep limit d.typeExpr = false := Sizer.isTooDeep_of_known hl
          have hs : (s.field d.name d.typeExpr d.tag d.comment).2 = s := by
            rw [Sizer.field, Sizer.layoutOf_of_known hl]
          rw [requireFields, Sizer.fieldWithin_eq _ _ _ hd, hs]
          exact ih hls

/-- Where the text of a struct is remembered, its layout is made of those of its fields, which are
remembered as well. -/
theorem exists_knownFields (hs : s.IsCoherent) (h : ∀ d ∈ decls, d.IsReadable)
    (hl : s.cache.lookup (structExpr decls) = some l) :
    ∃ ls, KnownFields s.cache decls ls ∧ l = structLayout s.scope.abi ls := by
  have hmade := Coherent.madeOf hs hl
  rw [parse_structExpr h] at hmade
  cases hmade with
  | struct hls => exact ⟨_, hls, rfl⟩

/-- Sizing fields leaves the layouts of their types remembered. -/
theorem knownFields_of_run (hs : s.IsCoherent)
    (hrun : (fieldLayouts s.scope decls).run.run s.cache = (.ok ls, cache)) :
    Coherent s.scope.abi cache ∧ KnownFields cache decls ls := by
  have hbuilds : Builds s.scope.abi [] s.cache (fieldLayouts s.scope decls) fun cache ls =>
      KnownFields cache decls ls := by
    refine Builds.layouts hs fun tree hm cache hc => ?_
    obtain ⟨d, -, rfl⟩ := List.mem_map.1 hm
    rw [← Scope.layoutOf_eq]
    exact (Scope.IsAt.parse s.scope _).builds (List.forall_mem_nil _) hc
  obtain ⟨r, cache', hr, hext, hls⟩ := hbuilds
  obtain ⟨rfl, rfl⟩ := Prod.mk.inj (hr.symm.trans hrun)
  exact ⟨hext.coherent, hls ls rfl⟩

/-! ### Sizing the text of a struct -/

section Texts

variable (h : ∀ d ∈ decls, d.IsReadable) (hp : structExpr decls ∉ s.scope.typeParams)

include h hp

/-- The text of a struct is sized by sizing the types of its fields. -/
theorem layoutOf_parse_structExpr :
    s.scope.layoutOf [] (TypeTree.parse (structExpr decls).toList) =
      remember (structExpr decls)
        (fieldLayouts s.scope decls >>= fun ls => pure (structLayout s.scope.abi ls)) := by
  have hc : s.scope.typeParams.contains (structExpr decls) = false := by simpa using hp
  rw [parse_structExpr h, Scope.layoutOf_eq, TypeTree.layout, unlessParam, hc]
  rfl

theorem descend_parse_structExpr :
    s.scope.descend limit [] 0 (TypeTree.parse (structExpr decls).toList) =
      visit limit 0 (structExpr decls) (fieldDescents limit s.scope decls) := by
  have hc : s.scope.typeParams.contains (structExpr decls) = false := by simpa using hp
  rw [parse_structExpr h, Scope.descend_eq, TypeTree.descend, visitUnlessParam, hc]
  rfl

theorem layoutOf_structExpr (hs : s.IsCoherent)
    (hrun : (fieldLayouts s.scope decls).run.run s.cache = (.ok ls, cache)) :
    (s.layoutOf (structExpr decls)).1 = .ok (structLayout s.scope.abi ls) := by
  rw [Sizer.layoutOf, layoutOf_parse_structExpr h hp]
  cases hk : s.cache.lookup (structExpr decls) with
  | some l =>
      -- remembered from before, maybe with other declarations: so are then the fields
      obtain ⟨ls', hls', rfl⟩ := exists_knownFields hs h hk
      have hknown := hrun.symm.trans (run_layouts_known [] hls')
      obtain rfl := Except.ok.inj (congrArg Prod.fst hknown)
      rw [run_remember_known _ hk]
  | none =>
      have hmade : (fieldLayouts s.scope decls >>= fun ls =>
          (pure (structLayout s.scope.abi ls) : Memo TypeLayout)).run.run s.cache =
            (.ok (structLayout s.scope.abi ls), cache) := run_bind_ok hrun
      rw [run_remember_new hk hmade]

theorem isTooDeep_structExpr {known : List String}
    (hrun : (fieldDescents limit s.scope decls).run.run (s.cache.map Prod.fst) = (.ok (), known)) :
    s.isTooDeep limit (structExpr decls) = false := by
  have hlimit : ¬ limit < 0 := by omega
  rw [Sizer.isTooDeep_eq_false_iff, Sizer.descent, descend_parse_structExpr h hp]
  by_cases hk : structExpr decls ∈ s.cache.map Prod.fst
  · rw [run_visit_known _ hlimit hk]
    simp
  · rw [run_visit_ok hlimit hk hrun]
    simp

theorem fieldDescents_ne_tooDeep (hk : structExpr decls ∉ s.cache.map Prod.fst)
    (hdeep : s.isTooDeep limit (structExpr decls) = false) :
    ((fieldDescents limit s.scope decls).run.run (s.cache.map Prod.fst)).1 ≠ .error .tooDeep := by
  intro htoo
  rw [Sizer.isTooDeep_eq_false_iff, Sizer.descent, descend_parse_structExpr h hp,
    run_visit_error (by omega) hk (Prod.ext htoo rfl)] at hdeep
  exact hdeep rfl

theorem exists_runs_of_layoutWithin (hs : s.IsCoherent)
    (hl : (s.layoutWithin limit (structExpr decls)).1 = .ok l) :
    ∃ ls cache, l = structLayout s.scope.abi ls ∧
      (fieldLayouts s.scope decls).run.run s.cache = (.ok ls, cache) ∧
      ∃ s', requireFields limit s decls = .ok s' := by
  cases hk : s.cache.lookup (structExpr decls) with
  | some l' =>
      rw [← trimmed_structExpr h] at hk
      obtain rfl : l' = l := by simpa [Sizer.layoutWithin_of_known hk] using hl
      rw [trimmed_structExpr h] at hk
      obtain ⟨ls, hls, rfl⟩ := exists_knownFields hs h hk
      exact ⟨ls, s.cache, rfl, run_layouts_known [] hls, s, requireFields_of_known hls⟩
  | none =>
      have hnot : structExpr decls ∉ s.cache.map Prod.fst := notMem_keys_iff.2 hk
      have hshallow := fieldDescents_ne_tooDeep h hp hnot (Sizer.isTooDeep_of_layoutWithin hl)
      obtain ⟨hfollows, -⟩ := mirrors_fields limit s.scope decls s.cache hshallow
      have hfound := (Sizer.layoutOf_of_layoutWithin hl).1
      rcases hrun : (fieldLayouts s.scope decls).run.run s.cache with ⟨e | ls, cache⟩
      · rw [Sizer.layoutOf, layoutOf_parse_structExpr h hp,
          run_remember_error hk (run_bind_error hrun)] at hfound
        cases hfound
      · rw [layoutOf_structExpr h hp hs hrun] at hfound
        unfold Follows at hfollows
        rw [hrun] at hfollows
        exact ⟨ls, cache, (Except.ok.inj hfound).symm, rfl, _, requireFields_of_descends hfollows⟩

/-- Once the types of its fields are known, a struct has the layout that they make, where there is room
for it at all. -/
theorem layoutWithin_of_knownFields (hroom : partLevels ≤ limit) (hs : s.IsCoherent)
    (hk : KnownFields s.cache decls ls) :
    (s.layoutWithin limit (structExpr decls)).1 = .ok (structLayout s.scope.abi ls) := by
  have hdeep : s.isTooDeep limit (structExpr decls) = false :=
    isTooDeep_structExpr h hp (run_descendAll_known [] (by omega) hk)
  have hlayout := layoutOf_structExpr h hp hs (run_layouts_known [] hk)
  exact congrArg Prod.fst (Sizer.layoutWithin_eq hdeep (Prod.ext hlayout rfl))

theorem layoutWithin_ne_tooDeep (hd : ∀ d ∈ decls, ∃ n l,
    n + partLevels ≤ limit ∧ Sized s.scope n (TypeTree.parse d.typeExpr.toList) l) :
    (s.layoutWithin limit (structExpr decls)).1 ≠ .error Sizer.tooDeep := by
  have hdescends : Descends (fieldDescents limit s.scope decls) := by
    refine Descends.descendAll fun tree hm => ?_
    obtain ⟨d, hmem, rfl⟩ := List.mem_map.1 hm
    obtain ⟨n, l, hn, hsized⟩ := hd d hmem
    rw [← Scope.descend_eq]
    exact hsized.descends (by omega) [] (List.forall_mem_nil _)
  obtain ⟨known, hrun⟩ := hdescends (s.cache.map Prod.fst)
  rw [Sizer.layoutWithin_fst, if_neg (by simp [isTooDeep_structExpr h hp hrun])]
  cases (s.layoutOf (structExpr decls)).1 <;> simp [Sizer.tooDeep]

end Texts

/-! ### Both ways agree -/

theorem KnownFields.one_le_align (hc : Coherent abi cache) (h : KnownFields cache decls ls) :
    ∀ l ∈ ls, 1 ≤ l.align := by
  have haligned : ∀ text l, cache.lookup text = some l → 1 ≤ l.align := fun _ _ hl =>
    hc.preserved (P := fun l => 1 ≤ l.align) (fun _ _ _ => one_le_align_of_madeOf) hl
  unfold KnownFields at h
  generalize fieldTrees decls = trees at h
  induction h with
  | nil => exact List.forall_mem_nil _
  | cons hl _ ih => exact List.forall_mem_cons.2 ⟨haligned _ _ hl, ih⟩

theorem laidOut_of_run (hs : s.IsCoherent)
    (hrun : (fieldLayouts s.scope decls).run.run s.cache = (.ok ls, cache)) :
    LaidOut s.scope.abi (sizeFields s decls).1 (structLayout s.scope.abi ls) := by
  obtain ⟨hcoherent, hknown⟩ := knownFields_of_run hs hrun
  exact (haveLayouts_of_run hrun).laidOut (hknown.one_le_align hcoherent)

/-- **A struct is laid out as the type of a field as it is on its own**, whatever was asked and
declared before.  If its text has a layout then its fields are sized and make that layout.  If they are
sized then their layout is that of the text, unless that is given up on; it is not if they have layouts
through a few levels less than the limit, nor after they have been sized, if there is room for a struct
at all. -/
theorem layoutWithin_structExpr (events : List Sizer.Event) (limit : Nat)
    (h : ∀ d ∈ decls, d.IsReadable)
    (hp : structExpr decls ∉ scope.typeParams) :
    let s := (Sizer.ofScope scope).afterEvents events
    let fields := (sizeFields s decls).1
    let found := (s.layoutWithin limit (structExpr decls)).1
    (∀ l, found = .ok l → (∃ s', requireFields limit s decls = .ok s') ∧ LaidOut scope.abi fields l) ∧
    (∀ s', requireFields limit s decls = .ok s' → (∀ f ∈ fields, f.isSized = true) →
      ∃ l, LaidOut scope.abi fields l ∧ (found = .ok l ∨ found = .error Sizer.tooDeep) ∧
        (partLevels ≤ limit → (s'.layoutWithin limit (structExpr decls)).1 = .ok l)) ∧
    ((∀ d ∈ decls, ∃ n l, n + partLevels ≤ limit ∧
      Sized s.scope n (TypeTree.parse d.typeExpr.toList) l) → found ≠ .error Sizer.tooDeep) := by
  intro s fields found
  obtain ⟨hs, habi, hparams⟩ := (Sizer.isCoherent_ofScope scope).afterEvents events
  have habi : s.scope.abi = scope.abi := habi
  have hparams : s.scope.typeParams = scope.typeParams := hparams
  rw [← hparams] at hp
  rw [← habi]
  refine ⟨fun l hl => ?_, fun s' hs' hsized => ?_, fun hd => layoutWithin_ne_tooDeep h hp hd⟩
  · obtain ⟨ls, cache, rfl, hrun, hrequired⟩ := exists_runs_of_layoutWithin h hp hs hl
    exact ⟨hrequired, laidOut_of_run hs hrun⟩
  · obtain rfl := eq_of_requireFields hs'
    obtain ⟨ls, hrun⟩ := exists_run_of_isSized hsized
    obtain ⟨hcoherent, hknown⟩ := knownFields_of_run hs hrun
    refine ⟨structLayout s.scope.abi ls, laidOut_of_run hs hrun, ?_, fun hroom => ?_⟩
    · have hlayout := layoutOf_structExpr h hp hs hrun
      simp only [found, Sizer.layoutWithin_fst, hlayout]
      split
      · exact .inr rfl
      · exact .inl rfl
    · rw [← scope_sizeFields s decls] at hcoherent hp ⊢
      exact layoutWithin_of_knownFields h hp hroom hcoherent hknown

/-- A switch, whose type is declared, and a counter. -/
def switchFields : List FieldDecl :=
  [{ name := "on", typeExpr := "Flag", tag := "", comment := "", line := 1 },
    { name := "count", typeExpr := "int32", tag := "", comment := "", line := 2 }]

theorem isReadable_switchFields : ∀ d ∈ switchFields, d.IsReadable := by
  have hon : "on".toList = (⟨'o', ['n'], rfl, by decide⟩ : Identifier).chars := rfl
  have hflag : "Flag".toList = (⟨'F', ['l', 'a', 'g'], rfl, by decide⟩ : Identifier).chars := rfl
  have hcount : "count".toList = (⟨'c', ['o', 'u', 'n', 't'], rfl, by decide⟩ : Identifier).chars := rfl
  have hint : "int32".toList = (⟨'i', ['n', 't', '3', '2'], rfl, by decide⟩ : Identifier).chars := rfl
  exact List.forall_mem_cons.2 ⟨FieldDecl.isReadable_of_name hon hflag,
    List.forall_mem_singleton.2 (FieldDecl.isReadable_of_name hcount hint)⟩

/-- A package that declares the type of the switch. -/
def switchScope : Scope :=
  { abi := .amd64, localTypes := [("Flag", "bool")], genericTypes := [], typeParams := [] }

theorem sized_switchFields : Sized switchScope 6
    (TypeTree.parse (structExpr switchFields).toList) { size := 8, align := 4 } := by
  have hnot (text : String) : text ∉ switchScope.typeParams := by simp [switchScope]
  have hflag : TypeTree.parse "Flag".toList = .name "Flag" :=
    (TypeTree.parse_bare (show Text.trim _ = "Flag".toList from rfl) (by decide)).trans rfl
  have hbool : TypeTree.parse "bool".toList = .name "bool" :=
    (TypeTree.parse_bare (show Text.trim _ = "bool".toList from rfl) (by decide)).trans rfl
  have hint : TypeTree.parse "int32".toList = .name "int32" :=
    (TypeTree.parse_bare (show Text.trim _ = "int32".toList from rfl) (by decide)).trans rfl
  have hon : Sized switchScope 3 (TypeTree.parse "Flag".toList) { size := 1, align := 1 } := by
    rw [hflag]
    have hunderlying : switchScope.underlying? "Flag" = some "bool" := rfl
    refine .declared (n := 0) (hnot _) rfl (by decide) hunderlying ?_
    rw [hbool]
    exact .fixed (hnot _) rfl
  have hcount : Sized switchScope 3 (TypeTree.parse "int32".toList) { size := 4, align := 4 } := by
    rw [hint]
    exact .fixed (hnot _) rfl
  have hlayout : structLayout switchScope.abi [{ size := 1, align := 1 }, { size := 4, align := 4 }] =
      { size := 8, align := 4 } := by decide
  rw [parse_structExpr isReadable_switchFields, ← hlayout]
  refine .struct (n := 3) (hnot _) rfl ?_
  exact List.forall_mem_cons.2 ⟨hon, List.forall_mem_singleton.2 hcount⟩

/-- A struct that was sized before the type of its field was declared anew keeps its layout, and so do
its fields, also where there is no room for a struct that is not remembered. -/
theorem layoutWithin_structExpr_switch :
    let text := structExpr switchFields
    let s := (Sizer.ofScope switchScope).afterEvents [.ask 6 (.layout text), .declare "Flag" "string"]
    (∀ d ∈ switchFields, d.IsReadable) ∧ text ∉ switchScope.typeParams ∧
      (s.layoutWithin 2 text).1 = .ok { size := 8, align := 4 } ∧
      (∃ s', requireFields 2 s switchFields = .ok s') ∧
      LaidOut .amd64 (sizeFields s switchFields).1 { size := 8, align := 4 } := by
  intro text s
  have hp : text ∉ switchScope.typeParams := by simp [switchScope]
  have hfirst : ((Sizer.ofScope switchScope).layoutWithin 6 text).1 = .ok { size := 8, align := 4 } :=
    Sizer.layoutWithin_of_sized (remembers_nil _) sized_switchFields (by decide)
  have hknown : s.cache.lookup (Text.trimmed text) = some { size := 8, align := 4 } :=
    (Sizer.isCoherent_ofScope switchScope).lookup_layoutWithin hfirst
  have hl : (s.layoutWithin 2 text).1 = .ok { size := 8, align := 4 } :=
    congrArg Prod.fst (Sizer.layoutWithin_of_known hknown)
  obtain ⟨hsized, -, -⟩ := layoutWithin_structExpr
    [.ask 6 (.layout text), .declare "Flag" "string"] 2 isReadable_switchFields hp
  exact ⟨isReadable_switchFields, hp, hl, hsized _ hl⟩

/-! ### Where they differ -/

theorem layoutWithin_of_mem_typeParams (h : ∀ d ∈ decls, d.IsReadable)
    (hp : structExpr decls ∈ scope.typeParams) :
    ((Sizer.ofScope scope).layoutWithin limit (structExpr decls)).1 =
      .error (.error (.indeterminate { typeExpr := structExpr decls, reason := "type parameter" })) := by
  have hc : scope.typeParams.contains (structExpr decls) = true := by simpa using hp
  have hdeep : (Sizer.ofScope scope).isTooDeep limit (structExpr decls) = false := by
    have hvisit : (visit limit 0 (structExpr decls) noLayout).run.run [] = (.error .indeterminate, []) :=
      run_visit_error (by omega) List.not_mem_nil rfl
    rw [Sizer.isTooDeep_eq_false_iff, Sizer.descent, parse_structExpr h, Scope.descend_eq,
      TypeTree.descend, visitUnlessParam]
    simp only [Sizer.ofScope, hc, if_true, List.map_nil, hvisit]
    simp
  have hlayout : ((Sizer.ofScope scope).layoutOf (structExpr decls)).1 =
      .error { typeExpr := structExpr decls, reason := "type parameter" } := by
    have hrefused : (remember (structExpr decls)
        (indeterminate (structExpr decls) "type parameter")).run.run [] =
          (.error { typeExpr := structExpr decls, reason := "type parameter" }, []) :=
      run_remember_error List.lookup_nil rfl
    rw [Sizer.layoutOf, parse_structExpr h, Scope.layoutOf_eq, TypeTree.layout, unlessParam]
    simp only [Sizer.ofScope, hc, if_true, hrefused]
  rw [Sizer.layoutWithin_fst, hdeep, hlayout]
  rfl

/-- A field of an array of one element, as often as a number says, around the type of eight bits. -/
def arrayFields (n : Nat) : List FieldDecl :=
  [{ name := "a", typeExpr := String.ofList (nestedArray n).text, tag := "", comment := "", line := 1 }]

theorem isQuote_nestedArray (n : Nat) : ∀ c ∈ (nestedArray n).text, isQuote c = false := by
  induction n with
  | zero => decide
  | succ n ih =>
      have hopen : ∀ c ∈ ['[', '1', ']'], isQuote c = false := by decide
      exact List.forall_mem_append.2 ⟨hopen, ih⟩

theorem tidied_nestedArray (n : Nat) : (nestedArray n).tidied = nestedArray n := by
  induction n with
  | zero => rfl
  | succ n ih => rw [nestedArray, TypeSyntax.tidied, ih]

theorem isReadable_arrayFields (n : Nat) : ∀ d ∈ arrayFields n, d.IsReadable := by
  have hname : "a".toList = (⟨'a', [], rfl, by decide⟩ : Identifier).chars := rfl
  refine List.forall_mem_singleton.2 (FieldDecl.isReadable_of_isTypeText hname ?_ ?_ ?_)
  all_goals rw [String.toList_ofList]
  · exact (nestedArray n).isTypeText
  · exact isQuote_nestedArray n
  · rw [TypeSyntax.tidy_text, tidied_nestedArray]

theorem sized_arrayFields {n k : Nat}
    (h : Sized scope k (TypeTree.parse (nestedArray n).text) l) (hk : k ≤ limit) :
    (∃ s', requireFields limit (Sizer.ofScope scope) (arrayFields n) = .ok s') ∧
      ∀ f ∈ (sizeFields (Sizer.ofScope scope) (arrayFields n)).1, f.isSized = true := by
  have hnew := Sizer.isSound_ofScope scope
  have h : Sized scope k (TypeTree.parse (String.ofList (nestedArray n).text).toList) l := by
    rwa [String.toList_ofList]
  have hdeep := Sizer.isTooDeep_of_sized (s := Sizer.ofScope scope) h hk
  have hshallow : ∀ d ∈ arrayFields n, (Sizer.ofScope scope).isTooDeep limit d.typeExpr = false :=
    List.forall_mem_singleton.2 hdeep
  obtain ⟨s', hs', -⟩ := requireFields_ok hnew hshallow
  refine ⟨⟨s', hs'⟩, ?_⟩
  have hl : ((Sizer.ofScope (Sizer.ofScope scope).scope).layoutOf
      (String.ofList (nestedArray n).text)).1 = .ok l := Sizer.layoutOf_of_sized hnew.remembers h
  rw [(sizeFields_eq hnew (arrayFields n)).1]
  refine List.forall_mem_singleton.2 ?_
  simp [fieldAlone, Sizer.field, hl, Field.isSized, Except.toOption]

theorem isTooDeep_arrayFields {n : Nat} (hn : limit < partLevels + partLevels * n) :
    plainSizer.isTooDeep limit (structExpr (arrayFields n)) = true := by
  have hfirst : ((TypeTree.parse (String.ofList (nestedArray n).text).toList).descend
      plainSizer.scope limit (plainSizer.scope.descender limit []) partLevels).run.run [] =
        (.error .tooDeep, []) := by
    rw [String.toList_ofList, ← Scope.descend_eq]
    exact descend_nestedArray rfl n hn
  have hfields : (fieldDescents limit plainSizer.scope (arrayFields n)).run.run [] =
      (.error .tooDeep, []) :=
    run_bind_error hfirst
  have hrun : plainSizer.descent limit (structExpr (arrayFields n)) = (.error .tooDeep, []) := by
    rw [Sizer.descent, descend_parse_structExpr (isReadable_arrayFields n) List.not_mem_nil]
    exact run_visit_error (by omega) List.not_mem_nil hfields
  simp only [Sizer.isTooDeep, hrun]

/-- A struct whose fields are sized need not have a layout by its text: the text may be a type
parameter, and under every limit it can be nested too deeply where the types of the fields are not. -/
theorem structExpr_without_layout :
    let guarded : Scope := { plainSizer.scope with typeParams := ["struct\x7ba int8\x7d"] }
    let s := Sizer.ofScope guarded
    (structExpr (arrayFields 0) = "struct\x7ba int8\x7d" ∧ (∀ d ∈ arrayFields 0, d.IsReadable) ∧
      (∀ f ∈ (sizeFields s (arrayFields 0)).1, f.isSized = true) ∧
      ∀ limit, (∃ s', requireFields limit s (arrayFields 0) = .ok s') ∧
        (s.layoutWithin limit (structExpr (arrayFields 0))).1 = .error (.error (.indeterminate
          { typeExpr := structExpr (arrayFields 0), reason := "type parameter" }))) ∧
    ∀ limit, let n := limit / partLevels
      (∀ d ∈ arrayFields n, d.IsReadable) ∧
        (∃ s', requireFields limit plainSizer (arrayFields n) = .ok s') ∧
        (∀ f ∈ (sizeFields plainSizer (arrayFields n)).1, f.isSized = true) ∧
        (plainSizer.layoutWithin limit (structExpr (arrayFields n))).1 = .error Sizer.tooDeep := by
  intro guarded s
  have htext : structExpr (arrayFields 0) = "struct\x7ba int8\x7d" := by decide
  have hint : Sized guarded 0 (TypeTree.parse (nestedArray 0).text) { size := 1, align := 1 } := by
    rw [nestedArray, TypeSyntax.text, TypeSyntax.parse_predeclared]
    exact .fixed (by decide) rfl
  refine ⟨⟨htext, isReadable_arrayFields 0, ?_, fun limit => ⟨?_, ?_⟩⟩, fun limit => ?_⟩
  · exact (sized_arrayFields hint (Nat.le_refl 0)).2
  · exact (sized_arrayFields hint (Nat.zero_le limit)).1
  · exact layoutWithin_of_mem_typeParams (isReadable_arrayFields 0) (by simp [guarded, htext])
  · intro n
    have hroom : partLevels * n ≤ limit := Nat.mul_div_le limit partLevels
    have hdeep : limit < partLevels + partLevels * n := by
      have := Nat.lt_mul_div_succ limit (show 0 < partLevels by decide)
      rwa [Nat.mul_succ, Nat.add_comm] at this
    have harrays := sized_nestedArray n
    rw [String.toList_ofList] at harrays
    obtain ⟨hrequired, hsized⟩ := sized_arrayFields harrays hroom
    refine ⟨isReadable_arrayFields n, hrequired, hsized, ?_⟩
    rw [Sizer.layoutWithin_fst, if_pos (isTooDeep_arrayFields hdeep)]

end StructLayout.Analysis
