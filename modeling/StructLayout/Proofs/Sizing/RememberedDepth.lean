import StructLayout.Proofs.Sizing.Settling

/-!
# What is remembered is no hindrance

A layout is remembered after those of the parts of its type, so what is remembered includes the parts
of all that is remembered (`Scope.IsAt.fills`).  A descent that remembers such texts beforehand skips
some types, and of the types that it skips the other descent would have found all parts among those
texts (`IsClosed.mild`).

The main statement is `IsClosed.spares`: a descent that is not given up on without memory comes to the
same end with it.
-/

namespace StructLayout.Sizing

open Source Relation

variable {scope : Scope} {tree : TypeTree} {α β : Type} {texts : List String} {limit : Nat}

/-! ### Parts are remembered first -/

theorem mem_keys_iff {cache : Cache} {text : String} :
    text ∈ cache.map Prod.fst ↔ ∃ l, cache.lookup text = some l := by
  rw [← Option.isSome_iff_exists, List.lookup_isSome_iff]
  simp

theorem notMem_keys_iff {cache : Cache} {text : String} :
    text ∉ cache.map Prod.fst ↔ cache.lookup text = none := by
  rw [mem_keys_iff, Option.eq_none_iff_forall_ne_some, not_exists]

/-- With each type its parts are among some texts. -/
def HoldsParts (scope : Scope) (texts : List String) : Prop :=
  ∀ text ∈ texts, ∀ part, Part scope (TypeTree.parse text.toList) part → part.text ∈ texts

/-- A computation keeps what is remembered, with the parts of each type, and when it gives a result
some texts are remembered. -/
def Fills (scope : Scope) (m : Memo α) (filled : String → Prop) : Prop :=
  ∀ cache, HoldsParts scope (cache.map Prod.fst) →
    ∃ r cache', m.run.run cache = (r, cache') ∧ HoldsParts scope (cache'.map Prod.fst) ∧
      cache.map Prod.fst ⊆ cache'.map Prod.fst ∧
      ∀ a, r = .ok a → ∀ text, filled text → text ∈ cache'.map Prod.fst

namespace Fills

variable {filled : String → Prop} {m : Memo α}

theorem mono {more : String → Prop} (hm : Fills scope m filled)
    (h : ∀ text, more text → filled text) : Fills scope m more := by
  intro cache hc
  obtain ⟨r, cache', hr, hc', hsub, hf⟩ := hm cache hc
  exact ⟨r, cache', hr, hc', hsub, fun a ha text ht => hf a ha text (h text ht)⟩

theorem pure (scope : Scope) (a : α) (h : ∀ text, ¬ filled text) :
    Fills scope (pure a : Memo α) filled :=
  fun cache hc => ⟨.ok a, cache, rfl, hc, List.Subset.refl _, fun _ _ text ht => absurd ht (h text)⟩

theorem indeterminate (scope : Scope) (typeExpr reason : String) :
    Fills scope (indeterminate typeExpr reason : Memo α) filled :=
  fun cache hc => ⟨_, cache, rfl, hc, List.Subset.refl _, fun _ h => by cases h⟩

theorem bind {f : α → Memo β} {more : String → Prop} (hm : Fills scope m filled)
    (hf : ∀ a, Fills scope (f a) more) :
    Fills scope (m >>= f) fun text => filled text ∨ more text := by
  intro cache hc
  obtain ⟨r, cache₁, h₁, hc₁, hsub₁, hr₁⟩ := hm cache hc
  cases r with
  | error e =>
      exact ⟨.error e, cache₁, run_bind_error h₁, hc₁, hsub₁, fun _ h => by cases h⟩
  | ok a =>
      obtain ⟨r, cache₂, h₂, hc₂, hsub₂, hr₂⟩ := hf a cache₁ hc₁
      refine ⟨r, cache₂, (run_bind_ok h₁).trans h₂, hc₂, List.Subset.trans hsub₁ hsub₂,
        fun b hb text ht => ?_⟩
      rcases ht with ht | ht
      · exact hsub₂ (hr₁ a rfl text ht)
      · exact hr₂ b hb text ht

/-- A type is remembered once its parts are. -/
theorem remember {text : String} {m : Memo TypeLayout} (ht : TypeTree.parse text.toList = tree)
    (hm : Fills scope m fun t => ∃ part, Part scope tree part ∧ part.text = t) :
    Fills scope (remember text m) (· = text) := by
  intro cache hc
  cases hl : cache.lookup text with
  | some l =>
      refine ⟨.ok l, cache, run_remember_known m hl, hc, List.Subset.refl _, ?_⟩
      rintro _ _ _ rfl
      exact mem_keys_iff.2 ⟨l, hl⟩
  | none =>
      obtain ⟨r, cache', hr, hc', hsub, hf⟩ := hm cache hc
      cases r with
      | error e => exact ⟨.error e, cache', run_remember_error hl hr, hc', hsub, fun _ h => by cases h⟩
      | ok l =>
          refine ⟨.ok l, (text, l) :: cache', run_remember_new hl hr, ?_, ?_, ?_⟩
          · intro text' hm part hpart
            rw [List.map_cons] at hm ⊢
            rcases List.mem_cons.1 hm with rfl | hm
            · rw [ht] at hpart
              exact List.mem_cons_of_mem _ (hf l rfl _ ⟨part, hpart, rfl⟩)
            · exact List.mem_cons_of_mem _ (hc' text' hm part hpart)
          · exact List.Subset.trans hsub (List.subset_cons_self _ _)
          · rintro _ _ _ rfl
            simp

theorem unlessParam {text : String} {m : Memo TypeLayout} (ht : TypeTree.parse text.toList = tree)
    (hm : text ∉ scope.typeParams →
      Fills scope m fun t => ∃ part, Part scope tree part ∧ part.text = t) :
    Fills scope (unlessParam scope text m) (· = text) := by
  refine Fills.remember ht ?_
  split
  · exact Fills.indeterminate scope text "type parameter"
  · next hp => exact hm (by simpa using hp)

theorem layouts {resolve : String → Memo TypeLayout} {fields : List TypeTree}
    (h : ∀ field ∈ fields, Fills scope (field.layout scope resolve) (· = field.text)) :
    Fills scope (TypeTree.layouts scope resolve fields) fun text =>
      ∃ field ∈ fields, field.text = text := by
  induction fields with
  | nil => exact Fills.pure scope [] (by simp)
  | cons field fields ih =>
      obtain ⟨hfield, hfields⟩ := List.forall_mem_cons.1 h
      refine (hfield.bind fun l => (ih hfields).bind fun ls =>
        Fills.pure scope (l :: ls) fun _ h => h).mono ?_
      rintro _ ⟨f, hf, rfl⟩
      rcases List.mem_cons.1 hf with rfl | hf
      · exact .inl rfl
      · exact .inr (.inl ⟨f, hf, rfl⟩)

end Fills

theorem Scope.IsAt.fills_name {resolving : List String} {text : String}
    (ih : ∀ part, Part scope (.name text) part → text ∉ resolving →
      Fills scope (scope.layoutOf (text :: resolving) part) (· = part.text))
    (hp : text ∉ scope.typeParams) :
    Fills scope (nameLayout scope (scope.resolver resolving) text) fun t =>
      ∃ part, Part scope (.name text) part ∧ part.text = t := by
  unfold nameLayout
  cases hf : fixedLayout? scope.abi text with
  | some l =>
      refine Fills.pure scope l ?_
      rintro _ ⟨_, hpart, -⟩
      cases hpart with
      | declared _ hf' => exact absurd (hf.symm.trans hf') (Option.some_ne_none l)
  | none =>
      dsimp only
      split
      · next hb =>
        split
        · refine Fills.pure scope _ ?_
          rintro _ ⟨_, hpart, -⟩
          cases hpart with
          | declared _ _ hb' => exact hb' (List.contains_iff_mem.1 hb)
        · exact Fills.indeterminate scope _ _
      · next hb =>
        rw [List.contains_iff_mem] at hb
        unfold Scope.resolver
        cases hu : scope.underlying? text with
        | none => exact Fills.indeterminate scope _ _
        | some t =>
            dsimp only
            split
            · exact Fills.indeterminate scope _ _
            · next hr =>
              refine (ih _ (.declared hp hf hb hu) hr).mono ?_
              rintro _ ⟨_, hpart, rfl⟩
              cases hpart with
              | declared _ _ _ hu' =>
                  obtain rfl := Option.some.inj (hu.symm.trans hu')
                  rfl

/-- Sizing remembers types after their parts. -/
theorem Scope.IsAt.fills {resolving : List String} (h : scope.IsAt resolving tree) :
    Fills scope (scope.layoutOf resolving tree) (· = tree.text) := by
  refine Scope.IsAt.induction (motive := fun resolving tree =>
    Fills scope (scope.layoutOf resolving tree) (· = tree.text)) ?_ h
  clear h
  intro resolving tree h ih
  have ht := h.parse_text
  rw [Scope.layoutOf_eq]
  cases tree with
  | empty => exact Fills.remember ht (Fills.indeterminate scope _ _)
  | group text inner =>
      have hin := ih inner .group (by simp)
      rw [Scope.layoutOf_eq] at hin
      refine Fills.remember ht (hin.mono ?_)
      rintro _ ⟨_, ⟨⟩, rfl⟩
      rfl
  | name text =>
      refine Fills.unlessParam ht fun hp => Scope.IsAt.fills_name ?_ hp
      exact fun part hpart hr => ih part hpart fun name hm he => hr (by cases he; exact hm)
  | word text =>
      exact Fills.unlessParam ht fun _ => Fills.pure scope _ (by rintro _ ⟨_, ⟨⟩, -⟩)
  | slice text =>
      exact Fills.unlessParam ht fun _ => Fills.pure scope _ (by rintro _ ⟨_, ⟨⟩, -⟩)
  | interface text =>
      exact Fills.unlessParam ht fun _ => Fills.pure scope _ (by rintro _ ⟨_, ⟨⟩, -⟩)
  | malformed text reason => exact Fills.unlessParam ht fun _ => Fills.indeterminate scope _ _
  | array text length element =>
      refine Fills.unlessParam ht fun hp => ?_
      have hin := ih element (.element hp) (by simp)
      rw [Scope.layoutOf_eq] at hin
      refine (hin.bind fun l => Fills.pure scope (arrayLayout length l) fun _ h => h).mono ?_
      rintro _ ⟨_, ⟨⟩, rfl⟩
      exact .inl rfl
  | struct text fields =>
      refine Fills.unlessParam ht fun hp => ?_
      have hin : Fills scope (TypeTree.layouts scope (scope.resolver resolving) fields) fun t =>
          ∃ field ∈ fields, field.text = t := by
        refine Fills.layouts fun field hm => ?_
        have hf := ih field (.field hp hm) (by simp)
        rw [Scope.layoutOf_eq] at hf
        exact hf
      refine (hin.bind fun ls => Fills.pure scope (structLayout scope.abi ls) fun _ h => h).mono ?_
      rintro _ ⟨_, ⟨⟩, rfl⟩
      exact .inl ⟨_, ‹_›, rfl⟩

/-! ### Descents -/

/-- Each of some texts has a layout, and with each of them its parts are among the texts. -/
structure IsClosed (scope : Scope) (texts : List String) : Prop where
  sized : ∀ text ∈ texts, ∃ n l, Sized scope n (TypeTree.parse text.toList) l
  holdsParts : HoldsParts scope texts

/-- A descent finds a layout unless the type is nested too deeply, and goes through some texts only. -/
def Mild (texts : List String) (d : Descent Unit) : Prop :=
  ∀ known, ∃ r known', d.run.run known = (r, known') ∧ r ≠ .error .indeterminate ∧
    known ⊆ known' ∧ known' ⊆ known ++ texts

namespace Mild

variable {d e : Descent Unit}

theorem pure (texts : List String) : Mild texts (pure ()) :=
  fun known => ⟨.ok (), known, rfl, by simp, List.Subset.refl _, List.subset_append_left _ _⟩

theorem bind (hd : Mild texts d) (he : Mild texts e) : Mild texts (d >>= fun _ => e) := by
  intro known
  obtain ⟨r, known₁, h₁, hne, hkeep, hsub⟩ := hd known
  cases r with
  | error halt =>
      exact ⟨.error halt, known₁, run_bind_error h₁, by simpa using hne, hkeep, hsub⟩
  | ok _ =>
      obtain ⟨r, known₂, h₂, hne₂, hkeep₂, hsub₂⟩ := he known₁
      refine ⟨r, known₂, (run_bind_ok h₁).trans h₂, hne₂, List.Subset.trans hkeep hkeep₂,
        List.Subset.trans hsub₂ ?_⟩
      exact List.append_subset.2 ⟨hsub, List.subset_append_right _ _⟩

theorem visit {text : String} (level : Nat) (ht : text ∈ texts) (hd : Mild texts d) :
    Mild texts (visit limit level text d) := by
  intro known
  have hself : known ⊆ known ++ texts := List.subset_append_left _ _
  by_cases hl : limit < level
  · exact ⟨_, known, run_visit_tooDeep d hl, by simp, List.Subset.refl _, hself⟩
  by_cases hk : text ∈ known
  · exact ⟨_, known, run_visit_known d hl hk, by simp, List.Subset.refl _, hself⟩
  obtain ⟨r, known', hr, hne, hkeep, hsub⟩ := hd known
  cases r with
  | error halt =>
      exact ⟨.error halt, known', run_visit_error hl hk hr, by simpa using hne, hkeep, hsub⟩
  | ok _ =>
      refine ⟨.ok (), text :: known', run_visit_ok hl hk hr, by simp,
        List.Subset.trans hkeep (List.subset_cons_self _ _), ?_⟩
      exact List.cons_subset.2 ⟨List.mem_append_right _ ht, hsub⟩

theorem visitUnlessParam {text : String} (level : Nat) (ht : text ∈ texts)
    (hp : text ∉ scope.typeParams) (hd : Mild texts d) :
    Mild texts (visitUnlessParam scope limit level text d) := by
  unfold Sizing.visitUnlessParam
  rw [if_neg (by simpa using hp)]
  exact Mild.visit level ht hd

theorem descendAll {resolve : Nat → String → Descent Unit} {level : Nat} {fields : List TypeTree}
    (h : ∀ field ∈ fields, Mild texts (field.descend scope limit resolve level)) :
    Mild texts (TypeTree.descendAll scope limit resolve level fields) := by
  induction fields with
  | nil => exact Mild.pure texts
  | cons field fields ih =>
      obtain ⟨hfield, hfields⟩ := List.forall_mem_cons.1 h
      exact hfield.bind (ih hfields)

end Mild

theorem IsClosed.mild (hc : IsClosed scope texts) {resolving : List String}
    (h : scope.IsAt resolving tree) (ht : tree.text ∈ texts) (level : Nat) :
    Mild texts (scope.descend limit resolving level tree) := by
  refine Scope.IsAt.induction (motive := fun resolving tree => tree.text ∈ texts → ∀ level,
    Mild texts (scope.descend limit resolving level tree)) ?_ h ht level
  clear h ht level
  intro resolving tree h ih ht level
  have hparts := hc.holdsParts tree.text ht
  obtain ⟨n, l, hs⟩ := hc.sized tree.text ht
  rw [h.parse_text] at hparts hs
  rw [Scope.descend_eq]
  have hs' := hs
  cases hs with
  | @group _ text inner _ _ =>
      have hin := ih inner .group (by simp) (hparts inner .group) (level + groupLevels)
      rw [Scope.descend_eq] at hin
      exact Mild.visit level ht hin
  | fixed hp hf =>
      refine Mild.visitUnlessParam level ht hp ?_
      simp only [descendName, hf, Option.isSome_some, if_true]
      exact Mild.pure texts
  | instantiated hp hf hb hg =>
      refine Mild.visitUnlessParam level ht hp ?_
      simp only [descendName, hf, Option.isSome_none, Bool.false_eq_true, if_false,
        List.contains_iff_mem.2 hb, List.contains_iff_mem.2 hg, if_true]
      exact Mild.pure texts
  | @declared _ text underlying _ hp hf hb hu _ =>
      refine Mild.visitUnlessParam level ht hp ?_
      have hpart : Part scope (.name text) _ := .declared hp hf hb hu
      have hr : text ∉ resolving := fun hm => not_sized_of_transGen (h.reached text hm) hs'
      rw [descendName_eq_resolve hf hb, Scope.descender_underlying hu hr]
      exact ih _ hpart (fun name hm he => hr (by cases he; exact hm)) (hparts _ hpart) _
  | word hp => exact Mild.visitUnlessParam level ht hp (Mild.pure texts)
  | slice hp => exact Mild.visitUnlessParam level ht hp (Mild.pure texts)
  | interface hp => exact Mild.visitUnlessParam level ht hp (Mild.pure texts)
  | @array _ text length element _ hp _ =>
      have hin := ih element (.element hp) (by simp) (hparts _ (.element hp)) (level + partLevels)
      rw [Scope.descend_eq] at hin
      exact Mild.visitUnlessParam level ht hp hin
  | @struct _ text fields _ hp _ _ =>
      refine Mild.visitUnlessParam level ht hp (Mild.descendAll fun field hm => ?_)
      have hin := ih field (.field hp hm) (by simp) (hparts _ (.field hp hm)) (level + partLevels)
      rw [Scope.descend_eq] at hin
      exact hin

/-- Where a descent is not given up on, remembering some texts beforehand makes no difference to its
end, nor to what is remembered but for these texts. -/
def Spares (texts : List String) (d : Descent Unit) : Prop :=
  ∀ known more r known', (∀ text, text ∈ more ↔ text ∈ known ++ texts) →
    d.run.run known = (r, known') → r ≠ .error .tooDeep →
    ∃ more', d.run.run more = (r, more') ∧ ∀ text, text ∈ more' ↔ text ∈ known' ++ texts

namespace Spares

variable {d e : Descent Unit}

theorem pure (texts : List String) : Spares texts (pure ()) := by
  intro known more r known' hm hr _
  cases hr
  exact ⟨more, rfl, hm⟩

theorem noLayout (texts : List String) : Spares texts noLayout := by
  intro known more r known' hm hr _
  cases hr
  exact ⟨more, rfl, hm⟩

theorem bind (hd : Spares texts d) (he : Spares texts e) : Spares texts (d >>= fun _ => e) := by
  intro known more r known' hm hr hne
  rcases h₁ : d.run.run known with ⟨halt | _, known₁⟩
  · obtain ⟨rfl, rfl⟩ := Prod.mk.inj ((run_bind_error h₁).symm.trans hr)
    obtain ⟨more₁, hm₁, hmem₁⟩ := hd known more _ _ hm h₁ (by simpa using hne)
    exact ⟨more₁, run_bind_error hm₁, hmem₁⟩
  · obtain ⟨more₁, hm₁, hmem₁⟩ := hd known more _ _ hm h₁ (by simp)
    obtain ⟨more₂, hm₂, hmem₂⟩ :=
      he known₁ more₁ r known' hmem₁ ((run_bind_ok h₁).symm.trans hr) hne
    exact ⟨more₂, (run_bind_ok hm₁).trans hm₂, hmem₂⟩

/-- What is skipped for being one of the texts is gone through mildly otherwise. -/
theorem visit {text : String} {level : Nat} (hd : Spares texts d)
    (hmild : text ∈ texts → Mild texts (visit limit level text d)) :
    Spares texts (visit limit level text d) := by
  intro known more r known' hm hr hne
  by_cases hl : limit < level
  · rw [run_visit_tooDeep d hl] at hr
    cases hr
    exact absurd rfl hne
  by_cases hk : text ∈ known
  · rw [run_visit_known d hl hk] at hr
    cases hr
    exact ⟨more, run_visit_known d hl ((hm text).2 (List.mem_append_left _ hk)), hm⟩
  by_cases ht : text ∈ texts
  · obtain ⟨r', known₁, h₁, hne₁, hkeep, hsub⟩ := hmild ht known
    obtain ⟨rfl, rfl⟩ := Prod.mk.inj (h₁.symm.trans hr)
    have hok : r' = .ok () := by
      rcases r' with halt | _
      · cases halt
        · exact absurd rfl hne₁
        · exact absurd rfl hne
      · rfl
    refine ⟨more, ?_, fun text' => (hm text').trans ?_⟩
    · rw [hok]
      exact run_visit_known d hl ((hm text).2 (List.mem_append_right _ ht))
    · have hright : texts ⊆ known ++ texts := List.subset_append_right _ _
      exact ⟨fun h => List.append_subset.2 ⟨List.subset_append_of_subset_left _ hkeep,
        List.subset_append_right _ _⟩ h, fun h => List.append_subset.2 ⟨hsub, hright⟩ h⟩
  · have hk' : text ∉ more := fun h => (List.mem_append.1 ((hm text).1 h)).elim hk ht
    rcases h₁ : d.run.run known with ⟨halt | _, known₁⟩
    · obtain ⟨rfl, rfl⟩ := Prod.mk.inj ((run_visit_error hl hk h₁).symm.trans hr)
      obtain ⟨more₁, hm₁, hmem₁⟩ := hd known more _ _ hm h₁ (by simpa using hne)
      exact ⟨more₁, run_visit_error hl hk' hm₁, hmem₁⟩
    · obtain ⟨rfl, rfl⟩ := Prod.mk.inj ((run_visit_ok hl hk h₁).symm.trans hr)
      obtain ⟨more₁, hm₁, hmem₁⟩ := hd known more _ _ hm h₁ (by simp)
      exact ⟨text :: more₁, run_visit_ok hl hk' hm₁, by simp [hmem₁]⟩

theorem visitUnlessParam {text : String} {level : Nat}
    (hd : text ∉ scope.typeParams → Spares texts d)
    (hmild : text ∈ texts → Mild texts (visitUnlessParam scope limit level text d)) :
    Spares texts (visitUnlessParam scope limit level text d) := by
  refine Spares.visit ?_ hmild
  split
  · exact Spares.noLayout texts
  · next hp => exact hd (by simpa using hp)

theorem descendAll {resolve : Nat → String → Descent Unit} {level : Nat} {fields : List TypeTree}
    (h : ∀ field ∈ fields, Spares texts (field.descend scope limit resolve level)) :
    Spares texts (TypeTree.descendAll scope limit resolve level fields) := by
  induction fields with
  | nil => exact Spares.pure texts
  | cons field fields ih =>
      obtain ⟨hfield, hfields⟩ := List.forall_mem_cons.1 h
      exact hfield.bind (ih hfields)

end Spares

theorem Scope.IsAt.spares_name {resolving : List String} {level : Nat} {text : String}
    (ih : ∀ part, Part scope (.name text) part → text ∉ resolving →
      Spares texts (scope.descend limit (text :: resolving) (level + partLevels) part))
    (hp : text ∉ scope.typeParams) :
    Spares texts (descendName scope (scope.descender limit resolving level) text) := by
  unfold descendName
  cases hf : fixedLayout? scope.abi text with
  | some l => exact Spares.pure texts
  | none =>
      simp only [Option.isSome_none, Bool.false_eq_true, if_false]
      split
      · split
        · exact Spares.pure texts
        · exact Spares.noLayout texts
      · next hb =>
        rw [List.contains_iff_mem] at hb
        unfold Scope.descender
        cases hu : scope.underlying? text with
        | none => exact Spares.noLayout texts
        | some t =>
            dsimp only
            split
            · exact Spares.noLayout texts
            · next hr => exact ih _ (.declared hp hf hb hu) hr

/-- Remembering texts with all their parts does no harm to a descent: what is not given up on without
them comes to the same end with them. -/
theorem IsClosed.spares (hc : IsClosed scope texts) {resolving : List String}
    (h : scope.IsAt resolving tree) (level : Nat) :
    Spares texts (scope.descend limit resolving level tree) := by
  refine Scope.IsAt.induction (motive := fun resolving tree => ∀ level,
    Spares texts (scope.descend limit resolving level tree)) ?_ h level
  clear h level
  intro resolving tree h ih level
  have hmild : tree.text ∈ texts → Mild texts (scope.descend limit resolving level tree) :=
    fun ht => hc.mild h ht level
  rw [Scope.descend_eq] at hmild ⊢
  cases tree with
  | empty => exact Spares.visit (Spares.noLayout texts) hmild
  | group text inner =>
      have hin := ih inner .group (by simp) (level + groupLevels)
      rw [Scope.descend_eq] at hin
      exact Spares.visit hin hmild
  | name text =>
      refine Spares.visitUnlessParam (fun hp => Scope.IsAt.spares_name ?_ hp) hmild
      exact fun part hpart hr => ih part hpart (fun name hm he => hr (by cases he; exact hm)) _
  | word text => exact Spares.visitUnlessParam (fun _ => Spares.pure texts) hmild
  | slice text => exact Spares.visitUnlessParam (fun _ => Spares.pure texts) hmild
  | interface text => exact Spares.visitUnlessParam (fun _ => Spares.pure texts) hmild
  | malformed text reason => exact Spares.visitUnlessParam (fun _ => Spares.noLayout texts) hmild
  | array text length element =>
      refine Spares.visitUnlessParam (fun hp => ?_) hmild
      have hin := ih element (.element hp) (by simp) (level + partLevels)
      rw [Scope.descend_eq] at hin
      exact hin
  | struct text fields =>
      refine Spares.visitUnlessParam (fun hp => Spares.descendAll fun field hm => ?_) hmild
      have hin := ih field (.field hp hm) (by simp) (level + partLevels)
      rw [Scope.descend_eq] at hin
      exact hin

end StructLayout.Sizing
