import Mathlib.Data.List.Forall2
import StructLayout.Proofs.Sizing.History

/-!
# How remembered layouts hang together

Whatever a sizer was asked, and whatever was declared in between, each layout that it remembers is made
of layouts that it remembers (`Coherent`): that of a struct of those of its fields, that of an array of
that of its elements.  A name may have been declared anew since it was sized, and then keeps the
layout that it had; so of names the rules of making (`MadeOf`) say little.

The step is `Scope.IsAt.builds`, by induction along the way of sizing: sizing keeps what is remembered,
adds what is made of it, and leaves out the names being resolved.  The main statement is
`Sizer.IsCoherent.afterEvents`, for all that happens to a sizer.  What the rules of making preserve holds
of every layout that is found (`Sizer.IsCoherent.preserved`).
-/

namespace StructLayout.Sizing

open Source Relation

variable {abi : Abi} {scope : Scope} {tree : TypeTree} {l l' : TypeLayout} {α β : Type}
  {cache cache' cache'' : Cache} {text : String}

/-! ### Made of known layouts -/

/-- A layout is made of known ones by the sizing rules.  Of a name that stands for another type it is
only said that its layout is known for some type. -/
inductive MadeOf (abi : Abi) (known : String → Option TypeLayout) : TypeTree → TypeLayout → Prop
  | group {text : String} {inner : TypeTree} {l : TypeLayout} :
      known inner.text = some l → MadeOf abi known (.group text inner) l
  | fixed {text : String} {l : TypeLayout} :
      fixedLayout? abi text = some l → MadeOf abi known (.name text) l
  | instantiated {text : String} : MadeOf abi known (.name text) (wordLayout abi)
  | declared {text underlying : String} {l : TypeLayout} :
      known underlying = some l → MadeOf abi known (.name text) l
  | word {text : String} : MadeOf abi known (.word text) (wordLayout abi)
  | slice {text : String} : MadeOf abi known (.slice text) (wordsLayout abi 3)
  | interface {text : String} : MadeOf abi known (.interface text) (wordsLayout abi 2)
  | array {text : String} {length : Int} {element : TypeTree} {l : TypeLayout} :
      known element.text = some l →
      MadeOf abi known (.array text length element) (arrayLayout length l)
  | struct {text : String} {fields : List TypeTree} {ls : List TypeLayout} :
      List.Forall₂ (fun field l => known field.text = some l) fields ls →
      MadeOf abi known (.struct text fields) (structLayout abi ls)

namespace MadeOf

variable {known more : String → Option TypeLayout}

theorem mono (h : MadeOf abi known tree l)
    (hm : ∀ text l, known text = some l → more text = some l) : MadeOf abi more tree l := by
  cases h with
  | group h => exact .group (hm _ _ h)
  | fixed h => exact .fixed h
  | instantiated => exact .instantiated
  | declared h => exact .declared (hm _ _ h)
  | word => exact .word
  | slice => exact .slice
  | interface => exact .interface
  | array h => exact .array (hm _ _ h)
  | struct h => exact .struct (h.imp fun _ _ => hm _ _)

/-- Except for a name, known layouts make one layout. -/
theorem unique (h : MadeOf abi known tree l) (h' : MadeOf abi known tree l')
    (hn : ∀ text, tree ≠ .name text) : l = l' := by
  cases h with
  | group h => cases h' with | group h' => exact Option.some.inj (h.symm.trans h')
  | fixed => exact absurd rfl (hn _)
  | instantiated => exact absurd rfl (hn _)
  | declared => exact absurd rfl (hn _)
  | word => cases h'; rfl
  | slice => cases h'; rfl
  | interface => cases h'; rfl
  | array h => cases h' with | array h' => rw [Option.some.inj (h.symm.trans h')]
  | struct h =>
      cases h' with
      | struct h' =>
          have honly : Relator.RightUnique fun (field : TypeTree) l => known field.text = some l :=
            fun _ _ _ h h' => Option.some.inj (h.symm.trans h')
          rw [List.right_unique_forall₂' honly h h']

end MadeOf

/-- Each layout is made of those remembered before it, and a text that is remembered again has the same
layout again. -/
inductive Coherent (abi : Abi) : Cache → Prop
  | nil : Coherent abi []
  | cons {text : String} {l : TypeLayout} {cache : Cache} :
      Coherent abi cache → (∀ l', cache.lookup text = some l' → l' = l) →
      MadeOf abi (fun key => cache.lookup key) (TypeTree.parse text.toList) l → Coherent abi ((text, l) :: cache)

theorem lookup_cons_of_lookup (h : ∀ l', cache.lookup text = some l' → l' = l) {key : String}
    (hk : cache.lookup key = some l') : List.lookup key ((text, l) :: cache) = some l' := by
  rw [List.lookup_cons]
  split
  · next heq =>
      obtain rfl := eq_of_beq heq
      rw [h l' hk]
  · exact hk

namespace Coherent

/-- Each layout that is remembered is made of remembered ones. -/
theorem madeOf (hc : Coherent abi cache) (h : cache.lookup text = some l) :
    MadeOf abi (fun key => cache.lookup key) (TypeTree.parse text.toList) l := by
  induction hc with
  | nil => cases h
  | @cons text' l' cache hc hu hm ih =>
      have hkeep : ∀ key l, cache.lookup key = some l →
          List.lookup key ((text', l') :: cache) = some l := fun _ _ => lookup_cons_of_lookup hu
      rw [List.lookup_cons] at h
      split at h
      · next heq =>
          obtain rfl := eq_of_beq heq
          obtain rfl := Option.some.inj h
          exact hm.mono hkeep
      · exact (ih h).mono hkeep

/-- What the rules of making preserve holds of all that is remembered. -/
theorem preserved {P : TypeLayout → Prop}
    (hP : ∀ known tree l, (∀ text l, known text = some l → P l) → MadeOf abi known tree l → P l)
    (hc : Coherent abi cache) (h : cache.lookup text = some l) : P l := by
  induction hc generalizing text l with
  | nil => cases h
  | cons _ _ hm ih =>
      rw [List.lookup_cons] at h
      split at h
      · obtain rfl := Option.some.inj h
        exact hP _ _ _ (fun _ _ hl => ih hl) hm
      · exact ih h

end Coherent

/-! ### Computations that build on what is remembered -/

/-- From one memory to a later one: what is remembered stays, what is new fits in, and some names are
left out. -/
structure Extends (abi : Abi) (names : List String) (cache cache' : Cache) : Prop where
  coherent : Coherent abi cache'
  keeps : ∀ text l, cache.lookup text = some l → cache'.lookup text = some l
  leaves : ∀ name ∈ names, cache.lookup name = none → cache'.lookup name = none

theorem Extends.refl (h : Coherent abi cache) (names : List String) :
    Extends abi names cache cache := ⟨h, fun _ _ h => h, fun _ _ h => h⟩

theorem Extends.trans {names : List String} (h : Extends abi names cache cache')
    (h' : Extends abi names cache' cache'') : Extends abi names cache cache'' :=
  ⟨h'.coherent, fun text l hl => h'.keeps text l (h.keeps text l hl),
    fun name hn hl => h'.leaves name hn (h.leaves name hn hl)⟩

/-- A computation extends a memory, also where it fails, and its result fits the memory it leaves. -/
def Builds (abi : Abi) (names : List String) (cache : Cache) (m : Memo α)
    (fits : Cache → α → Prop) : Prop :=
  ∃ r cache', m.run.run cache = (r, cache') ∧ Extends abi names cache cache' ∧
    ∀ a, r = .ok a → fits cache' a

namespace Builds

variable {names : List String} {m : Memo α} {fits : Cache → α → Prop}

theorem mono {more : Cache → α → Prop} (hm : Builds abi names cache m fits)
    (h : ∀ cache' a, fits cache' a → more cache' a) : Builds abi names cache m more := by
  obtain ⟨r, cache', hr, hext, hf⟩ := hm
  exact ⟨r, cache', hr, hext, fun a ha => h cache' a (hf a ha)⟩

theorem pure (hc : Coherent abi cache) {a : α} (h : fits cache a) :
    Builds abi names cache (pure a : Memo α) fits :=
  ⟨.ok a, cache, rfl, .refl hc names, fun _ ha => Except.ok.inj ha ▸ h⟩

theorem indeterminate (hc : Coherent abi cache) (typeExpr reason : String) :
    Builds abi names cache (indeterminate typeExpr reason : Memo α) fits :=
  ⟨_, cache, rfl, .refl hc names, fun _ h => by cases h⟩

theorem bind {f : α → Memo β} {more : Cache → β → Prop} (hm : Builds abi names cache m fits)
    (hf : ∀ a cache', Extends abi names cache cache' → fits cache' a →
      Builds abi names cache' (f a) more) :
    Builds abi names cache (m >>= f) more := by
  obtain ⟨r, cache₁, h₁, hext₁, hr₁⟩ := hm
  cases r with
  | error e => exact ⟨.error e, cache₁, run_bind_error h₁, hext₁, fun _ h => by cases h⟩
  | ok a =>
      obtain ⟨r, cache₂, h₂, hext₂, hr₂⟩ := hf a cache₁ hext₁ (hr₁ a rfl)
      exact ⟨r, cache₂, (run_bind_ok h₁).trans h₂, hext₁.trans hext₂, hr₂⟩

/-- A layout that fits is remembered, unless it belongs to one of the names that are left out. -/
theorem remember {m : Memo TypeLayout} (hc : Coherent abi cache)
    (hm : cache.lookup text = none → Builds abi names cache m fun cache' l =>
      text ∉ names ∧ (∀ l', cache'.lookup text = some l' → l' = l) ∧
        MadeOf abi (fun key => cache'.lookup key) (TypeTree.parse text.toList) l) :
    Builds abi names cache (remember text m) fun cache' l => cache'.lookup text = some l := by
  cases hl : cache.lookup text with
  | some l =>
      exact ⟨.ok l, cache, run_remember_known m hl, .refl hc names, fun a ha => Except.ok.inj ha ▸ hl⟩
  | none =>
      obtain ⟨r, cache', hr, hext, hf⟩ := hm hl
      cases r with
      | error e => exact ⟨.error e, cache', run_remember_error hl hr, hext, fun _ h => by cases h⟩
      | ok l =>
          obtain ⟨hn, hu, hmade⟩ := hf l rfl
          refine ⟨.ok l, (text, l) :: cache', run_remember_new hl hr, ⟨?_, ?_, ?_⟩, ?_⟩
          · exact .cons hext.coherent hu hmade
          · exact fun key l' hk => lookup_cons_of_lookup hu (hext.keeps key l' hk)
          · intro name hname hnone
            have hne : (name == text) = false := by
              simpa using ne_of_mem_of_not_mem hname hn
            rw [List.lookup_cons, hne]
            exact hext.leaves name hname hnone
          · rintro a ⟨⟩
            exact List.lookup_cons_self

theorem layouts {resolve : String → Memo TypeLayout} {fields : List TypeTree}
    (hc : Coherent abi cache)
    (h : ∀ field ∈ fields, ∀ cache, Coherent abi cache →
      Builds abi names cache (field.layout scope resolve) fun cache' l =>
        cache'.lookup field.text = some l) :
    Builds abi names cache (TypeTree.layouts scope resolve fields) fun cache' ls =>
      List.Forall₂ (fun field l => cache'.lookup field.text = some l) fields ls := by
  induction fields generalizing cache with
  | nil => exact .pure hc .nil
  | cons field fields ih =>
      obtain ⟨hfield, hfields⟩ := List.forall_mem_cons.1 h
      refine (hfield cache hc).bind fun l cache₁ hext₁ hl => ?_
      refine (ih hext₁.coherent hfields).bind fun ls cache₂ hext₂ hls => ?_
      exact .pure hext₂.coherent (.cons (hext₂.keeps _ _ hl) hls)

end Builds

/-! ### Sizing builds -/

namespace Scope.IsAt

variable {resolving : List String}

/-- The names being resolved stand for other types. -/
theorem stands_of_mem (h : scope.IsAt resolving tree) {name : String} (hm : name ∈ resolving) :
    fixedLayout? scope.abi name = none ∧ '[' ∉ name.toList := by
  obtain ⟨_, hp, -⟩ := TransGen.head'_iff.1 (h.reached name hm)
  cases hp with
  | declared _ hf hb _ => exact ⟨hf, hb⟩

/-- A type that is not a name is made of what is known in one way, and is none of the names being
resolved. -/
theorem builds_remember (h : scope.IsAt resolving tree)
    (hr : ∀ name ∈ resolving, TypeTree.parse name.toList = .name name)
    (hn : ∀ text, tree ≠ .name text) (hc : Coherent abi cache) {m : Memo TypeLayout}
    (hm : Builds abi resolving cache m fun cache' l =>
      MadeOf abi (fun key => cache'.lookup key) tree l) :
    Builds abi resolving cache (remember tree.text m) fun cache' l =>
      cache'.lookup tree.text = some l := by
  refine Builds.remember hc fun _ => ?_
  obtain ⟨r, cache', hrun, hext, hmade⟩ := hm
  refine ⟨r, cache', hrun, hext, fun l hl => ⟨fun hmem => ?_, fun l' hl' => ?_, ?_⟩⟩
  · exact hn _ (h.parse_text.symm.trans (hr _ hmem))
  · have hmade' := hext.coherent.madeOf hl'
    rw [h.parse_text] at hmade'
    exact hmade'.unique (hmade l hl) hn
  · rw [h.parse_text]
    exact hmade l hl

theorem builds_unlessParam (h : scope.IsAt resolving tree)
    (hr : ∀ name ∈ resolving, TypeTree.parse name.toList = .name name)
    (hn : ∀ text, tree ≠ .name text) (hc : Coherent abi cache) {m : Memo TypeLayout}
    (hm : tree.text ∉ scope.typeParams → Builds abi resolving cache m fun cache' l =>
      MadeOf abi (fun key => cache'.lookup key) tree l) :
    Builds abi resolving cache (unlessParam scope tree.text m) fun cache' l =>
      cache'.lookup tree.text = some l := by
  refine h.builds_remember hr hn hc ?_
  split
  · exact Builds.indeterminate hc _ _
  · next hp => exact hm (by simpa using hp)

/-- A name that is sized afresh is not remembered while it is being resolved. -/
theorem builds_name (h : scope.IsAt resolving (.name text)) (hc : Coherent scope.abi cache)
    (hnew : cache.lookup text = none) (hp : text ∉ scope.typeParams)
    (ih : ∀ part, Part scope (.name text) part → text ∉ resolving →
      Builds scope.abi (text :: resolving) cache (scope.layoutOf (text :: resolving) part)
        fun cache' l => cache'.lookup part.text = some l) :
    Builds scope.abi resolving cache (nameLayout scope (scope.resolver resolving) text)
      fun cache' l => text ∉ resolving ∧ (∀ l', cache'.lookup text = some l' → l' = l) ∧
        MadeOf scope.abi (fun key => cache'.lookup key) (TypeTree.parse text.toList) l := by
  have hparse : TypeTree.parse text.toList = .name text := h.parse_text
  have hfresh : ∀ l l', cache.lookup text = some l' → l' = l := by simp [hnew]
  rw [hparse]
  unfold nameLayout
  -- a name that is being resolved is declared as a type, so it has no layout of its own
  cases hf : fixedLayout? scope.abi text with
  | some l =>
      have hout : text ∉ resolving := fun hm =>
        Option.some_ne_none l (hf.symm.trans (h.stands_of_mem hm).1)
      exact Builds.pure hc ⟨hout, hfresh l, .fixed hf⟩
  | none =>
      dsimp only
      split
      · next hb =>
        rw [List.contains_iff_mem] at hb
        split
        · have hout : text ∉ resolving := fun hm => (h.stands_of_mem hm).2 hb
          exact Builds.pure hc ⟨hout, hfresh _, .instantiated⟩
        · exact Builds.indeterminate hc _ _
      · next hb =>
        rw [List.contains_iff_mem] at hb
        unfold Scope.resolver
        cases hu : scope.underlying? text with
        | none => exact Builds.indeterminate hc _ _
        | some t =>
            dsimp only
            split
            · exact Builds.indeterminate hc _ _
            · next hout =>
              obtain ⟨r, cache', hrun, hext, hl⟩ := ih _ (.declared hp hf hb hu) hout
              have hnone : cache'.lookup text = none := hext.leaves text (by simp) hnew
              refine ⟨r, cache', hrun, ⟨hext.coherent, hext.keeps, fun name hm => ?_⟩, ?_⟩
              · exact hext.leaves name (List.mem_cons_of_mem _ hm)
              · exact fun l hr => ⟨hout, by simp [hnone], .declared (hl l hr)⟩

/-- Sizing keeps what is remembered and adds layouts that are made of it, the layout of the type at
last. -/
theorem builds (h : scope.IsAt resolving tree)
    (hr : ∀ name ∈ resolving, TypeTree.parse name.toList = .name name)
    (hc : Coherent scope.abi cache) :
    Builds scope.abi resolving cache (scope.layoutOf resolving tree) fun cache' l =>
      cache'.lookup tree.text = some l := by
  -- names being resolved must be left out: their layouts come only when their types are done
  refine Scope.IsAt.induction (motive := fun resolving tree =>
    (∀ name ∈ resolving, TypeTree.parse name.toList = .name name) →
    ∀ cache, Coherent scope.abi cache →
      Builds scope.abi resolving cache (scope.layoutOf resolving tree) fun cache' l =>
        cache'.lookup tree.text = some l) ?_ h hr cache hc
  clear h hr hc
  intro resolving tree h ih hr cache hc
  rw [Scope.layoutOf_eq]
  cases tree with
  | empty => exact h.builds_remember hr (by simp) hc (Builds.indeterminate hc _ _)
  | group text inner =>
      have hin := ih inner .group (by simp) hr cache hc
      rw [Scope.layoutOf_eq] at hin
      exact h.builds_remember hr (by simp) hc (hin.mono fun _ _ hl => .group hl)
  | name text =>
      refine Builds.remember hc fun hnew => ?_
      split
      · exact Builds.indeterminate hc _ _
      · next hp =>
        refine h.builds_name hc hnew (by simpa using hp) fun part hpart hout => ?_
        refine ih part hpart (fun name hm he => hout (by cases he; exact hm)) ?_ cache hc
        exact List.forall_mem_cons.2 ⟨h.parse_text, hr⟩
  | word text =>
      exact h.builds_unlessParam hr (by simp) hc fun _ => Builds.pure hc .word
  | slice text =>
      exact h.builds_unlessParam hr (by simp) hc fun _ => Builds.pure hc .slice
  | interface text =>
      exact h.builds_unlessParam hr (by simp) hc fun _ => Builds.pure hc .interface
  | malformed text reason =>
      exact h.builds_unlessParam hr (by simp) hc fun _ => Builds.indeterminate hc _ _
  | array text length element =>
      refine h.builds_unlessParam hr (by simp) hc fun hp => ?_
      have hin := ih element (.element hp) (by simp) hr cache hc
      rw [Scope.layoutOf_eq] at hin
      exact hin.bind fun l cache' hext hl => Builds.pure hext.coherent (.array hl)
  | struct text fields =>
      refine h.builds_unlessParam hr (by simp) hc fun hp => ?_
      refine (Builds.layouts hc fun field hm cache hc => ?_).bind fun ls cache' hext hls =>
        Builds.pure hext.coherent (.struct hls)
      have hin := ih field (.field hp hm) (by simp) hr cache hc
      rwa [Scope.layoutOf_eq] at hin

end Scope.IsAt

/-- Sizing a type that is remembered gives what is remembered. -/
theorem Scope.run_layoutOf_known (resolving : List String)
    (h : cache.lookup tree.text = some l) :
    (scope.layoutOf resolving tree).run.run cache = (.ok l, cache) := by
  rw [Scope.layoutOf_eq]
  cases tree with
  | empty => exact run_remember_known _ h
  | group text inner => exact run_remember_known _ h
  | name text => exact run_remember_known _ h
  | word text => exact run_remember_known _ h
  | slice text => exact run_remember_known _ h
  | interface text => exact run_remember_known _ h
  | malformed text reason => exact run_remember_known _ h
  | array text length element => exact run_remember_known _ h
  | struct text fields => exact run_remember_known _ h

/-! ### Sizers -/

namespace Sizer

variable {s : Sizer} {limit : Nat} {typeExpr : String}

/-- What a sizer remembers hangs together. -/
def IsCoherent (s : Sizer) : Prop := Coherent s.scope.abi s.cache

theorem isCoherent_ofScope (scope : Scope) : (ofScope scope).IsCoherent := .nil

theorem IsCoherent.builds (hs : s.IsCoherent) (typeExpr : String) :
    Extends s.scope.abi [] s.cache (s.layoutOf typeExpr).2.cache ∧
      ∀ l, (s.layoutOf typeExpr).1 = .ok l →
        (s.layoutOf typeExpr).2.cache.lookup (Text.trimmed typeExpr) = some l := by
  obtain ⟨r, cache, hr, hext, hl⟩ :=
    (Scope.IsAt.parse s.scope typeExpr.toList).builds (List.forall_mem_nil _) hs
  simp only [Sizer.layoutOf, hr]
  rw [TypeTree.text_parse] at hl
  exact ⟨hext, hl⟩

theorem IsCoherent.layoutOf (hs : s.IsCoherent) (typeExpr : String) :
    (s.layoutOf typeExpr).2.IsCoherent := (hs.builds typeExpr).1.coherent

theorem IsCoherent.remember (hs : s.IsCoherent) (texts : List String) :
    (s.remember texts).IsCoherent ∧ (s.remember texts).scope = s.scope := by
  induction texts with
  | nil => exact ⟨hs, rfl⟩
  | cons text texts ih => exact ⟨ih.1.layoutOf text, ih.2⟩

theorem IsCoherent.layoutWithin (hs : s.IsCoherent) (limit : Nat) (typeExpr : String) :
    (s.layoutWithin limit typeExpr).2.IsCoherent ∧
      (s.layoutWithin limit typeExpr).2.scope = s.scope := by
  unfold Sizer.layoutWithin
  split
  · exact hs.remember _
  · exact ⟨hs.layoutOf typeExpr, rfl⟩

/-! ### Known types -/

theorem layoutOf_of_known (h : s.cache.lookup (Text.trimmed typeExpr) = some l) :
    s.layoutOf typeExpr = (.ok l, s) := by
  have hl : s.cache.lookup (TypeTree.parse typeExpr.toList).text = some l := by
    rwa [TypeTree.text_parse]
  have hrun := @Scope.run_layoutOf_known s.scope _ _ _ [] hl
  rw [Sizer.layoutOf, hrun]

theorem isTooDeep_of_known (h : s.cache.lookup (Text.trimmed typeExpr) = some l) :
    s.isTooDeep limit typeExpr = false := by
  have hlimit : ¬ limit < 0 := by omega
  have hk : (TypeTree.parse typeExpr.toList).text ∈ s.cache.map Prod.fst := by
    rw [TypeTree.text_parse]
    exact mem_keys_iff.2 ⟨l, h⟩
  rw [isTooDeep_eq_false_iff, descent, run_descend_known [] hlimit hk]
  simp

theorem layoutWithin_of_known (h : s.cache.lookup (Text.trimmed typeExpr) = some l) :
    s.layoutWithin limit typeExpr = (.ok l, s) :=
  layoutWithin_eq (isTooDeep_of_known h) (layoutOf_of_known h)

/-- A layout that is found is remembered. -/
theorem IsCoherent.lookup_layoutWithin (hs : s.IsCoherent)
    (h : (s.layoutWithin limit typeExpr).1 = .ok l) :
    (s.layoutWithin limit typeExpr).2.cache.lookup (Text.trimmed typeExpr) = some l := by
  obtain ⟨hl, hsnd⟩ := layoutOf_of_layoutWithin h
  rw [hsnd]
  exact (hs.builds typeExpr).2 l hl

/-- What the rules of making preserve holds of every layout that is found. -/
theorem IsCoherent.preserved (hs : s.IsCoherent) {P : TypeLayout → Prop}
    (hP : ∀ known tree l, (∀ text l, known text = some l → P l) →
      MadeOf s.scope.abi known tree l → P l)
    (h : (s.layoutWithin limit typeExpr).1 = .ok l) : P l := by
  obtain ⟨hcoherent, hscope⟩ := hs.layoutWithin limit typeExpr
  exact Coherent.preserved (hscope ▸ hP) hcoherent (hs.lookup_layoutWithin h)

/-! ### Events -/

/-- What happens to a sizer: it is asked under some limit, or a name is declared, maybe anew. -/
inductive Event where
  | ask (limit : Nat) (q : Query)
  | declare (name underlying : String)

def Event.apply (s : Sizer) : Event → Sizer
  | ask limit q => (q.ask limit s).2
  | declare name underlying => s.declare name underlying

def afterEvents (s : Sizer) (events : List Event) : Sizer := events.foldl Event.apply s

theorem IsCoherent.apply (hs : s.IsCoherent) (e : Event) :
    (e.apply s).IsCoherent ∧ (e.apply s).scope.abi = s.scope.abi ∧
      (e.apply s).scope.typeParams = s.scope.typeParams := by
  cases e with
  | ask limit q =>
      obtain ⟨hq, hscope⟩ := hs.layoutWithin limit q.typeExpr
      rw [Event.apply, q.ask_snd, hscope]
      exact ⟨hq, rfl, rfl⟩
  | declare name underlying => exact ⟨hs, rfl, rfl⟩

/-- Whatever happens to a sizer, what it remembers hangs together. -/
theorem IsCoherent.afterEvents (hs : s.IsCoherent) (events : List Event) :
    (s.afterEvents events).IsCoherent ∧ (s.afterEvents events).scope.abi = s.scope.abi ∧
      (s.afterEvents events).scope.typeParams = s.scope.typeParams := by
  induction events generalizing s with
  | nil => exact ⟨hs, rfl, rfl⟩
  | cons e events ih =>
      obtain ⟨he, habi, hparams⟩ := hs.apply e
      obtain ⟨h, habi', hparams'⟩ := ih he
      exact ⟨h, habi'.trans habi, hparams'.trans hparams⟩

end Sizer

end StructLayout.Sizing
