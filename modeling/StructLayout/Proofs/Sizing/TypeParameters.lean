import StructLayout.Proofs.Sizing.DeclaredNames

/-!
# Type parameters and declared names

Type parameters stay in scope while names are resolved, so a declaration of the package that mentions a
name is captured by a type parameter of that name (`Scope.Captures`), however far down the chain of
declarations that is.

Without a capture type parameters are invisible (`Scope.IsAt.invisible`): sizing takes the same steps as
in the scope of the package.  With one there is no layout (`Sized.not_captures`).  The main statement is
`Sizer.layout_withTypeParams`, which compares a sizer with one that has other type parameters in scope.
A parameter with the name of a type changes what another declared name gets (`celsius_captured`).
-/

namespace StructLayout.Sizing

open Source Relation

/-- The scope with other type parameters. -/
def Scope.withParams (scope : Scope) (params : List String) : Scope :=
  { scope with typeParams := params }

/-- The scope of the package, in which no type parameter is visible. -/
def Scope.package (scope : Scope) : Scope := scope.withParams []

/-- The expression is one of some type parameters.  What is empty or stands in parentheses is none. -/
def TypeTree.IsParam (params : List String) : TypeTree → Prop
  | .empty | .group _ _ => False
  | .name text | .word text | .slice text | .interface text | .malformed text _ | .array text _ _
  | .struct text _ => text ∈ params

/-- A type, or something that it holds by value in the scope of the package, is one of some type
parameters. -/
def Scope.Captures (scope : Scope) (params : List String) (tree : TypeTree) : Prop :=
  ∃ part, ReflTransGen (Part scope.package) tree part ∧ part.IsParam params

variable {scope : Scope} {params : List String} {tree part : TypeTree} {text : String}
  {limit n : Nat} {l : TypeLayout}

/-! ### What is captured has no layout -/

theorem Part.withParams (h : Part scope.package tree part) (hp : ¬ tree.IsParam params) :
    Part (scope.withParams params) tree part := by
  cases h with
  | group => exact .group
  | declared _ hf hb hu => exact .declared hp hf hb hu
  | element => exact .element hp
  | field _ hm => exact .field hp hm

/-- A type parameter has no layout. -/
theorem Sized.not_isParam (h : Sized (scope.withParams params) n tree l) : ¬ tree.IsParam params := by
  cases h with
  | group => exact id
  | fixed hp | instantiated hp | declared hp | word hp | slice hp | interface hp | array hp
  | struct hp => exact hp

/-- Nothing that holds a type parameter by value has a layout. -/
theorem Sized.not_captures (h : Sized (scope.withParams params) n tree l) :
    ¬ scope.Captures params tree := by
  rintro ⟨part, hr, hp⟩
  have hpart : ∃ k l', Sized (scope.withParams params) k part l' := by
    clear hp
    induction hr with
    | refl => exact ⟨n, l, h⟩
    | tail _ hstep ih =>
        obtain ⟨k, l', hk⟩ := ih
        obtain ⟨j, -, l'', hj⟩ := hk.of_part (hstep.withParams hk.not_isParam)
        exact ⟨j, l'', hj⟩
  obtain ⟨k, l', hk⟩ := hpart
  exact hk.not_isParam hp

/-! ### What is not captured -/

theorem unlessParam_withParams (h : text ∉ params) {m m' : Memo TypeLayout} (hm : m = m') :
    unlessParam (scope.withParams params) text m = unlessParam scope.package text m' := by
  have hc : params.contains text = false := by simpa using h
  simp only [unlessParam, Scope.package, Scope.withParams, hc, hm, List.contains_nil,
    Bool.false_eq_true, if_false]

theorem visitUnlessParam_withParams (h : text ∉ params) (limit level : Nat) {d d' : Descent Unit}
    (hd : d = d') : visitUnlessParam (scope.withParams params) limit level text d =
      visitUnlessParam scope.package limit level text d' := by
  have hc : params.contains text = false := by simpa using h
  simp only [visitUnlessParam, Scope.package, Scope.withParams, hc, hd, List.contains_nil,
    Bool.false_eq_true, if_false]

/-- Some type parameters are invisible in a type: sizing it and descending into it are the same as in
the scope of the package. -/
structure Scope.Invisible (scope : Scope) (params resolving : List String) (tree : TypeTree) :
    Prop where
  layout_eq : tree.layout (scope.withParams params) ((scope.withParams params).resolver resolving) =
    tree.layout scope.package (scope.package.resolver resolving)
  descend_eq : ∀ limit level,
    tree.descend (scope.withParams params) limit ((scope.withParams params).descender limit resolving)
      level = tree.descend scope.package limit (scope.package.descender limit resolving) level

theorem layouts_withParams {resolve resolve' : String → Memo TypeLayout} {fields : List TypeTree}
    (h : ∀ field ∈ fields, field.layout (scope.withParams params) resolve =
      field.layout scope.package resolve') :
    TypeTree.layouts (scope.withParams params) resolve fields =
      TypeTree.layouts scope.package resolve' fields := by
  induction fields with
  | nil => rfl
  | cons field fields ih =>
      obtain ⟨hfield, hfields⟩ := List.forall_mem_cons.1 h
      simp only [TypeTree.layouts, hfield, ih hfields]

theorem descendAll_withParams {resolve resolve' : Nat → String → Descent Unit} {level : Nat}
    {fields : List TypeTree}
    (h : ∀ field ∈ fields, field.descend (scope.withParams params) limit resolve level =
      field.descend scope.package limit resolve' level) :
    TypeTree.descendAll (scope.withParams params) limit resolve level fields =
      TypeTree.descendAll scope.package limit resolve' level fields := by
  induction fields with
  | nil => rfl
  | cons field fields ih =>
      obtain ⟨hfield, hfields⟩ := List.forall_mem_cons.1 h
      simp only [TypeTree.descendAll, hfield, ih hfields]

/-- Only the layout of a name that stands for nothing else depends on how names are resolved. -/
theorem nameLayout_congr {resolve resolve' : String → Memo TypeLayout}
    (h : fixedLayout? scope.abi text = none → '[' ∉ text.toList → resolve text = resolve' text) :
    nameLayout scope resolve text = nameLayout scope resolve' text := by
  unfold nameLayout
  cases hf : fixedLayout? scope.abi text with
  | some l => rfl
  | none =>
      dsimp only
      split
      · rfl
      · next hb => exact h hf (by simpa using hb)

theorem descendName_congr {resolve resolve' : String → Descent Unit}
    (h : fixedLayout? scope.abi text = none → '[' ∉ text.toList → resolve text = resolve' text) :
    descendName scope resolve text = descendName scope resolve' text := by
  unfold descendName
  cases hf : fixedLayout? scope.abi text with
  | some l => rfl
  | none =>
      simp only [Option.isSome_none, Bool.false_eq_true, if_false]
      split
      · rfl
      · next hb => exact h hf (by simpa using hb)

/-- Names are resolved as in the package if the types that they are declared as are sized so. -/
theorem resolver_withParams {resolving : List String}
    (h : ∀ t, scope.package.underlying? text = some t → text ∉ resolving →
      scope.Invisible params (text :: resolving) (TypeTree.parse t.toList)) :
    (scope.withParams params).resolver resolving text = scope.package.resolver resolving text := by
  have hu : (scope.withParams params).underlying? text = scope.package.underlying? text := rfl
  unfold Scope.resolver
  rw [hu]
  cases ht : scope.package.underlying? text with
  | none => rfl
  | some t =>
      dsimp only
      split
      · rfl
      · next hr => rw [Scope.layoutOf_eq, Scope.layoutOf_eq, (h t ht hr).layout_eq]

theorem descender_withParams {resolving : List String} {level : Nat}
    (h : ∀ t, scope.package.underlying? text = some t → text ∉ resolving →
      scope.Invisible params (text :: resolving) (TypeTree.parse t.toList)) :
    (scope.withParams params).descender limit resolving level text =
      scope.package.descender limit resolving level text := by
  have hu : (scope.withParams params).underlying? text = scope.package.underlying? text := rfl
  unfold Scope.descender
  rw [hu]
  cases ht : scope.package.underlying? text with
  | none => rfl
  | some t =>
      dsimp only
      split
      · rfl
      · next hr => rw [Scope.descend_eq, Scope.descend_eq, (h t ht hr).descend_eq]

theorem Scope.IsAt.invisible {resolving : List String} (h : scope.package.IsAt resolving tree)
    (hc : ¬ scope.Captures params tree) : scope.Invisible params resolving tree := by
  refine Scope.IsAt.induction (motive := fun resolving tree => ¬ scope.Captures params tree →
    scope.Invisible params resolving tree) ?_ h hc
  clear h hc
  intro resolving tree h ih hc
  have hself : ¬ tree.IsParam params := fun hp => hc ⟨tree, .refl, hp⟩
  -- what a part captures the type captures, so nothing is captured further down either
  have below {part : TypeTree} (hpart : Part scope.package tree part)
      (hn : ∀ name ∈ resolving, tree ≠ .name name) :
      scope.Invisible params (tree.entering resolving) part := by
    refine ih part hpart hn fun hp => hc ?_
    obtain ⟨captured, hr, hp⟩ := hp
    exact ⟨captured, .head hpart hr, hp⟩
  cases tree with
  | empty => exact ⟨rfl, fun _ _ => rfl⟩
  | group text inner =>
      have hin : scope.Invisible params resolving inner := below .group (by simp)
      exact ⟨congrArg (remember text) hin.layout_eq,
        fun limit level => congrArg (visit limit level text) (hin.descend_eq limit (level + groupLevels))⟩
  | name text =>
      have hname (hf : fixedLayout? scope.abi text = none) (hb : '[' ∉ text.toList) (t : String)
          (hu : scope.package.underlying? text = some t) (hr : text ∉ resolving) :
          scope.Invisible params (text :: resolving) (TypeTree.parse t.toList) :=
        below (.declared List.not_mem_nil hf hb hu) fun name hm he => hr (by cases he; exact hm)
      refine ⟨unlessParam_withParams hself ?_,
        fun limit level => visitUnlessParam_withParams hself limit level ?_⟩
      · exact nameLayout_congr fun hf hb => resolver_withParams (hname hf hb)
      · exact descendName_congr fun hf hb => descender_withParams (hname hf hb)
  | word text | slice text | interface text | malformed text reason =>
      exact ⟨unlessParam_withParams hself rfl,
        fun limit level => visitUnlessParam_withParams hself limit level rfl⟩
  | array text length element =>
      have hin : scope.Invisible params resolving element :=
        below (.element List.not_mem_nil) (by simp)
      refine ⟨unlessParam_withParams hself ?_,
        fun limit level => visitUnlessParam_withParams hself limit level ?_⟩
      · rw [hin.layout_eq]
      · exact hin.descend_eq limit (level + partLevels)
  | struct text fields =>
      have hin : ∀ field ∈ fields, scope.Invisible params resolving field :=
        fun field hm => below (.field List.not_mem_nil hm) (by simp)
      refine ⟨unlessParam_withParams hself ?_,
        fun limit level => visitUnlessParam_withParams hself limit level ?_⟩
      · rw [layouts_withParams fun field hm => (hin field hm).layout_eq]
        rfl
      · exact descendAll_withParams fun field hm =>
          (hin field hm).descend_eq limit (level + partLevels)

namespace Sizer

variable {s : Sizer} {typeExpr : String}

/-! ### Sizers with type parameters in scope -/

/-- Where nothing is captured a new sizer answers as in the package. -/
theorem layoutOf_withParams (hc : ¬ scope.Captures params (TypeTree.parse typeExpr.toList)) :
    ((ofScope (scope.withParams params)).layoutOf typeExpr).1 =
      ((ofScope scope.package).layoutOf typeExpr).1 := by
  have h := (Scope.IsAt.parse scope.package typeExpr.toList).invisible hc
  simp only [layoutOf, ofScope, Scope.layoutOf_eq, h.layout_eq]

/-- Where nothing is captured a new sizer gives up on the types that it gives up on in the package. -/
theorem isTooDeep_withParams (hc : ¬ scope.Captures params (TypeTree.parse typeExpr.toList)) :
    (ofScope (scope.withParams params)).isTooDeep limit typeExpr =
      (ofScope scope.package).isTooDeep limit typeExpr := by
  have h := (Scope.IsAt.parse scope.package typeExpr.toList).invisible hc
  simp only [isTooDeep, descent, ofScope, Scope.descend_eq, h.descend_eq]

theorem layoutWithin_withParams (hc : ¬ scope.Captures params (TypeTree.parse typeExpr.toList)) :
    ((ofScope (scope.withParams params)).layoutWithin limit typeExpr).1 =
      ((ofScope scope.package).layoutWithin limit typeExpr).1 := by
  rw [layoutWithin_fst, layoutWithin_fst, isTooDeep_withParams hc, layoutOf_withParams hc]

theorem IsSound.layoutOf_withParams_eq_ok_iff (hs : s.IsSound)
    (hscope : s.scope = scope.withParams params) :
    (s.layoutOf typeExpr).1 = .ok l ↔
      ((ofScope scope.package).layoutOf typeExpr).1 = .ok l ∧
        ¬ scope.Captures params (TypeTree.parse typeExpr.toList) := by
  constructor
  · intro h
    obtain ⟨n, hn⟩ := hs.layoutOf_eq_ok_iff.1 h
    rw [hscope] at hn
    have hc := hn.not_captures
    rw [hs.layoutOf_eq, hscope, layoutOf_withParams hc] at h
    exact ⟨h, hc⟩
  · rintro ⟨h, hc⟩
    rw [hs.layoutOf_eq, hscope, layoutOf_withParams hc]
    exact h

/-- Within the limit a new sizer finds a layout exactly if it is found in the package and nothing is
captured. -/
theorem layoutWithin_withParams_eq_ok_iff :
    ((ofScope (scope.withParams params)).layoutWithin limit typeExpr).1 = .ok l ↔
      ((ofScope scope.package).layoutWithin limit typeExpr).1 = .ok l ∧
        ¬ scope.Captures params (TypeTree.parse typeExpr.toList) := by
  constructor
  · intro h
    have hs := isSound_ofScope (scope.withParams params)
    have hc := ((hs.layoutOf_withParams_eq_ok_iff rfl).1 (layoutOf_of_layoutWithin h).1).2
    exact ⟨(layoutWithin_withParams hc).symm.trans h, hc⟩
  · rintro ⟨h, hc⟩
    exact (layoutWithin_withParams hc).trans h

/-- Without captures a new sizer answers like an older one unless it gives up on the type for its depth:
what it reaches the end of the older one reaches the end of as well. -/
theorem IsSound.layoutWithin_eq_or (hs : s.IsSound)
    (hc : ¬ s.scope.Captures s.scope.typeParams (TypeTree.parse typeExpr.toList))
    (hc' : ¬ s.scope.Captures params (TypeTree.parse typeExpr.toList)) :
    ((s.withTypeParams params).layoutWithin limit typeExpr).1 = (s.layoutWithin limit typeExpr).1 ∨
      ((s.withTypeParams params).layoutWithin limit typeExpr).1 = .error tooDeep := by
  have hdepth : (s.withTypeParams params).isTooDeep limit typeExpr =
      (ofScope s.scope).isTooDeep limit typeExpr :=
    (isTooDeep_withParams hc').trans (isTooDeep_withParams hc).symm
  have hlayout : ((s.withTypeParams params).layoutOf typeExpr).1 = (s.layoutOf typeExpr).1 := by
    rw [hs.layoutOf_eq]
    exact (layoutOf_withParams hc').trans (layoutOf_withParams hc).symm
  rw [layoutWithin_fst, layoutWithin_fst]
  cases hd : (s.withTypeParams params).isTooDeep limit typeExpr with
  | true => exact .inr rfl
  | false => exact .inl (by rw [hs.isTooDeep_eq_false (hdepth.symm.trans hd), hlayout])

/-- **A type is sized as in its package exactly where no type parameter captures a part of it**, whatever
was asked before, whichever type parameters are in scope and under whatever limit.  Without captures
sizers with different type parameters also fail alike, unless the new one gives up on the type for its
depth. -/
theorem layout_withTypeParams (scope : Scope) (history : List (Nat × Query)) (params : List String)
    (limit : Nat) (typeExpr : String) :
    let s := (ofScope scope).after history
    let inner := s.withTypeParams params
    let package := ofScope scope.package
    let tree := TypeTree.parse typeExpr.toList
    (∀ l, (inner.layoutOf typeExpr).1 = .ok l ↔
      (package.layoutOf typeExpr).1 = .ok l ∧ ¬ scope.Captures params tree) ∧
    (∀ l, (s.layoutOf typeExpr).1 = .ok l ↔
      (package.layoutOf typeExpr).1 = .ok l ∧ ¬ scope.Captures scope.typeParams tree) ∧
    (∀ l, (inner.layoutWithin limit typeExpr).1 = .ok l ↔
      (package.layoutWithin limit typeExpr).1 = .ok l ∧ ¬ scope.Captures params tree) ∧
    (¬ scope.Captures params tree → ¬ scope.Captures scope.typeParams tree →
      (inner.layoutWithin limit typeExpr).1 = (s.layoutWithin limit typeExpr).1 ∨
        (inner.layoutWithin limit typeExpr).1 = .error tooDeep) := by
  intro s inner package tree
  have hs : s.IsSound := ((isSound_ofScope scope).after history).1
  have hscope : s.scope = scope := ((isSound_ofScope scope).after history).2
  have hinner : inner = ofScope (scope.withParams params) :=
    congrArg (fun scope : Scope => ofScope (scope.withParams params)) hscope
  refine ⟨fun l => ?_, fun l => hs.layoutOf_withParams_eq_ok_iff hscope, fun l => ?_, fun hc hc' => ?_⟩
  · rw [hinner]
    exact (isSound_ofScope _).layoutOf_withParams_eq_ok_iff rfl
  · rw [hinner]
    exact layoutWithin_withParams_eq_ok_iff
  · exact hs.layoutWithin_eq_or (hscope.symm ▸ hc') (hscope.symm ▸ hc)

end Sizer

/-! ### A captured name -/

theorem captures_celsius :
    degreesScope.Captures ["Degrees"] (TypeTree.parse "Celsius".toList) := by
  have hcelsius : TypeTree.parse "Celsius".toList = .name "Celsius" := declares_celsius.parse_eq
  have hdegrees : TypeTree.parse "Degrees".toList = .name "Degrees" := declares_degrees.parse_eq
  rw [hcelsius]
  refine ⟨TypeTree.parse "Degrees".toList, .single declares_celsius.part, ?_⟩
  rw [hdegrees]
  exact List.mem_singleton_self _

/-- A declared name that is no type parameter is not always sized as it is without type parameters in
scope, also where there is room for two names. -/
theorem celsius_captured :
    ¬ ∃ limit, 2 * partLevels ≤ limit ∧
      ∀ (scope : Scope) (params : List String) (name underlying : String),
        scope.localTypes.lookup name = some underlying → name ∉ params →
          ∀ l, (((Sizer.ofScope scope).withTypeParams params).layoutWithin limit name).1 = .ok l ↔
            ((Sizer.ofScope scope).layoutWithin limit name).1 = .ok l := by
  rintro ⟨limit, hlimit, h⟩
  have hfound : ((Sizer.ofScope degreesScope).layoutWithin limit "Celsius").1 =
      .ok { size := 8, align := 8 } :=
    Sizer.layoutWithin_of_sized (remembers_nil degreesScope) (declares_celsius.sized sized_degrees)
      hlimit
  have hinner := (h degreesScope ["Degrees"] "Celsius" "Degrees" rfl (by decide) _).2 hfound
  exact (Sizer.layoutWithin_withParams_eq_ok_iff.1 hinner).2 captures_celsius

end StructLayout.Sizing
