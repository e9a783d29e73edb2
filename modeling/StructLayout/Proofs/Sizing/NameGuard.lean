import Mathlib.Data.Finset.Basic
import Mathlib.Data.Finset.Dedup
import StructLayout.Proofs.Sizing.ArrayElements
import StructLayout.Proofs.Sizing.Coherence

/-!
# Sizing with a set of names and a bounded stack

Sizing is handed the names being resolved as a list, one longer for the underlying type of a name.  A
program keeps them in one set instead: it puts a name in, sizes the underlying type, and takes the name
out again, whatever came of it; a name that it finds in the set it refuses.  It also has a bounded stack,
and gives up at once below some level.  Guarded sizing (`Scope.guardedLayout`) is written that way, for
any limit.

The step is that each way to compute a layout leaves the set as it finds it and goes the way of sizing
(`Tracks`); the part that matters is `Tracks.whileResolving`, where the name put in is not in the set
before.  By induction on the levels that are left the same holds of every type (`Scope.tracks`), and
sizing is given up on only if the type goes deeper than the limit, by `Scope.depth`.

The main statement is `layout_ends`: sizing ends with a layout, which has a size of at least zero and an
alignment of at least one, or with the error that there is none, or by giving up, and with the set of
names from before in each case.
-/

namespace StructLayout.Sizing

open Source

variable {scope : Scope} {tree : TypeTree} {l : TypeLayout} {α β : Type} {cache cache' : Cache}

/-! ### Guarded sizing -/

/-- What sizing changes: the layouts found so far and the set of names being resolved. -/
structure Store where
  cache : Cache
  resolving : Finset String

/-- A computation that sizes types and keeps the set of names being resolved. -/
abbrev Guarded := ExceptT Failure (StateM Store)

namespace Guarded

/-- Fails because a type has no layout. -/
def refuse (typeExpr reason : String) : Guarded α :=
  throw (.error (.indeterminate { typeExpr, reason }))

/-- The remembered layout of an expression, or else the one computed now, which is remembered. -/
def reuse (text : String) (compute : Guarded TypeLayout) : Guarded TypeLayout := do
  let store ← get
  match store.cache.lookup text with
  | some l => pure l
  | none =>
    let l ← compute
    modify fun store => { store with cache := (text, l) :: store.cache }
    pure l

/-- Computes a layout while a name is being resolved, unless it is being resolved already.  However the
computation ends, the name is taken out of the set. -/
def whileResolving (name : String) (compute : Guarded TypeLayout) : Guarded TypeLayout := do
  let store ← get
  if name ∈ store.resolving then refuse name "recursive type"
  else
    set { store with resolving := insert name store.resolving }
    try compute
    finally modify fun store => { store with resolving := store.resolving.erase name }

def unlessParam (scope : Scope) (text : String) (compute : Guarded TypeLayout) :
    Guarded TypeLayout :=
  if scope.typeParams.contains text then refuse text "type parameter" else compute

/-- The layout of a name, given how its underlying type is sized. -/
def nameLayout (scope : Scope) (size : TypeTree → Guarded TypeLayout) (name : String) :
    Guarded TypeLayout :=
  match fixedLayout? scope.abi name with
  | some l => pure l
  | none =>
    let cs := name.toList
    if cs.contains '[' then
      if genericWordTypes.contains (String.ofList (cs.takeWhile (· != '['))) then
        pure (wordLayout scope.abi)
      else refuse name "generic type instantiation"
    else
      match scope.underlying? name with
      | none => refuse name (unknownReason scope name)
      | some t => whileResolving name (size (TypeTree.parse t.toList))

end Guarded

/-- The layout of a type at a level; below the limit sizing is given up. -/
def Scope.guardedLayout (scope : Scope) (limit level : Nat) (tree : TypeTree) :
    Guarded TypeLayout :=
  if limit < level then throw Sizer.tooDeep
  else
    Guarded.reuse tree.text <| match tree with
      | .empty => Guarded.refuse "" "empty type expression"
      | .group _ inner => scope.guardedLayout limit (level + groupLevels) inner
      | .name text =>
        Guarded.unlessParam scope text <|
          Guarded.nameLayout scope (fun t => scope.guardedLayout limit (level + partLevels) t) text
      | .word text => Guarded.unlessParam scope text <| pure (wordLayout scope.abi)
      | .slice text => Guarded.unlessParam scope text <| pure (wordsLayout scope.abi 3)
      | .interface text => Guarded.unlessParam scope text <| pure (wordsLayout scope.abi 2)
      | .malformed text reason => Guarded.unlessParam scope text <| Guarded.refuse text reason
      | .array text length element =>
        Guarded.unlessParam scope text do
          let l ← scope.guardedLayout limit (level + partLevels) element
          pure (arrayLayout length l)
      | .struct text fields =>
        Guarded.unlessParam scope text do
          let ls ← fields.mapM fun field => scope.guardedLayout limit (level + partLevels) field
          pure (structLayout scope.abi ls)
termination_by limit + 1 - level
decreasing_by
  all_goals
    simp only [groupLevels, partLevels]
    omega

/-! ### How deep a type goes -/

mutual

/-- How many levels below a type its deepest part is, given how deep a name goes. -/
def TypeTree.depth (resolve : String → Nat) : TypeTree → Nat
  | .group _ inner => groupLevels + inner.depth resolve
  | .name text => resolve text
  | .array _ _ element => partLevels + element.depth resolve
  | .struct _ fields => TypeTree.depths resolve fields
  | .empty | .word _ | .slice _ | .interface _ | .malformed _ _ => 0

/-- How many levels below a struct the deepest part of its fields is. -/
def TypeTree.depths (resolve : String → Nat) : List TypeTree → Nat
  | [] => 0
  | t :: rest => max (partLevels + t.depth resolve) (TypeTree.depths resolve rest)

end

/-- How many levels below a type its deepest part is while some names are being resolved. -/
def Scope.depth (scope : Scope) (resolving : List String) (tree : TypeTree) : Nat :=
  tree.depth fun name =>
    match _h : scope.underlying? name with
    | none => 0
    | some t =>
      if _hr : name ∈ resolving then 0
      else partLevels + scope.depth (name :: resolving) (TypeTree.parse t.toList)
termination_by (scope.unresolved resolving).length
decreasing_by exact Scope.length_unresolved_lt _h _hr

/-- How deep a name goes while some names are being resolved. -/
def Scope.nameDepth (scope : Scope) (resolving : List String) (name : String) : Nat :=
  match scope.underlying? name with
  | none => 0
  | some t =>
    if name ∈ resolving then 0
    else partLevels + scope.depth (name :: resolving) (TypeTree.parse t.toList)

theorem Scope.depth_eq (scope : Scope) (resolving : List String) (tree : TypeTree) :
    scope.depth resolving tree = tree.depth (scope.nameDepth resolving) := by
  rw [Scope.depth]
  congr 1
  funext name
  unfold Scope.nameDepth
  split
  · next h => rw [h]
  · next t h => rw [h]; rfl

theorem TypeTree.depth_le_depths {resolve : String → Nat} {fields : List TypeTree} {field : TypeTree}
    (h : field ∈ fields) : partLevels + field.depth resolve ≤ TypeTree.depths resolve fields := by
  induction fields with
  | nil => cases h
  | cons t rest ih =>
      rw [TypeTree.depths]
      rcases List.mem_cons.1 h with rfl | h
      · exact Nat.le_max_left _ _
      · exact (ih h).trans (Nat.le_max_right _ _)

/-! ### Proper layouts -/

/-- A layout that a type can have. -/
structure TypeLayout.IsProper (l : TypeLayout) : Prop where
  size_nonneg : 0 ≤ l.size
  one_le_align : 1 ≤ l.align

theorem isProper_words (abi : Abi) {count : Int} (h : 0 ≤ count) : (wordsLayout abi count).IsProper :=
  ⟨Int.mul_nonneg h (Int.le_of_lt abi.wordSize_pos), abi.wordSize_pos⟩

theorem isProper_word (abi : Abi) : (wordLayout abi).IsProper :=
  ⟨Int.le_of_lt abi.wordSize_pos, abi.wordSize_pos⟩

theorem isProper_fixed {abi : Abi} {name : String} (h : fixedLayout? abi name = some l) :
    l.IsProper := by
  have hbasic : ∀ p ∈ basicSizes, 0 ≤ p.2 := by decide
  refine ⟨?_, one_le_fixedLayout?_align h⟩
  rcases fixedLayout?_cases h with ⟨size, hm, rfl⟩ | ⟨-, rfl⟩ | ⟨-, rfl⟩ | ⟨-, rfl⟩
  · exact hbasic (name, size) hm
  · exact (isProper_word abi).size_nonneg
  · exact (isProper_words abi (by decide)).size_nonneg
  · decide

theorem isProper_array (length : Int) (h : l.IsProper) : (arrayLayout length l).IsProper := by
  refine ⟨?_, h.one_le_align⟩
  simp only [arrayLayout]
  split
  · exact Int.le_refl 0
  · next hl => exact Int.mul_nonneg h.size_nonneg (by omega)

theorem isProper_struct (abi : Abi) {ls : List TypeLayout} (h : ∀ l ∈ ls, l.IsProper) :
    (structLayout abi ls).IsProper := by
  refine ⟨?_, one_le_largestAlignment _⟩
  have htotal : 0 ≤ totalBytes (ls.map TypeLayout.asField) := by
    induction ls with
    | nil => exact Int.le_refl 0
    | cons l ls ih =>
        obtain ⟨hl, hls⟩ := List.forall_mem_cons.1 h
        have hsize := hl.size_nonneg
        have hrest := ih hls
        simp only [List.map_cons, totalBytes, TypeLayout.asField_bytes]
        omega
  exact htotal.trans (totalBytes_le_structSize abi _)

theorem MadeOf.isProper {abi : Abi} {known : String → Option TypeLayout}
    (hknown : ∀ text l, known text = some l → l.IsProper) (h : MadeOf abi known tree l) :
    l.IsProper := by
  cases h with
  | group h => exact hknown _ _ h
  | fixed h => exact isProper_fixed h
  | instantiated => exact isProper_word abi
  | declared h => exact hknown _ _ h
  | word => exact isProper_word abi
  | slice => exact isProper_words abi (by decide)
  | interface => exact isProper_words abi (by decide)
  | array h => exact isProper_array _ (hknown _ _ h)
  | struct h =>
      refine isProper_struct abi ?_
      induction h with
      | nil => exact List.forall_mem_nil _
      | cons hl _ ih => exact List.forall_mem_cons.2 ⟨hknown _ _ hl, ih⟩

/-- Every layout that is remembered is proper. -/
def HoldsProper (cache : Cache) : Prop := ∀ text l, cache.lookup text = some l → l.IsProper

theorem HoldsProper.cons {text : String} (hc : HoldsProper cache) (hl : l.IsProper) :
    HoldsProper ((text, l) :: cache) := by
  intro key l' h
  rw [List.lookup_cons] at h
  split at h
  · obtain rfl := Option.some.inj h
    exact hl
  · exact hc key l' h

theorem Coherent.holdsProper {abi : Abi} (h : Coherent abi cache) : HoldsProper cache := fun _ _ hl =>
  h.preserved (P := TypeLayout.IsProper) (fun _ _ _ => MadeOf.isProper) hl

/-! ### Guarded computations and unguarded ones -/

/-- The result of a guarded computation matches that of a computation without a limit, unless it is given
up on; and a descent finds out which it is. -/
inductive Matches (deep : Prop) (fits : α → Prop) (m : Memo α) (d : Descent Unit)
    (cache cache' : Cache) : Outcome α → Prop
  | ok {a : α} : fits a → m.run.run cache = (.ok a, cache') →
      d.run.run (cache.map Prod.fst) = (.ok (), cache'.map Prod.fst) →
      Matches deep fits m d cache cache' (.ok a)
  | indeterminate {cause : Indeterminate} : m.run.run cache = (.error cause, cache') →
      d.run.run (cache.map Prod.fst) = (.error .indeterminate, cache'.map Prod.fst) →
      Matches deep fits m d cache cache' (.error (.error (.indeterminate cause)))
  | tooDeep : deep → d.run.run (cache.map Prod.fst) = (.error .tooDeep, cache'.map Prod.fst) →
      Matches deep fits m d cache cache' (.error Sizer.tooDeep)

/-- A guarded computation leaves the names being resolved as it finds them and goes the way of a
computation that is handed them as a list. -/
def Tracks (resolving : List String) (deep : Prop) (fits : α → Prop) (g : Guarded α)
    (m : Memo α) (d : Descent Unit) : Prop :=
  ∀ cache, HoldsProper cache → ∃ r cache',
    g.run.run ⟨cache, resolving.toFinset⟩ = (r, ⟨cache', resolving.toFinset⟩) ∧
      HoldsProper cache' ∧ Matches deep fits m d cache cache' r

section Runs

variable {text name : String} {g : Guarded TypeLayout} {store store' : Store} {e : Failure}
  {r : Outcome TypeLayout}

theorem run_get_store (f : Store → Guarded α) (store : Store) :
    (get >>= f : Guarded α).run.run store = (f store).run.run store := rfl

theorem run_reuse_known (g : Guarded TypeLayout) (h : store.cache.lookup text = some l) :
    (Guarded.reuse text g).run.run store = (.ok l, store) := by
  rw [Guarded.reuse, run_get_store, h]
  rfl

theorem run_reuse_new (h : store.cache.lookup text = none)
    (hg : g.run.run store = (.ok l, store')) :
    (Guarded.reuse text g).run.run store =
      (.ok l, { store' with cache := (text, l) :: store'.cache }) := by
  rw [Guarded.reuse, run_get_store, h]
  exact run_bind_ok hg

theorem run_reuse_error (h : store.cache.lookup text = none)
    (hg : g.run.run store = (.error e, store')) :
    (Guarded.reuse text g).run.run store = (.error e, store') := by
  rw [Guarded.reuse, run_get_store, h]
  exact run_bind_error hg

/-- What is to be done in the end is done whether or not there is a result. -/
theorem run_finally (f : Store → Store) (hg : g.run.run store = (r, store')) :
    (try g finally modify f : Guarded TypeLayout).run.run store = (r, f store') := by
  unfold ExceptT.run StateT.run at hg ⊢
  simp only [tryFinally, tryFinally', Functor.map, ExceptT.map, ExceptT.mk, bind, StateT.bind, pure]
  rw [hg]
  cases r <;> rfl

theorem run_whileResolving_of_mem (g : Guarded TypeLayout) (h : name ∈ store.resolving) :
    (Guarded.whileResolving name g).run.run store =
      (.error (.error (.indeterminate { typeExpr := name, reason := "recursive type" })), store) := by
  rw [Guarded.whileResolving, run_get_store, if_pos h]
  rfl

theorem run_whileResolving (h : name ∉ store.resolving)
    (hg : g.run.run { store with resolving := insert name store.resolving } = (r, store')) :
    (Guarded.whileResolving name g).run.run store =
      (r, { store' with resolving := store'.resolving.erase name }) := by
  rw [Guarded.whileResolving, run_get_store, if_neg h]
  exact run_finally _ hg

end Runs

namespace Tracks

variable {limit level : Nat} {resolving : List String} {deep deep' : Prop} {fits : α → Prop}
  {g : Guarded α} {m : Memo α} {d : Descent Unit} {text : String}

theorem mono (h : Tracks resolving deep fits g m d) (hd : deep → deep') :
    Tracks resolving deep' fits g m d := by
  intro cache hc
  obtain ⟨r, cache', hrun, hc', hmatch⟩ := h cache hc
  refine ⟨r, cache', hrun, hc', ?_⟩
  cases hmatch with
  | ok ha hm hdescent => exact .ok ha hm hdescent
  | indeterminate hm hdescent => exact .indeterminate hm hdescent
  | tooDeep h hdescent => exact .tooDeep (hd h) hdescent

theorem pure {a : α} (h : fits a) :
    Tracks resolving deep fits (pure a) (pure a) (pure ()) := fun cache hc =>
  ⟨.ok a, cache, rfl, hc, .ok h rfl rfl⟩

theorem refuse (typeExpr reason : String) :
    Tracks resolving deep fits (Guarded.refuse typeExpr reason)
      (indeterminate typeExpr reason) noLayout := fun cache hc =>
  ⟨_, cache, rfl, hc, .indeterminate rfl rfl⟩

theorem bind {f : α → Guarded β} {k : α → Memo β} {e : Descent Unit} {more : β → Prop}
    (hg : Tracks resolving deep fits g m d)
    (hf : ∀ a, fits a → Tracks resolving deep more (f a) (k a) e) :
    Tracks resolving deep more (g >>= f) (m >>= k) (d >>= fun _ => e) := by
  intro cache hc
  obtain ⟨r, cache₁, hrun, hc₁, hmatch⟩ := hg cache hc
  cases hmatch with
  | indeterminate hm hd =>
      exact ⟨_, cache₁, run_bind_error hrun, hc₁,
        .indeterminate (run_bind_error hm) (run_bind_error hd)⟩
  | tooDeep h hd =>
      exact ⟨_, cache₁, run_bind_error hrun, hc₁, .tooDeep h (run_bind_error hd)⟩
  | ok ha hm hd =>
      obtain ⟨r, cache₂, hrun₂, hc₂, hmatch₂⟩ := hf _ ha cache₁ hc₁
      refine ⟨r, cache₂, (run_bind_ok hrun).trans hrun₂, hc₂, ?_⟩
      cases hmatch₂ with
      | ok hb hm₂ hd₂ =>
          exact .ok hb ((run_bind_ok hm).trans hm₂) ((run_bind_ok hd).trans hd₂)
      | indeterminate hm₂ hd₂ =>
          exact .indeterminate ((run_bind_ok hm).trans hm₂) ((run_bind_ok hd).trans hd₂)
      | tooDeep hdeep hd₂ => exact .tooDeep hdeep ((run_bind_ok hd).trans hd₂)

/-- What is made of a result is of no consequence for a descent. -/
theorem map {more : β → Prop} (hg : Tracks resolving deep fits g m d) (f : α → β)
    (hf : ∀ a, fits a → more (f a)) :
    Tracks resolving deep more (g >>= fun a => Pure.pure (f a))
      (m >>= fun a => Pure.pure (f a)) d := by
  have h : Tracks resolving deep more (g >>= fun a => Pure.pure (f a))
      (m >>= fun a => Pure.pure (f a)) (d >>= fun _ => Pure.pure ()) := by
    apply hg.bind
    intro a ha
    exact .pure (hf a ha)
  rwa [bind_pure_unit] at h

/-- A part of a type is given up on below the limit, and else it is remembered. -/
theorem reuse {g : Guarded TypeLayout} {m : Memo TypeLayout} (hdeep : limit < level → deep)
    (h : level ≤ limit → Tracks resolving deep TypeLayout.IsProper g m d) :
    Tracks resolving deep TypeLayout.IsProper
      (if limit < level then throw Sizer.tooDeep else Guarded.reuse text g) (remember text m)
      (visit limit level text d) := by
  intro cache hc
  -- a remembered part counts against the limit as well, so the limit is looked at first
  by_cases hl : limit < level
  · rw [if_pos hl]
    exact ⟨_, cache, rfl, hc, .tooDeep (hdeep hl) (run_visit_tooDeep d hl)⟩
  · rw [if_neg hl]
    cases hk : cache.lookup text with
    | some l =>
        exact ⟨.ok l, cache, run_reuse_known g hk, hc, .ok (hc _ _ hk) (run_remember_known m hk)
          (run_visit_known d hl (mem_keys_iff.2 ⟨l, hk⟩))⟩
    | none =>
        have hnot : text ∉ cache.map Prod.fst := notMem_keys_iff.2 hk
        obtain ⟨r, cache', hrun, hc', hmatch⟩ := h (Nat.le_of_not_lt hl) cache hc
        cases hmatch with
        | ok hproper hm hd =>
            exact ⟨_, _, run_reuse_new hk hrun, hc'.cons hproper,
              .ok hproper (run_remember_new hk hm) (run_visit_ok hl hnot hd)⟩
        | indeterminate hm hd =>
            exact ⟨_, cache', run_reuse_error hk hrun, hc',
              .indeterminate (run_remember_error hk hm) (run_visit_error hl hnot hd)⟩
        | tooDeep h hd =>
            exact ⟨_, cache', run_reuse_error hk hrun, hc', .tooDeep h (run_visit_error hl hnot hd)⟩

theorem unlessParam {g : Guarded TypeLayout} {m : Memo TypeLayout}
    (h : Tracks resolving deep TypeLayout.IsProper g m d) :
    Tracks resolving deep TypeLayout.IsProper (Guarded.unlessParam scope text g)
      (if scope.typeParams.contains text then indeterminate text "type parameter" else m)
      (if scope.typeParams.contains text then noLayout else d) := by
  unfold Guarded.unlessParam
  split
  · exact .refuse _ _
  · exact h

/-- The name that is put in for a computation is taken out behind it. -/
theorem whileResolving {name : String} {g : Guarded TypeLayout} {m : Memo TypeLayout}
    {fits : TypeLayout → Prop} (hn : name ∉ resolving)
    (h : Tracks (name :: resolving) deep fits g m d) :
    Tracks resolving deep fits (Guarded.whileResolving name g) m d := by
  intro cache hc
  obtain ⟨r, cache', hrun, hc', hmatch⟩ := h cache hc
  rw [List.toFinset_cons] at hrun
  have hnot : name ∉ resolving.toFinset := by simpa using hn
  refine ⟨r, cache', ?_, hc', hmatch⟩
  rw [run_whileResolving hnot hrun, Finset.erase_insert hnot]

/-- A name that is being resolved is refused, and the names being resolved stay as they are. -/
theorem recursive {name : String} {fits : TypeLayout → Prop} (hn : name ∈ resolving)
    (g : Guarded TypeLayout) :
    Tracks resolving deep fits (Guarded.whileResolving name g)
      (indeterminate name "recursive type") noLayout := by
  intro cache hc
  have hmem : name ∈ resolving.toFinset := by simpa using hn
  exact ⟨_, cache, run_whileResolving_of_mem g hmem, hc, .indeterminate rfl rfl⟩

theorem layouts {size : TypeTree → Guarded TypeLayout} {resolve : String → Memo TypeLayout}
    {down : Nat → String → Descent Unit} {fields : List TypeTree}
    (h : ∀ field ∈ fields, Tracks resolving deep TypeLayout.IsProper (size field)
      (field.layout scope resolve) (field.descend scope limit down level)) :
    Tracks resolving deep (fun ls => ∀ l ∈ ls, l.IsProper) (fields.mapM size)
      (TypeTree.layouts scope resolve fields) (TypeTree.descendAll scope limit down level fields) := by
  induction fields with
  | nil => exact .pure (List.forall_mem_nil _)
  | cons field fields ih =>
      obtain ⟨hfield, hfields⟩ := List.forall_mem_cons.1 h
      rw [List.mapM_cons]
      refine hfield.bind fun l hl => ?_
      exact (ih hfields).map (fun ls => l :: ls) fun ls hls => List.forall_mem_cons.2 ⟨hl, hls⟩

/-- A name goes the way of its underlying type, while it is being resolved. -/
theorem name {size : TypeTree → Guarded TypeLayout}
    (ih : ∀ t, scope.underlying? text = some t → text ∉ resolving →
      Tracks (text :: resolving) deep TypeLayout.IsProper (size (TypeTree.parse t.toList))
        (scope.layoutOf (text :: resolving) (TypeTree.parse t.toList))
        (scope.descend limit (text :: resolving) (level + partLevels) (TypeTree.parse t.toList))) :
    Tracks resolving deep TypeLayout.IsProper (Guarded.nameLayout scope size text)
      (nameLayout scope (scope.resolver resolving) text)
      (descendName scope (scope.descender limit resolving level) text) := by
  unfold Guarded.nameLayout nameLayout descendName
  cases hf : fixedLayout? scope.abi text with
  | some l => exact .pure (isProper_fixed hf)
  | none =>
      simp only [Option.isSome_none, Bool.false_eq_true, if_false]
      split
      · split
        · exact .pure (isProper_word _)
        · exact .refuse _ _
      · unfold Scope.resolver Scope.descender
        cases hu : scope.underlying? text with
        | none => exact .refuse _ _
        | some t =>
            dsimp only
            by_cases hr : text ∈ resolving
            · simp only [if_pos hr]
              exact .recursive hr _
            · simp only [if_neg hr]
              exact .whileResolving hr (ih t hu hr)

end Tracks

/-! ### Guarded sizing goes the way of sizing -/

/-- **Guarded sizing goes the way of sizing**, as long as the limit leaves room for the depth of the
type. -/
theorem Scope.tracks (scope : Scope) (limit level : Nat) (resolving : List String) (tree : TypeTree) :
    Tracks resolving (limit < level + scope.depth resolving tree) TypeLayout.IsProper
      (scope.guardedLayout limit level tree) (scope.layoutOf resolving tree)
      (scope.descend limit resolving level tree) := by
  -- the induction is on the levels that are left, since a name can stand for any type
  induction hn : limit + 1 - level using Nat.strong_induction_on generalizing level resolving tree with
  | _ n ih =>
  subst hn
  have below {levels : Nat} {names : List String} {part : TypeTree} (hl : level ≤ limit)
      (hlevels : 0 < levels)
      (hd : levels + scope.depth names part ≤ scope.depth resolving tree) :
      Tracks names (limit < level + scope.depth resolving tree) TypeLayout.IsProper
        (scope.guardedLayout limit (level + levels) part) (scope.layoutOf names part)
        (scope.descend limit names (level + levels) part) := by
    refine (ih _ ?_ (level + levels) names part rfl).mono fun h => ?_
    · omega
    · omega
  have inside {levels : Nat} {part : TypeTree} (hl : level ≤ limit) (hlevels : 0 < levels)
      (hd : levels + part.depth (scope.nameDepth resolving) ≤
        tree.depth (scope.nameDepth resolving)) :
      Tracks resolving (limit < level + scope.depth resolving tree) TypeLayout.IsProper
        (scope.guardedLayout limit (level + levels) part)
        (part.layout scope (scope.resolver resolving))
        (part.descend scope limit (scope.descender limit resolving) (level + levels)) := by
    have hpart := @below levels resolving part hl hlevels (by rwa [Scope.depth_eq, Scope.depth_eq])
    rwa [Scope.layoutOf_eq, Scope.descend_eq] at hpart
  rw [Scope.guardedLayout.eq_def, Scope.layoutOf_eq, Scope.descend_eq]
  have hdeep (h : limit < level) : limit < level + scope.depth resolving tree := Nat.lt_add_right _ h
  cases tree with
  | empty => exact .reuse hdeep fun _ => .refuse _ _
  | group text inner =>
      exact .reuse hdeep fun hl => inside hl (by decide) (Nat.le_refl _)
  | name text =>
      refine .reuse hdeep fun hl => .unlessParam (.name fun t hu hr => below hl (by decide) ?_)
      rw [Scope.depth_eq scope resolving, TypeTree.depth, Scope.nameDepth, hu]
      simp [hr]
  | word text => exact .reuse hdeep fun _ => .unlessParam (.pure (isProper_word _))
  | slice text => exact .reuse hdeep fun _ => .unlessParam (.pure (isProper_words _ (by decide)))
  | interface text => exact .reuse hdeep fun _ => .unlessParam (.pure (isProper_words _ (by decide)))
  | malformed text reason => exact .reuse hdeep fun _ => .unlessParam (.refuse _ _)
  | array text length element =>
      refine .reuse hdeep fun hl => .unlessParam ?_
      exact (inside hl (by decide) (Nat.le_refl _)).map _ fun l hl => isProper_array length hl
  | struct text fields =>
      refine .reuse hdeep fun hl => .unlessParam (.map (.layouts fun field hm => ?_) _ fun ls hls => ?_)
      · exact inside hl (by decide) (TypeTree.depth_le_depths hm)
      · exact isProper_struct _ hls

/-! ### How sizing ends -/

/-- How sizing a type ends: with a layout, with the error that there is none, or, only where it goes
too deep, by giving up. -/
inductive Ending (deep : Prop) : Outcome TypeLayout → Prop
  | layout {l : TypeLayout} : l.IsProper → Ending deep (.ok l)
  | refused (cause : Indeterminate) : Ending deep (.error (.error (.indeterminate cause)))
  | givenUp : deep → Ending deep (.error Sizer.tooDeep)

theorem Matches.ending {deep : Prop} {m : Memo TypeLayout} {d : Descent Unit}
    {r : Outcome TypeLayout} (h : Matches deep TypeLayout.IsProper m d cache cache' r) :
    Ending deep r := by
  cases h with
  | ok hl => exact .layout hl
  | indeterminate => exact .refused _
  | tooDeep h => exact .givenUp h

namespace Sizer

variable {s : Sizer}

/-- Sizing a type expression while some names are being resolved, and the store it leaves. -/
def guardedRun (s : Sizer) (limit : Nat) (resolving : Finset String) (typeExpr : String) :
    Outcome TypeLayout × Store :=
  (s.scope.guardedLayout limit 0 (TypeTree.parse typeExpr.toList)).run.run ⟨s.cache, resolving⟩

/-- However sizing ends, the names being resolved are those from before. -/
theorem guardedRun_ends (hc : HoldsProper s.cache) (limit : Nat) (resolving : Finset String)
    (typeExpr : String) :
    (s.guardedRun limit resolving typeExpr).2.resolving = resolving ∧
      Ending (limit < s.scope.depth resolving.toList (TypeTree.parse typeExpr.toList))
        (s.guardedRun limit resolving typeExpr).1 := by
  obtain ⟨r, cache', hrun, -, hmatch⟩ :=
    s.scope.tracks limit 0 resolving.toList (TypeTree.parse typeExpr.toList) s.cache hc
  rw [Finset.toList_toFinset] at hrun
  rw [Nat.zero_add] at hmatch
  rw [guardedRun, hrun]
  exact ⟨rfl, hmatch.ending⟩

/-- Guarded sizing finds what sizing within the limit finds, and remembers the same unless it gives up. -/
theorem layoutWithin_eq_guardedRun (hc : HoldsProper s.cache) (limit : Nat) (typeExpr : String) :
    (s.layoutWithin limit typeExpr).1 = (s.guardedRun limit ∅ typeExpr).1 ∧
      ((s.layoutWithin limit typeExpr).1 ≠ .error tooDeep →
        (s.layoutWithin limit typeExpr).2.cache = (s.guardedRun limit ∅ typeExpr).2.cache) := by
  obtain ⟨r, cache', hrun, -, hmatch⟩ :=
    s.scope.tracks limit 0 [] (TypeTree.parse typeExpr.toList) s.cache hc
  rw [List.toFinset_nil] at hrun
  rw [guardedRun, hrun]
  cases hmatch with
  | ok _ hm hd => simp [layoutWithin, isTooDeep, descent, hd, layoutOf, hm]
  | indeterminate hm hd => simp [layoutWithin, isTooDeep, descent, hd, layoutOf, hm]
  | tooDeep _ hd => simp [layoutWithin, isTooDeep, descent, hd]

end Sizer

/-- Whatever a sizer was asked and whatever was declared before, names that stand for themselves included:
sizing a type expression ends with a layout, with the error that there is none or by giving up, the last
only if the type goes deeper than the limit, and the names being resolved are those from before.  With no
name being resolved that is what the sizer finds within the limit. -/
theorem layout_ends (scope : Scope) (events : List Sizer.Event) (limit : Nat) (typeExpr : String) :
    let s := (Sizer.ofScope scope).afterEvents events
    (∀ resolving : Finset String,
      let ran := s.guardedRun limit resolving typeExpr
      ran.2.resolving = resolving ∧
        Ending (limit < s.scope.depth resolving.toList (TypeTree.parse typeExpr.toList)) ran.1) ∧
      (let ran := s.guardedRun limit ∅ typeExpr
      (s.layoutWithin limit typeExpr).1 = ran.1 ∧
        ((s.layoutWithin limit typeExpr).1 ≠ .error Sizer.tooDeep →
          (s.layoutWithin limit typeExpr).2.cache = ran.2.cache)) := by
  intro s
  have hs : s.IsCoherent := ((Sizer.isCoherent_ofScope scope).afterEvents events).1
  have hc : HoldsProper s.cache := Coherent.holdsProper hs
  constructor
  · intro resolving
    exact Sizer.guardedRun_ends hc limit resolving typeExpr
  · exact Sizer.layoutWithin_eq_guardedRun hc limit typeExpr

/-- Where there is room for less than their levels, nested arrays get neither a layout nor the error that
there is none; and no room is enough for all types. -/
theorem not_ending_nestedArray :
    (¬ ∃ limit < 1200,
      Ending False (plainSizer.layoutWithin limit (String.ofList (nestedArray 400).text)).1) ∧
      ¬ ∃ limit, ∀ typeExpr, Ending False (plainSizer.layoutWithin limit typeExpr).1 := by
  have hgivenUp {limit n : Nat} (hn : limit < partLevels * n) :
      ¬ Ending False (plainSizer.layoutWithin limit (String.ofList (nestedArray n).text)).1 := by
    rw [Sizer.layoutWithin_fst, if_pos (isTooDeep_nestedArray hn)]
    intro h
    cases h with
    | givenUp h => exact h
  refine ⟨fun ⟨limit, hlimit, h⟩ => hgivenUp hlimit h, fun ⟨limit, h⟩ => ?_⟩
  have hn : limit < partLevels * (limit + 1) := by
    simp only [partLevels]
    omega
  exact hgivenUp hn (h _)

end StructLayout.Sizing
