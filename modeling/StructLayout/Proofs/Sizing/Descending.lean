import StructLayout.Proofs.Sizing.RememberedDepth

/-!
# Descending is sizing without layouts

A descent goes through a type as sizing does and stops where sizing stops, unless it is given up on: it
remembers the same texts and finds out whether there is a layout.  So it makes no difference at which
level it starts, as long as it is not given up on there or further down.

A descent at a level and one at a level above it are compared with sizing at once (`Mirrors`), since each
goes on with what it remembers.  The main statement is `Scope.IsAt.mirrors`, by induction along the way of
sizing.
-/

namespace StructLayout.Sizing

open Source

variable {scope : Scope} {tree : TypeTree} {α β : Type} {limit : Nat}

/-! ### Descents that mirror a computation -/

/-- What a descent tells of a result: whether there is one. -/
def outline (r : Except Indeterminate α) : Except Halt Unit :=
  match r with
  | .ok _ => .ok ()
  | .error _ => .error .indeterminate

/-- The end of a descent that takes the way of a computation. -/
def Follows (d : Descent Unit) (m : Memo α) (cache : Cache) : Prop :=
  d.run.run (cache.map Prod.fst) =
    (outline (m.run.run cache).1, (m.run.run cache).2.map Prod.fst)

/-- Unless the deeper of two descents is given up on, both take the way of a computation. -/
def Mirrors (m : Memo α) (deep high : Descent Unit) : Prop :=
  ∀ cache : Cache, (deep.run.run (cache.map Prod.fst)).1 ≠ .error .tooDeep →
    Follows deep m cache ∧ Follows high m cache

namespace Mirrors

variable {m : Memo α} {deep high : Descent Unit}

theorem pure (a : α) : Mirrors (pure a : Memo α) (pure ()) (pure ()) := fun _ _ => ⟨rfl, rfl⟩

theorem indeterminate (typeExpr reason : String) :
    Mirrors (indeterminate typeExpr reason : Memo α) noLayout noLayout := fun _ _ => ⟨rfl, rfl⟩

theorem follows_bind {f : α → Memo β} {d e : Descent Unit} {cache : Cache} (hd : Follows d m cache)
    (he : ∀ a cache', m.run.run cache = (.ok a, cache') → Follows e (f a) cache') :
    Follows (d >>= fun _ => e) (m >>= f) cache := by
  unfold Follows at hd ⊢
  rcases hm : m.run.run cache with ⟨r | a, cache'⟩
  · rw [hm] at hd
    rw [run_bind_error hd, run_bind_error hm]
    rfl
  · rw [hm] at hd
    rw [run_bind_ok hd, run_bind_ok hm]
    exact he a cache' hm

theorem bind {f : α → Memo β} {deep' high' : Descent Unit} (hm : Mirrors m deep high)
    (hf : ∀ a, Mirrors (f a) deep' high') :
    Mirrors (m >>= f) (deep >>= fun _ => deep') (high >>= fun _ => high') := by
  intro cache hne
  have hfirst : (deep.run.run (cache.map Prod.fst)).1 ≠ .error .tooDeep := by
    intro he
    refine hne ?_
    rw [run_bind_error (Prod.ext he rfl)]
  obtain ⟨hdeep, hhigh⟩ := hm cache hfirst
  have hrest (a : α) (cache' : Cache) (hrun : m.run.run cache = (.ok a, cache')) :
      Follows deep' (f a) cache' ∧ Follows high' (f a) cache' := by
    refine hf a cache' fun he => hne ?_
    unfold Follows at hdeep
    rw [hrun] at hdeep
    rw [run_bind_ok hdeep]
    exact he
  exact ⟨follows_bind hdeep fun a cache' h => (hrest a cache' h).1,
    follows_bind hhigh fun a cache' h => (hrest a cache' h).2⟩

/-- What is made of a result is of no consequence for a descent. -/
theorem map (hm : Mirrors m deep high) (f : α → β) :
    Mirrors (m >>= fun a => Pure.pure (f a)) deep high := by
  have key {d : Descent Unit} {cache : Cache} (hd : Follows d m cache) :
      Follows d (m >>= fun a => Pure.pure (f a)) cache := by
    unfold Follows at hd ⊢
    rw [hd]
    rcases hrun : m.run.run cache with ⟨r | a, cache'⟩
    · rw [run_bind_error hrun]
      rfl
    · rw [run_bind_ok hrun]
      rfl
  exact fun cache hne => (hm cache hne).imp key key

variable {level level' : Nat} {text : String}

theorem follows_visit {m : Memo TypeLayout} {d : Descent Unit} {cache : Cache}
    (hl : ¬ limit < level) (hd : cache.lookup text = none → Follows d m cache) :
    Follows (visit limit level text d) (remember text m) cache := by
  unfold Follows at hd ⊢
  cases hk : cache.lookup text with
  | some l =>
      rw [run_visit_known d hl (mem_keys_iff.2 ⟨l, hk⟩), run_remember_known m hk]
      rfl
  | none =>
      have hnot : text ∉ cache.map Prod.fst := notMem_keys_iff.2 hk
      have hrun := hd hk
      rcases hm : m.run.run cache with ⟨e | l, cache'⟩
      · rw [hm] at hrun
        rw [run_visit_error hl hnot hrun, run_remember_error hk hm]
        rfl
      · rw [hm] at hrun
        rw [run_visit_ok hl hnot hrun, run_remember_new hk hm]
        rfl

theorem visit {m : Memo TypeLayout} (hl : level' ≤ level) (hm : Mirrors m deep high) :
    Mirrors (remember text m) (visit limit level text deep) (Sizing.visit limit level' text high) := by
  intro cache hne
  have hdeepest : ¬ limit < level := fun h => hne (by rw [run_visit_tooDeep deep h])
  have hin (hk : cache.lookup text = none) : Follows deep m cache ∧ Follows high m cache := by
    refine hm cache fun he => hne ?_
    have hnot : text ∉ cache.map Prod.fst := notMem_keys_iff.2 hk
    rw [run_visit_error hdeepest hnot (Prod.ext he rfl)]
  exact ⟨follows_visit hdeepest fun hk => (hin hk).1,
    follows_visit (fun h => hdeepest (Nat.lt_of_lt_of_le h hl)) fun hk => (hin hk).2⟩

theorem visitUnlessParam {m : Memo TypeLayout} (hl : level' ≤ level)
    (hm : text ∉ scope.typeParams → Mirrors m deep high) :
    Mirrors (unlessParam scope text m) (visitUnlessParam scope limit level text deep)
      (Sizing.visitUnlessParam scope limit level' text high) := by
  refine Mirrors.visit hl ?_
  split
  · exact .indeterminate _ _
  · next hp => exact hm (by simpa using hp)

theorem descendAll {resolve : String → Memo TypeLayout} {down up : Nat → String → Descent Unit}
    {fields : List TypeTree} (h : ∀ field ∈ fields,
      Mirrors (field.layout scope resolve) (field.descend scope limit down level)
        (field.descend scope limit up level')) :
    Mirrors (TypeTree.layouts scope resolve fields) (TypeTree.descendAll scope limit down level fields)
      (TypeTree.descendAll scope limit up level' fields) := by
  induction fields with
  | nil => exact .pure []
  | cons field fields ih =>
      obtain ⟨hfield, hfields⟩ := List.forall_mem_cons.1 h
      exact hfield.bind fun l => (ih hfields).map fun ls => l :: ls

end Mirrors

/-! ### Descents mirror sizing -/

/-- A descent into a name goes on as sizing does. -/
theorem Mirrors.name {resolving : List String} {level level' : Nat} {text : String}
    (hp : text ∉ scope.typeParams)
    (ih : ∀ part, Part scope (.name text) part → text ∉ resolving →
      Mirrors (scope.layoutOf (text :: resolving) part)
        (scope.descend limit (text :: resolving) (level + partLevels) part)
        (scope.descend limit (text :: resolving) (level' + partLevels) part)) :
    Mirrors (nameLayout scope (scope.resolver resolving) text)
      (descendName scope (scope.descender limit resolving level) text)
      (descendName scope (scope.descender limit resolving level') text) := by
  unfold nameLayout descendName
  cases hf : fixedLayout? scope.abi text with
  | some l => exact .pure l
  | none =>
      simp only [Option.isSome_none, Bool.false_eq_true, if_false]
      split
      · split
        · exact .pure _
        · exact .indeterminate _ _
      · next hb =>
        rw [List.contains_iff_mem] at hb
        unfold Scope.resolver Scope.descender
        cases hu : scope.underlying? text with
        | none => exact .indeterminate _ _
        | some t =>
            dsimp only
            by_cases hr : text ∈ resolving
            · simp only [if_pos hr]
              exact .indeterminate _ _
            · simp only [if_neg hr]
              exact ih _ (.declared hp hf hb hu) hr

/-- **A descent takes the way of sizing** unless it is given up on, and if a descent at some level is
not, then no descent at a level above it is. -/
theorem Scope.IsAt.mirrors {resolving : List String} (h : scope.IsAt resolving tree)
    {level level' : Nat} (hl : level' ≤ level) :
    Mirrors (scope.layoutOf resolving tree) (scope.descend limit resolving level tree)
      (scope.descend limit resolving level' tree) := by
  refine Scope.IsAt.induction (motive := fun resolving tree => ∀ level level', level' ≤ level →
    Mirrors (scope.layoutOf resolving tree) (scope.descend limit resolving level tree)
      (scope.descend limit resolving level' tree)) ?_ h level level' hl
  clear h hl level level'
  intro resolving tree h ih level level' hl
  -- all parts but what a name stands for are sized with the same names being resolved
  have below {part : TypeTree} (levels : Nat) (hp : Part scope tree part)
      (hn : ∀ name ∈ resolving, tree ≠ .name name)
      (he : tree.entering resolving = resolving) :
      Mirrors (part.layout scope (scope.resolver resolving))
        (part.descend scope limit (scope.descender limit resolving) (level + levels))
        (part.descend scope limit (scope.descender limit resolving) (level' + levels)) := by
    have hin := ih part hp hn (level + levels) (level' + levels) (Nat.add_le_add_right hl levels)
    rwa [he, Scope.layoutOf_eq, Scope.descend_eq, Scope.descend_eq] at hin
  rw [Scope.layoutOf_eq, Scope.descend_eq, Scope.descend_eq]
  cases tree with
  | empty => exact .visit hl (.indeterminate _ _)
  | group text inner => exact .visit hl (below groupLevels .group (by simp) rfl)
  | name text =>
      refine .visitUnlessParam hl fun hp => .name hp fun part hpart hr => ?_
      exact ih part hpart (fun name hm he => hr (by cases he; exact hm)) _ _
        (Nat.add_le_add_right hl partLevels)
  | word text => exact .visitUnlessParam hl fun _ => .pure _
  | slice text => exact .visitUnlessParam hl fun _ => .pure _
  | interface text => exact .visitUnlessParam hl fun _ => .pure _
  | malformed text reason => exact .visitUnlessParam hl fun _ => .indeterminate _ _
  | array text length element =>
      exact .visitUnlessParam hl fun hp => (below partLevels (.element hp) (by simp) rfl).map _
  | struct text fields =>
      refine .visitUnlessParam hl fun hp => (Mirrors.descendAll fun field hm => ?_).map _
      exact below partLevels (.field hp hm) (by simp) rfl

end StructLayout.Sizing
