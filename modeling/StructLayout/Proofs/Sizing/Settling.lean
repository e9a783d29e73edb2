import StructLayout.Proofs.Sizing.ByValue

/-!
# What sizing comes to

Sizing comes to the same result whatever derivable layouts are remembered (`Settles`), and the result
is the one of the sizing rules (`Scope.Justifies`): a layout can be derived, and a type is refused as
recursive only for a name in it that holds itself by value.

The step is `Scope.IsAt.settles_remember`: what is remembered is derivable, and what is derivable is
found afresh too, even while names are being resolved.  The main statement is `Scope.IsAt.settles`, by
induction along the way of sizing.
-/

namespace StructLayout.Sizing

open Source Relation

variable {scope : Scope} {tree part : TypeTree} {α β : Type}

/-! ### Computations that settle -/

/-- A computation comes to a result whatever derivable layouts are remembered, and remembers only
derivable layouts itself. -/
def Settles (scope : Scope) (m : Memo α) (r : Except Indeterminate α) : Prop :=
  ∀ cache, Remembers scope cache →
    ∃ cache', m.run.run cache = (r, cache') ∧ Remembers scope cache'

theorem Settles.pure (scope : Scope) (a : α) : Settles scope (pure a : Memo α) (.ok a) :=
  Yields.pure scope a

theorem Settles.indeterminate (scope : Scope) (typeExpr reason : String) :
    Settles scope (indeterminate typeExpr reason : Memo α) (.error { typeExpr, reason }) :=
  fun cache hc => ⟨cache, rfl, hc⟩

theorem Settles.bind {m : Memo α} {f : α → Memo β} {a : α} {r : Except Indeterminate β}
    (hm : Settles scope m (.ok a)) (hf : Settles scope (f a) r) : Settles scope (m >>= f) r :=
  Yields.run_bind hm hf

theorem Settles.bind_error {m : Memo α} {f : α → Memo β} {e : Indeterminate}
    (hm : Settles scope m (.error e)) : Settles scope (m >>= f) (.error e) := by
  intro cache hc
  obtain ⟨cache', h, hc'⟩ := hm cache hc
  exact ⟨cache', run_bind_error h, hc'⟩

theorem run_remember_error {cache cache' : Cache} {text : String} {m : Memo TypeLayout}
    {e : Indeterminate} (h : cache.lookup text = none) (hm : m.run.run cache = (.error e, cache')) :
    (remember text m).run.run cache = (.error e, cache') := by
  rw [remember, run_get_bind, h]
  exact run_bind_error hm

/-! ### Results that the rules justify -/

/-- The sizing rules justify a result for a type: a layout can be derived, and a name that makes the
type recursive is held by it by value, and holds itself. -/
def Scope.Justifies (scope : Scope) (tree : TypeTree) : Except Indeterminate TypeLayout → Prop
  | .ok l => ∃ n, Sized scope n tree l
  | .error e => e.reason = "recursive type" →
      ReflTransGen (Part scope) tree (.name e.typeExpr) ∧
        TransGen (Part scope) (.name e.typeExpr) (.name e.typeExpr)

theorem Scope.justifies_error {e : Indeterminate} (h : e.reason ≠ "recursive type") :
    scope.Justifies tree (.error e) := fun he => absurd he h

/-- A type is refused for whatever one of its parts is refused for. -/
theorem Scope.Justifies.of_part {e : Indeterminate} (hp : Part scope tree part)
    (h : scope.Justifies part (.error e)) : scope.Justifies tree (.error e) :=
  fun he => (h he).imp_left (.head hp)

/-- Sizing a type settles with a result that the rules justify. -/
def Scope.SettlesOn (scope : Scope) (m : Memo TypeLayout) (tree : TypeTree) : Prop :=
  ∃ r, Settles scope m r ∧ scope.Justifies tree r

theorem Scope.SettlesOn.ok {n : Nat} {l : TypeLayout} (h : Sized scope n tree l) :
    scope.SettlesOn (pure l) tree := ⟨.ok l, .pure scope l, n, h⟩

theorem Scope.SettlesOn.refused {typeExpr reason : String} (h : reason ≠ "recursive type") :
    scope.SettlesOn (indeterminate typeExpr reason) tree :=
  ⟨_, .indeterminate scope typeExpr reason, Scope.justifies_error h⟩

/-- The layouts of fields settle: with a layout for each, all through a common number of levels, or
with what one of them is refused for. -/
theorem settles_layouts {resolve : String → Memo TypeLayout} {fields : List TypeTree}
    (h : ∀ field ∈ fields, scope.SettlesOn (field.layout scope resolve) field) :
    (∃ ls n, Settles scope (TypeTree.layouts scope resolve fields) (.ok ls) ∧
      fields.length = ls.length ∧ ∀ p ∈ fields.zip ls, Sized scope n p.1 p.2) ∨
    ∃ e, Settles scope (TypeTree.layouts scope resolve fields) (.error e) ∧
      ∃ field ∈ fields, scope.Justifies field (.error e) := by
  induction fields with
  | nil => exact .inl ⟨[], 0, .pure scope [], rfl, by simp⟩
  | cons field fields ih =>
      obtain ⟨hfield, hfields⟩ := List.forall_mem_cons.1 h
      obtain ⟨r, hr, hj⟩ := hfield
      cases r with
      | error e => exact .inr ⟨e, hr.bind_error, field, by simp, hj⟩
      | ok l =>
          obtain ⟨n, hn⟩ := hj
          rcases ih hfields with ⟨ls, m, hls, hlen, hm⟩ | ⟨e, he, f, hf, hj⟩
          · refine .inl ⟨l :: ls, max n m, hr.bind (hls.bind (.pure scope _)), by simp [hlen], ?_⟩
            rw [List.zip_cons_cons]
            refine List.forall_mem_cons.2 ⟨hn.mono (Nat.le_max_left n m), fun p hp => ?_⟩
            exact (hm p hp).mono (Nat.le_max_right n m)
          · exact .inr ⟨e, hr.bind he.bind_error, f, by simp [hf], hj⟩

/-! ### Reasons -/

/-- Whatever is wrong with a text, it is not a type that holds itself. -/
theorem reason_ne_of_parse_malformed {cs : List Char} {text reason : String}
    (h : TypeTree.parse cs = .malformed text reason) : reason ≠ "recursive type" := by
  have hlength (s : String) : "array length " ++ s ++ " is not a literal" ≠ "recursive type" := by
    intro he
    have := congrArg (fun s => s.toList.head?) he
    simp at this
  unfold TypeTree.parse at h
  dsimp only at h
  repeat' split at h
  all_goals cases h
  · decide
  · exact hlength _
  · decide

theorem unknownReason_ne (scope : Scope) (name : String) :
    unknownReason scope name ≠ "recursive type" := by
  unfold unknownReason
  dsimp only
  repeat' split
  all_goals decide

/-! ### Sizing settles -/

namespace Scope.IsAt

variable {resolving : List String} {m : Memo TypeLayout}

/-- Remembering makes no difference: a layout that is remembered is found afresh too. -/
theorem settles_remember {r : Except Indeterminate TypeLayout} (h : scope.IsAt resolving tree)
    (heq : scope.layoutOf resolving tree = remember tree.text m) (hm : Settles scope m r)
    (hj : scope.Justifies tree r) : Settles scope (scope.layoutOf resolving tree) r := by
  intro cache hc
  -- computed with nothing remembered, the layout could only be the same
  have hafresh {l : TypeLayout} {k : Nat} (hk : Sized scope k tree l) : r = .ok l := by
    obtain ⟨cache₁, h₁, -⟩ := h.yields_layout hk [] (remembers_nil scope)
    obtain ⟨cache₂, h₂, -⟩ := hm [] (remembers_nil scope)
    rw [heq] at h₁
    cases r with
    | ok l' =>
        rw [run_remember_new rfl h₂] at h₁
        exact congrArg Prod.fst h₁
    | error e =>
        rw [run_remember_error rfl h₂] at h₁
        exact congrArg Prod.fst h₁
  rw [heq]
  cases hl : cache.lookup tree.text with
  | some l =>
      obtain ⟨k, hk⟩ := hc _ l hl
      rw [h.parse_text] at hk
      obtain rfl := hafresh hk
      exact ⟨cache, run_remember_known m hl, hc⟩
  | none =>
      obtain ⟨cache', hr, hc'⟩ := hm cache hc
      cases r with
      | error e => exact ⟨cache', run_remember_error hl hr, hc'⟩
      | ok l =>
          obtain ⟨k, hk⟩ := hj
          rw [← h.parse_text] at hk
          exact ⟨_, run_remember_new hl hr, hc'.cons hk⟩

theorem settlesOn_unlessParam (h : scope.IsAt resolving tree)
    (heq : scope.layoutOf resolving tree = unlessParam scope tree.text m)
    (hm : tree.text ∉ scope.typeParams → scope.SettlesOn m tree) :
    scope.SettlesOn (scope.layoutOf resolving tree) tree := by
  unfold unlessParam at heq
  by_cases hp : tree.text ∈ scope.typeParams
  · have hj : scope.Justifies tree (.error { typeExpr := tree.text, reason := "type parameter" }) :=
      Scope.justifies_error (by simp)
    rw [if_pos (List.contains_iff_mem.2 hp)] at heq
    exact ⟨_, h.settles_remember heq (.indeterminate scope _ _) hj, hj⟩
  · obtain ⟨r, hr, hj⟩ := hm hp
    rw [if_neg (by simpa using hp)] at heq
    exact ⟨r, h.settles_remember heq hr hj, hj⟩

theorem settlesOn_name {text : String} (h : scope.IsAt resolving (.name text))
    (hp : text ∉ scope.typeParams)
    (ih : ∀ part, Part scope (.name text) part → text ∉ resolving →
      scope.SettlesOn (scope.layoutOf (text :: resolving) part) part) :
    scope.SettlesOn (nameLayout scope (scope.resolver resolving) text) (.name text) := by
  unfold nameLayout
  cases hf : fixedLayout? scope.abi text with
  | some l => exact .ok (n := 0) (.fixed hp hf)
  | none =>
      dsimp only
      split
      · next hb =>
        rw [List.contains_iff_mem] at hb
        split
        · next hg => exact .ok (n := 0) (.instantiated hp hf hb (List.contains_iff_mem.1 hg))
        · exact .refused (by simp)
      · next hb =>
        rw [List.contains_iff_mem] at hb
        unfold Scope.resolver
        cases hu : scope.underlying? text with
        | none => exact .refused (unknownReason_ne scope text)
        | some t =>
            have hpart : Part scope (.name text) (TypeTree.parse t.toList) := .declared hp hf hb hu
            dsimp only
            split
            · next hr =>
              exact ⟨_, .indeterminate scope _ _, fun _ => ⟨.refl, h.reached text hr⟩⟩
            · next hr =>
              obtain ⟨r, hs, hj⟩ := ih _ hpart hr
              refine ⟨r, hs, ?_⟩
              cases r with
              | ok l => exact hj.imp' (· + partLevels) fun _ hl => .declared hp hf hb hu hl
              | error e => exact hj.of_part hpart

/-- Sizing settles wherever it is, with the result that the rules justify. -/
theorem settles (h : scope.IsAt resolving tree) :
    scope.SettlesOn (scope.layoutOf resolving tree) tree := by
  -- along the way of sizing: a name that is met again is at once refused
  refine Scope.IsAt.induction
    (motive := fun resolving tree => scope.SettlesOn (scope.layoutOf resolving tree) tree) ?_ h
  clear h
  intro resolving tree h ih
  cases tree with
  | empty =>
      have hj : scope.Justifies .empty
          (.error { typeExpr := "", reason := "empty type expression" }) :=
        Scope.justifies_error (by simp)
      exact ⟨_, h.settles_remember (Scope.layoutOf_eq ..) (.indeterminate scope _ _) hj, hj⟩
  | group text inner =>
      obtain ⟨r, hr, hj⟩ := ih inner .group (by simp)
      have hj' : scope.Justifies (.group text inner) r := by
        cases r with
        | ok l => exact hj.imp' (· + groupLevels) fun _ hl => .group hl
        | error e => exact hj.of_part .group
      rw [Scope.layoutOf_eq] at hr
      exact ⟨r, h.settles_remember (Scope.layoutOf_eq ..) hr hj', hj'⟩
  | name text =>
      refine h.settlesOn_unlessParam (Scope.layoutOf_eq ..) fun hp => h.settlesOn_name hp ?_
      exact fun part hpart hr => ih part hpart fun name hm he => hr (by cases he; exact hm)
  | word text =>
      exact h.settlesOn_unlessParam (Scope.layoutOf_eq ..) fun hp => .ok (n := 0) (.word hp)
  | slice text =>
      exact h.settlesOn_unlessParam (Scope.layoutOf_eq ..) fun hp => .ok (n := 0) (.slice hp)
  | interface text =>
      exact h.settlesOn_unlessParam (Scope.layoutOf_eq ..) fun hp => .ok (n := 0) (.interface hp)
  | malformed text reason =>
      obtain ⟨cs, hcs⟩ := h.parsed
      exact h.settlesOn_unlessParam (Scope.layoutOf_eq ..) fun _ =>
        .refused (reason_ne_of_parse_malformed hcs)
  | array text length element =>
      refine h.settlesOn_unlessParam (Scope.layoutOf_eq ..) fun hp => ?_
      obtain ⟨r, hr, hj⟩ := ih element (.element hp) (by simp)
      rw [Scope.layoutOf_eq] at hr
      cases r with
      | ok l =>
          exact ⟨_, hr.bind (.pure scope _), hj.imp' (· + partLevels) fun _ hl => .array hp hl⟩
      | error e => exact ⟨_, hr.bind_error, hj.of_part (.element hp)⟩
  | struct text fields =>
      refine h.settlesOn_unlessParam (Scope.layoutOf_eq ..) fun hp => ?_
      have hfields : ∀ field ∈ fields,
          scope.SettlesOn (field.layout scope (scope.resolver resolving)) field := by
        intro field hm
        have hf := ih field (.field hp hm) (by simp)
        rw [Scope.layoutOf_eq] at hf
        exact hf
      rcases settles_layouts hfields with ⟨ls, n, hls, hlen, hn⟩ | ⟨e, he, field, hm, hj⟩
      · exact ⟨_, hls.bind (.pure scope _), _, .struct hp hlen hn⟩
      · exact ⟨_, he.bind_error, hj.of_part (.field hp hm)⟩

end Scope.IsAt

end StructLayout.Sizing
