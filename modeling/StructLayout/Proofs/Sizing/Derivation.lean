import Mathlib.Data.Nat.Find
import StructLayout.Sizing.Nesting

/-!
# Deriving layouts

The sizing rules by themselves, without memory and without a list of names being resolved: a layout
is derived from the layouts of parts (`Sized`), and a derivation counts the levels of nesting it goes
through.  A type has at most one layout (`Sized.unique`).

The main statements say that sizing finds every layout that can be derived, whatever it remembers, as
long as what it remembers is derivable (`Sized.yields_layout`), and that a derivation whose levels stay
within the limit is not given up on (`Sized.descends`).  Neither is refused for a name that is being
resolved: a derivation with the fewest levels does not come back to a name it has gone through.
-/

namespace StructLayout.Sizing

open Source

/-! ### Derivations -/

/-- A type has a layout by the sizing rules, through at most a number of levels of parts. -/
inductive Sized (scope : Scope) : Nat → TypeTree → TypeLayout → Prop
  | group {n : Nat} {text : String} {inner : TypeTree} {l : TypeLayout} :
      Sized scope n inner l → Sized scope (n + groupLevels) (.group text inner) l
  | fixed {n : Nat} {text : String} {l : TypeLayout} :
      text ∉ scope.typeParams → fixedLayout? scope.abi text = some l →
      Sized scope n (.name text) l
  | instantiated {n : Nat} {text : String} :
      text ∉ scope.typeParams → fixedLayout? scope.abi text = none → '[' ∈ text.toList →
      String.ofList (text.toList.takeWhile (· != '[')) ∈ genericWordTypes →
      Sized scope n (.name text) (wordLayout scope.abi)
  | declared {n : Nat} {text underlying : String} {l : TypeLayout} :
      text ∉ scope.typeParams → fixedLayout? scope.abi text = none → '[' ∉ text.toList →
      scope.underlying? text = some underlying →
      Sized scope n (TypeTree.parse underlying.toList) l →
      Sized scope (n + partLevels) (.name text) l
  | word {n : Nat} {text : String} :
      text ∉ scope.typeParams → Sized scope n (.word text) (wordLayout scope.abi)
  | slice {n : Nat} {text : String} :
      text ∉ scope.typeParams → Sized scope n (.slice text) (wordsLayout scope.abi 3)
  | interface {n : Nat} {text : String} :
      text ∉ scope.typeParams → Sized scope n (.interface text) (wordsLayout scope.abi 2)
  | array {n : Nat} {text : String} {length : Int} {element : TypeTree} {l : TypeLayout} :
      text ∉ scope.typeParams → Sized scope n element l →
      Sized scope (n + partLevels) (.array text length element) (arrayLayout length l)
  | struct {n : Nat} {text : String} {fields : List TypeTree} {ls : List TypeLayout} :
      text ∉ scope.typeParams → fields.length = ls.length →
      (∀ p ∈ fields.zip ls, Sized scope n p.1 p.2) →
      Sized scope (n + partLevels) (.struct text fields) (structLayout scope.abi ls)

namespace Sized

variable {scope : Scope} {n m : Nat} {tree : TypeTree} {l l' : TypeLayout}

theorem mono (h : Sized scope n tree l) (hm : n ≤ m) : Sized scope m tree l := by
  induction h generalizing m with
  | group _ ih =>
      obtain ⟨k, rfl⟩ := Nat.exists_eq_add_of_le' (Nat.le_trans (Nat.le_add_left _ _) hm)
      exact .group (ih (Nat.le_of_add_le_add_right hm))
  | fixed hp hf => exact .fixed hp hf
  | instantiated hp hf hb hg => exact .instantiated hp hf hb hg
  | declared hp hf hb hu _ ih =>
      obtain ⟨k, rfl⟩ := Nat.exists_eq_add_of_le' (Nat.le_trans (Nat.le_add_left _ _) hm)
      exact .declared hp hf hb hu (ih (Nat.le_of_add_le_add_right hm))
  | word hp => exact .word hp
  | slice hp => exact .slice hp
  | interface hp => exact .interface hp
  | array hp _ ih =>
      obtain ⟨k, rfl⟩ := Nat.exists_eq_add_of_le' (Nat.le_trans (Nat.le_add_left _ _) hm)
      exact .array hp (ih (Nat.le_of_add_le_add_right hm))
  | struct hp hl _ ih =>
      obtain ⟨k, rfl⟩ := Nat.exists_eq_add_of_le' (Nat.le_trans (Nat.le_add_left _ _) hm)
      exact .struct hp hl fun p hz => ih p hz (Nat.le_of_add_le_add_right hm)

theorem unique_all {fields : List TypeTree} {ls ls' : List TypeLayout}
    (hl : fields.length = ls.length) (hl' : fields.length = ls'.length)
    (ih : ∀ p ∈ fields.zip ls, ∀ {m : Nat} {l' : TypeLayout}, Sized scope m p.1 l' → p.2 = l')
    (h : ∀ p ∈ fields.zip ls', Sized scope m p.1 p.2) : ls = ls' := by
  induction fields generalizing ls ls' with
  | nil =>
      rw [List.length_nil] at hl hl'
      rw [List.length_eq_zero_iff.1 hl.symm, List.length_eq_zero_iff.1 hl'.symm]
  | cons f fields ihf =>
      cases ls with
      | nil => cases hl
      | cons l ls =>
          cases ls' with
          | nil => cases hl'
          | cons l' ls' =>
              have hhead : l = l' := ih (f, l) (by simp) (h (f, l') (by simp))
              have htail : ls = ls' := by
                refine ihf (Nat.succ.inj hl) (Nat.succ.inj hl') ?_ ?_
                · exact fun p hp => ih p (by simp [hp])
                · exact fun p hp => h p (by simp [hp])
              rw [hhead, htail]

/-- A type has at most one layout. -/
theorem unique (h : Sized scope n tree l) (h' : Sized scope m tree l') : l = l' := by
  induction h generalizing m l' with
  | group _ ih =>
      cases h' with
      | group h => exact ih h
  | fixed hp hf =>
      cases h' with
      | fixed _ hf' => exact Option.some.inj (hf.symm.trans hf')
      | instantiated _ hf' => exact absurd (hf.symm.trans hf') (Option.some_ne_none _)
      | declared _ hf' => exact absurd (hf.symm.trans hf') (Option.some_ne_none _)
  | instantiated hp hf hb =>
      cases h' with
      | fixed _ hf' => exact absurd (hf'.symm.trans hf) (Option.some_ne_none _)
      | instantiated => rfl
      | declared _ _ hb' => exact absurd hb hb'
  | declared hp hf hb hu _ ih =>
      cases h' with
      | fixed _ hf' => exact absurd (hf'.symm.trans hf) (Option.some_ne_none _)
      | instantiated _ _ hb' => exact absurd hb' hb
      | declared _ _ _ hu' h =>
          obtain rfl := Option.some.inj (hu.symm.trans hu')
          exact ih h
  | word => cases h'; rfl
  | slice => cases h'; rfl
  | interface => cases h'; rfl
  | array _ _ ih =>
      cases h' with
      | array _ h => rw [ih h]
  | struct _ hl _ ih =>
      cases h' with
      | struct _ hl' h => rw [unique_all hl hl' ih h]

end Sized

/-! ### Trees and their texts -/

namespace TypeTree

/-- Only the trimmed text of an expression matters for its shape. -/
theorem parse_congr {cs ds : List Char} (h : Text.trim cs = Text.trim ds) : parse cs = parse ds := by
  rw [parse.eq_def cs, parse.eq_def ds, h]

theorem text_parse (cs : List Char) : (parse cs).text = String.ofList (Text.trim cs) := by
  unfold parse
  dsimp only
  repeat' split
  all_goals first | rfl | simp [text, *]

/-- A tree that was read is what its text is read as. -/
theorem parse_text_parse (cs : List Char) : parse (parse cs).text.toList = parse cs := by
  refine parse_congr ?_
  rw [text_parse, String.toList_ofList, Text.trim_trim]

variable {cs : List Char} {text : String}

/-- What stands in parentheses was read as well. -/
theorem exists_of_parse_eq_group {inner : TypeTree} (h : parse cs = .group text inner) :
    ∃ ds, parse ds = inner := by
  unfold parse at h
  dsimp only at h
  repeat' split at h
  all_goals first | exact ⟨_, (TypeTree.group.inj h).2⟩ | cases h

theorem exists_of_parse_eq_array {length : Int} {element : TypeTree}
    (h : parse cs = .array text length element) : ∃ ds, parse ds = element := by
  unfold parse at h
  dsimp only at h
  repeat' split at h
  all_goals first | exact ⟨_, (TypeTree.array.inj h).2.2⟩ | cases h

/-- The types of fields were read as well. -/
theorem exists_of_parse_eq_struct {fields : List TypeTree} (h : parse cs = .struct text fields) :
    ∀ field ∈ fields, ∃ ds, parse ds = field := by
  have key {text' : String} {decls : List FieldDecl} {ps : List {d // d ∈ decls}}
      (h : TypeTree.struct text' (ps.map fun d => parse d.1.typeExpr.toList) =
        .struct text fields) : ∀ field ∈ fields, ∃ ds, parse ds = field := by
    intro field hf
    rw [← (TypeTree.struct.inj h).2] at hf
    obtain ⟨d, -, rfl⟩ := List.mem_map.1 hf
    exact ⟨_, rfl⟩
  unfold parse at h
  dsimp only at h
  repeat' split at h
  all_goals first | exact key h | cases h

theorem parse_group {rest inside : List Char} (h : Text.trim cs = '(' :: rest)
    (he : enclosed? ('(' :: rest) = some (inside, [])) :
    parse cs = .group (String.ofList ('(' :: rest)) (parse inside) := by
  rw [parse.eq_def]
  dsimp only
  split
  · next h' => rw [h] at h'; cases h'
  · next c' rest' h' =>
      rw [h] at h'
      cases h'
      split
      · next inside' hg =>
          rw [if_pos rfl, he] at hg
          cases hg
          rw [h]
      · next hg => exact absurd he (hg _)

/-- A type that does not start with a parenthesis. -/
theorem parse_bare {c : Char} {rest : List Char} (h : Text.trim cs = c :: rest) (hc : c ≠ '(') :
    parse cs =
      let t := String.ofList (c :: rest)
      if c = '*' then .word t
      else if c = '[' then
        if rest.head? = some ']' then .slice t
        else
          match enclosed? (c :: rest) with
          | none => .malformed t "unbalanced array brackets"
          | some (inside, after) =>
            match Text.readLiteral? (Text.trim inside) with
            | some length => .array t length (parse after)
            | none =>
              .malformed t ("array length " ++
                Text.quoted (String.ofList (Text.trim inside)) ++ " is not a literal")
      else if wordBeginnings.any (startsWith · (c :: rest)) then .word t
      else if startsWith "interface" (c :: rest) then .interface t
      else if startsWith "struct" (c :: rest) then
        match enclosed? ((c :: rest).dropWhile (· != '\x7b')) with
        | none => .malformed t "unbalanced struct braces"
        | some (inside, _) =>
          .struct t ((fieldList inside).map fun d => parse d.typeExpr.toList)
      else .name t := by
  rw [parse.eq_def]
  dsimp only
  split
  · next h' => rw [h] at h'; cases h'
  · next c' rest' h' =>
      rw [h] at h'
      cases h'
      rw [h]
      split
      · next inside' hg =>
          rw [if_neg hc] at hg
          cases hg
      · repeat' split
        all_goals simp_all

end TypeTree

/-! ### Sizing with a memory -/

section Runs

variable {ε σ α β : Type} {m : ExceptT ε (StateM σ) α} {f : α → ExceptT ε (StateM σ) β} {s s' : σ}

/-- After a result a computation goes on with it, in the state that was left. -/
theorem run_bind_ok {a : α} (h : m.run.run s = (.ok a, s')) :
    (m >>= f).run.run s = (f a).run.run s' := by
  simp only [ExceptT.run_bind, StateT.run_bind, h]
  rfl

theorem run_bind_error {e : ε} (h : m.run.run s = (.error e, s')) :
    (m >>= f).run.run s = (.error e, s') := by
  simp only [ExceptT.run_bind, StateT.run_bind, h]
  rfl

end Runs

variable {scope : Scope} {n : Nat} {tree : TypeTree} {l : TypeLayout}

/-- Every remembered layout can be derived. -/
def Remembers (scope : Scope) (cache : Cache) : Prop :=
  ∀ text l, cache.lookup text = some l → ∃ n, Sized scope n (TypeTree.parse text.toList) l

theorem remembers_nil (scope : Scope) : Remembers scope [] := by
  intro text l h
  cases h

theorem Remembers.cons {cache : Cache} {text : String} (hc : Remembers scope cache)
    (hs : Sized scope n (TypeTree.parse text.toList) l) : Remembers scope ((text, l) :: cache) := by
  intro text' l' hl
  rw [List.lookup_cons] at hl
  split at hl
  · next heq =>
      obtain rfl := Option.some.inj hl
      rw [eq_of_beq heq]
      exact ⟨n, hs⟩
  · exact hc text' l' hl

/-- A computation gives a result whatever derivable layouts are remembered, and remembers only
derivable layouts itself. -/
def Yields (scope : Scope) {α : Type} (m : Memo α) (a : α) : Prop :=
  ∀ cache, Remembers scope cache →
    ∃ cache', m.run.run cache = (.ok a, cache') ∧ Remembers scope cache'

theorem Yields.pure (scope : Scope) {α : Type} (a : α) : Yields scope (pure a : Memo α) a :=
  fun cache hc => ⟨cache, rfl, hc⟩

/-- Behind a computation that gives a result, another one ends as it would by itself. -/
theorem Yields.run_bind {α β : Type} {m : Memo α} {f : α → Memo β} {a : α}
    {r : Except Indeterminate β} (hm : Yields scope m a)
    (hf : ∀ cache, Remembers scope cache →
      ∃ cache', (f a).run.run cache = (r, cache') ∧ Remembers scope cache')
    (cache : Cache) (hc : Remembers scope cache) :
    ∃ cache', (m >>= f).run.run cache = (r, cache') ∧ Remembers scope cache' := by
  obtain ⟨cache₁, h₁, hc₁⟩ := hm cache hc
  obtain ⟨cache₂, h₂, hc₂⟩ := hf cache₁ hc₁
  exact ⟨cache₂, (run_bind_ok h₁).trans h₂, hc₂⟩

theorem Yields.bind {α β : Type} {m : Memo α} {f : α → Memo β} {a : α} {b : β}
    (hm : Yields scope m a) (hf : Yields scope (f a) b) : Yields scope (m >>= f) b :=
  hm.run_bind hf

theorem run_get_bind {α : Type} (f : Cache → Memo α) (cache : Cache) :
    (get >>= f : Memo α).run.run cache = (f cache).run.run cache := rfl

theorem run_remember_known {cache : Cache} {text : String} (m : Memo TypeLayout)
    (h : cache.lookup text = some l) : (remember text m).run.run cache = (.ok l, cache) := by
  rw [remember, run_get_bind, h]
  rfl

theorem run_remember_new {cache cache' : Cache} {text : String} {m : Memo TypeLayout}
    (h : cache.lookup text = none) (hm : m.run.run cache = (.ok l, cache')) :
    (remember text m).run.run cache = (.ok l, (text, l) :: cache') := by
  rw [remember, run_get_bind, h]
  exact run_bind_ok hm

theorem Yields.remember {text : String} {m : Memo TypeLayout}
    (ht : TypeTree.parse text.toList = tree) (hs : Sized scope n tree l) (hm : Yields scope m l) :
    Yields scope (remember text m) l := by
  intro cache hc
  cases hl : cache.lookup text with
  | some l' =>
      obtain ⟨k, hk⟩ := hc text l' hl
      rw [ht] at hk
      obtain rfl := hk.unique hs
      exact ⟨cache, run_remember_known m hl, hc⟩
  | none =>
      obtain ⟨cache', hr, hc'⟩ := hm cache hc
      exact ⟨(text, l) :: cache', run_remember_new hl hr, hc'.cons (ht.symm ▸ hs)⟩

theorem Yields.unlessParam {text : String} {m : Memo TypeLayout}
    (ht : TypeTree.parse text.toList = tree) (hs : Sized scope n tree l)
    (hp : text ∉ scope.typeParams) (hm : Yields scope m l) :
    Yields scope (unlessParam scope text m) l := by
  have hc : scope.typeParams.contains text = false := by simpa using hp
  unfold Sizing.unlessParam
  rw [hc]
  exact Yields.remember ht hs hm

theorem Yields.layouts {resolve : String → Memo TypeLayout} {fields : List TypeTree}
    {ls : List TypeLayout} (hl : fields.length = ls.length)
    (h : ∀ p ∈ fields.zip ls, Yields scope (p.1.layout scope resolve) p.2) :
    Yields scope (TypeTree.layouts scope resolve fields) ls := by
  induction fields generalizing ls with
  | nil =>
      rw [List.length_eq_zero_iff.1 hl.symm]
      exact Yields.pure scope []
  | cons field fields ih =>
      cases ls with
      | nil => cases hl
      | cons l ls =>
          have hhead := h (field, l) (by simp)
          have htail := ih (Nat.succ.inj hl) fun p hp => h p (by simp [hp])
          exact hhead.bind (htail.bind (Yields.pure scope (l :: ls)))

/-- How a name is resolved while some names are being resolved. -/
def Scope.resolver (scope : Scope) (resolving : List String) (name : String) : Memo TypeLayout :=
  match scope.underlying? name with
  | none => indeterminate name (unknownReason scope name)
  | some t =>
    if name ∈ resolving then indeterminate name "recursive type"
    else scope.layoutOf (name :: resolving) (TypeTree.parse t.toList)

theorem Scope.layoutOf_eq (scope : Scope) (resolving : List String) (tree : TypeTree) :
    scope.layoutOf resolving tree = tree.layout scope (scope.resolver resolving) := by
  rw [Scope.layoutOf]
  congr 1
  funext name
  unfold Scope.resolver
  split
  · next h => rw [h]
  · next t h => rw [h]; rfl

theorem Scope.resolver_underlying {resolving : List String} {name t : String}
    (hu : scope.underlying? name = some t) (hn : name ∉ resolving) :
    scope.resolver resolving name =
      scope.layoutOf (name :: resolving) (TypeTree.parse t.toList) := by
  simp [Scope.resolver, hu, hn]

theorem nameLayout_eq_resolve {name : String} (hf : fixedLayout? scope.abi name = none)
    (hb : '[' ∉ name.toList) (resolve : String → Memo TypeLayout) :
    nameLayout scope resolve name = resolve name := by
  have hc : name.toList.contains '[' = false := by simpa using hb
  simp only [nameLayout, hf, hc, Bool.false_eq_true, if_false]

/-- A type that has a layout has it through a fewest number of levels. -/
theorem Sized.exists_fewest (h : Sized scope n tree l) :
    ∃ k ≤ n, Sized scope k tree l ∧ ∀ j < k, ∀ l', ¬ Sized scope j tree l' := by
  classical
  have hex : ∃ k, Sized scope k tree l := ⟨n, h⟩
  refine ⟨Nat.find hex, Nat.find_min' hex h, Nat.find_spec hex, ?_⟩
  intro j hj l' hs
  obtain rfl := hs.unique h
  exact Nat.find_min hex hj hs

/-- The type that a name is declared as takes levels enough less than the name, and few enough that
the name itself cannot be sized within them. -/
theorem Sized.exists_underlying {name underlying : String} (h : Sized scope n (.name name) l)
    (hf : fixedLayout? scope.abi name = none) (hb : '[' ∉ name.toList)
    (hu : scope.underlying? name = some underlying) :
    ∃ k, k + partLevels ≤ n ∧ Sized scope k (TypeTree.parse underlying.toList) l ∧
      ∀ l', ¬ Sized scope k (.name name) l' := by
  -- a derivation with the fewest levels does not come back to the name
  obtain ⟨j, hj, hmin, hfew⟩ := h.exists_fewest
  cases hmin with
  | fixed _ hf' => exact absurd (hf'.symm.trans hf) (Option.some_ne_none _)
  | instantiated _ _ hb' => exact absurd hb' hb
  | @declared k _ _ _ _ _ _ hu' h' =>
      obtain rfl := Option.some.inj (hu.symm.trans hu')
      exact ⟨k, hj, h', hfew k (by simp [partLevels])⟩

/-- Names that cannot be sized within some levels cannot be sized within fewer, nor can a name that
comes to them and cannot be sized within those. -/
theorem not_sized_cons {resolving : List String} {name : String} {k : Nat} (hk : k ≤ n)
    (hname : ∀ l', ¬ Sized scope k (.name name) l')
    (hn : ∀ other ∈ resolving, ∀ l', ¬ Sized scope n (.name other) l') :
    ∀ other ∈ name :: resolving, ∀ l', ¬ Sized scope k (.name other) l' := by
  intro other hm l' hs
  rcases List.mem_cons.1 hm with rfl | hm
  · exact hname l' hs
  · exact hn other hm l' (hs.mono hk)

/-- Sizing finds a layout that can be derived, as long as no name being resolved can be sized
within the levels of the derivation. -/
theorem Sized.yields_layout (h : Sized scope n tree l) (hr : ∃ cs, TypeTree.parse cs = tree)
    (resolving : List String)
    (hn : ∀ name ∈ resolving, ∀ l', ¬ Sized scope n (.name name) l') :
    Yields scope (scope.layoutOf resolving tree) l := by
  -- on the levels, not on the derivation: a name goes on with a derivation of its own
  induction n using Nat.strongRecOn generalizing tree l resolving with
  | _ n ih =>
  have htext : TypeTree.parse tree.text.toList = tree := by
    obtain ⟨cs, rfl⟩ := hr
    exact TypeTree.parse_text_parse cs
  have below {k : Nat} (hk : k ≤ n) :
      ∀ name ∈ resolving, ∀ l', ¬ Sized scope k (.name name) l' :=
    fun name hm l' hs => hn name hm l' (hs.mono hk)
  rw [Scope.layoutOf_eq]
  have hs := h
  obtain ⟨cs, hcs⟩ := hr
  cases h with
  | @group k text inner l h =>
      have hin := ih k (by simp [groupLevels]) h (TypeTree.exists_of_parse_eq_group hcs) resolving
        (below (Nat.le_add_right _ _))
      rw [Scope.layoutOf_eq] at hin
      exact Yields.remember htext hs hin
  | fixed hp hf =>
      refine Yields.unlessParam htext hs hp ?_
      simp only [nameLayout, hf]
      exact Yields.pure scope l
  | instantiated hp hf hb hg =>
      refine Yields.unlessParam htext hs hp ?_
      simp only [nameLayout, hf, List.contains_iff_mem.2 hb, List.contains_iff_mem.2 hg, if_true]
      exact Yields.pure scope _
  | @declared k text underlying l hp hf hb hu h =>
      refine Yields.unlessParam htext hs hp ?_
      have hnot : text ∉ resolving := fun hm => hn text hm l hs
      rw [nameLayout_eq_resolve hf hb, Scope.resolver_underlying hu hnot]
      obtain ⟨i, hi, h', hname⟩ := hs.exists_underlying hf hb hu
      have hlt : i < k + partLevels := Nat.lt_of_lt_of_le (by simp [partLevels]) hi
      exact ih i hlt h' ⟨_, rfl⟩ (text :: resolving) (not_sized_cons (Nat.le_of_lt hlt) hname hn)
  | word hp => exact Yields.unlessParam htext hs hp (Yields.pure scope _)
  | slice hp => exact Yields.unlessParam htext hs hp (Yields.pure scope _)
  | interface hp => exact Yields.unlessParam htext hs hp (Yields.pure scope _)
  | @array k text length element l hp h =>
      have hin := ih k (by simp [partLevels]) h (TypeTree.exists_of_parse_eq_array hcs) resolving
        (below (Nat.le_add_right _ _))
      rw [Scope.layoutOf_eq] at hin
      exact Yields.unlessParam htext hs hp (hin.bind (Yields.pure scope _))
  | @struct k text fields ls hp hl h =>
      have hin : Yields scope (TypeTree.layouts scope (scope.resolver resolving) fields) ls := by
        refine Yields.layouts hl fun p hz => ?_
        have hm := TypeTree.exists_of_parse_eq_struct hcs p.1 (List.of_mem_zip hz).1
        have hf := ih k (by simp [partLevels]) (h p hz) hm resolving (below (Nat.le_add_right _ _))
        rwa [Scope.layoutOf_eq] at hf
      exact Yields.unlessParam htext hs hp (hin.bind (Yields.pure scope _))

/-! ### Descending within the limit -/

section Visits

variable {limit level : Nat} {text : String} {known known' : List String} {d : Descent Unit}

theorem run_visit_tooDeep (d : Descent Unit) (h : limit < level) :
    (visit limit level text d).run.run known = (.error .tooDeep, known) := by
  change visit limit level text d known = _
  rw [visit, if_pos h]

theorem run_visit_known (d : Descent Unit) (h : ¬ limit < level) (hk : text ∈ known) :
    (visit limit level text d).run.run known = (.ok (), known) := by
  change visit limit level text d known = _
  rw [visit, if_neg h, if_pos (by simpa using hk)]

/-- A text that is not remembered is descended into, and remembered if that reaches its end. -/
theorem run_visit_ok (h : ¬ limit < level) (hk : text ∉ known)
    (hd : d.run.run known = (.ok (), known')) :
    (visit limit level text d).run.run known = (.ok (), text :: known') := by
  change visit limit level text d known = _
  change d known = _ at hd
  rw [visit, if_neg h, if_neg (by simpa using hk), hd]

theorem run_visit_error {halt : Halt} (h : ¬ limit < level) (hk : text ∉ known)
    (hd : d.run.run known = (.error halt, known')) :
    (visit limit level text d).run.run known = (.error halt, known') := by
  change visit limit level text d known = _
  change d known = _ at hd
  rw [visit, if_neg h, if_neg (by simpa using hk), hd]

end Visits

/-- A descent that reaches its end whatever is remembered. -/
def Descends (d : Descent Unit) : Prop :=
  ∀ known, ∃ known', d.run.run known = (.ok (), known')

theorem Descends.pure : Descends (pure ()) := fun known => ⟨known, rfl⟩

theorem Descends.bind {d e : Descent Unit} (hd : Descends d) (he : Descends e) :
    Descends (d >>= fun _ => e) := by
  intro known
  obtain ⟨known₁, h₁⟩ := hd known
  obtain ⟨known₂, h₂⟩ := he known₁
  exact ⟨known₂, (run_bind_ok h₁).trans h₂⟩

theorem Descends.visit {limit level : Nat} (hl : level ≤ limit) (text : String) {d : Descent Unit}
    (hd : Descends d) : Descends (visit limit level text d) := by
  intro known
  have hl' : ¬ limit < level := Nat.not_lt.2 hl
  by_cases hk : text ∈ known
  · exact ⟨known, run_visit_known d hl' hk⟩
  · obtain ⟨known', h⟩ := hd known
    exact ⟨text :: known', run_visit_ok hl' hk h⟩

theorem Descends.visitUnlessParam {limit level : Nat} (hl : level ≤ limit) {text : String}
    (hp : text ∉ scope.typeParams) {d : Descent Unit} (hd : Descends d) :
    Descends (visitUnlessParam scope limit level text d) := by
  have hc : scope.typeParams.contains text = false := by simpa using hp
  unfold Sizing.visitUnlessParam
  rw [hc]
  exact Descends.visit hl text hd

theorem Descends.descendAll {resolve : Nat → String → Descent Unit} {limit level : Nat}
    {fields : List TypeTree}
    (h : ∀ field ∈ fields, Descends (field.descend scope limit resolve level)) :
    Descends (TypeTree.descendAll scope limit resolve level fields) := by
  induction fields with
  | nil => exact Descends.pure
  | cons field fields ih =>
      exact (h field (by simp)).bind (ih fun f hf => h f (by simp [hf]))

/-- How a descent goes on into a name while some names are being resolved. -/
def Scope.descender (scope : Scope) (limit : Nat) (resolving : List String) (level : Nat)
    (name : String) : Descent Unit :=
  match scope.underlying? name with
  | none => noLayout
  | some t =>
    if name ∈ resolving then noLayout
    else scope.descend limit (name :: resolving) (level + partLevels) (TypeTree.parse t.toList)

theorem Scope.descend_eq (scope : Scope) (limit : Nat) (resolving : List String) (level : Nat)
    (tree : TypeTree) :
    scope.descend limit resolving level tree =
      tree.descend scope limit (scope.descender limit resolving) level := by
  rw [Scope.descend]
  congr 1
  funext level name
  unfold Scope.descender
  split
  · next h => rw [h]
  · next t h => rw [h]; rfl

theorem Scope.descender_underlying {limit : Nat} {resolving : List String} {level : Nat}
    {name t : String} (hu : scope.underlying? name = some t) (hn : name ∉ resolving) :
    scope.descender limit resolving level name =
      scope.descend limit (name :: resolving) (level + partLevels) (TypeTree.parse t.toList) := by
  simp [Scope.descender, hu, hn]

theorem descendName_eq_resolve {name : String} (hf : fixedLayout? scope.abi name = none)
    (hb : '[' ∉ name.toList) (resolve : String → Descent Unit) :
    descendName scope resolve name = resolve name := by
  have hc : name.toList.contains '[' = false := by simpa using hb
  simp only [descendName, hf, hc, Option.isSome_none, Bool.false_eq_true, if_false]

/-- A descent into a type reaches its end if the levels of a derivation stay within the limit. -/
theorem Sized.descends (h : Sized scope n tree l) {limit level : Nat} (hl : level + n ≤ limit)
    (resolving : List String)
    (hn : ∀ name ∈ resolving, ∀ l', ¬ Sized scope n (.name name) l') :
    Descends (scope.descend limit resolving level tree) := by
  -- on the levels as before: what a name stands for has a derivation with fewer
  induction n using Nat.strongRecOn generalizing tree l level resolving with
  | _ n ih =>
  have hlevel : level ≤ limit := Nat.le_trans (Nat.le_add_right _ _) hl
  have below {k : Nat} (hk : k ≤ n) :
      ∀ name ∈ resolving, ∀ l', ¬ Sized scope k (.name name) l' :=
    fun name hm l' hs => hn name hm l' (hs.mono hk)
  rw [Scope.descend_eq]
  have hs := h
  cases h with
  | @group k text inner l h =>
      have hin := ih k (by simp [groupLevels]) h
        (show level + groupLevels + k ≤ limit by omega) resolving (below (Nat.le_add_right _ _))
      rw [Scope.descend_eq] at hin
      exact Descends.visit hlevel text hin
  | fixed hp hf =>
      refine Descends.visitUnlessParam hlevel hp ?_
      simp only [descendName, hf, Option.isSome_some, if_true]
      exact Descends.pure
  | instantiated hp hf hb hg =>
      refine Descends.visitUnlessParam hlevel hp ?_
      simp only [descendName, hf, Option.isSome_none, Bool.false_eq_true, if_false,
        List.contains_iff_mem.2 hb, List.contains_iff_mem.2 hg, if_true]
      exact Descends.pure
  | @declared k text underlying l hp hf hb hu h =>
      refine Descends.visitUnlessParam hlevel hp ?_
      have hnot : text ∉ resolving := fun hm => hn text hm l hs
      rw [descendName_eq_resolve hf hb, Scope.descender_underlying hu hnot]
      obtain ⟨i, hi, h', hname⟩ := hs.exists_underlying hf hb hu
      have hlt : i < k + partLevels := Nat.lt_of_lt_of_le (by simp [partLevels]) hi
      exact ih i hlt h' (by omega) (text :: resolving) (not_sized_cons (Nat.le_of_lt hlt) hname hn)
  | word hp => exact Descends.visitUnlessParam hlevel hp Descends.pure
  | slice hp => exact Descends.visitUnlessParam hlevel hp Descends.pure
  | interface hp => exact Descends.visitUnlessParam hlevel hp Descends.pure
  | @array k text length element l hp h =>
      have hin := ih k (by simp [partLevels]) h
        (show level + partLevels + k ≤ limit by omega) resolving (below (Nat.le_add_right _ _))
      rw [Scope.descend_eq] at hin
      exact Descends.visitUnlessParam hlevel hp hin
  | @struct k text fields ls hp hlen h =>
      refine Descends.visitUnlessParam hlevel hp (Descends.descendAll fun field hf => ?_)
      obtain ⟨i, hi, rfl⟩ := List.mem_iff_getElem.1 hf
      have hz : (fields[i], ls[i]) ∈ fields.zip ls := by
        rw [List.mem_iff_getElem]
        exact ⟨i, by rw [List.length_zip, ← hlen, Nat.min_self]; exact hi, by simp⟩
      have hin := ih k (by simp [partLevels]) (h _ hz)
        (show level + partLevels + k ≤ limit by omega) resolving (below (Nat.le_add_right _ _))
      rwa [Scope.descend_eq] at hin

/-! ### Sizers -/

namespace Sizer

variable {limit : Nat}

/-- A layout that can be derived is found. -/
theorem layoutOf_of_sized {s : Sizer} {typeExpr : String} (hc : Remembers s.scope s.cache)
    (h : Sized s.scope n (TypeTree.parse typeExpr.toList) l) : (s.layoutOf typeExpr).1 = .ok l := by
  obtain ⟨cache', hr, -⟩ :=
    h.yields_layout ⟨_, rfl⟩ [] (List.forall_mem_nil _) s.cache hc
  simp only [layoutOf, hr]

/-- What has a layout through few levels is not nested too deeply. -/
theorem isTooDeep_of_sized {s : Sizer} {typeExpr : String}
    (h : Sized s.scope n (TypeTree.parse typeExpr.toList) l) (hn : n ≤ limit) :
    s.isTooDeep limit typeExpr = false := by
  have hl : 0 + n ≤ limit := by omega
  obtain ⟨known, hk⟩ := h.descends hl [] (List.forall_mem_nil _) (s.cache.map Prod.fst)
  simp only [isTooDeep, descent, hk]

theorem layoutWithin_of_sized {s : Sizer} {typeExpr : String} (hc : Remembers s.scope s.cache)
    (h : Sized s.scope n (TypeTree.parse typeExpr.toList) l) (hn : n ≤ limit) :
    (s.layoutWithin limit typeExpr).1 = .ok l := by
  have hl := layoutOf_of_sized hc h
  rw [layoutWithin_eq (isTooDeep_of_sized h hn) (Prod.ext hl rfl)]

end Sizer

end StructLayout.Sizing
