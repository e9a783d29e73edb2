import StructLayout.Analysis.Sizing
import StructLayout.Proofs.Sizing.RememberedDepth
import StructLayout.Proofs.Sizing.WrittenTypes

/-!
# Answers do not depend on the questions before

A sizer is asked for layouts, sizes, alignments and fields, and remembers what it finds, also on the
way to a failure.  What it remembers stays sound (`Sizer.IsSound`), whatever it is asked.

The main statements are `Sizer.ask_after`, which compares an answer with that of a new sizer, and
`Sizer.IsSound.obeys`, which compares a layout with the sizing rules.  What is remembered is of
consequence where a new sizer gives up: arrays that are nested too deeply get their layout once arrays
inside of them have got theirs (`ask_nestedArray`).
-/

namespace StructLayout.Sizing

open Source Relation

namespace Sizer

variable {s : Sizer} {limit : Nat}

/-! ### Sound sizers -/

/-- A sizer remembers layouts that can be derived, each with those of the parts of its type. -/
structure IsSound (s : Sizer) : Prop where
  remembers : Remembers s.scope s.cache
  holdsParts : HoldsParts s.scope (s.cache.map Prod.fst)

theorem isSound_ofScope (scope : Scope) : (ofScope scope).IsSound :=
  ⟨remembers_nil scope, fun _ h => by cases h⟩

theorem IsSound.isClosed (hs : s.IsSound) : IsClosed s.scope (s.cache.map Prod.fst) := by
  refine ⟨fun text ht => ?_, hs.holdsParts⟩
  obtain ⟨l, hl⟩ := mem_keys_iff.1 ht
  obtain ⟨n, hn⟩ := hs.remembers text l hl
  exact ⟨n, l, hn⟩

theorem IsSound.layoutOf (hs : s.IsSound) (typeExpr : String) : (s.layoutOf typeExpr).2.IsSound := by
  have hat := Scope.IsAt.parse s.scope typeExpr.toList
  obtain ⟨r, hr, -⟩ := hat.settles
  obtain ⟨cache₁, h₁, hc₁⟩ := hr s.cache hs.remembers
  obtain ⟨_, cache₂, h₂, hc₂, -⟩ := hat.fills s.cache hs.holdsParts
  obtain ⟨rfl, rfl⟩ := Prod.mk.inj (h₁.symm.trans h₂)
  rw [Sizer.layoutOf, h₁]
  exact ⟨hc₁, hc₂⟩

theorem IsSound.mem_cache_layoutOf (hs : s.IsSound) {typeExpr : String} {l : TypeLayout}
    (h : (s.layoutOf typeExpr).1 = .ok l) :
    String.ofList (Text.trim typeExpr.toList) ∈ (s.layoutOf typeExpr).2.cache.map Prod.fst := by
  obtain ⟨r, cache, hr, -, -, hf⟩ :=
    (Scope.IsAt.parse s.scope typeExpr.toList).fills s.cache hs.holdsParts
  simp only [Sizer.layoutOf, hr] at h ⊢
  rw [← TypeTree.text_parse]
  exact hf l h _ rfl

/-- A sound sizer answers like a new one. -/
theorem IsSound.layoutOf_eq (hs : s.IsSound) (typeExpr : String) :
    (s.layoutOf typeExpr).1 = ((ofScope s.scope).layoutOf typeExpr).1 := by
  obtain ⟨r, hr, -⟩ := (Scope.IsAt.parse s.scope typeExpr.toList).settles
  obtain ⟨cache₁, h₁, -⟩ := hr s.cache hs.remembers
  obtain ⟨cache₂, h₂, -⟩ := hr [] (remembers_nil s.scope)
  simp only [Sizer.layoutOf, ofScope, h₁, h₂]

/-- The sizing rules justify what a sound sizer answers. -/
theorem IsSound.justifies (hs : s.IsSound) (typeExpr : String) :
    s.scope.Justifies (TypeTree.parse typeExpr.toList) (s.layoutOf typeExpr).1 := by
  obtain ⟨r, hr, hj⟩ := (Scope.IsAt.parse s.scope typeExpr.toList).settles
  obtain ⟨cache₁, h₁, -⟩ := hr s.cache hs.remembers
  simpa only [Sizer.layoutOf, h₁] using hj

theorem isTooDeep_eq_false_iff {typeExpr : String} :
    s.isTooDeep limit typeExpr = false ↔ (s.descent limit typeExpr).1 ≠ .error .tooDeep := by
  unfold isTooDeep
  split <;> simp_all

/-- What a new sizer does not give up on a sound one does not give up on. -/
theorem IsSound.isTooDeep_eq_false (hs : s.IsSound) {typeExpr : String}
    (h : (ofScope s.scope).isTooDeep limit typeExpr = false) : s.isTooDeep limit typeExpr = false := by
  rw [isTooDeep_eq_false_iff] at h ⊢
  have hat := Scope.IsAt.parse s.scope typeExpr.toList
  obtain ⟨more, hm, -⟩ := hs.isClosed.spares hat 0 [] (s.cache.map Prod.fst) _ _ (by simp) rfl h
  rw [descent, hm]
  exact h

@[simp] theorem scope_layoutOf (s : Sizer) (typeExpr : String) :
    (s.layoutOf typeExpr).2.scope = s.scope := rfl

theorem IsSound.remember (hs : s.IsSound) (texts : List String) :
    (s.remember texts).IsSound ∧ (s.remember texts).scope = s.scope := by
  induction texts with
  | nil => exact ⟨hs, rfl⟩
  | cons text texts ih => exact ⟨ih.1.layoutOf text, ih.2⟩

theorem layoutWithin_fst (s : Sizer) (limit : Nat) (typeExpr : String) :
    (s.layoutWithin limit typeExpr).1 =
      if s.isTooDeep limit typeExpr then .error tooDeep
      else Outcome.ofIndeterminate (s.layoutOf typeExpr).1 := by
  unfold layoutWithin
  split <;> rfl

theorem IsSound.layoutWithin (hs : s.IsSound) (limit : Nat) (typeExpr : String) :
    (s.layoutWithin limit typeExpr).2.IsSound ∧ (s.layoutWithin limit typeExpr).2.scope = s.scope := by
  unfold Sizer.layoutWithin
  split
  · exact hs.remember _
  · exact ⟨hs.layoutOf typeExpr, rfl⟩

theorem fieldWithin_snd (s : Sizer) (limit : Nat) (name typeExpr tag comment : String) :
    (s.fieldWithin limit name typeExpr tag comment).2 = (s.layoutWithin limit typeExpr).2 := by
  unfold fieldWithin Sizer.layoutWithin
  split <;> rfl

/-! ### Questions -/

inductive Query where
  | layout (typeExpr : String)
  | size (typeExpr : String)
  | align (typeExpr : String)
  | field (name typeExpr tag comment : String)

inductive Answer where
  | layout (l : TypeLayout)
  | number (n : Int)
  | field (f : Field)
deriving DecidableEq

namespace Query

/-- The type that is asked about. -/
def typeExpr : Query → String
  | layout t | size t | align t | field _ t _ _ => t

/-- Asks a sizer, which remembers what it found. -/
def ask (limit : Nat) (s : Sizer) : Query → Outcome Answer × Sizer
  | layout t =>
    let r := s.layoutWithin limit t
    (r.1.map .layout, r.2)
  | size t =>
    let r := s.sizeWithin limit t
    (r.1.map .number, r.2)
  | align t =>
    let r := s.alignWithin limit t
    (r.1.map .number, r.2)
  | field name t tag comment =>
    let r := s.fieldWithin limit name t tag comment
    (r.1.map .field, r.2)

/-- The answer of a new sizer that never gives up on a type for its depth. -/
def answer (scope : Scope) (q : Query) : Outcome Answer :=
  let l := ((ofScope scope).layoutOf q.typeExpr).1
  match q with
  | layout _ => (Outcome.ofIndeterminate l).map .layout
  | size _ => (Outcome.ofIndeterminate l).map fun l => .number l.size
  | align _ => (Outcome.ofIndeterminate l).map fun l => .number l.align
  | field name t tag comment => .ok (.field ((ofScope scope).field name t tag comment).1)

theorem ask_snd (limit : Nat) (s : Sizer) (q : Query) :
    (q.ask limit s).2 = (s.layoutWithin limit q.typeExpr).2 := by
  cases q with
  | layout t => rfl
  | size t => rfl
  | align t => rfl
  | field name t tag comment => exact s.fieldWithin_snd limit name t tag comment

theorem ask_of_isTooDeep {q : Query} (h : s.isTooDeep limit q.typeExpr = true) :
    (q.ask limit s).1 = .error tooDeep := by
  have hl : (s.layoutWithin limit q.typeExpr).1 = .error tooDeep := by rw [layoutWithin_fst, if_pos h]
  cases q with
  | layout t => exact congrArg (Except.map Answer.layout) hl
  | size t => exact congrArg (fun r => (r.map TypeLayout.size).map Answer.number) hl
  | align t => exact congrArg (fun r => (r.map TypeLayout.align).map Answer.number) hl
  | field name t tag comment =>
      have h : s.isTooDeep limit t = true := h
      simp only [ask, fieldWithin, h, if_true, Except.map]

/-- A sound sizer answers like a new one unless it gives up. -/
theorem ask_eq_answer (hs : s.IsSound) {q : Query} (h : s.isTooDeep limit q.typeExpr = false) :
    (q.ask limit s).1 = q.answer s.scope := by
  have hnew := hs.layoutOf_eq q.typeExpr
  have hl : (s.layoutWithin limit q.typeExpr).1 =
      Outcome.ofIndeterminate ((ofScope s.scope).layoutOf q.typeExpr).1 := by
    rw [layoutWithin_fst, if_neg (by simp [h]), hnew]
  cases q with
  | layout t => exact congrArg (Except.map Answer.layout) hl
  | size t =>
      refine (congrArg (fun r => (r.map TypeLayout.size).map Answer.number) hl).trans ?_
      simp only [answer, typeExpr]
      cases ((ofScope s.scope).layoutOf t).1 <;> rfl
  | align t =>
      refine (congrArg (fun r => (r.map TypeLayout.align).map Answer.number) hl).trans ?_
      simp only [answer, typeExpr]
      cases ((ofScope s.scope).layoutOf t).1 <;> rfl
  | field name t tag comment =>
      have h : s.isTooDeep limit t = false := h
      have hnew : (s.layoutOf t).1 = ((ofScope s.scope).layoutOf t).1 := hnew
      simp only [ask, fieldWithin_eq name tag comment h, answer, Sizer.field, hnew, Except.map]

end Query

/-- A sizer after some questions, each asked under a limit of its own. -/
def after (s : Sizer) (history : List (Nat × Query)) : Sizer :=
  history.foldl (fun s q => (q.2.ask q.1 s).2) s

theorem IsSound.ask (hs : s.IsSound) (limit : Nat) (q : Query) :
    (q.ask limit s).2.IsSound ∧ (q.ask limit s).2.scope = s.scope := by
  rw [q.ask_snd]
  exact hs.layoutWithin limit q.typeExpr

/-- Whatever it is asked, a sizer stays sound. -/
theorem IsSound.after (hs : s.IsSound) (history : List (Nat × Query)) :
    (s.after history).IsSound ∧ (s.after history).scope = s.scope := by
  induction history generalizing s with
  | nil => exact ⟨hs, rfl⟩
  | cons q history ih =>
      obtain ⟨hq, hscope⟩ := hs.ask q.1 q.2
      exact ⟨(ih hq).1, (ih hq).2.trans hscope⟩

/-! ### Answers -/

/-- Whatever was asked before, a question is given up on or gets the answer of a new sizer without a
limit; and what a new sizer does not give up on gets the same answer as there. -/
theorem ask_after (scope : Scope) (history : List (Nat × Query)) (limit : Nat) (q : Query) :
    let found := (q.ask limit ((ofScope scope).after history)).1
    (found = .error tooDeep ∨ found = q.answer scope) ∧
      ((q.ask limit (ofScope scope)).1 ≠ .error tooDeep →
        found = (q.ask limit (ofScope scope)).1) := by
  intro found
  have hnew := isSound_ofScope scope
  obtain ⟨hs, hscope⟩ := hnew.after history
  have heq (h : ((ofScope scope).after history).isTooDeep limit q.typeExpr = false) :
      found = q.answer scope := by
    have := Query.ask_eq_answer hs h
    rwa [hscope] at this
  refine ⟨?_, fun hne => ?_⟩
  · cases h : ((ofScope scope).after history).isTooDeep limit q.typeExpr with
    | true => exact .inl (Query.ask_of_isTooDeep h)
    | false => exact .inr (heq h)
  · have hfresh : (ofScope scope).isTooDeep limit q.typeExpr = false :=
      Bool.eq_false_iff.2 fun h => hne (Query.ask_of_isTooDeep h)
    rw [Query.ask_eq_answer hnew hfresh]
    exact heq (hs.isTooDeep_eq_false (hscope.symm ▸ hfresh))

/-- What is found within a limit for the layout of a type obeys the sizing rules, but for types that
are nested too deeply. -/
structure Obeys (scope : Scope) (limit : Nat) (tree : TypeTree) (found : Outcome TypeLayout) :
    Prop where
  /-- A layout that is found can be derived. -/
  derived : ∀ l, found = .ok l → ∃ n, Sized scope n tree l
  /-- A layout that can be derived is found. -/
  complete : ∀ n l, Sized scope n tree l → found = .ok l ∨ found = .error tooDeep
  /-- A layout that can be derived through levels within the limit is not given up on. -/
  within : ∀ n l, Sized scope n tree l → n ≤ limit → found = .ok l
  /-- A type that holds by value a type that holds itself is refused. -/
  cyclic : ∀ part, ReflTransGen (Part scope) tree part → TransGen (Part scope) part part →
    (∃ cause, found = .error (.error (.indeterminate cause))) ∨ found = .error tooDeep
  /-- Only a name that holds itself is refused as recursive. -/
  guarded : ∀ cause, found = .error (.error (.indeterminate cause)) →
    cause.reason = "recursive type" →
      ReflTransGen (Part scope) tree (.name cause.typeExpr) ∧
        TransGen (Part scope) (.name cause.typeExpr) (.name cause.typeExpr)

theorem ofIndeterminate_eq_ok_iff {r : Except Indeterminate TypeLayout} {l : TypeLayout} :
    Outcome.ofIndeterminate r = .ok l ↔ r = .ok l := by
  cases r <;> simp

theorem isTooDeep_of_layoutWithin {typeExpr : String} {l : TypeLayout}
    (h : (s.layoutWithin limit typeExpr).1 = .ok l) : s.isTooDeep limit typeExpr = false := by
  by_contra hd
  rw [layoutWithin_fst, if_pos (by simpa using hd)] at h
  cases h

theorem layoutOf_of_layoutWithin {typeExpr : String} {l : TypeLayout}
    (h : (s.layoutWithin limit typeExpr).1 = .ok l) :
    (s.layoutOf typeExpr).1 = .ok l ∧ (s.layoutWithin limit typeExpr).2 = (s.layoutOf typeExpr).2 := by
  have hd := isTooDeep_of_layoutWithin h
  rw [layoutWithin_fst, hd] at h
  refine ⟨ofIndeterminate_eq_ok_iff.1 h, ?_⟩
  rw [layoutWithin, hd]
  rfl

theorem ofIndeterminate_eq_error_iff {r : Except Indeterminate TypeLayout} {cause : Indeterminate} :
    Outcome.ofIndeterminate r = .error (.error (.indeterminate cause)) ↔ r = .error cause := by
  cases r <;> simp

theorem IsSound.obeys (hs : s.IsSound) (limit : Nat) (typeExpr : String) :
    Obeys s.scope limit (TypeTree.parse typeExpr.toList) (s.layoutWithin limit typeExpr).1 := by
  have hj := hs.justifies typeExpr
  have hfound : (s.layoutWithin limit typeExpr).1 = .error tooDeep ∨
      (s.layoutWithin limit typeExpr).1 = Outcome.ofIndeterminate (s.layoutOf typeExpr).1 := by
    rw [layoutWithin_fst]
    split
    · exact .inl rfl
    · exact .inr rfl
  constructor
  case derived =>
    intro l hl
    rcases hfound with h | h
    · cases h.symm.trans hl
    · rw [ofIndeterminate_eq_ok_iff.1 (h.symm.trans hl)] at hj
      exact hj
  case complete =>
    intro n l h
    refine hfound.symm.imp_left fun heq => ?_
    rw [heq, layoutOf_of_sized hs.remembers h, Outcome.ofIndeterminate_ok]
  case within => exact fun n l h hn => layoutWithin_of_sized hs.remembers h hn
  case cyclic =>
    intro part hr hp
    refine hfound.symm.imp_left fun heq => ?_
    cases he : (s.layoutOf typeExpr).1 with
    | ok l =>
        rw [he] at hj
        obtain ⟨n, h⟩ := hj
        exact absurd h (not_sized_of_cycle hr hp)
    | error e => exact ⟨e, by rw [heq, he, Outcome.ofIndeterminate_error]⟩
  case guarded =>
    intro cause hc hreason
    rcases hfound with h | h
    · cases h.symm.trans hc
    · rw [ofIndeterminate_eq_error_iff.1 (h.symm.trans hc)] at hj
      exact hj hreason

end Sizer

/-! ### Where memory is of consequence -/

section NestedArrays

variable {scope : Scope} {limit : Nat}

theorem run_descend_known (resolving : List String) {level : Nat} {tree : TypeTree}
    {known : List String} (hl : ¬ limit < level) (hk : tree.text ∈ known) :
    (scope.descend limit resolving level tree).run.run known = (.ok (), known) := by
  rw [Scope.descend_eq]
  cases tree with
  | empty => exact run_visit_known _ hl hk
  | group text inner => exact run_visit_known _ hl hk
  | name text => exact run_visit_known _ hl hk
  | word text => exact run_visit_known _ hl hk
  | slice text => exact run_visit_known _ hl hk
  | interface text => exact run_visit_known _ hl hk
  | malformed text reason => exact run_visit_known _ hl hk
  | array text length element => exact run_visit_known _ hl hk
  | struct text fields => exact run_visit_known _ hl hk

theorem run_descend_nestedArray (hp : scope.typeParams = []) {m : Nat} (n : Nat) {level : Nat}
    {known : List String} (hl : level + partLevels * n ≤ limit)
    (hk : String.ofList (nestedArray m).text ∈ known) :
    ∃ known', (scope.descend limit [] level (TypeTree.parse (nestedArray (m + n)).text)).run.run known =
      (.ok (), known') := by
  have hdepth : ¬ limit < level := by omega
  induction n generalizing level with
  | zero =>
      refine ⟨known, run_descend_known [] hdepth ?_⟩
      rwa [Nat.add_zero, TypeTree.text_parse, TypeSyntax.trim_text]
  | succ n ih =>
      rw [Nat.mul_succ] at hl
      obtain ⟨known', hin⟩ := @ih (level + partLevels) (by omega) (by omega)
      rw [Scope.descend_eq] at hin
      rw [Scope.descend_eq, ← Nat.add_assoc, nestedArray, TypeSyntax.parse_array, if_pos (by decide)]
      simp only [TypeTree.descend, visitUnlessParam, hp, List.contains_nil, Bool.false_eq_true,
        if_false]
      by_cases hm : String.ofList (nestedArray (m + n + 1)).text ∈ known
      · exact ⟨known, run_visit_known _ hdepth hm⟩
      · rw [nestedArray] at hm
        exact ⟨_, run_visit_ok hdepth hm hin⟩

theorem hasShortLengths_nestedArray (n : Nat) : (nestedArray n).HasShortLengths := by
  induction n with
  | zero => trivial
  | succ n ih => exact ⟨by decide, ih⟩

theorem layout_nestedArray (n : Nat) :
    (nestedArray n).layout .amd64 = { size := 1, align := 1 } := by
  induction n with
  | zero => rfl
  | succ n ih =>
      rw [nestedArray, TypeSyntax.layout, ih]
      rfl

theorem levels_nestedArray (n : Nat) : (nestedArray n).levels = partLevels * n := by
  induction n with
  | zero => rfl
  | succ n ih => rw [nestedArray, TypeSyntax.levels, ih, Nat.mul_succ]

theorem sized_nestedArray_in (hp : scope.typeParams = []) (n : Nat) :
    Sized scope (partLevels * n) (TypeTree.parse (String.ofList (nestedArray n).text).toList)
      ((nestedArray n).layout scope.abi) := by
  rw [String.toList_ofList, ← levels_nestedArray n]
  exact sized_text hp (nestedArray n) (Nat.le_refl _) (hasShortLengths_nestedArray n)

theorem sized_nestedArray (n : Nat) :
    Sized plainSizer.scope (partLevels * n)
      (TypeTree.parse (String.ofList (nestedArray n).text).toList) { size := 1, align := 1 } := by
  rw [← layout_nestedArray n]
  exact sized_nestedArray_in rfl n

theorem isTooDeep_behind_nestedArray (hp : scope.typeParams = []) (m : Nat) {n : Nat}
    (hn : partLevels * n ≤ limit) :
    ((Sizer.ofScope scope).layoutOf (String.ofList (nestedArray m).text)).2.isTooDeep limit
      (String.ofList (nestedArray (m + n)).text) = false := by
  have hnew : (Sizer.ofScope scope).IsSound := Sizer.isSound_ofScope scope
  have hk := hnew.mem_cache_layoutOf
    (Sizer.layoutOf_of_sized hnew.remembers (sized_nestedArray_in hp m))
  rw [String.toList_ofList, TypeSyntax.trim_text] at hk
  have hl : 0 + partLevels * n ≤ limit := by omega
  obtain ⟨known', hd⟩ := run_descend_nestedArray hp n hl hk
  rw [Sizer.isTooDeep_eq_false_iff, Sizer.descent, String.toList_ofList, Sizer.scope_layoutOf]
  rw [show (Sizer.ofScope scope).scope = scope from rfl, hd]
  simp

end NestedArrays

/-- Arrays that are nested too deeply get their layout once arrays inside of them have got theirs. -/
theorem ask_nestedArray {limit m n : Nat} (hm : partLevels * m ≤ limit) (hn : partLevels * n ≤ limit) :
    (Sizer.Query.ask limit (plainSizer.after [(limit, .layout (String.ofList (nestedArray m).text))])
      (.layout (String.ofList (nestedArray (m + n)).text))).1 =
        .ok (.layout { size := 1, align := 1 }) := by
  let inner := String.ofList (nestedArray m).text
  let outer := String.ofList (nestedArray (m + n)).text
  have hnew : plainSizer.IsSound := Sizer.isSound_ofScope _
  have hnot : plainSizer.isTooDeep limit inner = false :=
    Sizer.isTooDeep_of_sized (sized_nestedArray m) hm
  have hsnd : (plainSizer.layoutWithin limit inner).2 = (plainSizer.layoutOf inner).2 := by
    rw [Sizer.layoutWithin, if_neg (by simp [hnot])]
  have hs := hnew.layoutOf inner
  have hdeep : (plainSizer.layoutOf inner).2.isTooDeep limit outer = false :=
    isTooDeep_behind_nestedArray rfl m hn
  have hlayout : ((plainSizer.layoutWithin limit inner).2.layoutWithin limit outer).1 =
      .ok { size := 1, align := 1 } := by
    rw [hsnd, Sizer.layoutWithin_fst, if_neg (by simp [hdeep]),
      Sizer.layoutOf_of_sized hs.remembers (sized_nestedArray (m + n)), Outcome.ofIndeterminate_ok]
  exact congrArg (Except.map Sizer.Answer.layout) hlayout

/-- What was asked before can decide whether a type is given up on. -/
theorem givingUp_depends_on_history :
    let half := String.ofList (nestedArray 200).text
    let whole := String.ofList (nestedArray (200 + 200)).text
    (∃ n, Sized plainSizer.scope n (TypeTree.parse whole.toList) { size := 1, align := 1 }) ∧
      ∀ limit, 600 ≤ limit → limit < 1200 →
        (Sizer.Query.ask limit plainSizer (.layout whole)).1 = .error Sizer.tooDeep ∧
          (Sizer.Query.ask limit (plainSizer.after [(limit, .layout half)]) (.layout whole)).1 =
            .ok (.layout { size := 1, align := 1 }) := by
  intro half whole
  refine ⟨⟨_, sized_nestedArray (200 + 200)⟩, fun limit hroom hlimit => ?_⟩
  have hd : plainSizer.isTooDeep limit whole = true := isTooDeep_nestedArray hlimit
  exact ⟨Sizer.Query.ask_of_isTooDeep hd, ask_nestedArray hroom hroom⟩

end StructLayout.Sizing
