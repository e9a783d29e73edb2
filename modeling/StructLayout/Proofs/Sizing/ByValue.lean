import Mathlib.Logic.Relation
import StructLayout.Proofs.Sizing.Derivation

/-!
# Types held by value

`Part` relates a type to the types that it holds by value, one level down: what stands in parentheses,
the elements of an array, the fields of a struct, and the type that a name is declared as.  Pointers,
slices, maps, channels, functions and interfaces hold nothing by value.

A part has a derivation with fewer levels than the whole (`Sized.of_part`), so a type that holds a type
that holds itself has no layout (`not_sized_of_cycle`).  Sizing goes from a type to its parts and never
enters a name twice; `Scope.IsAt.induction` is the induction along its way.
-/

namespace StructLayout.Sizing

open Source Relation

variable {scope : Scope} {n : Nat} {tree part : TypeTree} {l : TypeLayout}

/-- A type holds another one by value, one level down. -/
inductive Part (scope : Scope) : TypeTree → TypeTree → Prop
  | group {text : String} {inner : TypeTree} : Part scope (.group text inner) inner
  | declared {text underlying : String} :
      text ∉ scope.typeParams → fixedLayout? scope.abi text = none → '[' ∉ text.toList →
      scope.underlying? text = some underlying →
      Part scope (.name text) (TypeTree.parse underlying.toList)
  | element {text : String} {length : Int} {element : TypeTree} :
      text ∉ scope.typeParams → Part scope (.array text length element) element
  | field {text : String} {fields : List TypeTree} {field : TypeTree} :
      text ∉ scope.typeParams → field ∈ fields → Part scope (.struct text fields) field

/-! ### Derivations of parts -/

/-- Each of some types goes with one of as many layouts. -/
theorem exists_mem_zip {fields : List TypeTree} {ls : List TypeLayout}
    (hl : fields.length = ls.length) (hm : part ∈ fields) : ∃ l, (part, l) ∈ fields.zip ls := by
  rw [← List.map_fst_zip (Nat.le_of_eq hl)] at hm
  obtain ⟨⟨_, l⟩, hz, rfl⟩ := List.mem_map.1 hm
  exact ⟨l, hz⟩

/-- A part is sized through fewer levels than the whole. -/
theorem Sized.of_part (h : Sized scope n tree l) (hp : Part scope tree part) :
    ∃ k < n, ∃ l', Sized scope k part l' := by
  cases hp with
  | group =>
      cases h with
      | group h => exact ⟨_, by simp [groupLevels], _, h⟩
  | declared _ hf hb hu =>
      cases h with
      | fixed _ hf' => exact absurd (hf.symm.trans hf') (Option.some_ne_none _).symm
      | instantiated _ _ hb' => exact absurd hb' hb
      | declared _ _ _ hu' h =>
          obtain rfl := Option.some.inj (hu.symm.trans hu')
          exact ⟨_, by simp [partLevels], _, h⟩
  | element =>
      cases h with
      | array _ h => exact ⟨_, by simp [partLevels], _, h⟩
  | field _ hm =>
      cases h with
      | struct _ hl h =>
          obtain ⟨l', hz⟩ := exists_mem_zip hl hm
          exact ⟨_, by simp [partLevels], l', h _ hz⟩

/-- What a type holds by value is sized through fewer levels than the type. -/
theorem Sized.of_transGen (h : Sized scope n tree l) (hp : TransGen (Part scope) tree part) :
    ∃ k < n, ∃ l', Sized scope k part l' := by
  induction hp with
  | single hp => exact h.of_part hp
  | tail _ hp ih =>
      obtain ⟨k, hk, l', h'⟩ := ih
      obtain ⟨j, hj, l'', h''⟩ := h'.of_part hp
      exact ⟨j, Nat.lt_trans hj hk, l'', h''⟩

/-- A type that holds itself by value has no layout. -/
theorem not_sized_of_transGen (hp : TransGen (Part scope) tree tree) : ¬ Sized scope n tree l := by
  intro h
  obtain ⟨k, -, hk, hfew⟩ := h.exists_fewest
  obtain ⟨j, hj, l', h'⟩ := hk.of_transGen hp
  exact hfew j hj l' h'

/-- A type that holds by value a type that holds itself has no layout. -/
theorem not_sized_of_cycle (hr : ReflTransGen (Part scope) tree part)
    (hp : TransGen (Part scope) part part) : ¬ Sized scope n tree l := by
  intro h
  rcases reflTransGen_iff_eq_or_transGen.1 hr with rfl | hr
  · exact not_sized_of_transGen hp h
  · obtain ⟨k, -, l', h'⟩ := h.of_transGen hr
    exact not_sized_of_transGen hp h'

/-! ### The way of sizing -/

/-- The names being resolved when the parts of a type are sized. -/
def TypeTree.entering (resolving : List String) : TypeTree → List String
  | .name text => text :: resolving
  | _ => resolving

/-- Sizing can be at a type while some names are being resolved: the type was read from a text, and
each of the names holds it by value. -/
structure Scope.IsAt (scope : Scope) (resolving : List String) (tree : TypeTree) : Prop where
  parsed : ∃ cs, TypeTree.parse cs = tree
  reached : ∀ name ∈ resolving, TransGen (Part scope) (.name name) tree

namespace Scope.IsAt

variable {resolving : List String}

/-- Sizing starts at a type that was read, with no name being resolved. -/
theorem parse (scope : Scope) (cs : List Char) : scope.IsAt [] (TypeTree.parse cs) :=
  ⟨⟨cs, rfl⟩, List.forall_mem_nil _⟩

/-- The text of a type that sizing is at is read as that type. -/
theorem parse_text (h : scope.IsAt resolving tree) : TypeTree.parse tree.text.toList = tree := by
  obtain ⟨cs, rfl⟩ := h.parsed
  exact TypeTree.parse_text_parse cs

/-- From a type sizing goes on to its parts. -/
theorem of_part (h : scope.IsAt resolving tree) (hp : Part scope tree part) :
    scope.IsAt (tree.entering resolving) part := by
  obtain ⟨cs, hcs⟩ := h.parsed
  have hreached : ∀ name ∈ resolving, TransGen (Part scope) (.name name) part :=
    fun name hm => (h.reached name hm).tail hp
  cases hp with
  | group => exact ⟨TypeTree.exists_of_parse_eq_group hcs, hreached⟩
  | declared hn hf hb hu =>
      exact ⟨⟨_, rfl⟩, List.forall_mem_cons.2 ⟨.single (.declared hn hf hb hu), hreached⟩⟩
  | element => exact ⟨TypeTree.exists_of_parse_eq_array hcs, hreached⟩
  | field _ hm => exact ⟨TypeTree.exists_of_parse_eq_struct hcs _ hm, hreached⟩

/-- A type that has a layout is sized whatever is remembered: the names being resolved hold the type
by value, so none of them is met in a derivation with the fewest levels. -/
theorem yields_layout (h : scope.IsAt resolving tree) (hs : Sized scope n tree l) :
    Yields scope (scope.layoutOf resolving tree) l := by
  obtain ⟨k, -, hk, hfew⟩ := hs.exists_fewest
  refine hk.yields_layout h.parsed resolving fun name hm l' hname => ?_
  obtain ⟨j, hj, l'', h'⟩ := hname.of_transGen (h.reached name hm)
  exact hfew j hj l'' h'

/-- Going from a type to a part, without entering a name again, comes to an end. -/
theorem lex_of_part (hp : Part scope tree part) (hn : ∀ name ∈ resolving, tree ≠ .name name) :
    Prod.Lex (· < ·) (· < ·)
      ((scope.unresolved (tree.entering resolving)).length, sizeOf part)
      ((scope.unresolved resolving).length, sizeOf tree) := by
  cases hp with
  | group => exact .right _ (by simp +arith)
  | declared _ _ _ hu =>
      exact .left _ _ (Scope.length_unresolved_lt hu fun hm => hn _ hm rfl)
  | element => exact .right _ (by simp +arith)
  | field _ hm =>
      have := List.sizeOf_lt_of_mem hm
      exact .right _ (by simp only [TypeTree.struct.sizeOf_spec]; omega)

/-- Induction along the way of sizing: a property of the types that sizing is at may be assumed of
the parts of a type, unless the type is a name that is being resolved. -/
theorem induction {motive : List String → TypeTree → Prop}
    (step : ∀ resolving tree, scope.IsAt resolving tree →
      (∀ part, Part scope tree part → (∀ name ∈ resolving, tree ≠ .name name) →
        motive (tree.entering resolving) part) → motive resolving tree)
    {resolving : List String} {tree : TypeTree} (h : scope.IsAt resolving tree) :
    motive resolving tree :=
  step resolving tree h fun _ hp _ => induction step (h.of_part hp)
termination_by ((scope.unresolved resolving).length, sizeOf tree)
decreasing_by exact lex_of_part ‹_› ‹_›

end Scope.IsAt

end StructLayout.Sizing
