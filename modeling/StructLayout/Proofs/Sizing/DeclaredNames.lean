import StructLayout.Proofs.Sizing.Descending
import StructLayout.Proofs.Sizing.History

/-!
# Declared names

A name that is declared is sized like the type that it is declared as.  The name is only looked up
once the beginning of its text has been compared with those of other types, and of these a whole
identifier can begin like a struct or an interface: `TypeTree.parse_chars` tells the three cases apart.

The main statement is `Sizer.layout_declaredName`, for names that begin like neither.  The layout is
found for both or for none, except that the name takes some more levels: a type that is given up on
below its name need not be given up on by itself.  The other way round, the descent into the type goes
less deep and is refused for fewer names than the one through its name (`Scope.IsAt.eases`).  Names
that begin like a struct or an interface are never looked up (`Sizer.IsSound.layoutOf_structName`,
`Sizer.IsSound.layoutWithin_interfaceName`).
-/

namespace StructLayout.Sizing

open Source

variable {scope : Scope} {name : Identifier} {underlying : String} {tree : TypeTree}
  {l : TypeLayout} {limit n : Nat}

/-! ### Identifiers as types -/

/-- An identifier does not begin with a word that holds a character other than those of names. -/
theorem startsWith_chars_eq_false {word : String} (name : Identifier)
    (h : word.toList.all continuesName = false) : TypeTree.startsWith word name.chars = false := by
  rw [TypeTree.startsWith, Bool.eq_false_iff]
  intro hp
  have hsub : word.toList ⊆ name.chars := (List.isPrefixOf_iff_prefix.1 hp).subset
  have hall : word.toList.all continuesName = true :=
    List.all_eq_true.2 fun c hc => name.continuesName_of_mem (hsub hc)
  exact Bool.false_ne_true (h.symm.trans hall)

theorem bracket_notMem (name : Identifier) : '[' ∉ (String.ofList name.chars).toList := by
  rw [String.toList_ofList]
  exact fun hm => absurd (name.continuesName_of_mem hm) (by decide)

theorem TypeTree.parse_chars (name : Identifier) :
    TypeTree.parse name.chars =
      if startsWith "interface" name.chars then .interface (String.ofList name.chars)
      else if startsWith "struct" name.chars then
        .malformed (String.ofList name.chars) "unbalanced struct braces"
      else .name (String.ofList name.chars) := by
  have hfirst {c : Char} (hc : continuesName c = false) : name.first ≠ c := by
    rintro rfl
    have hm : name.first ∈ name.chars := List.mem_cons_self
    exact Bool.false_ne_true (hc.symm.trans (name.continuesName_of_mem hm))
  have hword : wordBeginnings.any (startsWith · name.chars) = false := by
    refine List.any_eq_false.2 fun word hw => ?_
    rw [Bool.not_eq_true]
    refine startsWith_chars_eq_false name ?_
    revert word
    decide
  have hbrace : name.chars.dropWhile (· != '\x7b') = [] := by
    refine List.dropWhile_eq_nil_iff.2 fun c hc => ?_
    have hne : c ≠ '\x7b' := by
      rintro rfl
      exact Bool.false_ne_true (name.continuesName_of_mem hc)
    simpa using hne
  have hchars : name.first :: name.rest = name.chars := rfl
  rw [TypeTree.parse_bare (name.isTypeText.trim_eq.trans hchars.symm) (hfirst rfl), hchars]
  dsimp only
  rw [if_neg (hfirst rfl), if_neg (hfirst rfl), hword, hbrace]
  rfl

def Predeclared.all : List Predeclared := [
  .bool, .int8, .uint8, .byte, .int16, .uint16, .int32, .uint32, .rune, .float32, .int64, .uint64,
  .float64, .complex64, .complex128, .int, .uint, .uintptr, .unsafePointer, .string, .error, .any]

theorem predeclared_or_qualified {abi : Abi} {text : String} (h : fixedLayout? abi text = some l) :
    (∃ p : Predeclared, text = p.text) ∨ '.' ∈ text.toList := by
  have hall : ∀ text ∈ basicSizes.map Prod.fst ++ (wordTypes ++ "string" :: (interfaceTypes ++
      eightByteTypes)), (∃ p ∈ Predeclared.all, text = p.text) ∨ '.' ∈ text.toList := by
    decide
  have hlisted : text ∈ basicSizes.map Prod.fst ++ (wordTypes ++ "string" :: (interfaceTypes ++
      eightByteTypes)) := by
    rcases fixedLayout?_cases h with ⟨size, hm, -⟩ | ⟨hm, -⟩ | ⟨rfl | hm, -⟩ | ⟨hm, -⟩
    · exact List.mem_append_left _ (List.mem_map_of_mem hm)
    all_goals simp [*]
  rcases hall text hlisted with ⟨p, -, hp⟩ | hd
  · exact .inl ⟨p, hp⟩
  · exact .inr hd

theorem fixedLayout?_chars (abi : Abi)
    (h : ∀ p : Predeclared, String.ofList name.chars ≠ p.text) :
    fixedLayout? abi (String.ofList name.chars) = none := by
  rcases hf : fixedLayout? abi (String.ofList name.chars) with _ | l
  · rfl
  rcases predeclared_or_qualified hf with ⟨p, hp⟩ | hd
  · exact absurd hp (h p)
  · rw [String.toList_ofList] at hd
    exact absurd (name.continuesName_of_mem hd) (by decide)

/-! ### Descents through fewer levels and names -/

/-- Where a descent reaches its end another one does, remembering the same. -/
def Eases (d e : Descent Unit) : Prop :=
  ∀ known known', d.run.run known = (.ok (), known') → e.run.run known = (.ok (), known')

namespace Eases

variable {d d' e e' : Descent Unit} {level level' : Nat} {text : String}

theorem refl (d : Descent Unit) : Eases d d := fun _ _ h => h

/-- A type without a layout reaches no end. -/
theorem noLayout (e : Descent Unit) : Eases noLayout e := by
  intro known known' h
  cases h

theorem bind (hd : Eases d e) (hd' : Eases d' e') :
    Eases (d >>= fun _ => d') (e >>= fun _ => e') := by
  intro known known' h
  rcases h₁ : d.run.run known with ⟨halt | _, known₁⟩
  · cases (run_bind_error h₁).symm.trans h
  · rw [run_bind_ok h₁] at h
    rw [run_bind_ok (hd known known₁ h₁)]
    exact hd' known₁ known' h

theorem visit (hl : level' ≤ level) (hd : Eases d e) :
    Eases (visit limit level text d) (Sizing.visit limit level' text e) := by
  intro known known' h
  by_cases hdeep : limit < level
  · cases (run_visit_tooDeep d hdeep).symm.trans h
  have hdeep' : ¬ limit < level' := fun h => hdeep (Nat.lt_of_lt_of_le h hl)
  by_cases hk : text ∈ known
  · rw [run_visit_known d hdeep hk] at h
    rw [run_visit_known e hdeep' hk, h]
  rcases h₁ : d.run.run known with ⟨halt | _, known₁⟩
  · cases (run_visit_error hdeep hk h₁).symm.trans h
  · rw [run_visit_ok hdeep hk h₁] at h
    rw [run_visit_ok hdeep' hk (hd known known₁ h₁), h]

theorem visitUnlessParam (hl : level' ≤ level) (hd : text ∉ scope.typeParams → Eases d e) :
    Eases (visitUnlessParam scope limit level text d)
      (Sizing.visitUnlessParam scope limit level' text e) := by
  refine Eases.visit hl ?_
  split
  · exact .noLayout _
  · next hp => exact hd (by simpa using hp)

theorem descendAll {down up : Nat → String → Descent Unit} {fields : List TypeTree}
    (h : ∀ field ∈ fields,
      Eases (field.descend scope limit down level) (field.descend scope limit up level')) :
    Eases (TypeTree.descendAll scope limit down level fields)
      (TypeTree.descendAll scope limit up level' fields) := by
  induction fields with
  | nil => exact .refl _
  | cons field fields ih =>
      obtain ⟨hfield, hfields⟩ := List.forall_mem_cons.1 h
      exact hfield.bind (ih hfields)

theorem named {resolving fewer : List String} (hsub : fewer ⊆ resolving)
    (hp : text ∉ scope.typeParams)
    (ih : ∀ part, Part scope (.name text) part → text ∉ resolving →
      Eases (scope.descend limit (text :: resolving) (level + partLevels) part)
        (scope.descend limit (text :: fewer) (level' + partLevels) part)) :
    Eases (descendName scope (scope.descender limit resolving level) text)
      (descendName scope (scope.descender limit fewer level') text) := by
  unfold descendName
  cases hf : fixedLayout? scope.abi text with
  | some l => exact .refl _
  | none =>
      simp only [Option.isSome_none, Bool.false_eq_true, if_false]
      split
      · exact .refl _
      · next hb =>
        rw [List.contains_iff_mem] at hb
        unfold Scope.descender
        cases hu : scope.underlying? text with
        | none => exact .refl _
        | some t =>
            dsimp only
            by_cases hr : text ∈ resolving
            · rw [if_pos hr]
              exact .noLayout _
            · rw [if_neg hr, if_neg fun hm => hr (hsub hm)]
              exact ih _ (.declared hp hf hb hu) hr

end Eases

/-- A descent that reaches its end does so from a higher level too, and with fewer names being
resolved. -/
theorem Scope.IsAt.eases {resolving fewer : List String} (h : scope.IsAt resolving tree)
    (hsub : fewer ⊆ resolving) {level level' : Nat} (hl : level' ≤ level) :
    Eases (scope.descend limit resolving level tree) (scope.descend limit fewer level' tree) := by
  refine Scope.IsAt.induction (motive := fun resolving tree => ∀ fewer ⊆ resolving,
    ∀ level level', level' ≤ level →
      Eases (scope.descend limit resolving level tree) (scope.descend limit fewer level' tree)) ?_
    h fewer hsub level level' hl
  clear h hsub hl level level' fewer
  intro resolving tree h ih fewer hsub level level' hl
  have below {part : TypeTree} (levels : Nat) (hp : Part scope tree part)
      (hn : ∀ name ∈ resolving, tree ≠ .name name) (he : tree.entering resolving = resolving) :
      Eases (part.descend scope limit (scope.descender limit resolving) (level + levels))
        (part.descend scope limit (scope.descender limit fewer) (level' + levels)) := by
    have hin := ih part hp hn fewer (he.symm ▸ hsub) (level + levels) (level' + levels)
      (Nat.add_le_add_right hl levels)
    rwa [he, Scope.descend_eq, Scope.descend_eq] at hin
  rw [Scope.descend_eq, Scope.descend_eq]
  cases tree with
  | empty => exact .visit hl (.refl _)
  | group text inner => exact .visit hl (below groupLevels .group (by simp) rfl)
  | name text =>
      refine .visitUnlessParam hl fun hp => .named hsub hp fun part hpart hr => ?_
      exact ih part hpart (fun name hm he => hr (by cases he; exact hm)) (text :: fewer)
        (List.cons_subset_cons text hsub) _ _ (Nat.add_le_add_right hl partLevels)
  | word text => exact .visitUnlessParam hl fun _ => .refl _
  | slice text => exact .visitUnlessParam hl fun _ => .refl _
  | interface text => exact .visitUnlessParam hl fun _ => .refl _
  | malformed text reason => exact .visitUnlessParam hl fun _ => .refl _
  | array text length element =>
      exact .visitUnlessParam hl fun hp => below partLevels (.element hp) (by simp) rfl
  | struct text fields =>
      refine .visitUnlessParam hl fun hp => .descendAll fun field hm => ?_
      exact below partLevels (.field hp hm) (by simp) rfl

/-! ### Names and what they are declared as -/

/-- A name is declared as a type and stands for nothing else: it is neither a type parameter nor a
predeclared type, and begins neither like an interface nor like a struct. -/
structure Scope.Declares (scope : Scope) (name : Identifier) (underlying : String) : Prop where
  declared : scope.localTypes.lookup (String.ofList name.chars) = some underlying
  notParam : String.ofList name.chars ∉ scope.typeParams
  notPredeclared : ∀ p : Predeclared, String.ofList name.chars ≠ p.text
  notInterface : ¬ interfaceWord <+: name.chars
  notStruct : ¬ structWord <+: name.chars

namespace Scope.Declares

variable (h : scope.Declares name underlying)
include h

theorem parse_eq :
    TypeTree.parse (String.ofList name.chars).toList = .name (String.ofList name.chars) := by
  have hi : TypeTree.startsWith "interface" name.chars = false :=
    Bool.eq_false_iff.2 fun hp => h.notInterface (List.isPrefixOf_iff_prefix.1 hp)
  have hs : TypeTree.startsWith "struct" name.chars = false :=
    Bool.eq_false_iff.2 fun hp => h.notStruct (List.isPrefixOf_iff_prefix.1 hp)
  rw [String.toList_ofList, TypeTree.parse_chars, hi, hs]
  rfl

theorem fixedLayout?_eq : fixedLayout? scope.abi (String.ofList name.chars) = none :=
  fixedLayout?_chars scope.abi h.notPredeclared

theorem underlying?_eq : scope.underlying? (String.ofList name.chars) = some underlying := by
  rw [Scope.underlying?, h.declared]

theorem part : Part scope (.name (String.ofList name.chars)) (TypeTree.parse underlying.toList) :=
  .declared h.notParam h.fixedLayout?_eq (bracket_notMem name) h.underlying?_eq

theorem sized (hs : Sized scope n (TypeTree.parse underlying.toList) l) :
    Sized scope (n + partLevels) (TypeTree.parse (String.ofList name.chars).toList) l := by
  rw [h.parse_eq]
  exact .declared h.notParam h.fixedLayout?_eq (bracket_notMem name) h.underlying?_eq hs

theorem sized_underlying (hs : Sized scope n (TypeTree.parse (String.ofList name.chars).toList) l) :
    ∃ k, Sized scope k (TypeTree.parse underlying.toList) l := by
  have hn := hs
  rw [h.parse_eq] at hn
  obtain ⟨k, -, l', hk⟩ := hn.of_part h.part
  obtain rfl := (h.sized hk).unique hs
  exact ⟨k, hk⟩

theorem descend_eq : scope.descend limit [] 0 (TypeTree.parse (String.ofList name.chars).toList) =
    visit limit 0 (String.ofList name.chars)
      (scope.descend limit [String.ofList name.chars] (0 + partLevels)
        (TypeTree.parse underlying.toList)) := by
  have hp : scope.typeParams.contains (String.ofList name.chars) = false := by
    simpa using h.notParam
  rw [h.parse_eq, Scope.descend_eq]
  simp only [TypeTree.descend, visitUnlessParam, hp, Bool.false_eq_true, if_false]
  rw [descendName_eq_resolve h.fixedLayout?_eq (bracket_notMem name),
    Scope.descender_underlying h.underlying?_eq (List.not_mem_nil)]

theorem exists_run_descend {known known' : List String} (hk : HoldsParts scope known)
    (hd : (scope.descend limit [] 0 (TypeTree.parse (String.ofList name.chars).toList)).run.run known =
      (.ok (), known')) :
    ∃ known', (scope.descend limit [] 0 (TypeTree.parse underlying.toList)).run.run known =
      (.ok (), known') := by
  have hdepth : ¬ limit < 0 := Nat.not_lt_zero _
  by_cases hmem : String.ofList name.chars ∈ known
  · -- the parts of what is remembered are remembered
    have hpart := h.part
    rw [← h.parse_eq] at hpart
    exact ⟨known, run_descend_known [] hdepth (hk _ hmem _ hpart)⟩
  · have hat : scope.IsAt [String.ofList name.chars] (TypeTree.parse underlying.toList) :=
      ⟨⟨_, rfl⟩, by simpa using .single h.part⟩
    rw [h.descend_eq] at hd
    rcases hin : (scope.descend limit [String.ofList name.chars] (0 + partLevels)
      (TypeTree.parse underlying.toList)).run.run known with ⟨halt | _, known₁⟩
    · cases (run_visit_error hdepth hmem hin).symm.trans hd
    · exact ⟨known₁, hat.eases (List.nil_subset _) (Nat.zero_le _) known known₁ hin⟩

end Scope.Declares

namespace Sizer

variable {s : Sizer} {typeExpr : String}

theorem IsSound.layoutOf_eq_ok_iff (hs : s.IsSound) :
    (s.layoutOf typeExpr).1 = .ok l ↔ ∃ n, Sized s.scope n (TypeTree.parse typeExpr.toList) l := by
  refine ⟨fun h => ?_, fun ⟨n, h⟩ => layoutOf_of_sized hs.remembers h⟩
  have hj := hs.justifies typeExpr
  rwa [h] at hj

/-- Within the limit it finds those of types that are not given up on. -/
theorem IsSound.layoutWithin_eq_ok_iff (hs : s.IsSound) :
    (s.layoutWithin limit typeExpr).1 = .ok l ↔
      s.isTooDeep limit typeExpr = false ∧ ∃ n, Sized s.scope n (TypeTree.parse typeExpr.toList) l := by
  rw [← hs.layoutOf_eq_ok_iff]
  refine ⟨fun h => ⟨isTooDeep_of_layoutWithin h, (layoutOf_of_layoutWithin h).1⟩, fun h => ?_⟩
  rw [layoutWithin_fst, h.1, h.2]
  rfl

/-- A descent into a type that has a layout reaches its end unless it is given up on. -/
theorem IsSound.exists_descent (hs : s.IsSound)
    (hsized : Sized s.scope n (TypeTree.parse typeExpr.toList) l)
    (hd : s.isTooDeep limit typeExpr = false) : ∃ known, s.descent limit typeExpr = (.ok (), known) := by
  have hat := Scope.IsAt.parse s.scope typeExpr.toList
  obtain ⟨cache, hrun, -⟩ := hat.yields_layout hsized s.cache hs.remembers
  obtain ⟨hfollows, -⟩ := hat.mirrors (Nat.le_refl 0) s.cache (isTooDeep_eq_false_iff.1 hd)
  refine ⟨cache.map Prod.fst, hfollows.trans ?_⟩
  rw [hrun]
  rfl

theorem IsSound.isTooDeep_underlying (hs : s.IsSound) (h : s.scope.Declares name underlying)
    (hsized : Sized s.scope n (TypeTree.parse underlying.toList) l)
    (hname : s.isTooDeep limit (String.ofList name.chars) = false) :
    s.isTooDeep limit underlying = false := by
  obtain ⟨known, hd⟩ := hs.exists_descent (h.sized hsized) hname
  obtain ⟨known', hd'⟩ := h.exists_run_descend hs.holdsParts hd
  rw [isTooDeep_eq_false_iff, descent, hd']
  simp

/-- Two texts have the same layout or both have none.  Within any limit the second has the layout of the
first, and the first has that of the second unless it is given up on, which takes a second one that is
nested almost too deeply itself. -/
structure Transparent (s : Sizer) (declared underlying : String) : Prop where
  unlimited : ∀ l, (s.layoutOf declared).1 = .ok l ↔ (s.layoutOf underlying).1 = .ok l
  within : ∀ limit l, (s.layoutWithin limit declared).1 = .ok l →
    (s.layoutWithin limit underlying).1 = .ok l
  found : ∀ limit l, (s.layoutWithin limit underlying).1 = .ok l →
    (s.layoutWithin limit declared).1 = .ok l ∨
      (s.layoutWithin limit declared).1 = .error tooDeep ∧
        ∀ n, Sized s.scope n (TypeTree.parse underlying.toList) l → limit < n + partLevels

theorem IsSound.transparent (hs : s.IsSound) (h : s.scope.Declares name underlying) :
    s.Transparent (String.ofList name.chars) underlying := by
  have hto {l : TypeLayout} :
      (∃ n, Sized s.scope n (TypeTree.parse (String.ofList name.chars).toList) l) ↔
        ∃ n, Sized s.scope n (TypeTree.parse underlying.toList) l :=
    ⟨fun ⟨_, hn⟩ => h.sized_underlying hn, fun ⟨_, hn⟩ => ⟨_, h.sized hn⟩⟩
  constructor
  case unlimited =>
    intro l
    rw [hs.layoutOf_eq_ok_iff, hs.layoutOf_eq_ok_iff, hto]
  case within =>
    intro limit l hl
    obtain ⟨hd, hn⟩ := hs.layoutWithin_eq_ok_iff.1 hl
    obtain ⟨n, hn⟩ := hto.1 hn
    exact hs.layoutWithin_eq_ok_iff.2 ⟨hs.isTooDeep_underlying h hn hd, n, hn⟩
  case found =>
    intro limit l hl
    obtain ⟨-, hn⟩ := hs.layoutWithin_eq_ok_iff.1 hl
    cases hd : s.isTooDeep limit (String.ofList name.chars) with
    | false => exact .inl (hs.layoutWithin_eq_ok_iff.2 ⟨hd, hto.2 hn⟩)
    | true =>
        refine .inr ⟨by rw [layoutWithin_fst, hd]; rfl, fun n hn => ?_⟩
        by_contra hle
        have hshallow := isTooDeep_of_sized (h.sized hn) (Nat.not_lt.1 hle)
        exact Bool.false_ne_true (hshallow.symm.trans hd)

/-- **A declared name is sized like the type that it is declared as**, whatever was asked before and
under whatever limit. -/
theorem layout_declaredName (h : scope.Declares name underlying) (history : List (Nat × Query)) :
    ((ofScope scope).after history).Transparent (String.ofList name.chars) underlying := by
  obtain ⟨hs, hscope⟩ := (isSound_ofScope scope).after history
  refine hs.transparent ?_
  rw [hscope]
  exact h

end Sizer

section Degrees

/-- A name that is declared as another name. -/
def degreesScope : Scope where
  abi := .amd64
  localTypes := [("Celsius", "Degrees"), ("Degrees", "float64")]
  genericTypes := []
  typeParams := []

def celsius : Identifier :=
  { first := 'C', rest := "elsius".toList, starts := rfl, continues := by decide }

def degrees : Identifier :=
  { first := 'D', rest := "egrees".toList, starts := rfl, continues := by decide }

theorem declares_celsius : degreesScope.Declares celsius "Degrees" where
  declared := rfl
  notParam := List.not_mem_nil
  notPredeclared p := by cases p <;> decide
  notInterface := by decide
  notStruct := by decide

theorem declares_degrees : degreesScope.Declares degrees "float64" where
  declared := rfl
  notParam := List.not_mem_nil
  notPredeclared p := by cases p <;> decide
  notInterface := by decide
  notStruct := by decide

theorem sized_degrees : Sized degreesScope (0 + partLevels)
    (TypeTree.parse "Degrees".toList) { size := 8, align := 8 } :=
  declares_degrees.sized (sized_text rfl (.predeclared .float64) (Nat.le_refl 0) trivial)

/-- Both names get the layout of `float64`, also when they are asked for in turn. -/
theorem layout_declaredName_celsius :
    let s := (Sizer.ofScope degreesScope).after [(1, .layout "Celsius"), (3, .layout "Degrees")]
    degreesScope.Declares celsius "Degrees" ∧
      (s.layoutOf "Celsius").1 = .ok { size := 8, align := 8 } ∧
      (s.layoutWithin 6 "Celsius").1 = .ok { size := 8, align := 8 } := by
  intro s
  have hs : s.IsSound := ((Sizer.isSound_ofScope degreesScope).after _).1
  have hscope : s.scope = degreesScope := ((Sizer.isSound_ofScope degreesScope).after _).2
  have hsized := sized_degrees
  rw [← hscope] at hsized
  have h : s.Transparent "Celsius" "Degrees" := Sizer.layout_declaredName declares_celsius _
  have hwithin : (s.layoutWithin 6 "Degrees").1 = .ok { size := 8, align := 8 } :=
    Sizer.layoutWithin_of_sized hs.remembers hsized (by decide)
  refine ⟨declares_celsius, (h.unlimited _).2 (Sizer.layoutOf_of_sized hs.remembers hsized), ?_⟩
  refine (h.found 6 _ hwithin).resolve_right fun hdeep => ?_
  exact absurd (hdeep.2 _ hsized) (by decide)

end Degrees

/-! ### Names that are not looked up -/

theorem parse_interfaceName (h : interfaceWord <+: name.chars) :
    TypeTree.parse (String.ofList name.chars).toList = .interface (String.ofList name.chars) := by
  have hi : TypeTree.startsWith "interface" name.chars = true := List.isPrefixOf_iff_prefix.2 h
  rw [String.toList_ofList, TypeTree.parse_chars, hi]
  rfl

theorem parse_structName (h : structWord <+: name.chars) :
    TypeTree.parse (String.ofList name.chars).toList =
      .malformed (String.ofList name.chars) "unbalanced struct braces" := by
  have hs : TypeTree.startsWith "struct" name.chars = true := List.isPrefixOf_iff_prefix.2 h
  have hi : TypeTree.startsWith "interface" name.chars = false := by
    obtain ⟨rest, hrest⟩ := h
    rw [← hrest]
    rfl
  rw [String.toList_ofList, TypeTree.parse_chars, hi, hs]
  rfl

namespace Sizer

variable {s : Sizer}

theorem IsSound.layoutWithin_interfaceName (hs : s.IsSound) (h : interfaceWord <+: name.chars)
    (hp : String.ofList name.chars ∉ s.scope.typeParams) (limit : Nat) :
    (s.layoutWithin limit (String.ofList name.chars)).1 = .ok (wordsLayout s.scope.abi 2) := by
  refine layoutWithin_of_sized hs.remembers (?_ : Sized s.scope 0 _ _) (Nat.zero_le _)
  rw [parse_interfaceName h]
  exact .interface hp

theorem IsSound.layoutOf_structName (hs : s.IsSound) (h : structWord <+: name.chars)
    (l : TypeLayout) : (s.layoutOf (String.ofList name.chars)).1 ≠ .ok l := by
  rw [Ne, hs.layoutOf_eq_ok_iff, parse_structName h]
  rintro ⟨n, hn⟩
  cases hn

end Sizer

section WordNames

/-- Names that begin like a struct and like an interface, declared as a number. -/
def wordNamesScope : Scope where
  abi := .amd64
  localTypes := [("structInfo", "int64"), ("interfaceKind", "int64")]
  genericTypes := []
  typeParams := []

def structInfo : Identifier :=
  { first := 's', rest := "tructInfo".toList, starts := rfl, continues := by decide }

def interfaceKind : Identifier :=
  { first := 'i', rest := "nterfaceKind".toList, starts := rfl, continues := by decide }

/-- Names that begin like a struct or an interface are not sized like the type that they are declared
as. -/
theorem wordNames_not_transparent :
    let s := Sizer.ofScope wordNamesScope
    (wordNamesScope.localTypes = [("structInfo", "int64"), ("interfaceKind", "int64")] ∧
      ∀ p : Predeclared, p.text ≠ "structInfo" ∧ p.text ≠ "interfaceKind") ∧
      (∀ l, (s.layoutOf "structInfo").1 ≠ .ok l) ∧
      ∀ limit, (s.layoutWithin limit "int64").1 = .ok { size := 8, align := 8 } ∧
        (∀ l, (s.layoutWithin limit "structInfo").1 ≠ .ok l) ∧
        (s.layoutWithin limit "interfaceKind").1 = .ok { size := 16, align := 8 } := by
  intro s
  have hs : s.IsSound := Sizer.isSound_ofScope wordNamesScope
  have hi : interfaceWord <+: interfaceKind.chars := by decide
  have hst : structWord <+: structInfo.chars := by decide
  have hint : Sized s.scope 0 (TypeTree.parse "int64".toList) { size := 8, align := 8 } :=
    sized_text rfl (.predeclared .int64) (Nat.le_refl 0) trivial
  have hnone (l : TypeLayout) : (s.layoutOf "structInfo").1 ≠ .ok l := hs.layoutOf_structName hst l
  refine ⟨⟨rfl, fun p => by cases p <;> decide⟩, hnone, fun limit => ⟨?_, fun l h => ?_, ?_⟩⟩
  · exact Sizer.layoutWithin_of_sized hs.remembers hint (Nat.zero_le _)
  · exact hnone l (Sizer.layoutOf_of_layoutWithin h).1
  · have hp : String.ofList interfaceKind.chars ∉ s.scope.typeParams := List.not_mem_nil
    have hname : String.ofList interfaceKind.chars = "interfaceKind" := by decide
    have hl := hs.layoutWithin_interfaceName hi hp limit
    rwa [hname] at hl

end WordNames

end StructLayout.Sizing
