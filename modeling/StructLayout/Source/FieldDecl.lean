import StructLayout.Source.Compact
import StructLayout.Source.Split

/-!
# Field declarations

An entry of a struct body declares one or more fields: `a, b T` declares two fields of one type, and
an entry without names declares an embedded field, named after its type.  A literal at the end of an
entry is its tag.  The main statement says that a field's type has no more opening brackets than the
body it comes from (`openers_fieldList`), which bounds how deep types nest.
-/

namespace StructLayout.Source

/-- A field as it is declared, before its type is sized. -/
structure FieldDecl where
  name : String
  typeExpr : String
  tag : String
  comment : String
  line : Int
deriving DecidableEq, Repr, Inhabited

/-! ### Identifiers -/

/-- Whether a character starts an identifier. -/
def startsName (c : Char) : Bool := c.isAlpha || c = '_'

/-- Whether a character continues an identifier. -/
def continuesName (c : Char) : Bool := c.isAlphanum || c = '_'

/-- The identifier at the start of a text, and the rest. -/
def identifier? : List Char → Option (List Char × List Char)
  | [] => none
  | c :: rest =>
    if startsName c then some (c :: rest.takeWhile continuesName, rest.dropWhile continuesName)
    else none

theorem identifier?_append {cs name rest : List Char} (h : identifier? cs = some (name, rest)) :
    name ++ rest = cs := by
  unfold identifier? at h
  split at h
  · cases h
  · split at h
    · cases h
      simp
    · cases h

theorem identifier?_length {cs name rest : List Char} (h : identifier? cs = some (name, rest)) :
    rest.length < cs.length := by
  unfold identifier? at h
  split at h
  · cases h
  · next c tail =>
    split at h
    · cases h
      have := (List.dropWhile_sublist continuesName : List.Sublist _ tail).length_le
      simp only [List.length_cons]
      omega
    · cases h

/-! ### Embedded fields -/

def afterLastDot (cs : List Char) : List Char := (cs.reverse.takeWhile (· != '.')).reverse

/-- The name of an embedded field: that of its type, without pointer, package and type arguments. -/
def embeddedName (typeExpr : List Char) : List Char :=
  let name := Text.trim ((Text.trim typeExpr).dropWhile (· = '*'))
  let bare := name.takeWhile (· != '[')
  afterLastDot (if bare.isEmpty then name else bare)

/-! ### Tags -/

/-- The rest of an interpreted literal up to its closing quote, which has to end the text but for
blanks. -/
def quotedTag? : List Char → Option (List Char)
  | [] => none
  | '"' :: rest => if Text.isAllBlank rest then some [] else none
  | '\\' :: c :: rest => if c = '\n' then none else (quotedTag? rest).map fun t => '\\' :: c :: t
  | '\\' :: [] => none
  | c :: rest => (quotedTag? rest).map (c :: ·)

/-- The rest of a raw literal up to its closing quote, which has to end the text but for blanks. -/
def rawTag? : List Char → Option (List Char)
  | [] => none
  | c :: rest =>
    if c = '\x60' then (if Text.isAllBlank rest then some [] else none)
    else (rawTag? rest).map (c :: ·)

/-- The inside of a literal that, but for blanks around it, is the whole text. -/
def wholeLiteral? (cs : List Char) : Option (List Char) :=
  match Text.trimStart cs with
  | '"' :: rest => quotedTag? rest
  | '\x60' :: rest => rawTag? rest
  | _ => none

/-- What stands before a literal at the end of a text, and the inside of that literal; the longest
end that is a literal counts. -/
def splitTag? : List Char → Option (List Char × List Char)
  | [] => none
  | c :: rest =>
    match wholeLiteral? (c :: rest) with
    | some tag => some ([], tag)
    | none => (splitTag? rest).map fun r => (c :: r.1, r.2)

/-- An entry without its tag, and the tag; a literal that is the whole entry is no tag. -/
def takeTag (entry : List Char) : List Char × List Char :=
  match splitTag? entry with
  | some (before, tag) => if before.isEmpty then (entry, []) else (Text.trimEnd before, tag)
  | none => (entry, [])

theorem splitTag?_sublist {cs before tag : List Char} (h : splitTag? cs = some (before, tag)) :
    before.Sublist cs := by
  induction cs generalizing before with
  | nil => cases h
  | cons c rest ih =>
    unfold splitTag? at h
    split at h
    · cases h
      exact List.nil_sublist _
    · obtain ⟨⟨before', tag'⟩, hr, he⟩ := Option.map_eq_some_iff.1 h
      cases he
      exact (ih hr).cons_cons c

theorem takeTag_sublist (entry : List Char) : (takeTag entry).1.Sublist entry := by
  unfold takeTag
  split
  · next before tag h =>
    split
    · exact List.Sublist.refl _
    · exact (Text.trimEnd_sublist before).trans (splitTag?_sublist h)
  · exact List.Sublist.refl _

/-! ### Entries -/

/-- The type behind a name, which has to be separated from it by blanks. -/
def typeBehind? : List Char → Option (List Char)
  | [] => none
  | c :: rest =>
    if Text.isBlank c then
      match Text.trimStart rest with
      | [] => none
      | t => some t
    else none

/-- The names and the type of an entry that starts with names; as many names are taken as leave a
type behind them. -/
def namesAndType? (cs : List Char) : Option (List (List Char) × List Char) :=
  match _h : identifier? cs with
  | none => none
  | some (name, rest) =>
    let here := (typeBehind? rest).map fun t => ([name], t)
    match _hc : Text.trimStart rest with
    | ',' :: more =>
      match namesAndType? (Text.trimStart more) with
      | some (names, t) => some (name :: names, t)
      -- behind the comma there are no names with a type, so it can only belong to the type
      | none => here
    | _ => here
termination_by cs.length
decreasing_by
  have h1 := identifier?_length _h
  have h2 := Text.length_trimStart_le rest
  have h3 := Text.length_trimStart_le more
  have h4 := congrArg List.length _hc
  simp only [List.length_cons] at h4
  omega

theorem typeBehind?_sublist {cs t : List Char} (h : typeBehind? cs = some t) : t.Sublist cs := by
  unfold typeBehind? at h
  split at h
  · cases h
  · next c rest =>
    split at h
    · split at h
      · cases h
      · next ht =>
        cases h
        exact (Text.trimStart_sublist rest).cons c
    · cases h

theorem namesAndType?_sublist {cs t : List Char} {names : List (List Char)}
    (h : namesAndType? cs = some (names, t)) : t.Sublist cs := by
  have tail {cs name rest : List Char} (hi : identifier? cs = some (name, rest)) :
      rest.Sublist cs := by
    rw [← identifier?_append hi]
    exact List.sublist_append_right name rest
  have single {cs name rest t : List Char} {names : List (List Char)}
      (hi : identifier? cs = some (name, rest))
      (ht : (typeBehind? rest).map (fun t => ([name], t)) = some (names, t)) : t.Sublist cs := by
    obtain ⟨u, hu, he⟩ := Option.map_eq_some_iff.1 ht
    cases he
    exact (typeBehind?_sublist hu).trans (tail hi)
  fun_induction namesAndType? cs generalizing names t with
  | case1 cs hi => cases h
  | case2 cs name rest hi more hc names' t' hr ih =>
    cases h
    have hm : more.Sublist rest := by
      refine List.Sublist.trans ?_ (Text.trimStart_sublist rest)
      rw [hc]
      exact List.sublist_cons_self _ _
    exact (ih hr).trans ((Text.trimStart_sublist more).trans (hm.trans (tail hi)))
  | case3 cs name rest hi more hc hr ih => exact single hi h
  | case4 cs name rest hi hc => exact single hi h

def fieldEntry (comment : String) (line : Int) (entry : List Char) : List FieldDecl :=
  let entry := Text.trim entry
  if entry.isEmpty then []
  else
    let r := takeTag entry
    let field (name typeExpr : List Char) : FieldDecl := {
      name := String.ofList name
      typeExpr := String.ofList typeExpr
      tag := String.ofList r.2
      comment
      line }
    match namesAndType? r.1 with
    | some (names, t) => names.map fun name => field name (compact t)
    | none => [field (embeddedName (compact r.1)) (compact r.1)]

def fieldList (body : List Char) : List FieldDecl :=
  (splitTopLevel entrySeparators body).flatMap (fieldEntry "" 0)

def typeParamNames (params : List Char) : List String :=
  (splitTopLevel [','] params).filterMap fun part =>
    (identifier? part).map fun r => String.ofList r.1

theorem openers_fieldEntry {comment : String} {line : Int} {entry : List Char} {d : FieldDecl}
    (h : d ∈ fieldEntry comment line entry) : openers d.typeExpr.toList ≤ openers entry := by
  have hs : openers (takeTag (Text.trim entry)).1 ≤ openers entry :=
    openers_le_of_sublist ((takeTag_sublist _).trans (Text.trim_sublist entry))
  unfold fieldEntry at h
  dsimp only at h
  split at h
  · cases h
  · split at h
    · next names t ht =>
      obtain ⟨name, _, rfl⟩ := List.mem_map.1 h
      have := openers_le_of_sublist (namesAndType?_sublist ht)
      simp only [String.toList_ofList, openers_compact]
      omega
    · rw [List.mem_singleton] at h
      subst h
      simpa only [String.toList_ofList, openers_compact] using hs

/-- A field's type has no more opening brackets than the body that declares it. -/
theorem openers_fieldList {body : List Char} {d : FieldDecl} (h : d ∈ fieldList body) :
    openers d.typeExpr.toList ≤ openers body := by
  obtain ⟨part, hp, hd⟩ := List.mem_flatMap.1 h
  exact Nat.le_trans (openers_fieldEntry hd) (openers_le_of_sublist (splitTopLevel_sublist hp))

end StructLayout.Source
