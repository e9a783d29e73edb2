import StructLayout.Source.FieldDecl
import StructLayout.Text.Integer
import StructLayout.Text.Quoted

/-!
# The shape of a type expression

`TypeTree.parse` takes a type expression apart as far as its size depends on it: parenthesised types,
arrays and structs have parts that are types again, and everything else is a leaf.  Every node keeps
its trimmed text.  Parsing never fails; text that cannot be sized becomes a node that says why.  The
main statement is that the text inside brackets has fewer opening brackets than the text around it
(`openers_enclosed?`), which is why parsing ends.
-/

namespace StructLayout.Sizing

open Source

/-- The shape of a type expression. -/
inductive TypeTree where
  | empty
  | name (text : String)
  | word (text : String)
  | slice (text : String)
  | interface (text : String)
  | malformed (text reason : String)
  | group (text : String) (inner : TypeTree)
  | array (text : String) (length : Int) (element : TypeTree)
  | struct (text : String) (fields : List TypeTree)
deriving Repr, Inhabited

namespace TypeTree

/-- The trimmed text of the expression. -/
def text : TypeTree → String
  | .empty => ""
  | .name t | .word t | .slice t | .interface t | .malformed t _ | .group t _ | .array t _ _
  | .struct t _ => t

def startsWith (word : String) (cs : List Char) : Bool := word.toList.isPrefixOf cs

/-- The beginnings of types that take one machine word whatever follows: maps, channels and
functions. -/
def wordBeginnings : List String := ["map[", "chan ", "chan<-", "<-chan", "func(", "func "]

/-- Opening brackets in the enclosed text and the text behind it are fewer than in the whole. -/
theorem openers_enclosed? {cs inside after : List Char} (h : enclosed? cs = some (inside, after)) :
    openers inside + openers after < openers cs := by
  have hs := openers_le_of_sublist (enclosed?_sublist h)
  obtain ⟨n, hn, _⟩ := Option.map_eq_some_iff.1 h
  cases cs with
  | nil => cases hn
  | cons c rest =>
    obtain ⟨closer, hc, _⟩ := Option.bind_eq_some_iff.1 hn
    have ho : isOpener c = true := by
      unfold closerOf? at hc
      split at hc
      · simp [isOpener, *]
      · split at hc
        · simp [isOpener, *]
        · split at hc
          · simp [isOpener, *]
          · cases hc
    simp only [openers_append, List.drop_succ_cons, List.drop_zero] at hs
    simp only [openers_cons, ho, if_true]
    omega

/-- The shape of a type expression. -/
def parse (cs : List Char) : TypeTree :=
  let t := String.ofList (Text.trim cs)
  match _hb : Text.trim cs with
  | [] => .empty
  | c :: rest =>
    match _hg : (if c = '(' then enclosed? (c :: rest) else none) with
    -- only parentheses around the whole make a group
    | some (inside, []) => .group t (parse inside)
    | _ =>
      if c = '*' then .word t
      else if c = '[' then
        if rest.head? = some ']' then .slice t
        else
          match _ha : enclosed? (c :: rest) with
          | none => .malformed t "unbalanced array brackets"
          | some (inside, after) =>
            let lengthText := Text.trim inside
            match Text.readLiteral? lengthText with
            | some length => .array t length (parse after)
            | none =>
              .malformed t ("array length " ++ Text.quoted (String.ofList lengthText) ++
                " is not a literal")
      else if wordBeginnings.any (startsWith · (c :: rest)) then .word t
      else if startsWith "interface" (c :: rest) then .interface t
      else if startsWith "struct" (c :: rest) then
        match _hs : enclosed? ((c :: rest).dropWhile (· != '\x7b')) with
        | none => .malformed t "unbalanced struct braces"
        | some (inside, _) =>
          .struct t ((fieldList inside).attach.map fun d => parse d.1.typeExpr.toList)
      else .name t
termination_by openers cs
decreasing_by
  all_goals
    have ht : openers (c :: rest) = openers cs := by rw [← _hb]; exact openers_trim cs
  · split at _hg
    · have := openers_enclosed? _hg
      omega
    · cases _hg
  · have := openers_enclosed? _ha
    omega
  · have := openers_enclosed? _hs
    have h1 := openers_fieldList d.2
    have h2 : openers ((c :: rest).dropWhile (· != '\x7b')) ≤ openers (c :: rest) :=
      openers_le_of_sublist (List.dropWhile_sublist _)
    omega

end TypeTree

end StructLayout.Sizing
