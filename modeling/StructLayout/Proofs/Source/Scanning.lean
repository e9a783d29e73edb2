import StructLayout.Source.Declarations

/-!
# A scan, line by line

A scan goes over the lines of a source in turns.  What it knows in front of a line is a `Scan`: whether
a group is open, the comment lines directly above, what has been found, and the lines that are left.  A
turn (`Scanner.turn`) looks at one line; where that line starts a type, the lines over which the type
goes on are used up with it.  `Scanner.turn_cases` says once what a turn can do.

A scan is reached (`Scanner.Reaches`) if the turns lead to it from the start of the source.  From there
on the result is that of the whole scan (`Scanner.Reaches.finish_eq`), what has been found is never
lost (`Scanner.Reaches.grows`), and the turns come to an end (`Scanner.exists_reaches_end`).
-/

namespace StructLayout.Source

/-- What a scan knows in front of a line. -/
structure Scan where
  inGroup : Bool
  doc : List (List Char)
  found : Declarations
  rest : List Line

/-- The comment lines directly above the line behind one without code. -/
def docBehind (doc : List (List Char)) (line : Line) : List (List Char) :=
  if line.isComment && !line.comment.isEmpty then line.comment :: doc else []

/-! ### Growing declarations -/

theorem subset_addName (names : List String) (name : String) : names ⊆ addName names name := by
  unfold addName
  split
  · exact List.Subset.refl names
  · exact List.subset_append_left names [name]

theorem mem_addName (names : List String) (name : String) : name ∈ addName names name := by
  unfold addName
  split
  · next h => exact List.contains_iff_mem.1 h
  · exact List.mem_append_right _ (List.mem_singleton_self _)

theorem subset_foldl_addName (names more : List String) : names ⊆ more.foldl addName names := by
  induction more generalizing names with
  | nil => exact List.Subset.refl names
  | cons name more ih => exact List.Subset.trans (subset_addName names name) (ih _)

/-- The structs and the generic types that have been found are found later on, too. -/
structure Declarations.Grows (earlier later : Declarations) : Prop where
  structs : earlier.structs <+: later.structs
  genericTypes : earlier.genericTypes ⊆ later.genericTypes

namespace Declarations

theorem Grows.refl (a : Declarations) : a.Grows a := ⟨List.prefix_rfl, List.Subset.refl _⟩

theorem Grows.trans {a b c : Declarations} (h : a.Grows b) (h' : b.Grows c) : a.Grows c :=
  ⟨h.structs.trans h'.structs, List.Subset.trans h.genericTypes h'.genericTypes⟩

theorem grows_append (a b : Declarations) : a.Grows (a.append b) :=
  ⟨List.prefix_append _ _, subset_foldl_addName _ _⟩

end Declarations

namespace Scanner

variable (s : Scanner)

/-! ### Turns -/

/-- The scan behind a line, with what is read of the lines below it. -/
def turn (σ : Scan) (line : Line) (rest : List Line) : Scan :=
  if line.code.isEmpty then { σ with doc := docBehind σ.doc line, rest }
  else
    match if σ.found.package.isEmpty then packageName? line.code else none with
    | some name => { σ with doc := [], found := { σ.found with package := name }, rest }
    | none =>
      if opensGroup line.code then { σ with inGroup := true, doc := [], rest }
      else if σ.inGroup && line.code = [')'] then { σ with inGroup := false, doc := [], rest }
      else
        match specText? σ.inGroup line.code with
        | none => { σ with doc := [], rest }
        | some text =>
          let r := s.readSpec text line σ.doc rest
          { σ with doc := [], found := σ.found.append r.1, rest := r.2 }

/-- The declarations that a scan ends with. -/
def finish (σ : Scan) : Declarations := s.scanLines σ.inGroup σ.doc σ.found σ.rest

/-- A turn leads to the same end. -/
theorem finish_turn (σ : Scan) {line : Line} {rest : List Line} (h : σ.rest = line :: rest) :
    s.finish (s.turn σ line rest) = s.finish σ := by
  obtain ⟨inGroup, doc, found, lines⟩ := σ
  cases h
  change _ = s.scanLines inGroup doc found (line :: rest)
  rw [scanLines, turn]
  dsimp only
  split
  · rfl
  · cases if found.package.isEmpty then packageName? line.code else none with
    | some name => rfl
    | none =>
      dsimp only
      split
      · rfl
      · split
        · rfl
        · cases specText? inGroup line.code <;> rfl

/-- What a turn can do: go on behind a line without code, leave a line of code behind at which no type
starts, or read a type. -/
theorem turn_cases (σ : Scan) (line : Line) (rest : List Line) :
    (line.code = [] ∧ s.turn σ line rest = { σ with doc := docBehind σ.doc line, rest }) ∨
    (line.code ≠ [] ∧ ∃ inGroup package, s.turn σ line rest =
      { inGroup, doc := [], found := { σ.found with package := package }, rest }) ∨
    (line.code ≠ [] ∧ ∃ text, specText? σ.inGroup line.code = some text ∧ s.turn σ line rest =
      { σ with
        doc := []
        found := σ.found.append (s.readSpec text line σ.doc rest).1
        rest := (s.readSpec text line σ.doc rest).2 }) := by
  unfold turn
  split
  · next h => exact .inl ⟨List.isEmpty_iff.1 h, rfl⟩
  · next h =>
    have hcode : line.code ≠ [] := fun he => h (List.isEmpty_iff.2 he)
    refine .inr ?_
    split
    · exact .inl ⟨hcode, _, _, rfl⟩
    · split
      · exact .inl ⟨hcode, _, _, rfl⟩
      · split
        · exact .inl ⟨hcode, _, _, rfl⟩
        · split
          · exact .inl ⟨hcode, _, _, rfl⟩
          · next text ht => exact .inr ⟨hcode, text, ht, rfl⟩

theorem length_turn_rest_le (σ : Scan) (line : Line) (rest : List Line) :
    (s.turn σ line rest).rest.length ≤ rest.length := by
  obtain ⟨-, h⟩ | ⟨-, inGroup, package, h⟩ | ⟨-, text, -, h⟩ := s.turn_cases σ line rest
  · exact Nat.le_of_eq (congrArg (fun σ => σ.rest.length) h)
  · exact Nat.le_of_eq (congrArg (fun σ => σ.rest.length) h)
  · rw [h]
    exact length_readSpec_rest_le s text line σ.doc rest

theorem grows_turn (σ : Scan) (line : Line) (rest : List Line) :
    σ.found.Grows (s.turn σ line rest).found := by
  obtain ⟨-, h⟩ | ⟨-, inGroup, package, h⟩ | ⟨-, text, -, h⟩ := s.turn_cases σ line rest
  · rw [h]
    exact .refl _
  · rw [h]
    exact ⟨List.prefix_rfl, List.Subset.refl _⟩
  · rw [h]
    exact Declarations.grows_append _ _

/-! ### Runs -/

/-- The scan at the start of a source. -/
def start (source : String) : Scan where
  inGroup := false
  doc := []
  found := .none
  rest := sourceLines source.toList

/-- The scans to which turns lead from the start of a source. -/
inductive Reaches (source : String) : Scan → Prop
  | start : Reaches source (start source)
  | turn {σ : Scan} {line : Line} {rest : List Line} :
      Reaches source σ → σ.rest = line :: rest → Reaches source (s.turn σ line rest)

variable {s} {source : String} {σ : Scan}

theorem Reaches.finish_eq (h : s.Reaches source σ) : s.finish σ = s.scan source := by
  induction h with
  | start => rfl
  | turn _ hr ih => rw [finish_turn s _ hr, ih]

theorem Reaches.exists_end (h : s.Reaches source σ) :
    ∃ τ, s.Reaches source τ ∧ τ.rest = [] ∧ σ.found.Grows τ.found := by
  obtain ⟨n, hn⟩ : ∃ n, σ.rest.length ≤ n := ⟨_, Nat.le_refl _⟩
  induction n generalizing σ with
  | zero => exact ⟨σ, h, List.eq_nil_of_length_eq_zero (Nat.le_zero.1 hn), .refl _⟩
  | succ n ih =>
    cases hr : σ.rest with
    | nil => exact ⟨σ, h, hr, .refl _⟩
    | cons line rest =>
      have hl := length_turn_rest_le s σ line rest
      rw [hr, List.length_cons] at hn
      obtain ⟨τ, hτ, hend, hp⟩ := ih (h.turn hr) (by omega)
      exact ⟨τ, hτ, hend, (grows_turn s σ line rest).trans hp⟩

theorem Reaches.found_eq (h : s.Reaches source σ) (hr : σ.rest = []) : σ.found = s.scan source := by
  rw [← h.finish_eq, finish, hr, scanLines]

/-- What has been found is part of the result. -/
theorem Reaches.grows (h : s.Reaches source σ) : σ.found.Grows (s.scan source) := by
  obtain ⟨τ, hτ, hend, hp⟩ := h.exists_end
  rwa [← hτ.found_eq hend]

theorem exists_reaches_end (s : Scanner) (source : String) :
    ∃ σ, s.Reaches source σ ∧ σ.found = s.scan source := by
  obtain ⟨τ, hτ, hend, -⟩ := (Reaches.start : s.Reaches source (start source)).exists_end
  exact ⟨τ, hτ, hτ.found_eq hend⟩

end Scanner

end StructLayout.Source
