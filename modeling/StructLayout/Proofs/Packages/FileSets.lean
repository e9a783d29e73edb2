import Mathlib.Data.Finset.Basic
import Mathlib.Data.List.Nodup
import StructLayout.Packages.Discovery

/-!
# The files of each package

Inputs overlap: a file and its directory, a directory and one above it, one place under two spellings.
Which files an input names is read off the tree (`Names`): the source file that it is the path of, or
the ones that a search takes in the directories it comes to (`Reaches`).  Whatever the inputs, there is
one package a directory, a file is in one package only and only once, and a package has exactly the
files that the inputs name in its directory.

That is kept by adding one group of files to those found before (`IsMerged.addGroup`,
`holds_addGroup`), and so by putting all of them together (`isMerged_merge`, `holds_merge`).  What has
to hold of a single group (`Group.IsSound`) comes from the file tree, where the entries of a directory
have different names, and from the search, which cannot fail with patterns that are texts
(`groupsOf_ok`).  The main statement is `discover_isUnion`.

Files are compared by their places, since a path may be spelled in many ways.
-/

namespace StructLayout

namespace Files

/-! ### File trees -/

/-- A tree of directories, each with entries of different names. -/
inductive Tree.IsProper : Tree → Prop
  | file (bytes : List UInt8) : IsProper (.file bytes)
  | directory {entries : List (String × Tree)} (names : (entries.map Prod.fst).Nodup)
      (below : ∀ entry ∈ entries, entry.2.IsProper) : IsProper (.directory entries)

variable {v : View} {here tree : Tree} {p : Path} {name : String} {parts : List String}

namespace Tree.IsProper

theorem entries (h : tree.IsProper) :
    (tree.entries.map Prod.fst).Nodup ∧ ∀ entry ∈ tree.entries, entry.2.IsProper := by
  cases h with
  | file bytes => exact ⟨List.nodup_nil, fun _ he => absurd he List.not_mem_nil⟩
  | directory names below => exact ⟨names, below⟩

theorem entry? (h : here.IsProper) (he : here.entry? name = some tree) : tree.IsProper := by
  obtain ⟨before, after, hentries, -⟩ := List.lookup_eq_some_iff.1 he
  exact h.entries.2 (name, tree) (by simp [hentries])

theorem walk {above : List Tree} (h : here.IsProper) (ha : ∀ t ∈ above, t.IsProper)
    (hw : walk above here parts = .ok tree) : tree.IsProper := by
  induction parts generalizing above here with
  | nil =>
    cases hw
    exact h
  | cons part rest ih =>
    unfold Files.walk at hw
    split at hw
    · cases hw
    · split at hw
      · cases hw
      · split at hw
        · cases above with
          | nil => exact ih h ha hw
          | cons up more =>
            obtain ⟨hup, hmore⟩ := List.forall_mem_cons.1 ha
            exact ih hup hmore hw
        · split at hw
          · next next hnext => exact ih (h.entry? hnext) (List.forall_mem_cons.2 ⟨h, ha⟩) hw
          · cases hw

theorem find? (h : v.root.IsProper) (hf : v.find? p = .ok (some tree)) : tree.IsProper := by
  unfold View.find? at hf
  split at hf
  · next hl =>
    cases hf
    unfold View.locate at hl
    split at hl
    · cases hl
    · split at hl
      · cases hl
      · exact h.walk (by simp) hl
  · cases hf
  · cases hf

end Tree.IsProper

/-! ### Places -/

/-- A name with the extension of source files leads down. -/
theorem ne_dots_of_extension (h : Path.extension name = ".go") : name ≠ ".." := by
  rintro rfl
  revert h
  decide

theorem place_child (v : View) (p : Path) (h : name ≠ "..") :
    v.place (p.child name) = v.place p ++ [name] := by
  unfold View.place Path.resolve Path.child Path.resolveParts
  rw [List.foldl_append, List.foldl_cons, List.foldl_nil, if_neg h]

/-- A source file stands in the directory that its path names. -/
theorem place_source (v : View) (h : Path.extension p.name = ".go") :
    v.place p = v.place p.parent ++ [p.name] := by
  have hparts : p.parts ≠ [] := by
    intro hn
    revert h
    rw [Path.name, hn]
    decide
  have hp : p = p.parent.child p.name := by
    have hlast : p.name = p.parts.getLast hparts := by
      rw [Path.name, List.getLast?_eq_getLast_of_ne_nil hparts, Option.getD_some]
    rw [Path.child, Path.parent, hlast, List.dropLast_append_getLast]
  calc v.place p = v.place (p.parent.child p.name) := by rw [← hp]
    _ = v.place p.parent ++ [p.name] := place_child v _ (ne_dots_of_extension h)

end Files

namespace Packages

open Files

variable {v : View} {s : Selection} {g more : Group} {seen groups : List Group}
  {directory place : List String}

/-! ### One group -/

/-- A group has files, all of them in its directory and each of them once. -/
structure Group.IsSound (v : View) (g : Group) : Prop where
  inside : ∀ place ∈ g.files.map v.place, place.dropLast = g.directory
  nodup : (g.files.map v.place).Nodup
  nonempty : g.files ≠ []

theorem mem_extend : place ∈ (g.extend v more).files.map v.place ↔
    place ∈ g.files.map v.place ∨ place ∈ more.files.map v.place := by
  simp only [Group.extend, List.map_append, List.mem_append, List.mem_map, List.mem_filter,
    Bool.not_eq_true', List.contains_eq_mem, decide_eq_false_iff_not]
  constructor
  · rintro (h | ⟨file, ⟨hf, -⟩, rfl⟩)
    · exact .inl h
    · exact .inr ⟨file, hf, rfl⟩
  · rintro (h | ⟨file, hf, rfl⟩)
    · exact .inl h
    · by_cases hk : ∃ known ∈ g.files, v.place known = v.place file
      · exact .inl hk
      · exact .inr ⟨file, ⟨hf, hk⟩, rfl⟩

theorem Group.IsSound.extend (hg : g.IsSound v) (hm : more.IsSound v)
    (hd : g.directory = more.directory) : (g.extend v more).IsSound v where
  inside := fun place hp => (mem_extend.1 hp).elim (hg.inside place) fun hp => by
    rw [directory_extend, hd]
    exact hm.inside place hp
  nodup := by
    rw [Group.extend, List.map_append]
    refine hg.nodup.append (hm.nodup.sublist (List.filter_sublist.map _)) ?_
    intro place hp hq
    obtain ⟨file, hf, rfl⟩ := List.mem_map.1 hq
    have := (List.mem_filter.1 hf).2
    simp_all
  nonempty := List.append_ne_nil_of_left_ne_nil hg.nonempty _

/-! ### Groups put together -/

/-- Groups with a directory of its own for each of them. -/
structure IsMerged (v : View) (groups : List Group) : Prop where
  directories : (groups.map Group.directory).Nodup
  sound : ∀ g ∈ groups, g.IsSound v

/-- Some group of a directory has the file at a place. -/
def Holds (v : View) (groups : List Group) (directory place : List String) : Prop :=
  ∃ g ∈ groups, g.directory = directory ∧ place ∈ g.files.map v.place

theorem holds_cons : Holds v (g :: groups) directory place ↔
    (g.directory = directory ∧ place ∈ g.files.map v.place) ∨ Holds v groups directory place := by
  simp [Holds]

theorem holds_addGroup : Holds v (addGroup v more seen) directory place ↔
    Holds v (more :: seen) directory place := by
  induction seen with
  | nil => rfl
  | cons first rest ih =>
    rw [addGroup]
    split
    · next hd =>
      rw [holds_cons, holds_cons, holds_cons, directory_extend, mem_extend, hd]
      grind
    · rw [holds_cons, ih, holds_cons, holds_cons, holds_cons]
      grind

theorem sound_addGroup (hm : more.IsSound v) (hs : ∀ g ∈ seen, g.IsSound v) :
    ∀ g ∈ addGroup v more seen, g.IsSound v := by
  induction seen with
  | nil => exact List.forall_mem_singleton.2 hm
  | cons first rest ih =>
    obtain ⟨hfirst, hrest⟩ := List.forall_mem_cons.1 hs
    rw [addGroup]
    split
    · next hd => exact List.forall_mem_cons.2 ⟨hfirst.extend hm hd, hrest⟩
    · exact List.forall_mem_cons.2 ⟨hfirst, ih hrest⟩

theorem IsMerged.addGroup (hs : IsMerged v seen) (hm : more.IsSound v) :
    IsMerged v (addGroup v more seen) :=
  ⟨pairwise_addGroup hs.directories, sound_addGroup hm hs.sound⟩

/-- Groups put together after other ones stay so. -/
theorem isMerged_foldl (hs : IsMerged v seen) (hg : ∀ g ∈ groups, g.IsSound v) :
    IsMerged v (groups.foldl (fun seen g => addGroup v g seen) seen) := by
  induction groups generalizing seen with
  | nil => exact hs
  | cons g rest ih =>
    obtain ⟨hfirst, hrest⟩ := List.forall_mem_cons.1 hg
    exact ih (hs.addGroup hfirst) hrest

theorem holds_foldl :
    Holds v (groups.foldl (fun seen g => addGroup v g seen) seen) directory place ↔
      Holds v seen directory place ∨ Holds v groups directory place := by
  induction groups generalizing seen with
  | nil => simp [Holds]
  | cons g rest ih =>
    rw [List.foldl_cons, ih, holds_addGroup, holds_cons, holds_cons]
    exact or_assoc.trans or_left_comm

/-- Putting groups together gives one group a directory. -/
theorem isMerged_merge (hg : ∀ g ∈ groups, g.IsSound v) : IsMerged v (merge v groups) :=
  isMerged_foldl ⟨List.nodup_nil, fun _ h => absurd h List.not_mem_nil⟩ hg

/-- Putting groups together neither loses nor adds a file. -/
theorem holds_merge : Holds v (merge v groups) directory place ↔ Holds v groups directory place := by
  rw [merge, holds_foldl]
  simp [Holds]

/-! ### The search -/

/-- A selection with patterns that are texts. -/
def Selection.ofTexts (patterns : List String) (includeTests : Bool) : Selection where
  patterns := patterns.map .str
  includeTests

/-- Whether one of some patterns matches a path, or its last part. -/
def matchesAny (patterns : List String) (path : String) : Bool :=
  patterns.any fun pattern =>
    Text.Glob.isMatch pattern path || Text.Glob.isMatch pattern (Path.ofText path).name

/-- Whether a search goes into a directory, given by its parts from the start of the search. -/
def isEntered (patterns : List String) (parts : List String) : Bool :=
  !isReserved (parts.getLast?.getD "") && !matchesAny patterns (Path.relativeText parts ++ "/")

/-- Whether a search takes a file of a directory: it is a source file that no pattern matches, and no
test unless those are wanted. -/
def isTaken (patterns : List String) (includeTests : Bool) (parts : List String) (name : String) :
    Bool :=
  Path.extension name == ".go" && (!isTestName name || includeTests) &&
    !matchesAny patterns (Path.relativeText (parts ++ [name]))

/-- From one directory a search comes to another: to itself, and if it goes deep also to what it comes
to from a directory in it that it goes into. -/
inductive Reaches (patterns : List String) (deep : Bool) :
    List String → Tree → List String → Tree → Prop
  | here {parts : List String} {entries : List (String × Tree)} :
      Reaches patterns deep parts (.directory entries) parts (.directory entries)
  | enter {parts parts' : List String} {name : String} {entries inside : List (String × Tree)}
      {tree : Tree} : deep = true → (name, .directory inside) ∈ entries →
      isEntered patterns (parts ++ [name]) = true →
      Reaches patterns deep (parts ++ [name]) (.directory inside) parts' tree →
      Reaches patterns deep parts (.directory entries) parts' tree

/-- On its own an input names a file at a place, in the package of a directory: the source file that it
is the path of, or one that a search takes which starts at the directory that it is the path of. -/
inductive Names (v : View) (patterns : List String) (includeTests : Bool) (input : String) :
    List String → List String → Prop
  | source {path : Path} {bytes : List UInt8} : path = (Target.ofInput input).path →
      v.find? path = .ok (some (.file bytes)) → Path.extension path.name = ".go" →
      Names v patterns includeTests input (v.place path.parent) (v.place path)
  | found {path : Path} {start : Tree} {parts : List String} {entries : List (String × Tree)}
      {name : String} {bytes : List UInt8} : path = (Target.ofInput input).path →
      v.find? path = .ok (some start) →
      Reaches patterns (Target.ofInput input).recursive [] start parts (.directory entries) →
      (name, .file bytes) ∈ entries → isTaken patterns includeTests parts name = true →
      Names v patterns includeTests input (v.place (path.below parts))
        (v.place (path.below parts) ++ [name])

section Search

variable (patterns : List String) (includeTests : Bool) {tree : Tree}

theorem excludes_ofTexts (path : String) :
    excludes path (patterns.map .str) = .ok (matchesAny patterns path) := by
  induction patterns with
  | nil => rfl
  | cons pattern rest ih =>
    rw [List.map_cons, excludes, ih, matchesAny, matchesAny, List.any_cons]
    split
    · next hm => rw [hm, Bool.true_or]
    · next hm => rw [Bool.eq_false_iff.2 hm, Bool.false_or]

theorem skips_ofTexts (parts : List String) :
    (Selection.ofTexts patterns includeTests).skips parts = .ok (!isEntered patterns parts) := by
  rw [Selection.skips, isEntered]
  split
  · next hr => simp [hr]
  · next hr => simp [hr, Selection.ofTexts, excludes_ofTexts]

theorem takes_ofTexts (parts : List String) (name : String) :
    (Selection.ofTexts patterns includeTests).takes (parts ++ [name]) =
      .ok (isTaken patterns includeTests parts name) := by
  have hname : (parts ++ [name]).getLast?.getD "" = name := by simp
  simp only [Selection.takes, hname, isTaken, Selection.ofTexts, excludes_ofTexts, bne]
  generalize matchesAny patterns (Path.relativeText (parts ++ [name])) = excluded
  cases Path.extension name == ".go" <;> cases isTestName name <;> cases includeTests <;> rfl

theorem Reaches.isProper {deep : Bool} {parts parts' : List String} {start : Tree}
    (hr : Reaches patterns deep parts start parts' tree) (h : start.IsProper) : tree.IsProper := by
  induction hr with
  | here => exact h
  | enter _ hmem _ _ ih => exact ih (h.entries.2 _ hmem)

/-- Without going deep a search stays where it starts. -/
theorem reaches_shallow {parts parts' : List String} {start : Tree} :
    Reaches patterns false parts start parts' tree ↔
      start.isFile = false ∧ parts' = parts ∧ tree = start := by
  constructor
  · rintro (_ | ⟨hdeep, -⟩)
    · exact ⟨rfl, rfl, rfl⟩
    · cases hdeep
  · rintro ⟨hd, rfl, rfl⟩
    cases tree with
    | file bytes => cases hd
    | directory entries => exact .here

/-- The directories that are found are those that a deep search comes to. -/
theorem directories_ok :
    (∀ parts (tree : Tree),
      ∃ found, directories (.ofTexts patterns includeTests) parts tree = .ok found ∧
        ∀ d, d ∈ found ↔ Reaches patterns true parts tree d.1 d.2) ∧
    ∀ parts (entries : List (String × Tree)),
      ∃ found, subdirectories (.ofTexts patterns includeTests) parts entries = .ok found ∧
        ∀ d, (∃ e ∈ found, d ∈ e.2) ↔ ∃ name inside, (name, .directory inside) ∈ entries ∧
          isEntered patterns (parts ++ [name]) = true ∧
          Reaches patterns true (parts ++ [name]) (.directory inside) d.1 d.2 := by
  -- along the recursion of both functions at once
  refine directories.mutual_induct _ _ (fun parts bytes => ?_) (fun parts entries ih => ?_)
    (fun parts => ?_) (fun parts name bytes rest ih => ?_)
    (fun parts name entries rest ihrest ih => ?_)
  · refine ⟨[], by rw [directories], fun d => iff_of_false List.not_mem_nil ?_⟩
    rintro ⟨⟩
  · obtain ⟨found, hf, hmem⟩ := ih
    refine ⟨_, by rw [directories, hf]; rfl, fun d => ?_⟩
    simp only [List.mem_cons, List.mem_flatMap, List.mem_mergeSort, hmem]
    constructor
    · rintro (rfl | ⟨name, inside, hentry, hentered, hr⟩)
      · exact .here
      · exact .enter rfl hentry hentered hr
    · intro hr
      obtain ⟨parts', tree⟩ := d
      cases hr with
      | here => exact .inl rfl
      | enter _ hentry hentered hr => exact .inr ⟨_, _, hentry, hentered, hr⟩
  · exact ⟨[], by rw [subdirectories], by simp⟩
  · obtain ⟨found, hf, hmem⟩ := ih
    exact ⟨found, by rw [subdirectories, hf], by simpa using hmem⟩
  · obtain ⟨found, hf, hmem⟩ := ih
    obtain ⟨others, ho, hothers⟩ := ihrest
    rw [subdirectories]
    simp only [skips_ofTexts, hf, ho, bind, Except.bind]
    cases he : isEntered patterns (parts ++ [name]) with
    | false =>
      refine ⟨others, rfl, fun d => (hothers d).trans ?_⟩
      simp only [List.mem_cons, Prod.mk.injEq]
      refine exists₂_congr fun n inside => and_congr_left fun hr => ?_
      refine ⟨.inr, Or.rec (fun h => ?_) id⟩
      rw [h.1, he] at hr
      cases hr.1
    | true =>
      refine ⟨(name, found) :: others, rfl, fun d => ?_⟩
      rw [List.exists_mem_cons_iff, hmem, hothers]
      simp only [List.mem_cons, Prod.mk.injEq, Tree.directory.injEq]
      constructor
      · rintro (hr | ⟨n, inside, hentry, hr⟩)
        · exact ⟨name, entries, .inl ⟨rfl, rfl⟩, he, hr⟩
        · exact ⟨n, inside, .inr hentry, hr⟩
      · rintro ⟨n, inside, ⟨rfl, rfl⟩ | hentry, hr⟩
        · exact .inl hr.2
        · exact .inr ⟨n, inside, hentry, hr⟩

theorem sourceNames_ok (parts : List String) (h : tree.IsProper) :
    ∃ names, sourceNames (.ofTexts patterns includeTests) parts tree = .ok names ∧ names.Nodup ∧
      ∀ name, name ∈ names ↔ (∃ bytes, (name, .file bytes) ∈ tree.entries) ∧
        isTaken patterns includeTests parts name = true := by
  refine ⟨_, Outcome.filterM_eq_ok fun name _ => takes_ofTexts patterns includeTests parts name, ?_,
    fun name => ?_⟩
  · refine List.Nodup.filter _ ((List.mergeSort_perm _ _).nodup_iff.2 (h.entries.1.sublist ?_))
    exact List.filter_sublist.map Prod.fst
  · rw [List.mem_filter, Error.sortedNames, List.mem_mergeSort, List.mem_map]
    refine and_congr_left fun _ => ⟨?_, fun ⟨bytes, hb⟩ => ⟨_, List.mem_filter.2 ⟨hb, rfl⟩, rfl⟩⟩
    rintro ⟨⟨n, t⟩, hmem, rfl⟩
    obtain ⟨hentry, hfile⟩ := List.mem_filter.1 hmem
    cases t with
    | file bytes => exact ⟨bytes, hentry⟩
    | directory entries => cases hfile

/-- What is found in a proper directory is a sound group of the files that are taken, if there are
any. -/
theorem groupOf_ok (v : View) (start : Path) (found : List String × Tree) (h : found.2.IsProper) :
    ∃ group, groupOf v (.ofTexts patterns includeTests) start found = .ok group ∧
      (∀ g ∈ group, g.IsSound v) ∧
      ∀ directory place, Holds v group.toList directory place ↔
        directory = v.place (start.below found.1) ∧ ∃ name bytes,
          (name, .file bytes) ∈ found.2.entries ∧
          isTaken patterns includeTests found.1 name = true ∧
          place = v.place (start.below found.1) ++ [name] := by
  obtain ⟨names, hn, hd, hmem⟩ := sourceNames_ok patterns includeTests found.1 h
  have hplaces : (names.map (start.below found.1).child).map v.place =
      names.map fun name => v.place (start.below found.1) ++ [name] := by
    rw [List.map_map]
    refine List.map_congr_left fun name hm => place_child v _ (ne_dots_of_extension ?_)
    have htaken := ((hmem name).1 hm).2
    simp only [isTaken, Bool.and_eq_true, beq_iff_eq] at htaken
    exact htaken.1.1
  have hholds (directory place : List String) : (v.place (start.below found.1) = directory ∧
      place ∈ (names.map (start.below found.1).child).map v.place) ↔
        directory = v.place (start.below found.1) ∧ ∃ name bytes,
          (name, .file bytes) ∈ found.2.entries ∧
          isTaken patterns includeTests found.1 name = true ∧
          place = v.place (start.below found.1) ++ [name] := by
    rw [hplaces, List.mem_map, eq_comm]
    refine and_congr_right fun _ => exists_congr fun name => ?_
    rw [hmem]
    grind
  simp only [groupOf, hn, bind, Except.bind]
  split
  · next hempty =>
    refine ⟨none, rfl, by simp, fun directory place => ?_⟩
    rw [← hholds, List.isEmpty_iff.1 hempty]
    simp [Holds]
  · next hempty =>
    refine ⟨_, rfl, fun g hg => ?_, fun directory place => ?_⟩
    · cases hg
      refine ⟨fun place hp => ?_, ?_, ?_⟩
      · rw [hplaces] at hp
        obtain ⟨name, -, rfl⟩ := List.mem_map.1 hp
        exact List.dropLast_concat
      · rw [hplaces]
        exact hd.map fun a b hab => by simpa using hab
      · simpa using hempty
    · rw [← hholds]
      simp [Holds]

theorem groupsIn_ok (start : Path) (found : List (List String × Tree))
    (h : ∀ d ∈ found, d.2.IsProper) :
    ∃ groups, (do
        let groups ← Outcome.ofFault (found.mapM (groupOf v (.ofTexts patterns includeTests) start))
        pure (groups.filterMap id)) = Except.ok groups ∧ (∀ g ∈ groups, g.IsSound v) ∧
      ∀ directory place, Holds v groups directory place ↔
        ∃ d ∈ found, directory = v.place (start.below d.1) ∧ ∃ name bytes,
          (name, .file bytes) ∈ d.2.entries ∧ isTaken patterns includeTests d.1 name = true ∧
          place = v.place (start.below d.1) ++ [name] := by
  obtain ⟨groups, hg, hfrom, hto⟩ := Outcome.mapM_ok fun d hd =>
    groupOf_ok patterns includeTests v start d (h d hd)
  refine ⟨groups.filterMap id, by rw [hg]; rfl, fun g hm => ?_, fun directory place => ?_⟩
  · obtain ⟨group, hgroup, he⟩ := List.mem_filterMap.1 hm
    obtain ⟨d, -, hsound, -⟩ := hfrom group hgroup
    exact hsound g he
  · constructor
    · rintro ⟨g, hm, hholds⟩
      obtain ⟨group, hgroup, he⟩ := List.mem_filterMap.1 hm
      obtain ⟨d, hd, -, hiff⟩ := hfrom group hgroup
      exact ⟨d, hd, (hiff _ _).1 ⟨g, by simpa using he, hholds⟩⟩
    · rintro ⟨d, hd, hfile⟩
      obtain ⟨group, hgroup, -, hiff⟩ := hto d hd
      obtain ⟨g, hmem, hholds⟩ := (hiff _ _).2 hfile
      exact ⟨g, List.mem_filterMap.2 ⟨group, hgroup, by simpa using hmem⟩, hholds⟩

/-- The input names a directory, alone or with all below it, or a source file. -/
def IsInput (v : View) (input : String) : Prop :=
  ∃ tree, v.find? (Target.ofInput input).path = .ok (some tree) ∧
    (tree.isFile = true → Path.extension (Target.ofInput input).path.name = ".go")

theorem groupsOf_directory {input : String} {entries : List (String × Tree)}
    (hfind : v.find? (Target.ofInput input).path = .ok (some (.directory entries))) :
    ∃ found : List (List String × Tree), groupsOf v (.ofTexts patterns includeTests) input = (do
        let groups ← Outcome.ofFault
          (found.mapM (groupOf v (.ofTexts patterns includeTests) (Target.ofInput input).path))
        pure (groups.filterMap id)) ∧
      ∀ d, d ∈ found ↔
        Reaches patterns (Target.ofInput input).recursive [] (.directory entries) d.1 d.2 := by
  cases hr : (Target.ofInput input).recursive with
  | true =>
    obtain ⟨found, hf, hmem⟩ := (directories_ok patterns includeTests).1 [] (.directory entries)
    refine ⟨found, ?_, hmem⟩
    simp only [groupsOf, hfind, hr, hf, if_true, bind, Except.bind, Outcome.ofFault_ok]
  | false =>
    refine ⟨[([], .directory entries)], ?_, fun d => ?_⟩
    · simp only [groupsOf, hfind, hr, Bool.false_eq_true, if_false, bind, Except.bind,
        Outcome.ofFault_ok]
      rfl
    · rw [reaches_shallow, List.mem_singleton, Prod.ext_iff]
      exact (and_iff_right rfl).symm

theorem groupsOf_ok (hv : v.root.IsProper) {input : String} (h : IsInput v input) :
    ∃ groups, groupsOf v (.ofTexts patterns includeTests) input = .ok groups ∧
      (∀ g ∈ groups, g.IsSound v) ∧
      ∀ directory place, Holds v groups directory place ↔
        Names v patterns includeTests input directory place := by
  obtain ⟨tree, hfind, hfile⟩ := h
  cases tree with
  | file bytes =>
    have hext := hfile rfl
    have hplace := place_source v hext
    refine ⟨[⟨v.place (Target.ofInput input).path.parent, [(Target.ofInput input).path]⟩], ?_,
      List.forall_mem_singleton.2 ⟨?_, List.nodup_singleton _, List.cons_ne_nil _ _⟩,
      fun directory place => ?_⟩
    · simp [groupsOf, hfind, hext, bind, Except.bind, pure, Except.pure]
    · rw [List.map_singleton, List.forall_mem_singleton, hplace]
      exact List.dropLast_concat
    · simp only [Holds, List.mem_singleton, exists_eq_left, List.map_cons, List.map_nil]
      constructor
      · rintro ⟨rfl, rfl⟩
        exact .source rfl hfind hext
      · intro hnames
        cases hnames with
        | source hp => exact hp ▸ ⟨rfl, rfl⟩
        | found hp hstart hr =>
          rw [hp, hfind] at hstart
          cases hstart
          cases hr
  | directory entries =>
    obtain ⟨found, hfound, hmem⟩ := groupsOf_directory patterns includeTests hfind
    obtain ⟨groups, hg, hs, hholds⟩ := groupsIn_ok patterns includeTests (Target.ofInput input).path
      found fun d hd => ((hmem d).1 hd).isProper patterns (hv.find? hfind)
    refine ⟨groups, hfound.trans hg, hs, fun directory place => (hholds directory place).trans ?_⟩
    constructor
    · rintro ⟨⟨parts, t⟩, hd, rfl, name, bytes, hentry, htaken, rfl⟩
      cases t with
      | file bytes => cases hentry
      | directory inside => exact .found rfl hfind ((hmem _).1 hd) hentry htaken
    · intro hnames
      cases hnames with
      | source hp hstart =>
        rw [hp, hfind] at hstart
        cases hstart
      | @found path start parts inside name bytes hp hstart hr hentry htaken =>
        subst hp
        cases hfind.symm.trans hstart
        exact ⟨(parts, .directory inside), (hmem (parts, .directory inside)).2 hr, rfl, name, bytes,
          hentry, htaken, rfl⟩

end Search

/-! ### Packages -/

/-- Groups put together have no file twice, in different ones either. -/
theorem IsMerged.nodup_files (h : IsMerged v groups) :
    ((groups.flatMap Group.files).map v.place).Nodup := by
  rw [List.map_flatMap, List.nodup_flatMap]
  refine ⟨fun g hg => (h.sound g hg).nodup, ?_⟩
  refine (List.pairwise_map.1 h.directories).imp_of_mem fun ha hb hne place hp hq => hne ?_
  rw [← (h.sound _ ha).inside place hp, (h.sound _ hb).inside place hq]

theorem IsMerged.holds_iff (h : IsMerged v groups) (hg : g ∈ groups) :
    Holds v groups g.directory place ↔ place ∈ g.files.map v.place := by
  constructor
  · rintro ⟨other, ho, hd, hp⟩
    rwa [List.inj_on_of_nodup_map h.directories ho hg hd] at hp
  · exact fun hp => ⟨g, hg, rfl, hp⟩

theorem holds_flatMap {inputs : List String} {named : String → List Group} :
    Holds v (inputs.flatMap named) directory place ↔
      ∃ input ∈ inputs, Holds v (named input) directory place := by
  simp only [Holds, List.mem_flatMap]
  grind

/-- A package as a group of files. -/
def SourcePackage.group (p : SourcePackage) : Group where
  directory := p.directory
  files := p.files

section Discovery

variable {inputs others : List String} {packages : List SourcePackage}

theorem reached_ok {named : String → List Group}
    (h : ∀ input ∈ inputs, groupsOf v s input = .ok (named input)) :
    reached (inputs.map (groupsOf v s)) = (inputs.flatMap named, none) := by
  induction inputs with
  | nil => rfl
  | cons input rest ih =>
    obtain ⟨hinput, hrest⟩ := List.forall_mem_cons.1 h
    rw [List.map_cons, hinput, reached, ih hrest]
    rfl

/-- Inputs that can be searched give packages: the groups that they lead to, put together. -/
theorem discover_ok {named : String → List Group}
    (h : ∀ input ∈ inputs, groupsOf v s input = .ok (named input)) (known : Modules) :
    ∃ packages, (discover v s inputs known).1 = .ok packages ∧
      packages.map SourcePackage.group = merge v (inputs.flatMap named) := by
  simp only [discover, reached_ok h]
  refine ⟨_, rfl, ?_⟩
  rw [List.map_map]
  exact List.map_id _

/-- The packages are those of some inputs put together: one package a directory that they name a file of,
no file twice, and in each directory the files that the inputs name. -/
structure IsUnion (v : View) (names : String → List String → List String → Prop)
    (inputs : List String) (packages : List SourcePackage) : Prop where
  directories : (packages.map SourcePackage.directory).Nodup
  files : ((packages.flatMap SourcePackage.files).map v.place).Nodup
  mem_directories : ∀ d, d ∈ packages.map SourcePackage.directory ↔
    ∃ input ∈ inputs, ∃ place, names input d place
  mem_files : ∀ p ∈ packages, ∀ place, place ∈ p.files.map v.place ↔
    ∃ input ∈ inputs, names input p.directory place

theorem mem_directories_iff (hs : ∀ g ∈ groups, g.IsSound v) :
    directory ∈ groups.map Group.directory ↔ ∃ place, Holds v groups directory place := by
  constructor
  · intro hd
    obtain ⟨g, hg, rfl⟩ := List.mem_map.1 hd
    obtain ⟨file, hfile⟩ := List.exists_mem_of_ne_nil _ (hs g hg).nonempty
    exact ⟨_, g, hg, rfl, List.mem_map_of_mem hfile⟩
  · rintro ⟨place, g, hg, rfl, -⟩
    exact List.mem_map_of_mem hg

theorem isUnion_of_merge {named : String → List Group}
    {names : String → List String → List String → Prop}
    (hs : ∀ input ∈ inputs, ∀ g ∈ named input, g.IsSound v)
    (hn : ∀ input ∈ inputs, ∀ directory place, Holds v (named input) directory place ↔
      names input directory place)
    (hp : packages.map SourcePackage.group = merge v (inputs.flatMap named)) :
    IsUnion v names inputs packages := by
  have hmerged : IsMerged v (packages.map SourcePackage.group) := by
    rw [hp]
    refine isMerged_merge fun g hg => ?_
    obtain ⟨input, hi, hg⟩ := List.mem_flatMap.1 hg
    exact hs input hi g hg
  have hdirectories : packages.map SourcePackage.directory =
      (packages.map SourcePackage.group).map Group.directory := by
    rw [List.map_map]
    rfl
  have hholds (d place : List String) : Holds v (packages.map SourcePackage.group) d place ↔
      ∃ input ∈ inputs, names input d place := by
    rw [hp, holds_merge, holds_flatMap]
    exact exists_congr fun input => and_congr_right fun hi => hn input hi d place
  refine ⟨?_, ?_, fun d => ?_, fun p hm place => ?_⟩
  · rw [hdirectories]
    exact hmerged.directories
  · have h := hmerged.nodup_files
    rwa [List.flatMap_map] at h
  · rw [hdirectories, mem_directories_iff hmerged.sound]
    simp only [hholds]
    grind
  · exact (hmerged.holds_iff (List.mem_map_of_mem hm)).symm.trans (hholds _ _)

/-- The set of files of the package of a directory, if there is one. -/
def fileSets (v : View) (packages : List SourcePackage) (directory : List String) :
    Option (Finset (List String)) :=
  (packages.find? fun p => p.directory = directory).map fun p => (p.files.map v.place).toFinset

theorem IsUnion.fileSets_eq {names : String → List String → List String → Prop}
    {ps qs : List SourcePackage} (hp : IsUnion v names inputs ps) (hq : IsUnion v names others qs)
    (hm : ∀ input, input ∈ others ↔ input ∈ inputs) : fileSets v qs = fileSets v ps := by
  have hsome (d : List String) : (qs.find? fun q => q.directory = d).isSome =
      (ps.find? fun p => p.directory = d).isSome := by
    have h : d ∈ qs.map SourcePackage.directory ↔ d ∈ ps.map SourcePackage.directory := by
      rw [hp.mem_directories, hq.mem_directories]
      simp only [hm]
    rw [Bool.eq_iff_iff]
    simpa [List.find?_isSome] using h
  funext d
  unfold fileSets
  cases hfp : ps.find? fun p => p.directory = d with
  | none =>
    have hnone := hsome d
    rw [hfp, Option.isSome_none, Option.isSome_eq_false_iff, Option.isNone_iff_eq_none] at hnone
    rw [hnone]
  | some p =>
    obtain ⟨q, hfq⟩ := Option.isSome_iff_exists.1 ((hsome d).trans (by rw [hfp]; rfl))
    have hpd : p.directory = d := by simpa using List.find?_some hfp
    have hqd : q.directory = d := by simpa using List.find?_some hfq
    have hfiles (place : List String) :
        place ∈ q.files.map v.place ↔ place ∈ p.files.map v.place := by
      rw [hp.mem_files p (List.mem_of_find?_eq_some hfp),
        hq.mem_files q (List.mem_of_find?_eq_some hfq), hpd, hqd]
      simp only [hm]
    rw [hfq, Option.map_some, Option.map_some, Option.some_inj]
    ext place
    rw [List.mem_toFinset, List.mem_toFinset, hfiles]

theorem exists_isUnion (hv : v.root.IsProper) (patterns : List String) (includeTests : Bool)
    (known : Modules) (h : ∀ input ∈ inputs, IsInput v input) :
    ∃ packages,
      (discover v (.ofTexts patterns includeTests) inputs known).1 = .ok packages ∧
      IsUnion v (Names v patterns includeTests) inputs packages := by
  let named (input : String) : List Group :=
    (groupsOf v (.ofTexts patterns includeTests) input).toOption.getD []
  have hnamed : ∀ input ∈ inputs,
      groupsOf v (.ofTexts patterns includeTests) input = .ok (named input) ∧
      (∀ g ∈ named input, g.IsSound v) ∧ ∀ directory place,
        Holds v (named input) directory place ↔
          Names v patterns includeTests input directory place := by
    intro input hi
    obtain ⟨groups, hg, hfiles⟩ := groupsOf_ok patterns includeTests hv (h input hi)
    have he : named input = groups := by simp [named, hg, Except.toOption]
    rw [he]
    exact ⟨hg, hfiles⟩
  obtain ⟨packages, hd, hm⟩ := discover_ok (fun input hi => (hnamed input hi).1) known
  exact ⟨packages, hd, isUnion_of_merge (fun input hi => (hnamed input hi).2.1)
    (fun input hi => (hnamed input hi).2.2) hm⟩

/-- Names in order stay as they are. -/
theorem sourceNames_sorted {tree : Tree} {parts names : List String}
    (hsorted : ((tree.entries.filter fun entry => entry.2.isFile).map Prod.fst).Pairwise
      fun a b => decide (a ≤ b) = true)
    (hnames : (((tree.entries.filter fun entry => entry.2.isFile).map Prod.fst).filterM fun name =>
      s.takes (parts ++ [name])) = .ok names) :
    sourceNames s parts tree = .ok names := by
  rw [sourceNames, Error.sortedNames, List.mergeSort_of_pairwise hsorted]
  exact hnames

theorem directories_flat {parts : List String} {entries : List (String × Tree)}
    (h : subdirectories s parts entries = .ok []) :
    directories s parts (.directory entries) = .ok [(parts, .directory entries)] := by
  rw [directories, h]
  simp [bind, Except.bind, pure, Except.pure]

/-- Where a search goes into no directory, an input names the files of the one it starts in. -/
theorem groupsOf_flat (v : View) (input : String) {entries : List (String × Tree)} {name : String}
    {names : List String}
    (hfind : v.find? (Target.ofInput input).path = .ok (some (.directory entries)))
    (hbelow : subdirectories s [] entries = .ok [])
    (hnames : sourceNames s [] (.directory entries) = .ok (name :: names)) :
    groupsOf v s input = .ok [{
      directory := v.place ((Target.ofInput input).path.below [])
      files := (name :: names).map ((Target.ofInput input).path.below []).child }] := by
  cases hr : (Target.ofInput input).recursive <;>
    simp [groupsOf, groupOf, hfind, hr, directories_flat hbelow, hnames, bind, Except.bind, pure,
      Except.pure]

def cacheEntries : List (String × Tree) := [("lru.go", .file []), ("lru_test.go", .file [])]

def stockEntries : List (String × Tree) := [("shelf.go", .file [])]

/-- A directory of source files with others below it. -/
def shopEntries : List (String × Tree) :=
  [("cache", .directory cacheEntries), ("gen_item.go", .file []), ("item.go", .file []),
    ("order.go", .file []), ("stock", .directory stockEntries),
    ("vendor", .directory [("dep.go", .file [])])]

def shopView : View where
  working := ["shop"]
  root := .directory [("shop", .directory shopEntries)]

/-- Inputs that overlap: a file under two spellings, its directory and all below the one above. -/
def shopInputs : List String :=
  ["cache/lru.go", "/shop/...", "cache/../order.go", "order.go", "cache", "/shop/cache/..."]

def shopSelection : Selection := .ofTexts ["gen_*", "cache/*"] false

theorem shopView_isProper : shopView.root.IsProper := by
  have cache : (Tree.directory cacheEntries).IsProper := .directory (by decide) (by
    simpa [cacheEntries] using .file _)
  have stock : (Tree.directory stockEntries).IsProper := .directory (by decide) (by
    simpa [stockEntries] using .file _)
  have vendor : (Tree.directory [("dep.go", .file [])]).IsProper :=
    .directory (by decide) (by simpa using .file _)
  refine .directory (by decide) (List.forall_mem_singleton.2 (.directory (by decide) ?_))
  simpa [shopEntries] using ⟨cache, .file [], stock, vendor⟩

theorem shopInputs_areInputs : ∀ input ∈ shopInputs, IsInput shopView input := by
  simp only [shopInputs, List.forall_mem_cons]
  refine ⟨⟨_, rfl, by decide⟩, ⟨_, rfl, by decide⟩, ⟨_, rfl, by decide⟩, ⟨_, rfl, by decide⟩,
    ⟨_, rfl, by decide⟩, ⟨_, rfl, by decide⟩, by simp⟩

theorem sourceNames_shop :
    sourceNames shopSelection [] (.directory shopEntries) = .ok ["item.go", "order.go"] :=
  sourceNames_sorted (by decide +kernel) rfl

theorem sourceNames_cache :
    sourceNames shopSelection [] (.directory cacheEntries) = .ok ["lru.go"] :=
  sourceNames_sorted (by decide +kernel) rfl

theorem sourceNames_stock :
    sourceNames shopSelection ["stock"] (.directory stockEntries) = .ok ["shelf.go"] :=
  sourceNames_sorted (by decide +kernel) rfl

theorem directories_shop : directories shopSelection [] (.directory shopEntries) =
    .ok [([], .directory shopEntries), (["stock"], .directory stockEntries)] := by
  have hstock : directories shopSelection ["stock"] (.directory stockEntries) = _ :=
    directories_flat rfl
  have hskipped : shopSelection.skips ["cache"] = .ok true ∧ shopSelection.skips ["vendor"] = .ok true ∧
      shopSelection.skips ["stock"] = .ok false := ⟨rfl, rfl, rfl⟩
  have hbelow : subdirectories shopSelection [] shopEntries =
      .ok [("stock", [(["stock"], .directory stockEntries)])] := by
    simp [shopEntries, subdirectories, hskipped, hstock, bind, Except.bind, pure, Except.pure]
  rw [directories, hbelow]
  simp [bind, Except.bind, pure, Except.pure]

/-- The groups that each of the inputs leads to. -/
theorem groupsOf_shopInputs : shopInputs.map (groupsOf shopView shopSelection) = [
    .ok [⟨["shop", "cache"], [Path.ofText "cache/lru.go"]⟩],
    .ok [⟨["shop"], [Path.ofText "/shop/item.go", Path.ofText "/shop/order.go"]⟩,
      ⟨["shop", "stock"], [Path.ofText "/shop/stock/shelf.go"]⟩],
    .ok [⟨["shop"], [Path.ofText "cache/../order.go"]⟩],
    .ok [⟨["shop"], [Path.ofText "order.go"]⟩],
    .ok [⟨["shop", "cache"], [Path.ofText "cache/lru.go"]⟩],
    .ok [⟨["shop", "cache"], [Path.ofText "/shop/cache/lru.go"]⟩]] := by
  have hshop : groupsOf shopView shopSelection "/shop/..." =
      .ok [⟨["shop"], [Path.ofText "/shop/item.go", Path.ofText "/shop/order.go"]⟩,
        ⟨["shop", "stock"], [Path.ofText "/shop/stock/shelf.go"]⟩] := by
    have hfind : shopView.find? (Target.ofInput "/shop/...").path =
        .ok (some (.directory shopEntries)) := rfl
    have hdeep : (Target.ofInput "/shop/...").recursive = true := rfl
    simp [groupsOf, groupOf, hfind, hdeep, directories_shop, sourceNames_shop, sourceNames_stock, bind,
      Except.bind, pure, Except.pure]
    exact ⟨⟨rfl, rfl, rfl⟩, rfl, rfl⟩
  have hcache := groupsOf_flat shopView "cache" rfl rfl sourceNames_cache
  have hbelow := groupsOf_flat shopView "/shop/cache/..." rfl rfl sourceNames_cache
  simp only [shopInputs, List.map_cons, List.map_nil, hshop, hcache, hbelow]
  rfl

end Discovery

end Packages

end StructLayout
