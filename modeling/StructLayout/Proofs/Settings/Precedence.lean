import StructLayout.Proofs.Report.Rereading
import StructLayout.Settings.Sources

/-!
# Which source counts for a setting

A setting that an option gives is taken from there, else from its variable in the environment, else
from the last settings file that has it, and else it has its default.  What is read from the
environment comes from the variable of its setting (`reader_of_mem_readEnvironment`), and what the
options say is one of them or comes from a flag (`mem_givenOptions`).

The main statement is `given_cases`: what counts for a setting is the value that is left to the files
(`LeftToFiles`), if there is one, and else comes from another source or is the default.
-/

namespace StructLayout

/-! ### Results of a list -/

namespace Outcome

variable {ε α β : Type} {f : α → Except ε β} {xs : List α} {ys : List β}

theorem exists_of_mem_mapM (h : xs.mapM f = .ok ys) {y : β} (hy : y ∈ ys) :
    ∃ x ∈ xs, f x = .ok y := by
  rw [mapM_eq_ok_iff] at h
  induction h with
  | nil => cases hy
  | cons hxy _ ih =>
    rcases List.mem_cons.1 hy with rfl | hy
    · exact ⟨_, List.mem_cons_self, hxy⟩
    · obtain ⟨x, hx, hxy⟩ := ih hy
      exact ⟨x, List.mem_cons_of_mem _ hx, hxy⟩

theorem exists_of_mapM_mem (h : xs.mapM f = .ok ys) {x : α} (hx : x ∈ xs) :
    ∃ y ∈ ys, f x = .ok y := by
  rw [mapM_eq_ok_iff] at h
  induction h with
  | nil => cases hx
  | cons hxy _ ih =>
    rcases List.mem_cons.1 hx with rfl | hx
    · exact ⟨_, List.mem_cons_self, hxy⟩
    · obtain ⟨y, hy, hxy⟩ := ih hx
      exact ⟨y, List.mem_cons_of_mem _ hy, hxy⟩

end Outcome

namespace Settings

open Files

/-! ### What the environment holds -/

theorem readVariable_eq_ok_iff {environment : List (String × String)}
    {setting : String × (String → Except Fault Value)} {members : Members} :
    readVariable environment setting = .ok members ↔
      (environment.lookup (variableName setting.1) = none ∧ members = []) ∨
        ∃ text v, environment.lookup (variableName setting.1) = some text ∧
          setting.2 text = .ok v ∧ members = [(setting.1, v)] := by
  unfold readVariable
  cases environment.lookup (variableName setting.1) with
  | none => simp [eq_comm]
  | some text =>
    cases hread : setting.2 text with
    | error fault => simp [complain, hread]
    | ok v => simpa [hread] using eq_comm

section environment

variable {environment : List (String × String)} {members : Members}

theorem reader_of_mem_readEnvironment (h : readEnvironment environment = .ok members)
    {key : String} {v : Value} (hv : (key, v) ∈ members) :
    ∃ read text, (key, read) ∈ variableReaders ∧
      environment.lookup (variableName key) = some text ∧ read text = .ok v := by
  obtain ⟨found, hfound, hmembers⟩ := Outcome.bind_eq_ok_iff.1 h
  cases hmembers
  obtain ⟨own, hown, hv⟩ := List.mem_flatten.1 hv
  obtain ⟨⟨name, read⟩, hsetting, hread⟩ := Outcome.exists_of_mem_mapM hfound hown
  rcases readVariable_eq_ok_iff.1 hread with ⟨-, rfl⟩ | ⟨text, w, hset, hw, rfl⟩
  · cases hv
  · cases List.mem_singleton.1 hv
    exact ⟨read, text, hsetting, hset, hw⟩

theorem lookup_eq_none_of_readEnvironment (h : readEnvironment environment = .ok members)
    {key : String} (hkey : key ∈ keys) (hnot : key ∉ members.map Prod.fst) :
    environment.lookup (variableName key) = none := by
  obtain ⟨found, hfound, hmembers⟩ := Outcome.bind_eq_ok_iff.1 h
  cases hmembers
  have hnames : key ∈ variableReaders.map Prod.fst := hkey
  obtain ⟨⟨name, read⟩, hsetting, rfl⟩ := List.mem_map.1 hnames
  obtain ⟨own, hown, hread⟩ := Outcome.exists_of_mapM_mem hfound hsetting
  rcases readVariable_eq_ok_iff.1 hread with ⟨hnone, -⟩ | ⟨text, v, -, -, rfl⟩
  · exact hnone
  · have hmem : (name, v) ∈ found.flatten :=
      List.mem_flatten.2 ⟨_, hown, List.mem_singleton_self _⟩
    exact absurd (List.mem_map.2 ⟨_, hmem, rfl⟩) hnot

end environment

/-! ### What the options hold -/

/-- Setting a member adds nothing but this member. -/
theorem mem_of_mem_insert {members : Members} {key : String} {v : Value} {entry : String × Value}
    (h : entry ∈ members.insert key v) : entry ∈ members ∨ entry = (key, v) := by
  induction members with
  | nil => exact .inr (List.mem_singleton.1 h)
  | cons first rest ih =>
    rw [Members.insert] at h
    split at h
    · next hkey =>
      rcases List.mem_cons.1 h with rfl | h
      · exact .inr (Prod.ext hkey rfl)
      · exact .inl (List.mem_cons_of_mem _ h)
    · rcases List.mem_cons.1 h with rfl | h
      · exact .inl List.mem_cons_self
      · exact (ih h).imp_left (List.mem_cons_of_mem _)

theorem mem_applyFlag {flag : Verbosity} {options : Members} {entry : String × Value}
    (h : entry ∈ applyFlag flag options) :
    entry ∈ options ∨ entry = ("verbosity", .str flag.name) := by
  unfold applyFlag at h
  dsimp only at h
  split at h
  · exact (mem_of_mem_insert h).imp_left List.mem_of_mem_filter
  · exact .inl (List.mem_of_mem_filter h)

theorem mem_givenOptions {options : Members} {entry : String × Value}
    (h : entry ∈ givenOptions options) :
    (entry ∈ options ∧ entry.2 ≠ .null) ∨ ∃ flag : Verbosity, entry = ("verbosity", .str flag.name) := by
  have hnull : entry.2 ≠ .null := by
    simpa using (List.mem_filter.1 h).2
  rcases mem_applyFlag (List.mem_of_mem_filter h) with h | h
  · rcases mem_applyFlag h with h | h
    · exact .inl ⟨h, hnull⟩
    · exact .inr ⟨.quiet, h⟩
  · exact .inr ⟨.verbose, h⟩

/-! ### What counts of several documents -/

/-- After more members are set, a key has a value of these, or they do not mention it. -/
theorem get?_insertAll_cases (members more : Members) (key : String) :
    (∃ v, (key, v) ∈ more ∧ (members.insertAll more).get? key = some v) ∨
      (key ∉ more.map Prod.fst ∧ (members.insertAll more).get? key = members.get? key) := by
  by_cases hkey : key ∈ more.map Prod.fst
  · left
    induction more generalizing members with
    | nil => cases hkey
    | cons entry rest ih =>
      by_cases hrest : key ∈ rest.map Prod.fst
      · obtain ⟨v, hv, hget⟩ := ih (members.insert entry.1 entry.2) hrest
        exact ⟨v, List.mem_cons_of_mem _ hv, hget⟩
      · -- the first one sets the key, and nothing behind it does
        obtain rfl : key = entry.1 := by
          rcases List.mem_cons.1 hkey with h | h
          · exact h
          · exact absurd h hrest
        refine ⟨entry.2, List.mem_cons_self, ?_⟩
        exact (get?_insertAll_of_notMem hrest).trans (Members.get?_insert_self ..)
  · exact .inr ⟨hkey, get?_insertAll_of_notMem hkey⟩

/-- Of settings files, an environment and options, the last that mentions a key counts. -/
theorem get?_merge_cases (documents : List Members) (environment options : Members) (key : String) :
    (∃ v, (key, v) ∈ options ∧
      (merge (documents ++ [environment, options])).get? key = some v) ∨
    (∃ v, (key, v) ∈ environment ∧
      (merge (documents ++ [environment, options])).get? key = some v) ∨
    (key ∉ environment.map Prod.fst ∧ key ∉ options.map Prod.fst ∧
      (merge (documents ++ [environment, options])).get? key = (merge documents).get? key) := by
  have hmerge : merge (documents ++ [environment, options]) =
      ((merge documents).insertAll environment).insertAll options := by
    rw [merge, List.foldl_append]
    rfl
  rw [hmerge]
  rcases get?_insertAll_cases ((merge documents).insertAll environment) options key with
    hoption | ⟨hnooption, hget⟩
  · exact .inl hoption
  · rw [hget]
    rcases get?_insertAll_cases (merge documents) environment key with
      hvariable | ⟨hnovariable, hget⟩
    · exact .inr (.inl hvariable)
    · exact .inr (.inr ⟨hnovariable, hnooption, hget⟩)

theorem given_of_get? {members : Members} {key : String} {v : Value}
    (h : members.get? key = some v) : given members key = v := by
  rw [given, Value.member, h]
  rfl

theorem given_of_get?_none {members : Members} {key : String} (h : members.get? key = none) :
    given members key = Value.member defaults key .null := by
  rw [given, Value.member, h]
  rfl

/-- A value that settings files give for a key that neither the environment nor an option sets. -/
structure LeftToFiles (documents : List Members) (s : Sources) (key : String) (v : Value) :
    Prop where
  written : (merge documents).get? key = some v
  notInEnvironment : s.environment.lookup (variableName key) = none
  notAnOption : key ∉ (givenOptions s.options).map Prod.fst

/-- What counts for a setting is the value that is left to the files, or else an option, what was
read from the environment, or the default. -/
theorem given_cases {documents : List Members} {s : Sources} {environment : Members} {key : String}
    (henvironment : readEnvironment s.environment = .ok environment) (hkey : key ∈ keys)
    {members : Members}
    (hmembers : members = merge (documents ++ [environment, givenOptions s.options])) :
    LeftToFiles documents s key (given members key) ∨
      ((∀ v, ¬ LeftToFiles documents s key v) ∧
        ((key, given members key) ∈ givenOptions s.options ∨ (key, given members key) ∈ environment ∨
          given members key = Value.member defaults key .null)) := by
  rw [hmembers]
  rcases get?_merge_cases documents environment (givenOptions s.options) key with
    ⟨v, hv, hget⟩ | ⟨v, hv, hget⟩ | ⟨hvariable, hoption, hget⟩
  · right
    rw [given_of_get? hget]
    exact ⟨fun w hw => hw.notAnOption (List.mem_map.2 ⟨_, hv, rfl⟩), .inl hv⟩
  · right
    rw [given_of_get? hget]
    obtain ⟨read, text, -, hset, -⟩ := reader_of_mem_readEnvironment henvironment hv
    refine ⟨fun w hw => ?_, .inr (.inl hv)⟩
    cases hset.symm.trans hw.notInEnvironment
  · cases hfiles : (merge documents).get? key with
    | some v =>
      left
      rw [given_of_get? (hget.trans hfiles)]
      exact ⟨hfiles, lookup_eq_none_of_readEnvironment henvironment hkey hvariable, hoption⟩
    | none =>
      right
      refine ⟨fun w hw => ?_, .inr (.inr (given_of_get?_none (hget.trans hfiles)))⟩
      cases hfiles.symm.trans hw.written

end Settings

end StructLayout
