import StructLayout.Proofs.Json.ReadValues
import StructLayout.Proofs.Settings.Precedence

/-!
# Settings of their declared kinds

Every setting has a declared kind (`declared`).  Its default is of that kind (`isDeclared_default`),
and so is what is read from the environment (`isDeclared_of_reader`).  Only four settings are checked
when they are read (`checkedKeys`), and the values of a settings file are of whatever kinds it has.

The main statement is `load_isTyped`: where the values that are left to the settings files are of the
declared kinds, a run has settings of these kinds or a diagnosed error.  Settings that are returned are
of the declared kinds only then, and a fault comes from the value of a checked setting.  Values of other
kinds are a fault or are kept (`load_otherKinds`).
-/

namespace StructLayout

/-! ### Outcomes without a fault -/

/-- A result or a diagnosed error. -/
def Outcome.IsDiagnosed {α : Type} (r : Outcome α) : Prop := ∀ fault, r ≠ .error (.fault fault)

namespace Outcome.IsDiagnosed

variable {α β : Type}

theorem ok (a : α) : IsDiagnosed (.ok a) := by
  intro fault h
  cases h

theorem error (e : Error) : IsDiagnosed (.error (.error e) : Outcome α) := by
  intro fault h
  cases h

theorem bind {r : Outcome α} {f : α → Outcome β} (hr : r.IsDiagnosed)
    (hf : ∀ a, r = .ok a → (f a).IsDiagnosed) : (r >>= f).IsDiagnosed := by
  cases r with
  | ok a => exact hf a rfl
  | error failure =>
    intro fault h
    exact hr fault (by cases h; rfl)

theorem mapM {f : α → Outcome β} (hf : ∀ a, (f a).IsDiagnosed) (as : List α) :
    (as.mapM f : Outcome (List β)).IsDiagnosed := by
  induction as with
  | nil => exact .ok []
  | cons a as ih =>
    rw [List.mapM_cons]
    exact (hf a).bind fun b _ => ih.bind fun bs _ => .ok (b :: bs)

theorem cases {r : Outcome α} (hr : r.IsDiagnosed) :
    (∃ e, r = .error (.error e)) ∨ ∃ a, r = .ok a := by
  match r with
  | .ok a => exact .inr ⟨a, rfl⟩
  | .error (.error e) => exact .inl ⟨e, rfl⟩
  | .error (.fault fault) => exact absurd rfl (hr fault)

end Outcome.IsDiagnosed

/-! ### Numbers that are read can be shown -/

namespace Text

theorem baseDigit?_getD_lt {base : Nat} (hb : 0 < base) (c : Char) :
    (baseDigit? base c).getD 0 < base := by
  unfold baseDigit?
  cases wideDigit? c with
  | none => exact hb
  | some value =>
    rw [Option.bind_some]
    split
    · next h => exact h
    · exact hb

theorem digitsValue_lt_pow {base : Nat} (hb : 0 < base) (digits : List Char) :
    digitsValue base 0 digits < base ^ digits.length := by
  induction digits using List.reverseRecOn with
  | nil => simp [digitsValue]
  | append_singleton digits c ih =>
    rw [digitsValue, List.foldl_append, List.foldl_cons, List.foldl_nil, List.length_append,
      List.length_singleton, Nat.pow_succ]
    calc digitsValue base 0 digits * base + (baseDigit? base c).getD 0
        < digitsValue base 0 digits * base + base :=
          Nat.add_lt_add_left (baseDigit?_getD_lt hb c) _
      _ = (digitsValue base 0 digits + 1) * base := by rw [Nat.add_mul, Nat.one_mul]
      _ ≤ base ^ digits.length * base := Nat.mul_le_mul_right _ ih

theorem length_natDigits_of_readGrouped {cs : List Char} {n : Nat} (h : readGrouped 10 cs = .ok n) :
    (natDigits n).length ≤ digitLimit := by
  unfold readGrouped at h
  dsimp only at h
  split at h
  · cases h
  · split at h
    · cases h
    · next hlimit =>
      split at h
      · cases h
      · cases h
        rw [natDigits, Nat.length_toDigits_le_iff (by decide) (by decide)]
        refine Nat.lt_of_lt_of_le (digitsValue_lt_pow (by decide) _)
          (Nat.pow_le_pow_right (by decide) ?_)
        simpa using hlimit

theorem exists_of_readSigned {read : List Char → Except Flaw Nat} {cs : List Char} {n : Int}
    (h : readSigned read cs = .ok n) : ∃ cs', read cs' = .ok n.natAbs := by
  have hlift : ∀ (sign : Int → Int) (hsign : ∀ m : Nat, (sign m).natAbs = m) (cs' : List Char),
      ((read cs').map fun m => sign m) = .ok n → read cs' = .ok n.natAbs := by
    intro sign hsign cs' h
    cases hr : read cs' with
    | error flaw => rw [hr] at h; cases h
    | ok m => rw [hr] at h; cases h; rw [hsign]
  unfold readSigned at h
  split at h
  · exact ⟨_, hlift (-·) (by simp) _ h⟩
  · exact ⟨_, hlift id (by simp) _ h⟩
  · exact ⟨_, hlift id (by simp) _ h⟩

theorem isShowable_of_readDecimal {cs : List Char} {n : Int} (h : readDecimal cs = .ok n) :
    isShowable n = true := by
  obtain ⟨digits, hn⟩ := exists_of_readSigned h
  exact decide_eq_true (length_natDigits_of_readGrouped hn)

end Text

namespace Settings

open Files

/-! ### Declared kinds -/

/-- What a setting may be: a name or none, a count or none, a text, some texts, or on or off. -/
inductive Kind where
  | name
  | count
  | text
  | texts
  | switch
deriving DecidableEq, Repr

/-- Whether a value is of a kind. -/
def Kind.Admits : Kind → Value → Prop
  | .name, v => v = .null ∨ ∃ s, v = .str s
  | .count, v => v = .null ∨ ∃ n, v = .int n
  | .text, v => ∃ s, v = .str s
  | .texts, v => ∃ texts : List String, v = .list (texts.map .str)
  | .switch, v => ∃ b, v = .bool b

def declared : List (String × Kind) := [
  ("arch", .name),
  ("workers", .count),
  ("ignore_marker", .text),
  ("exclude_patterns", .texts),
  ("include_tests", .switch),
  ("detailed", .switch),
  ("color", .switch),
  ("verbosity", .text)]

/-- Whether a value is of the kind that is declared for a setting; other keys are not restricted. -/
def IsDeclared (key : String) (v : Value) : Prop :=
  ∀ kind, declared.lookup key = some kind → kind.Admits v

/-- Options of the declared kinds; one that is null is not given. -/
def AreDeclared (options : Members) : Prop :=
  ∀ entry ∈ options, entry.2 ≠ .null → IsDeclared entry.1 entry.2

/-- Settings of their declared kinds, where the types of their fields leave that open. -/
structure IsTyped (settings : Settings) : Prop where
  workers : settings.workers = .null ∨ ∃ n, 1 ≤ n ∧ settings.workers = .int n
  excludePatterns : Kind.texts.Admits settings.excludePatterns
  includeTests : Kind.switch.Admits settings.includeTests
  detailed : Kind.switch.Admits settings.detailed
  color : Kind.switch.Admits settings.color

/-- Every default is of the kind of its setting. -/
theorem isDeclared_default {key : String} (hkey : key ∈ keys) :
    IsDeclared key (Value.member defaults key .null) := by
  intro kind hkind
  simp only [keys, defaults, List.map_cons, List.map_nil, List.mem_cons, List.not_mem_nil,
    or_false] at hkey
  rcases hkey with rfl | rfl | rfl | rfl | rfl | rfl | rfl | rfl <;> cases hkind
  · exact .inl rfl
  · exact .inl rfl
  · exact ⟨_, rfl⟩
  · exact ⟨["vendor/*", "testdata/*", ".git/*", "_*"], rfl⟩
  · exact ⟨_, rfl⟩
  · exact ⟨_, rfl⟩
  · exact ⟨_, rfl⟩
  · exact ⟨_, rfl⟩

/-! ### What the environment holds -/

theorem readWholeNumber_eq_ok {text : String} {v : Value} (h : readWholeNumber text = .ok v) :
    ∃ n, v = .int n ∧ Text.isShowable n = true := by
  unfold readWholeNumber at h
  split at h
  · next n hn =>
    cases h
    exact ⟨n, rfl, Text.isShowable_of_readDecimal hn⟩
  · cases h

theorem readSwitch_eq_ok {text : String} {v : Value} (h : readSwitch text = .ok v) :
    Kind.switch.Admits v := by
  unfold readSwitch at h
  dsimp only at h
  split at h
  · cases h
    exact ⟨true, rfl⟩
  · split at h
    · cases h
      exact ⟨false, rfl⟩
    · cases h

theorem readTexts_eq_ok {text : String} {v : Value} (h : readTexts text = .ok v) :
    Kind.texts.Admits v := by
  cases h
  refine ⟨(((commaParts text.toList).map Text.trim).filter (!·.isEmpty)).map String.ofList, ?_⟩
  rw [List.map_map]
  rfl

theorem isDeclared_of_reader {key text : String} {read : String → Except Fault Value} {v : Value}
    (hread : (key, read) ∈ variableReaders) (hv : read text = .ok v) : IsDeclared key v := by
  intro kind hkind
  simp only [variableReaders, List.mem_cons, List.not_mem_nil, or_false, Prod.mk.injEq] at hread
  rcases hread with ⟨rfl, rfl⟩ | ⟨rfl, rfl⟩ | ⟨rfl, rfl⟩ | ⟨rfl, rfl⟩ | ⟨rfl, rfl⟩ | ⟨rfl, rfl⟩ |
    ⟨rfl, rfl⟩ | ⟨rfl, rfl⟩ <;> cases hkind
  · cases hv
    exact .inr ⟨_, rfl⟩
  · obtain ⟨n, rfl, -⟩ := readWholeNumber_eq_ok hv
    exact .inr ⟨n, rfl⟩
  · cases hv
    exact ⟨_, rfl⟩
  · exact readTexts_eq_ok hv
  · exact readSwitch_eq_ok hv
  · exact readSwitch_eq_ok hv
  · exact readSwitch_eq_ok hv
  · cases hv
    exact ⟨_, rfl⟩

/-! ### What counts for a setting -/

/-- Whether a value that is left to the files is of the kind of its setting. -/
def FilesAgree (documents : List Members) (s : Sources) (key : String) : Prop :=
  ∀ v, LeftToFiles documents s key v → IsDeclared key v

section precedence

variable {documents : List Members} {s : Sources} {environment : Members} {key : String}

theorem isDeclared_of_mem_givenOptions {options : Members} (h : AreDeclared options) {v : Value}
    (hv : (key, v) ∈ givenOptions options) : IsDeclared key v := by
  rcases mem_givenOptions hv with ⟨hmem, hnull⟩ | ⟨flag, hflag⟩
  · exact h _ hmem hnull
  · cases hflag
    intro kind hkind
    cases hkind
    exact ⟨_, rfl⟩

/-- With options of the declared kinds, what counts for a setting is of its kind exactly if the
value that is left to the files is. -/
theorem isDeclared_given_iff (henvironment : readEnvironment s.environment = .ok environment)
    (hoptions : AreDeclared s.options) (hkey : key ∈ keys) {members : Members}
    (hmembers : members = merge (documents ++ [environment, givenOptions s.options])) :
    IsDeclared key (given members key) ↔ FilesAgree documents s key := by
  rcases given_cases henvironment hkey hmembers with hleft | ⟨hnone, hsource⟩
  · constructor
    · intro h v hv
      obtain rfl := Option.some.inj (hleft.written.symm.trans hv.written)
      exact h
    · exact fun h => h _ hleft
  · refine iff_of_true ?_ fun v hv => absurd hv (hnone v)
    rcases hsource with hoption | hvariable | hdefault
    · exact isDeclared_of_mem_givenOptions hoptions hoption
    · obtain ⟨read, text, hread, -, hv⟩ := reader_of_mem_readEnvironment henvironment hvariable
      exact isDeclared_of_reader hread hv
    · rw [hdefault]
      exact isDeclared_default hkey

end precedence

/-! ### Checks -/

section checks

variable {limit : Nat}

theorem isDiagnosed_refuse {α : Type} (key : String) {v : Value} (reason : String) {text : String}
    (hv : v.shown limit = .ok text) : (refuse limit key v reason : Outcome α).IsDiagnosed := by
  rw [refuse, hv]
  exact .error _

theorem isDiagnosed_requireText (key : String) {v : Value} (hv : Kind.text.Admits v) :
    (requireText limit key v).IsDiagnosed := by
  obtain ⟨s, rfl⟩ := hv
  unfold requireText
  dsimp only
  split
  · exact isDiagnosed_refuse _ _ (Value.shown_str limit s)
  · exact .ok s

theorem admits_of_requireText {key s : String} {v : Value} (h : requireText limit key v = .ok s) :
    Kind.text.Admits v := by
  unfold requireText at h
  split at h
  · exact ⟨_, rfl⟩
  · cases h

theorem isDiagnosed_readArch {v : Value} (hv : Kind.name.Admits v) :
    (readArch limit v).IsDiagnosed := by
  rcases hv with rfl | ⟨s, rfl⟩
  · exact .ok none
  · exact (isDiagnosed_requireText _ ⟨s, rfl⟩).bind fun a _ => .ok _

theorem admits_of_readArch {v : Value} {name : Option String} (h : readArch limit v = .ok name) :
    Kind.name.Admits v := by
  unfold readArch at h
  split at h
  · exact .inl rfl
  · cases hr : requireText limit "arch" v with
    | error e => rw [hr] at h; cases h
    | ok s => exact .inr (admits_of_requireText hr)

theorem isDiagnosed_readWorkers {v : Value} (hv : Kind.count.Admits v)
    (hshown : ∀ n < 1, v = .int n → Text.isShowable n = true) :
    (readWorkers limit v).IsDiagnosed := by
  rcases hv with rfl | ⟨n, rfl⟩
  · exact .ok Value.null
  · by_cases hn : n < 1
    · have hs : (Value.int n).shown limit = .ok (Text.intText n) := by
        simp [Value.shown, Value.requireShowable, Value.nesting, Value.isShowable, hshown n hn rfl,
          Functor.map, Except.map]
      simp only [readWorkers, isLessThanOne, Value.asInt?, Outcome.ofFault_ok, decide_eq_true hn]
      exact isDiagnosed_refuse _ _ hs
    · simp only [readWorkers, isLessThanOne, Value.asInt?, Outcome.ofFault_ok, decide_eq_false hn]
      exact .ok _

/-- A number of workers that is accepted is kept, and is not below one. -/
theorem readWorkers_eq_ok {v w : Value} (h : readWorkers limit v = .ok w) :
    w = v ∧ ∀ n, v = .int n → 1 ≤ n := by
  unfold readWorkers at h
  split at h
  · cases h
    exact ⟨rfl, nofun⟩
  · obtain ⟨isLess, hless, h⟩ := Outcome.bind_eq_ok_iff.1 h
    cases isLess with
    | true =>
      obtain ⟨text, -, h⟩ := Outcome.bind_eq_ok_iff.1 h
      cases h
    | false =>
      cases h
      refine ⟨rfl, ?_⟩
      rintro n rfl
      simpa [isLessThanOne, Value.asInt?] using hless

theorem isDiagnosed_readVerbosity {v : Value} (hv : Kind.text.Admits v) :
    (readVerbosity limit v).IsDiagnosed := by
  obtain ⟨s, rfl⟩ := hv
  unfold readVerbosity
  dsimp only
  split
  · exact .ok _
  · exact isDiagnosed_refuse _ _ (Value.shown_str limit s)

theorem admits_of_readVerbosity {v : Value} {verbosity : Verbosity}
    (h : readVerbosity limit v = .ok verbosity) : Kind.text.Admits v := by
  unfold readVerbosity at h
  split at h
  · exact ⟨_, rfl⟩
  · obtain ⟨text, -, h⟩ := Outcome.bind_eq_ok_iff.1 h
    cases h

end checks

/-! ### Settings of members -/

section members

variable {limit : Nat} {members : Members} {settings : Settings}

/-- The settings that members give, each from what counts for it. -/
structure IsReadFrom (limit : Nat) (settings : Settings) (members : Members) : Prop where
  arch : readArch limit (given members "arch") = .ok settings.arch
  workers : readWorkers limit (given members "workers") = .ok settings.workers
  ignoreMarker : readMarker limit (given members "ignore_marker") = .ok settings.ignoreMarker
  excludePatterns : settings.excludePatterns = given members "exclude_patterns"
  includeTests : settings.includeTests = given members "include_tests"
  detailed : settings.detailed = given members "detailed"
  color : settings.color = given members "color"
  verbosity : readVerbosity limit (given members "verbosity") = .ok settings.verbosity

theorem isReadFrom_of_ofMembers (h : ofMembers limit members = .ok settings) :
    IsReadFrom limit settings members := by
  unfold ofMembers at h
  split at h
  · cases h
  · obtain ⟨arch, harch, h⟩ := Outcome.bind_eq_ok_iff.1 h
    obtain ⟨workers, hworkers, h⟩ := Outcome.bind_eq_ok_iff.1 h
    obtain ⟨marker, hmarker, h⟩ := Outcome.bind_eq_ok_iff.1 h
    obtain ⟨verbosity, hverbosity, h⟩ := Outcome.bind_eq_ok_iff.1 h
    cases h
    exact ⟨harch, hworkers, hmarker, rfl, rfl, rfl, rfl, hverbosity⟩

theorem IsReadFrom.isTyped_iff (h : IsReadFrom limit settings members) :
    settings.IsTyped ↔ ∀ key ∈ keys, IsDeclared key (given members key) := by
  obtain ⟨hkept, hleast⟩ := readWorkers_eq_ok h.workers
  constructor
  · intro ht key hkey kind hkind
    simp only [keys, defaults, List.map_cons, List.map_nil, List.mem_cons, List.not_mem_nil,
      or_false] at hkey
    rcases hkey with rfl | rfl | rfl | rfl | rfl | rfl | rfl | rfl <;> cases hkind
    · exact admits_of_readArch h.arch
    · rw [← hkept]
      exact ht.workers.imp_right fun ⟨n, _, hn⟩ => ⟨n, hn⟩
    · exact admits_of_requireText h.ignoreMarker
    · exact h.excludePatterns ▸ ht.excludePatterns
    · exact h.includeTests ▸ ht.includeTests
    · exact h.detailed ▸ ht.detailed
    · exact h.color ▸ ht.color
    · exact admits_of_readVerbosity h.verbosity
  · intro hd
    constructor
    · rw [hkept]
      exact (hd "workers" (by decide) .count rfl).imp_right fun ⟨n, hn⟩ => ⟨n, hleast n hn, hn⟩
    · exact h.excludePatterns ▸ hd "exclude_patterns" (by decide) .texts rfl
    · exact h.includeTests ▸ hd "include_tests" (by decide) .switch rfl
    · exact h.detailed ▸ hd "detailed" (by decide) .switch rfl
    · exact h.color ▸ hd "color" (by decide) .switch rfl

/-- The settings that are looked at when they are read. -/
def checkedKeys : List String := ["arch", "workers", "ignore_marker", "verbosity"]

theorem mem_keys_of_checked : ∀ key ∈ checkedKeys, key ∈ keys := by decide

/-- Where what counts for the checked settings is of their kinds there is no fault. -/
theorem isDiagnosed_ofMerged (h : ∀ key ∈ checkedKeys, IsDeclared key (given members key))
    (hshown : ∀ n < 1, given members "workers" = .int n → Text.isShowable n = true) :
    (ofMerged limit members).IsDiagnosed := by
  unfold ofMerged
  cases hu : unknownKeys members with
  | cons key rest => exact .error _
  | nil =>
    dsimp only
    rw [ofMembers, hu]
    refine .bind (isDiagnosed_readArch (h "arch" (by decide) .name rfl)) fun arch _ => ?_
    refine .bind (isDiagnosed_readWorkers (h "workers" (by decide) .count rfl) hshown)
      fun workers _ => ?_
    refine .bind (isDiagnosed_requireText _ (h "ignore_marker" (by decide) .text rfl))
      fun marker _ => ?_
    refine .bind (isDiagnosed_readVerbosity (h "verbosity" (by decide) .text rfl))
      fun verbosity _ => ?_
    exact .ok _

theorem isReadFrom_of_ofMerged (h : ofMerged limit members = .ok settings) :
    IsReadFrom limit settings members := by
  unfold ofMerged at h
  split at h
  · exact isReadFrom_of_ofMembers h
  · cases h

end members

/-! ### Settings of a run -/

/-- The documents of the settings files that are there. -/
def readDocuments (room : Nat) (v : View) (s : Sources) : Outcome (List Members) := do
  let files ← settingsFiles v s
  files.mapM (readFile room v)

theorem isDiagnosed_readVariable (environment : List (String × String))
    (setting : String × (String → Except Fault Value)) :
    (readVariable environment setting).IsDiagnosed := by
  unfold readVariable
  split
  · exact .ok _
  · split
    · exact .ok _
    · exact .error _

theorem isDiagnosed_readEnvironment (environment : List (String × String)) :
    (readEnvironment environment).IsDiagnosed :=
  (Outcome.IsDiagnosed.mapM (isDiagnosed_readVariable environment) variableReaders).bind
    fun found _ => .ok found.flatten

section load

variable {limits : Limits} {v : View} {s : Sources} {documents : List Members}

theorem load_eq (hread : readDocuments limits.settings v s = .ok documents) :
    load limits v s = (readEnvironment s.environment >>= fun environment =>
      ofMerged limits.showing (merge (documents ++ [environment, givenOptions s.options]))) := by
  obtain ⟨files, hfiles, hdocuments⟩ := Outcome.bind_eq_ok_iff.1 hread
  rw [load, hfiles]
  change (files.mapM (readFile limits.settings v) >>= _) = _
  rw [hdocuments]
  rfl

/-- Whether a number of workers below one that is an option or left to the files can be shown. -/
def ShowsWorkers (documents : List Members) (s : Sources) : Prop :=
  ∀ n < 1, ("workers", .int n) ∈ s.options ∨ LeftToFiles documents s "workers" (.int n) →
    Text.isShowable n = true

/-- A number of workers can be shown as well if it was read from the environment. -/
theorem isShowable_given_workers {environment : Members}
    (henvironment : readEnvironment s.environment = .ok environment)
    (hshown : ShowsWorkers documents s) {n : Int} (hn : n < 1)
    (hgiven :
      given (merge (documents ++ [environment, givenOptions s.options])) "workers" = .int n) :
    Text.isShowable n = true := by
  have hcases := @given_cases documents s environment "workers" henvironment (by decide) _ rfl
  rw [hgiven] at hcases
  rcases hcases with hleft | ⟨-, hoption | hvariable | hdefault⟩
  · exact hshown n hn (.inr hleft)
  · rcases mem_givenOptions hoption with ⟨hmem, -⟩ | ⟨flag, hflag⟩
    · exact hshown n hn (.inl hmem)
    · simp at hflag
  · obtain ⟨read, text, hread, -, hv⟩ := reader_of_mem_readEnvironment henvironment hvariable
    obtain rfl : read = readWholeNumber := by simpa [variableReaders] using hread
    obtain ⟨m, hm, hs⟩ := readWholeNumber_eq_ok hv
    cases hm
    exact hs
  · cases hdefault

theorem isDiagnosed_load (hread : readDocuments limits.settings v s = .ok documents)
    (hoptions : AreDeclared s.options) (hshown : ShowsWorkers documents s)
    (h : ∀ key ∈ checkedKeys, FilesAgree documents s key) : (load limits v s).IsDiagnosed := by
  rw [load_eq hread]
  refine (isDiagnosed_readEnvironment s.environment).bind fun environment henvironment => ?_
  refine isDiagnosed_ofMerged (fun key hkey => ?_)
    fun n hn => isShowable_given_workers henvironment hshown hn
  exact (isDeclared_given_iff henvironment hoptions (mem_keys_of_checked key hkey) rfl).2 (h key hkey)

theorem isTyped_iff_of_load (hread : readDocuments limits.settings v s = .ok documents)
    (hoptions : AreDeclared s.options) {settings : Settings} (h : load limits v s = .ok settings) :
    settings.IsTyped ↔ ∀ key ∈ keys, FilesAgree documents s key := by
  rw [load_eq hread] at h
  obtain ⟨environment, henvironment, h⟩ := Outcome.bind_eq_ok_iff.1 h
  rw [(isReadFrom_of_ofMerged h).isTyped_iff]
  exact forall₂_congr fun key hkey => isDeclared_given_iff henvironment hoptions hkey rfl

/-- With options of the declared kinds, settings files whose values are of these kinds give settings
of their declared kinds or a diagnosed error.  The settings that are returned are of the declared
kinds only then, and where there is a fault, a file gives a checked setting a value of another kind.
A number of workers below one has to be short enough to be shown in the refusal. -/
theorem load_isTyped (hread : readDocuments limits.settings v s = .ok documents)
    (hoptions : AreDeclared s.options) (hshown : ShowsWorkers documents s) :
    ((∀ key ∈ keys, FilesAgree documents s key) →
      (∃ e, load limits v s = .error (.error e)) ∨
        ∃ settings, load limits v s = .ok settings ∧ settings.IsTyped) ∧
    (∀ settings, load limits v s = .ok settings →
      (settings.IsTyped ↔ ∀ key ∈ keys, FilesAgree documents s key)) ∧
    (∀ fault, load limits v s = .error (.fault fault) →
      ∃ key ∈ checkedKeys, ¬ FilesAgree documents s key) := by
  have hdiagnosed := isDiagnosed_load hread hoptions hshown
  refine ⟨fun h => ?_, fun settings => isTyped_iff_of_load hread hoptions, fun fault hfault => ?_⟩
  · have hchecked := hdiagnosed fun key hkey => h key (mem_keys_of_checked key hkey)
    exact hchecked.cases.imp_right fun ⟨settings, hs⟩ =>
      ⟨settings, hs, (isTyped_iff_of_load hread hoptions hs).2 h⟩
  · by_contra hnone
    exact hdiagnosed (fun key hkey => by_contra fun hn => hnone ⟨key, hkey, hn⟩) fault hfault

end load

/-- A directory with a settings file, and the home directory with another one. -/
def twoSettingsFiles (atHome here : String) : View :=
  let file (text : String) : Tree := .file (text.toList.map fun c => UInt8.ofNat c.toNat)
  { root := .directory [
      ("home", .directory [("." ++ fileName, file atHome)]),
      ("work", .directory [(fileName, file here)])]
    working := ["work"] }

/-- A text for a switch and a number of workers at home, and some patterns in the working directory. -/
def layeredFiles : View :=
  twoSettingsFiles "detailed = \"yes\"\nworkers = 2\n" "exclude_patterns = [\"gen/*\"]\n"

/-- A run with one variable and some options. -/
def switchedOn : Sources where
  home := ["home"]
  file := none
  environment := [("ALIGN_DETAILED", "on")]
  options := [("arch", .null), ("workers", .int 4), ("quiet", .bool true)]

/-- The text for a switch in the file at home does not count, as a variable sets this switch. -/
theorem load_isTyped_switchedOn :
    AreDeclared switchedOn.options ∧
      ∃ settings, load (.uniform 9) layeredFiles switchedOn = .ok settings ∧
        settings.IsTyped ∧ settings.detailed = .bool true ∧ settings.workers = .int 4 ∧
        settings.excludePatterns = .list [.str "gen/*"] := by
  have hread : readDocuments (Limits.uniform 9).settings layeredFiles switchedOn =
      .ok [[("detailed", .str "yes"), ("workers", .int 2)],
          [("exclude_patterns", .list [.str "gen/*"])]] := by decide +kernel
  have hoptions : AreDeclared switchedOn.options := by
    intro entry hentry hnull kind hkind
    simp only [switchedOn, List.mem_cons, List.not_mem_nil, or_false] at hentry
    rcases hentry with rfl | rfl | rfl
    · cases hnull rfl
    · cases hkind
      exact .inr ⟨4, rfl⟩
    · cases hkind
  have hload : load (.uniform 9) layeredFiles switchedOn = .ok {
        arch := none
        workers := .int 4
        ignoreMarker := "align:ignore"
        excludePatterns := .list [.str "gen/*"]
        includeTests := .bool false
        detailed := .bool true
        color := .bool true
        verbosity := .quiet } := by decide +kernel
  refine ⟨hoptions, _, hload, ?_, rfl, rfl, rfl⟩
  refine ((load_isTyped hread hoptions ?_).2.1 _ hload).2 ?_
  · rintro n hn (hoption | hleft)
    · simp only [switchedOn, List.mem_cons, List.not_mem_nil, or_false, Prod.mk.injEq] at hoption
      obtain ⟨h, -⟩ | ⟨-, h⟩ | ⟨h, -⟩ := hoption
      · simp at h
      · cases h
        omega
      · simp at h
    · cases hleft.written
      omega
  · intro key hkey v hv kind hkind
    simp only [keys, defaults, List.map_cons, List.map_nil, List.mem_cons, List.not_mem_nil,
      or_false] at hkey
    rcases hkey with rfl | rfl | rfl | rfl | rfl | rfl | rfl | rfl
    · cases hv.written
    · cases hkind
      cases hv.written
      exact .inr ⟨2, rfl⟩
    · cases hv.written
    · cases hkind
      cases hv.written
      exact ⟨["gen/*"], rfl⟩
    · cases hv.written
    · exact absurd hv.notInEnvironment (by decide +kernel)
    · cases hv.written
    · cases hv.written

/-- A run without a variable or an option. -/
def nothingElse : Sources where
  home := ["home"]
  file := none
  environment := []
  options := []

/-- A text for the number of workers is compared with a number, which is a fault, and a text for a
switch is kept. -/
theorem load_otherKinds :
    load (.uniform 9) (twoSettingsFiles "" "workers = \"4\"\n") nothingElse =
        .error (.fault (.notOrdered "str" "int")) ∧
      ∃ settings,
        load (.uniform 9) (twoSettingsFiles "" "include_tests = \"yes\"\n") nothingElse = .ok settings ∧
          ¬ settings.IsTyped := by
  constructor
  · decide +kernel
  · refine ⟨{
      arch := none
      workers := .null
      ignoreMarker := "align:ignore"
      excludePatterns := Value.member defaults "exclude_patterns" .null
      includeTests := .str "yes"
      detailed := .bool false
      color := .bool true
      verbosity := .normal }, by decide +kernel, fun ht => ?_⟩
    obtain ⟨b, hb⟩ := ht.includeTests
    cases hb

end Settings

end StructLayout
