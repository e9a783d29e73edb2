import StructLayout.Analysis.Run
import StructLayout.Text.Case

/-!
# Names of platforms

A platform is looked up by its name without the blanks around it and in small letters
(`Abi.denoted`).  The names that a run has for its platform, the one asked for and those that documents
give, are compared as they are spelled.

The main statements are `resolve_some_eq_ok_iff`, which says what a name resolves to, and
`selectArch_spelling`: a run is refused exactly if two of its names are spelled differently, which is
right as long as one platform is not spelled in two ways.  Two spellings of one platform are refused as
well (`selectArch_other_spelling`).
-/

namespace StructLayout

namespace Text

/-! ### Small letters in ASCII -/

/-- Small letters of capitals beyond ASCII lie beyond ASCII, the one of the Kelvin sign apart. -/
theorem capitalRuns_beyond : ∀ run ∈ capitalRuns.toList,
    run.last < 128 ∨ (run.first = 0x212A ∧ run.last = 0x212A ∧ run.shift = -8383) ∨
      ((128 : Int) ≤ run.first + run.shift ∧ ((run.last : Int) + run.shift < 0xD800 ∨
        ((0xDFFF : Int) < run.first + run.shift ∧ (run.last : Int) + run.shift < 0x110000))) := by
  decide +kernel

variable {c : Char} {cs t : List Char}

theorem smallLetter_beyond (h : 128 ≤ c.toNat) :
    smallLetter c = 'k' ∨ 128 ≤ (smallLetter c).toNat := by
  have hcapital : ('A' ≤ c && c ≤ 'Z') = false := by
    rw [Bool.and_eq_false_iff]
    refine .inr (decide_eq_false fun hz => ?_)
    have hle : c.toNat ≤ 90 := hz
    omega
  have hascii : ¬ c.toNat < 128 := Nat.not_lt.2 h
  rw [smallLetter, hcapital, if_neg Bool.false_ne_true, if_neg hascii]
  cases hf : capitalRuns.find? (·.holds c.toNat) with
  | none => exact .inr h
  | some run =>
    have hmem := capitalRuns_beyond run (Array.mem_toList_iff.2 (Array.mem_of_find?_eq_some hf))
    have hholds := Array.find?_some hf
    simp only [CapitalRun.holds, Bool.and_eq_true, decide_eq_true_eq] at hholds
    obtain ⟨⟨hfirst, hlast⟩, -⟩ := hholds
    dsimp only
    rcases hmem with hm | ⟨hf', hl', hs⟩ | ⟨hlow, hvalid⟩
    · omega
    · left
      have hc : c.toNat = 0x212A := by omega
      rw [hc, hs]
      rfl
    · right
      have hv : ((c.toNat : Int) + run.shift).toNat.isValidChar := by
        rw [Nat.isValidChar]
        omega
      have hn : (Char.ofNat ((c.toNat : Int) + run.shift).toNat).toNat =
          ((c.toNat : Int) + run.shift).toNat := by
        unfold Char.ofNat
        rw [dif_pos hv]
        rfl
      omega

/-- What stands for a character beyond ASCII has a character that is the letter k or beyond ASCII. -/
theorem exists_mem_lowerChar (h : 128 ≤ c.toNat) (before behind : List Char) :
    ∃ d ∈ lowerChar before c behind, d = 'k' ∨ 128 ≤ d.toNat := by
  unfold lowerChar
  split
  · refine ⟨_, List.mem_singleton_self _, .inr ?_⟩
    split <;> decide
  · split
    · exact ⟨'\u0307', by simp, .inr (by decide)⟩
    · exact ⟨_, List.mem_singleton_self _, smallLetter_beyond h⟩

theorem exists_lowerChar_subset (hc : c ∈ cs) (before : List Char) :
    ∃ before' behind, lowerChar before' c behind ⊆ lowerFrom before cs := by
  induction cs generalizing before with
  | nil => cases hc
  | cons d cs ih =>
    rcases List.mem_cons.1 hc with rfl | hc
    · exact ⟨before, cs, List.subset_append_left _ _⟩
    · obtain ⟨before', behind, hsub⟩ := ih hc (d :: before)
      exact ⟨before', behind, List.subset_append_of_subset_right _ hsub⟩

theorem toLower_beyond (h : 128 ≤ c.toNat) : c.toLower = c := by
  unfold Char.toLower
  split
  · next hc =>
    have hle : c.toNat ≤ 90 := hc.2
    omega
  · rfl

/-- A word of ASCII characters without the letter k is the lower case of a text if and only if it is so
character by character in ASCII. -/
theorem lower_eq_iff (ht : ∀ d ∈ t, d.toNat < 128 ∧ d ≠ 'k') :
    lower cs = t ↔ cs.map Char.toLower = t := by
  by_cases hascii : ∀ c ∈ cs, c.toNat < 128
  · have hsmall : cs.map smallLetter = cs.map Char.toLower := by
      refine List.map_congr_left fun c hc => ?_
      have h := smallLetter_ascii c.toNat (hascii c hc)
      rwa [Char.ofNat_toNat] at h
    rw [lower_ascii hascii, hsmall]
  · simp only [Classical.not_forall, Nat.not_lt] at hascii
    obtain ⟨c, hc, hbeyond⟩ := hascii
    constructor
    · rintro rfl
      obtain ⟨before, behind, hsub⟩ := exists_lowerChar_subset hc []
      obtain ⟨d, hd, hd'⟩ := exists_mem_lowerChar hbeyond before behind
      obtain ⟨hlt, hk⟩ := ht d (hsub hd)
      exact absurd hd' (by simp [hk, hlt])
    · rintro rfl
      have hlt := (ht _ (List.mem_map_of_mem hc)).1
      rw [toLower_beyond hbeyond] at hlt
      omega

end Text

namespace Abi

/-! ### What a name denotes -/

/-- The name of the platform that a name denotes: without the blanks around it, in small letters. -/
def denoted (name : String) : String := String.ofList (Text.lower (Text.trim name.toList))

theorem known_names_plain : ∀ abi ∈ known, ∀ d ∈ abi.name.toList, d.toNat < 128 ∧ d ≠ 'k' := by
  decide +kernel

theorem find?_name : ∀ abi ∈ known, find? abi.name = some abi := by decide +kernel

theorem normalize_eq_iff {abi : Abi} (h : abi ∈ known) (name : String) :
    normalize name = abi.name ↔ denoted name = abi.name := by
  have hlist (cs : List Char) : String.ofList cs = abi.name ↔ cs = abi.name.toList :=
    ⟨fun he => by rw [← he, String.toList_ofList], fun he => by rw [he, String.ofList_toList]⟩
  rw [normalize, lowerCase, Text.trimmed, String.toList_ofList, denoted, hlist, hlist,
    Text.lower_eq_iff (known_names_plain abi h)]

theorem resolve_some_eq_ok_iff {machine name : String} {abi : Abi} :
    resolve machine (some name) = .ok abi ↔ abi ∈ known ∧ denoted name = abi.name := by
  constructor
  · intro h
    cases hf : find? (normalize name) with
    | none => simp [resolve, hf] at h
    | some found =>
      have hfound : found = abi := by simpa [resolve, hf] using h
      subst hfound
      have hmem := List.mem_of_find?_eq_some hf
      have hname : found.name = normalize name := by simpa using List.find?_some hf
      exact ⟨hmem, (normalize_eq_iff hmem name).1 hname.symm⟩
  · rintro ⟨hmem, hname⟩
    have hf : find? (normalize name) = some abi := by
      rw [(normalize_eq_iff hmem name).2 hname, find?_name abi hmem]
    simp [resolve, hf]

end Abi

namespace Analysis

/-! ### The names of a run -/

/-- A run has a name for its platform: the one asked for, or one that a document gives, unless it is
empty. -/
def IsNamed (wanted : Option String) (platforms : List (Option String)) (name : String) : Prop :=
  wanted = some name ∨ some name ∈ platforms ∧ name.isEmpty = false

/-- What is kept of further names: each once, and none that is empty. -/
theorem mem_foldl_fresh {names more : List String} {name : String} :
    name ∈ more.foldl (fun names name =>
        if name.isEmpty || names.contains name then names else names ++ [name]) names ↔
      name ∈ names ∨ name ∈ more ∧ name.isEmpty = false := by
  induction more generalizing names with
  | nil => simp
  | cons other more ih =>
    rw [List.foldl_cons, ih]
    split
    · next h =>
      simp only [Bool.or_eq_true, List.contains_iff_mem] at h
      constructor
      · rintro (hn | ⟨hn, he⟩)
        · exact .inl hn
        · exact .inr ⟨List.mem_cons_of_mem other hn, he⟩
      · rintro (hn | ⟨hn, he⟩)
        · exact .inl hn
        · rcases List.mem_cons.1 hn with rfl | hn
          · exact .inl (h.resolve_left (by simp [he]))
          · exact .inr ⟨hn, he⟩
    · next h =>
      simp only [Bool.or_eq_true, not_or, Bool.not_eq_true] at h
      rw [List.mem_append, List.mem_singleton, List.mem_cons]
      constructor
      · rintro ((hn | rfl) | ⟨hn, he⟩)
        · exact .inl hn
        · exact .inr ⟨.inl rfl, h.1⟩
        · exact .inr ⟨.inr hn, he⟩
      · rintro (hn | ⟨rfl | hn, he⟩)
        · exact .inl (.inl hn)
        · exact .inl (.inr rfl)
        · exact .inr ⟨hn, he⟩

theorem nodup_foldl_fresh {names : List String} (h : names.Nodup) (more : List String) :
    (more.foldl (fun names name =>
      if name.isEmpty || names.contains name then names else names ++ [name]) names).Nodup := by
  induction more generalizing names with
  | nil => exact h
  | cons other more ih =>
    rw [List.foldl_cons]
    refine ih ?_
    split
    · exact h
    · next hnew =>
      simp only [Bool.or_eq_true, not_or, List.contains_iff_mem] at hnew
      exact List.nodup_append.2 ⟨h, by simp, fun a ha b hb he =>
        hnew.2 (by rwa [← List.mem_singleton.1 hb, ← he])⟩

theorem mem_declaredNames {platforms : List (Option String)} {name : String} :
    name ∈ declaredNames platforms ↔ some name ∈ platforms ∧ name.isEmpty = false := by
  rw [declaredNames, mem_foldl_fresh]
  simp

theorem nodup_declaredNames (platforms : List (Option String)) :
    (declaredNames platforms).Nodup :=
  nodup_foldl_fresh List.nodup_nil _

/-! ### Selection -/

variable {wanted : Option String} {platforms : List (Option String)}

/-- What selection can do: find no name, find one and no other, or refuse two that are spelled
differently. -/
theorem selectArch_cases (wanted : Option String) (platforms : List (Option String)) :
    (selectArch wanted platforms = .ok none ∧ ∀ name, ¬ IsNamed wanted platforms name) ∨
    (∃ name, selectArch wanted platforms = .ok (some name) ∧ IsNamed wanted platforms name ∧
      ∀ other, IsNamed wanted platforms other → other = name) ∨
    ((∃ key value reason, selectArch wanted platforms = .error (.invalidSetting key value reason)) ∧
      ∃ a b, IsNamed wanted platforms a ∧ IsNamed wanted platforms b ∧ a ≠ b) := by
  have hmem (name : String) : IsNamed wanted platforms name ↔
      wanted = some name ∨ name ∈ declaredNames platforms := by
    rw [IsNamed, mem_declaredNames]
  simp only [hmem, selectArch]
  match declaredNames platforms, wanted, nodup_declaredNames platforms with
  | [], none, _ => exact .inl ⟨rfl, by simp⟩
  | [], some arch, _ => exact .inr (.inl ⟨arch, rfl, .inl rfl, by simp⟩)
  | [name], none, _ => exact .inr (.inl ⟨name, rfl, .inr (by simp), by simp⟩)
  | [name], some arch, _ =>
    by_cases he : arch = name
    · refine .inr (.inl ⟨arch, if_pos he, .inl rfl, fun other ho => ?_⟩)
      rcases ho with ho | ho
      · exact (Option.some.inj ho).symm
      · rw [List.mem_singleton.1 ho, he]
    · exact .inr (.inr ⟨⟨_, _, _, if_neg he⟩, arch, name, .inl rfl, .inr (by simp), he⟩)
  | a :: b :: names, _, hnodup =>
    have hne : a ≠ b := fun he => (List.nodup_cons.1 hnodup).1 (by simp [he])
    exact .inr (.inr ⟨⟨_, _, _, rfl⟩, a, b, .inr (by simp), .inr (by simp), hne⟩)

theorem exists_selectArch_eq_error_iff : (∃ e, selectArch wanted platforms = .error e) ↔
    ∃ a b, IsNamed wanted platforms a ∧ IsNamed wanted platforms b ∧ a ≠ b := by
  obtain ⟨hs, hnone⟩ | ⟨name, hs, -, hall⟩ | ⟨⟨key, value, reason, hs⟩, hdiffer⟩ :=
    selectArch_cases wanted platforms
  · simp [hs, hnone]
  · simp only [hs, reduceCtorEq, exists_false, false_iff]
    rintro ⟨a, b, ha, hb, hne⟩
    exact hne ((hall a ha).trans (hall b hb).symm)
  · exact ⟨fun _ => hdiffer, fun _ => ⟨_, hs⟩⟩

/-- Nothing but a setting is blamed for a selection that is refused. -/
theorem invalidSetting_of_selectArch {e : Error} (h : selectArch wanted platforms = .error e) :
    ∃ key value reason, e = .invalidSetting key value reason := by
  obtain ⟨hs, -⟩ | ⟨name, hs, -⟩ | ⟨⟨key, value, reason, hs⟩, -⟩ := selectArch_cases wanted platforms
  · rw [hs] at h
    cases h
  · rw [hs] at h
    cases h
  · rw [hs] at h
    cases h
    exact ⟨key, value, reason, rfl⟩

theorem isNamed_of_selectArch {chosen : Option String} (h : selectArch wanted platforms = .ok chosen) :
    (∀ name, chosen = some name → IsNamed wanted platforms name) ∧
      (chosen = none → ∀ name, ¬ IsNamed wanted platforms name) := by
  obtain ⟨hs, hnone⟩ | ⟨name, hs, hnamed, -⟩ | ⟨⟨key, value, reason, hs⟩, -⟩ :=
    selectArch_cases wanted platforms
  · rw [hs] at h
    cases h
    exact ⟨fun _ he => absurd he.symm (Option.some_ne_none _), fun _ => hnone⟩
  · rw [hs] at h
    cases h
    exact ⟨fun _ he => Option.some.inj he ▸ hnamed, fun he => absurd he (Option.some_ne_none _)⟩
  · rw [hs] at h
    cases h

/-- The platform of a run is refused, with an invalid setting, exactly if two of its names are spelled
differently; so it is refused exactly if two names denote different platforms, as long as no platform
is spelled in two ways.  A platform that is selected is the one that all names denote. -/
theorem selectArch_spelling (machine : String) (wanted : Option String)
    (platforms : List (Option String)) :
    ((∃ e, selectArch wanted platforms = .error e) ↔
      ∃ a b, IsNamed wanted platforms a ∧ IsNamed wanted platforms b ∧ a ≠ b) ∧
    (∀ e, selectArch wanted platforms = .error e →
      ∃ key value reason, e = .invalidSetting key value reason) ∧
    ((∀ a b, IsNamed wanted platforms a → IsNamed wanted platforms b →
        Abi.denoted a = Abi.denoted b → a = b) →
      ((∃ e, selectArch wanted platforms = .error e) ↔ ∃ a b,
        IsNamed wanted platforms a ∧ IsNamed wanted platforms b ∧ Abi.denoted a ≠ Abi.denoted b)) ∧
    ∀ chosen, selectArch wanted platforms = .ok chosen →
      (chosen = none ↔ ∀ name, ¬ IsNamed wanted platforms name) ∧
      ∀ abi ∈ Abi.known, (∃ name, IsNamed wanted platforms name) →
        (∀ name, IsNamed wanted platforms name → Abi.denoted name = abi.name) →
          Abi.resolve machine chosen = .ok abi := by
  refine ⟨exists_selectArch_eq_error_iff, fun e => invalidSetting_of_selectArch, fun halike => ?_,
    fun chosen hchosen => ?_⟩
  · rw [exists_selectArch_eq_error_iff]
    constructor
    · rintro ⟨a, b, ha, hb, hne⟩
      exact ⟨a, b, ha, hb, fun hd => hne (halike a b ha hb hd)⟩
    · rintro ⟨a, b, ha, hb, hne⟩
      exact ⟨a, b, ha, hb, fun he => hne (he ▸ rfl)⟩
  · obtain ⟨hsome, hnone⟩ := isNamed_of_selectArch hchosen
    cases chosen with
    | none =>
      have hno := hnone rfl
      exact ⟨iff_of_true rfl hno, fun _ _ hex => (hex.elim hno).elim⟩
    | some name =>
      have hnamed := hsome name rfl
      refine ⟨iff_of_false (Option.some_ne_none name) fun hno => hno name hnamed, ?_⟩
      exact fun abi habi _ hall => Abi.resolve_some_eq_ok_iff.2 ⟨habi, hall name hnamed⟩

/-- One platform that is spelled in two ways is refused. -/
theorem selectArch_other_spelling :
    Abi.denoted "AMD64" = Abi.denoted "amd64" ∧
    Abi.resolve "x86_64" (some "AMD64") = .ok .amd64 ∧
    Abi.resolve "x86_64" (some "amd64") = .ok .amd64 ∧
    selectArch (some "AMD64") [some "amd64"] =
      .error (.invalidSetting "arch" "AMD64" "descriptor files were sized for amd64") := by
  refine ⟨by decide, ?_, ?_, rfl⟩
  · exact Abi.resolve_some_eq_ok_iff.2 ⟨by decide, by decide⟩
  · exact Abi.resolve_some_eq_ok_iff.2 ⟨by decide, by decide⟩

end Analysis

end StructLayout
