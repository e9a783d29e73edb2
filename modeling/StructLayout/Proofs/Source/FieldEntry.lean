import StructLayout.Source.FieldDecl

/-!
# Reading field entries back

An entry of a struct body is written as names, a type and perhaps a raw literal as its tag.  Reading
it gives back what was written.  The main statements say so for the tag (`takeTag_rawLiteral`), which
is found wherever other literals stand in the type, for an entry without a tag (`takeTag_untagged`),
and for the names in front of the type (`namesAndType?_cons`, `namesAndType?_single`).
-/

namespace StructLayout.Source

variable {cs gap before tag : List Char}

/-! ### Names -/

/-- An identifier of ASCII letters, digits and underscores. -/
structure Identifier where
  first : Char
  rest : List Char
  starts : startsName first = true
  continues : ∀ c ∈ rest, continuesName c = true

namespace Identifier

def chars (name : Identifier) : List Char := name.first :: name.rest

theorem continuesName_of_mem (name : Identifier) {c : Char} (h : c ∈ name.chars) :
    continuesName c = true := by
  rcases List.mem_cons.1 h with rfl | hr
  · have hs := name.starts
    simp only [startsName, continuesName, Char.isAlphanum, Bool.or_eq_true] at hs ⊢
    exact hs.imp .inl id
  · exact name.continues c hr

end Identifier

theorem lt_of_continuesName {c : Char} (h : continuesName c = true) : c.toNat < 128 := by
  have hcodes : ((decide (65 ≤ c.val ∧ c.val ≤ 90) || (97 ≤ c.val && c.val ≤ 122)) ||
      (48 ≤ c.val && c.val ≤ 57) || c = '_') = true := h
  simp only [Bool.or_eq_true, Bool.and_eq_true, decide_eq_true_eq,
    UInt32.le_iff_toNat_le] at hcodes
  change ((65 ≤ c.toNat ∧ c.toNat ≤ 90 ∨ 97 ≤ c.toNat ∧ c.toNat ≤ 122) ∨
    48 ≤ c.toNat ∧ c.toNat ≤ 57) ∨ c = '_' at hcodes
  rcases hcodes with ((h | h) | h) | rfl
  · omega
  · omega
  · omega
  · decide

/-- What holds of the name characters of ASCII holds of every name character. -/
theorem forall_continuesName {p : Char → Prop}
    (h : ∀ n < 128, continuesName (Char.ofNat n) = true → p (Char.ofNat n)) {c : Char}
    (hc : continuesName c = true) : p c := by
  have hn := h c.toNat (lt_of_continuesName hc)
  rw [Char.ofNat_toNat] at hn
  exact hn hc

/-- A character that is neither blank nor a quote, a bracket, a separator or part of a comment. -/
def IsPlain (c : Char) : Prop :=
  Text.isBlank c = false ∧ isQuote c = false ∧ isOpener c = false ∧ isCloser c = false ∧
    c ≠ ';' ∧ c ≠ ',' ∧ c ≠ '/'

instance (c : Char) : Decidable (IsPlain c) := inferInstanceAs (Decidable (_ ∧ _))

theorem isPlain_of_continuesName {c : Char} (h : continuesName c = true) : IsPlain c :=
  @forall_continuesName IsPlain (by decide +kernel) c h

/-- The text does not go on with a name character. -/
def EndsName (cs : List Char) : Prop := ∀ c ∈ cs.head?, continuesName c = false

theorem endsName_nil : EndsName [] := by simp [EndsName]

theorem continuesName_of_isBlank {c : Char} (h : Text.isBlank c = true) :
    continuesName c = false := by
  rcases hc : continuesName c with _ | _
  · rfl
  · rw [(isPlain_of_continuesName hc).1] at h
    cases h

/-- The name at the start of a text is read up to the first character that is not part of it. -/
theorem identifier?_chars (name : Identifier) (h : EndsName cs) :
    identifier? (name.chars ++ cs) = some (name.chars, cs) := by
  have htail : cs.takeWhile continuesName = [] ∧ cs.dropWhile continuesName = cs := by
    cases cs with
    | nil => exact ⟨rfl, rfl⟩
    | cons c rest =>
        have hc := h c rfl
        simp [hc]
  obtain ⟨ht, hd⟩ := htail
  simp only [Identifier.chars, List.cons_append, identifier?, name.starts, if_true]
  rw [List.takeWhile_append_of_pos name.continues, List.dropWhile_append_of_pos name.continues, ht,
    hd, List.append_nil]

theorem endsName_gap (hne : gap ≠ []) (hg : ∀ c ∈ gap, Text.isBlank c = true) (cs : List Char) :
    EndsName (gap ++ cs) := by
  cases gap with
  | nil => exact absurd rfl hne
  | cons b gap =>
      intro c hc
      obtain rfl : b = c := by simpa using hc
      exact continuesName_of_isBlank (hg b (by simp))

theorem endsName_append (hg : ∀ c ∈ gap, Text.isBlank c = true) (h : EndsName cs) :
    EndsName (gap ++ cs) := by
  cases gap with
  | nil => exact h
  | cons b gap => exact endsName_gap (List.cons_ne_nil b gap) hg cs

theorem namesAndType?_single (name : Identifier) {t : Char} {rest : List Char} (hne : gap ≠ [])
    (hg : ∀ c ∈ gap, Text.isBlank c = true) (ht : Text.isBlank t = false) (hc : t ≠ ',') :
    namesAndType? (name.chars ++ (gap ++ t :: rest)) = some ([name.chars], t :: rest) := by
  have htrim : Text.trimStart (gap ++ t :: rest) = t :: rest := by
    rw [Text.trimStart_append hg, Text.trimStart_eq_self ht]
  have hid : identifier? (name.chars ++ (gap ++ t :: rest)) =
      some (name.chars, gap ++ t :: rest) := identifier?_chars name (endsName_gap hne hg _)
  have htype : typeBehind? (gap ++ t :: rest) = some (t :: rest) := by
    cases gap with
    | nil => exact absurd rfl hne
    | cons b gap =>
        have hb := hg b (by simp)
        have htail : Text.trimStart (gap ++ t :: rest) = t :: rest := by
          rw [Text.trimStart_append fun c hc => hg c (by simp [hc]), Text.trimStart_eq_self ht]
        simp [typeBehind?, hb, htail]
  rw [namesAndType?]
  split
  · next h => rw [hid] at h; cases h
  · next name' rest' h =>
      rw [hid] at h
      cases h
      dsimp only
      split
      · next more h =>
          rw [htrim] at h
          exact absurd (List.cons.inj h).1 hc
      · rw [htype]
        rfl

theorem namesAndType?_cons (name : Identifier) {gap' more t : List Char} {names : List (List Char)}
    (hg : ∀ c ∈ gap, Text.isBlank c = true) (hg' : ∀ c ∈ gap', Text.isBlank c = true)
    (hm : Text.trimStart more = more) (h : namesAndType? more = some (names, t)) :
    namesAndType? (name.chars ++ (gap ++ ',' :: (gap' ++ more))) =
      some (name.chars :: names, t) := by
  have hid : identifier? (name.chars ++ (gap ++ ',' :: (gap' ++ more))) =
      some (name.chars, gap ++ ',' :: (gap' ++ more)) :=
    identifier?_chars name (endsName_append hg fun c hc => by
      obtain rfl : ',' = c := by simpa using hc
      decide)
  have htrim : Text.trimStart (gap ++ ',' :: (gap' ++ more)) = ',' :: (gap' ++ more) := by
    rw [Text.trimStart_append hg, Text.trimStart_eq_self (by decide)]
  rw [namesAndType?]
  split
  · next h' => rw [hid] at h'; cases h'
  · next name' rest' h' =>
      rw [hid] at h'
      cases h'
      dsimp only
      split
      · next more' h' =>
          rw [htrim] at h'
          cases h'
          rw [Text.trimStart_append hg', hm, h]
      · next h' => exact absurd htrim (h' _)

/-! ### Tags -/

/-- A raw literal that was found ends the text but for blanks, and holds no other quote. -/
theorem rawTag?_eq_some (h : rawTag? cs = some tag) :
    ∃ blanks, cs = tag ++ '\x60' :: blanks ∧ '\x60' ∉ tag ∧
      ∀ c ∈ blanks, Text.isBlank c = true := by
  induction cs generalizing tag with
  | nil => cases h
  | cons c cs ih =>
      rw [rawTag?] at h
      split at h
      · next hc =>
          split at h
          · next hb =>
              cases h
              exact ⟨cs, by rw [hc]; rfl, by simp, by simpa [Text.isAllBlank] using hb⟩
          · cases h
      · next hc =>
          obtain ⟨tag', ht, rfl⟩ := Option.map_eq_some_iff.1 h
          obtain ⟨blanks, rfl, hn, hb⟩ := ih ht
          exact ⟨blanks, rfl, by simp [hn, Ne.symm hc], hb⟩

/-- An interpreted literal that was found ends the text but for blanks. -/
theorem quotedTag?_eq_some (h : quotedTag? cs = some tag) :
    ∃ blanks, cs = tag ++ '"' :: blanks ∧ ∀ c ∈ blanks, Text.isBlank c = true := by
  fun_induction quotedTag? cs generalizing tag with
  | case1 => cases h
  | case2 rest hb =>
      cases h
      exact ⟨rest, rfl, by simpa [Text.isAllBlank] using hb⟩
  | case3 => cases h
  | case4 => cases h
  | case5 c rest _ ih =>
      obtain ⟨tag', ht, rfl⟩ := Option.map_eq_some_iff.1 h
      obtain ⟨blanks, rfl, hb⟩ := ih ht
      exact ⟨blanks, rfl, hb⟩
  | case6 => cases h
  | case7 c rest _ _ _ ih =>
      obtain ⟨tag', ht, rfl⟩ := Option.map_eq_some_iff.1 h
      obtain ⟨blanks, rfl, hb⟩ := ih ht
      exact ⟨blanks, rfl, hb⟩

theorem wholeLiteral?_eq_some (h : wholeLiteral? cs = some tag) :
    ∃ rest, (Text.trimStart cs = '"' :: rest ∧ quotedTag? rest = some tag) ∨
      (Text.trimStart cs = '\x60' :: rest ∧ rawTag? rest = some tag) := by
  unfold wholeLiteral? at h
  split at h
  · next rest hs => exact ⟨rest, .inl ⟨hs, h⟩⟩
  · next rest hs => exact ⟨rest, .inr ⟨hs, h⟩⟩
  · cases h

theorem trimStart_append_cons {c : Char} (xs ys : List Char) (hc : Text.isBlank c = false) :
    ∃ zs, Text.trimStart (xs ++ c :: ys) = zs ++ c :: ys := by
  induction xs with
  | nil => exact ⟨[], Text.trimStart_eq_self hc⟩
  | cons x xs ih =>
      rcases hx : Text.isBlank x with _ | _
      · exact ⟨x :: xs, Text.trimStart_eq_self hx⟩
      · obtain ⟨zs, hz⟩ := ih
        refine ⟨zs, ?_⟩
        rw [← hz, Text.trimStart, List.cons_append, List.dropWhile_cons_of_pos hx]
        rfl

/-- The last character of a text is blank or stands in front of the blanks at its end. -/
theorem isBlank_or_eq_of_concat {xs ys blanks : List Char} {c q : Char}
    (h : xs ++ [c] = ys ++ q :: blanks) (hb : ∀ d ∈ blanks, Text.isBlank d = true) :
    Text.isBlank c = true ∨ c = q := by
  have hl := congrArg List.getLast? h
  rw [List.getLast?_concat, List.getLast?_append, List.getLast?_cons] at hl
  cases hbl : blanks.getLast? with
  | none =>
      rw [hbl] at hl
      exact .inr (Option.some.inj hl)
  | some d =>
      rw [hbl] at hl
      obtain rfl : c = d := Option.some.inj hl
      exact .inl (hb c (List.mem_of_getLast? hbl))

theorem splitTag?_cons {c : Char} (h : wholeLiteral? (c :: cs) = none) :
    splitTag? (c :: cs) = (splitTag? cs).map fun r => (c :: r.1, r.2) := by
  have e := splitTag?.eq_def (c :: cs)
  dsimp only at e
  rw [h] at e
  exact e

theorem splitTag?_of_wholeLiteral? (h : wholeLiteral? cs = some tag) :
    splitTag? cs = some ([], tag) := by
  cases cs with
  | nil => cases h
  | cons c cs =>
      have e := splitTag?.eq_def (c :: cs)
      dsimp only at e
      rw [h] at e
      exact e

theorem wholeLiteral?_concat {c : Char} (xs : List Char) (hb : Text.isBlank c = false)
    (hq : isQuote c = false) : wholeLiteral? (xs ++ [c]) = none := by
  refine Option.eq_none_iff_forall_ne_some.2 fun tag h => ?_
  obtain ⟨zs, hz⟩ := trimStart_append_cons xs [] hb
  have key {q : Char} {tag blanks : List Char} (he : zs ++ [c] = q :: (tag ++ q :: blanks))
      (hbl : ∀ d ∈ blanks, Text.isBlank d = true) : c = q := by
    rw [← List.cons_append] at he
    rcases isBlank_or_eq_of_concat he hbl with hc | hc
    · rw [hb] at hc
      cases hc
    · exact hc
  obtain ⟨rest, ⟨hs, hr⟩ | ⟨hs, hr⟩⟩ := wholeLiteral?_eq_some h
  · obtain ⟨blanks, rfl, hbl⟩ := quotedTag?_eq_some hr
    rw [key (hz.symm.trans hs) hbl] at hq
    cases hq
  · obtain ⟨blanks, rfl, -, hbl⟩ := rawTag?_eq_some hr
    rw [key (hz.symm.trans hs) hbl] at hq
    cases hq

theorem takeTag_untagged {c : Char} (xs : List Char) (hb : Text.isBlank c = false)
    (hq : isQuote c = false) : takeTag (xs ++ [c]) = (xs ++ [c], []) := by
  have hnone : splitTag? (xs ++ [c]) = none := by
    induction xs with
    | nil => rw [List.nil_append, splitTag?_cons (wholeLiteral?_concat [] hb hq)]; rfl
    | cons x xs ih =>
        have h : wholeLiteral? (x :: (xs ++ [c])) = none := wholeLiteral?_concat (x :: xs) hb hq
        rw [List.cons_append, splitTag?_cons h, ih]
        rfl
  rw [takeTag, hnone]

theorem wholeLiteral?_append {c : Char} (xs gap tag : List Char) (hb : Text.isBlank c = false) :
    wholeLiteral? (xs ++ c :: (gap ++ '\x60' :: (tag ++ ['\x60']))) = none := by
  refine Option.eq_none_iff_forall_ne_some.2 fun tag' h => ?_
  obtain ⟨zs, hz⟩ := trimStart_append_cons xs (gap ++ '\x60' :: (tag ++ ['\x60'])) hb
  obtain ⟨rest, ⟨hs, hr⟩ | ⟨hs, hr⟩⟩ := wholeLiteral?_eq_some h
  · obtain ⟨blanks, rfl, hbl⟩ := quotedTag?_eq_some hr
    have he : (zs ++ c :: (gap ++ '\x60' :: tag)) ++ ['\x60'] =
        ('"' :: tag') ++ '"' :: blanks := by
      rw [List.cons_append, ← hs, hz]
      simp only [List.append_assoc, List.cons_append]
    rcases isBlank_or_eq_of_concat he hbl with hc | hc
    · exact absurd hc (by decide)
    · exact absurd hc (by decide)
  · -- the literal would hold one quote behind its first, the text has two
    obtain ⟨blanks, rfl, hn, hbl⟩ := rawTag?_eq_some hr
    rw [hz] at hs
    have htag : List.count '\x60' tag' = 0 := List.count_eq_zero.2 hn
    have hblanks : List.count '\x60' blanks = 0 :=
      List.count_eq_zero.2 fun hm => absurd (hbl _ hm) (by decide)
    have hlit : 2 ≤ List.count '\x60' (gap ++ '\x60' :: (tag ++ ['\x60'])) := by
      simp only [List.count_append, List.count_cons_self]
      omega
    cases zs with
    | nil =>
        obtain ⟨rfl, he⟩ := List.cons.inj hs
        rw [he] at hlit
        simp only [List.count_append, List.count_cons_self] at hlit
        omega
    | cons z zs =>
        obtain ⟨rfl, he⟩ := List.cons.inj hs
        have hle := List.count_le_count_cons (a := '\x60') (b := c)
          (l := gap ++ '\x60' :: (tag ++ ['\x60']))
        have hcount := congrArg (List.count '\x60') he
        rw [List.append_eq, List.count_append] at hcount
        simp only [List.count_append, List.count_cons_self] at hcount hle hlit
        omega

theorem rawTag?_of_notMem (h : '\x60' ∉ tag) : rawTag? (tag ++ ['\x60']) = some tag := by
  induction tag with
  | nil => rfl
  | cons c tag ih =>
      have hc : ¬ c = '\x60' := fun hc => h (by simp [hc])
      simp [rawTag?, hc, ih fun hm => h (by simp [hm])]

theorem takeTag_rawLiteral {c : Char} (xs : List Char) (hb : Text.isBlank c = false)
    (hg : ∀ d ∈ gap, Text.isBlank d = true) (ht : '\x60' ∉ tag) :
    takeTag (xs ++ c :: (gap ++ '\x60' :: (tag ++ ['\x60']))) = (xs ++ [c], tag) := by
  have hlit : wholeLiteral? (gap ++ '\x60' :: (tag ++ ['\x60'])) = some tag := by
    have hs : Text.trimStart (gap ++ '\x60' :: (tag ++ ['\x60'])) =
        '\x60' :: (tag ++ ['\x60']) := by
      rw [Text.trimStart_append hg, Text.trimStart_eq_self (by decide)]
    simp only [wholeLiteral?, hs]
    exact rawTag?_of_notMem ht
  have hsplit : splitTag? (xs ++ c :: (gap ++ '\x60' :: (tag ++ ['\x60']))) =
      some (xs ++ [c], tag) := by
    induction xs with
    | nil =>
        rw [List.nil_append, splitTag?_cons (wholeLiteral?_append [] gap tag hb),
          splitTag?_of_wholeLiteral? hlit]
        rfl
    | cons x xs ih =>
        have h : wholeLiteral? (x :: (xs ++ c :: (gap ++ '\x60' :: (tag ++ ['\x60'])))) = none :=
          wholeLiteral?_append (x :: xs) gap tag hb
        rw [List.cons_append, splitTag?_cons h, ih]
        rfl
  rw [takeTag, hsplit]
  simp [Text.trimEnd_concat hb]

/-! ### Entries -/

/-- The text of a raw literal; it holds no backtick. -/
structure RawTag where
  chars : List Char
  closed : '\x60' ∉ chars

def writtenTag (gap : List Char) : Option RawTag → List Char
  | none => []
  | some tag => gap ++ '\x60' :: (tag.chars ++ ['\x60'])

def tagText : Option RawTag → List Char
  | none => []
  | some tag => tag.chars

variable {names : List (List Char)} {t : List Char} {tag : Option RawTag} {c : Char}

theorem takeTag_writtenTag (hg : ∀ d ∈ gap, Text.isBlank d = true) (xs : List Char)
    (hb : Text.isBlank c = false) (hq : isQuote c = false) (tag : Option RawTag) :
    takeTag ((xs ++ [c]) ++ writtenTag gap tag) = (xs ++ [c], tagText tag) := by
  cases tag with
  | none => simpa [writtenTag, tagText] using takeTag_untagged xs hb hq
  | some tag => simpa [writtenTag, tagText] using takeTag_rawLiteral xs hb hg tag.closed

/-- A declaration between firm ends has nothing to trim, with its tag or without. -/
theorem trim_writtenTag {s : Char} {rest : List Char} (hs : Text.isBlank s = false) (xs : List Char)
    (hb : Text.isBlank c = false) (he : s :: rest = xs ++ [c]) (gap : List Char)
    (tag : Option RawTag) :
    Text.trim ((s :: rest) ++ writtenTag gap tag) = (s :: rest) ++ writtenTag gap tag := by
  rw [Text.trim, List.cons_append, Text.trimStart_eq_self hs, ← List.cons_append]
  cases tag with
  | none => rw [writtenTag, List.append_nil, he, Text.trimEnd_concat hb]
  | some tag =>
      have hl : (s :: rest) ++ writtenTag gap (some tag) =
          ((s :: rest) ++ (gap ++ '\x60' :: tag.chars)) ++ ['\x60'] := by
        simp [writtenTag]
      rw [hl, Text.trimEnd_concat (by decide)]

def writtenField (comment : String) (line : Int) (tag : Option RawTag) (name typeExpr : List Char) :
    FieldDecl where
  name := String.ofList name
  typeExpr := String.ofList typeExpr
  tag := String.ofList (tagText tag)
  comment
  line

section Entry

variable {s : Char} {rest xs : List Char} (hs : Text.isBlank s = false)
  (hb : Text.isBlank c = false) (hq : isQuote c = false) (he : s :: rest = xs ++ [c])
  (hg : ∀ d ∈ gap, Text.isBlank d = true) (tag : Option RawTag) (comment : String) (line : Int)
include hs hb hq he hg

omit hs in
theorem takeTag_entry : takeTag ((s :: rest) ++ writtenTag gap tag) = (s :: rest, tagText tag) := by
  rw [he]
  exact takeTag_writtenTag hg xs hb hq tag

theorem fieldEntry_named (hn : namesAndType? (s :: rest) = some (names, t)) :
    fieldEntry comment line ((s :: rest) ++ writtenTag gap tag) =
      names.map fun name => writtenField comment line tag name (compact t) := by
  rw [fieldEntry, trim_writtenTag hs xs hb he gap tag, takeTag_entry hb hq he hg tag]
  dsimp only
  rw [hn]
  rfl

theorem fieldEntry_embedded (hn : namesAndType? (s :: rest) = none) :
    fieldEntry comment line ((s :: rest) ++ writtenTag gap tag) =
      [writtenField comment line tag (embeddedName (compact (s :: rest))) (compact (s :: rest))] := by
  rw [fieldEntry, trim_writtenTag hs xs hb he gap tag, takeTag_entry hb hq he hg tag]
  dsimp only
  rw [hn]
  rfl

end Entry

end StructLayout.Source
