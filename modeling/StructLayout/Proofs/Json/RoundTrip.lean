import Mathlib.Data.List.Nodup
import StructLayout.Json.Printer
import StructLayout.Json.Reader
import StructLayout.Value.Display

/-!
# What is written as JSON is read back

A value without floating-point numbers, moments, and a key that an object has twice (`Value.isExact`)
has an exact notation.  Written over lines, it is followed by a comma, a line break or nothing
(`EndsValue`), so that a number is not taken to go on.

Each kind of value is read up to its end, whatever stands behind that (`ReadsBack`); lists and objects
by induction on their elements, and the values in them with one room less for nesting.  The main
statement is `parse_pretty`: the text of an exact value is read as the value, unless a number in it is
too long or it is nested too deeply.
-/

namespace StructLayout

namespace Value

mutual

/-- Whether a value holds no floating-point number, no moment, and no object with a key twice. -/
def isExact : Value → Bool
  | .float _ | .moment _ => false
  | .list elements => areExact elements
  | .object members => decide (members.map Prod.fst).Nodup && areMembersExact members
  | .null | .bool _ | .int _ | .str _ => true

def areExact : List Value → Bool
  | [] => true
  | v :: rest => isExact v && areExact rest

def areMembersExact : List (String × Value) → Bool
  | [] => true
  | (_, v) :: rest => isExact v && areMembersExact rest

end

theorem areExact_iff (elements : List Value) :
    areExact elements = true ↔ ∀ v ∈ elements, v.isExact = true := by
  induction elements with
  | nil => simp [areExact]
  | cons v rest ih => simp [areExact, ih]

theorem areMembersExact_iff (members : Members) :
    areMembersExact members = true ↔ ∀ m ∈ members, m.2.isExact = true := by
  induction members with
  | nil => simp [areMembersExact]
  | cons m rest ih => simp [areMembersExact, ih]

theorem areShowable_iff (elements : List Value) :
    areShowable elements = true ↔ ∀ v ∈ elements, v.isShowable = true := by
  induction elements with
  | nil => simp [areShowable]
  | cons v rest ih => simp [areShowable, ih]

theorem areMembersShowable_iff (members : Members) :
    areMembersShowable members = true ↔ ∀ m ∈ members, m.2.isShowable = true := by
  induction members with
  | nil => simp [areMembersShowable]
  | cons m rest ih => simp [areMembersShowable, ih]

theorem nesting_list_le_iff (elements : List Value) (n : Nat) :
    (Value.list elements).nesting ≤ n + 1 ↔ ∀ v ∈ elements, v.nesting ≤ n := by
  rw [nesting, Nat.add_le_add_iff_right]
  induction elements with
  | nil => simp [nestingOfElements]
  | cons v rest ih => simp only [nestingOfElements, Nat.max_le, ih, List.forall_mem_cons]

theorem nesting_object_le_iff (members : Members) (n : Nat) :
    (Value.object members).nesting ≤ n + 1 ↔ ∀ m ∈ members, m.2.nesting ≤ n := by
  rw [nesting, Nat.add_le_add_iff_right]
  induction members with
  | nil => simp [nestingOfMembers]
  | cons m rest ih => simp only [nestingOfMembers, Nat.max_le, ih, List.forall_mem_cons]

end Value

namespace Json

open Text

/-! ### Strings -/

theorem hexDigit?_digitChar : ∀ n < 16, hexDigit? (Nat.digitChar n) = some n := by decide

theorem hexadecimal_control : ∀ n < 32, hexadecimal 4 n =
    ['0', '0', Nat.digitChar (n / 16), Nat.digitChar (n % 16)] := by decide

theorem hexUnit?_control {n : Nat} (hn : n < 32) :
    hexUnit? '0' '0' (Nat.digitChar (n / 16)) (Nat.digitChar (n % 16)) = some n := by
  have hz : hexDigit? '0' = some 0 := by decide
  simp only [hexUnit?, hz, hexDigit?_digitChar _ (by omega : n / 16 < 16),
    hexDigit?_digitChar _ (by omega : n % 16 < 16), Option.bind_eq_bind, Option.bind_some]
  congr 1
  omega

/-- A unit that is no first half of a pair is a character by itself, whatever follows it. -/
theorem readString_unit {a b c d : Char} {unit : Nat} (h : hexUnit? a b c d = some unit)
    (hu : isHighUnit unit = false) (rest : List Char) :
    readString ('\\' :: 'u' :: a :: b :: c :: d :: rest) =
      consChar (unitChar unit) (readString rest) := by
  by_cases hp : ∃ e f g i more, rest = '\\' :: 'u' :: e :: f :: g :: i :: more
  · obtain ⟨e, f, g, i, more, rfl⟩ := hp
    rw [readString]
    cases hl : hexUnit? e f g i <;> simp [h, hu]
  · rw [readString]
    · simp [h]
    · intro e f g i more he
      exact hp ⟨e, f, g, i, more, he⟩

/-- A character is read from what is written for it. -/
theorem readString_escapeChar (c : Char) (rest : List Char) :
    readString (escapeChar c ++ rest) = consChar c (readString rest) := by
  fun_cases escapeChar c with
  | case1 => simp [readString, escaped?, *]
  | case2 => simp [readString, escaped?, *]
  | case3 => simp [readString, escaped?, *]
  | case4 => simp [readString, escaped?, *]
  | case5 => simp [readString, escaped?, *]
  | case6 => simp [readString, escaped?, *]
  | case7 => simp [readString, escaped?, *]
  | case8 _ _ _ _ _ _ _ hc =>
    have hh : isHighUnit c.toNat = false := by simp [isHighUnit]; omega
    have hl : isLowUnit c.toNat = false := by simp [isLowUnit]; omega
    simp only [hexadecimal_control _ hc, List.cons_append, List.nil_append]
    rw [readString_unit (hexUnit?_control hc) hh]
    simp [unitChar, hh, hl]
  | case9 hq hb _ _ _ _ _ hc =>
    rw [List.singleton_append, readString]
    · simp [hc]
    · exact hq
    · intros
      exact absurd ‹c = '\\'› hb
    · intros
      exact absurd ‹c = '\\'› hb
    · intros
      exact absurd ‹c = '\\'› hb

theorem readString_escaped (cs rest : List Char) :
    readString (cs.flatMap escapeChar ++ '"' :: rest) = some (cs, rest) := by
  induction cs with
  | nil => simp [readString]
  | cons c cs ih =>
    rw [List.flatMap_cons, List.append_assoc, readString_escapeChar, ih]
    rfl

theorem toList_stringText (s : String) :
    (stringText s).toList = '"' :: s.toList.flatMap escapeChar ++ ['"'] := by
  simp [stringText]

/-! ### Integers -/

/-- A text that ends a value: it is empty, or a comma or a line break comes first. -/
def EndsValue (rest : List Char) : Prop := ∀ c ∈ rest.head?, c = ',' ∨ c = '\n'

theorem endsValue_comma (cs : List Char) : EndsValue (',' :: cs) := by
  rintro c ⟨⟩
  exact .inl rfl

theorem endsValue_newLine (level : Nat) (cs : List Char) :
    EndsValue ((newLine level).toList ++ cs) := by
  intro c hc
  simp only [newLine, String.toList_ofList, List.cons_append, List.head?_cons] at hc
  cases hc
  exact .inr rfl

theorem EndsValue.digits {rest : List Char} (h : EndsValue rest) :
    rest.takeWhile isAsciiDigit = [] ∧ rest.dropWhile isAsciiDigit = rest := by
  cases rest with
  | nil => exact ⟨rfl, rfl⟩
  | cons c cs => obtain rfl | rfl := h c rfl <;> exact ⟨rfl, rfl⟩

theorem EndsValue.noFraction {rest : List Char} (h : EndsValue rest) :
    readFraction rest = none ∧ readExponent rest = none := by
  cases rest with
  | nil => exact ⟨rfl, rfl⟩
  | cons c cs => obtain rfl | rfl := h c rfl <;> exact ⟨rfl, rfl⟩

theorem digitsValue_natDigits (n : Nat) : digitsValue (natDigits n) = n := by
  have h := @Nat.ofDigitChars_toDigits 10 n (by decide) (by decide)
  simpa only [Nat.ofDigitChars, Nat.mul_comm 10, digitsValue, natDigits] using h

theorem isAsciiDigit_of_mem {n : Nat} {c : Char} (h : c ∈ natDigits n) : isAsciiDigit c = true := by
  have hd := Nat.isDigit_of_mem_toDigits (by decide) (by decide) h
  simpa [Char.isDigit, isAsciiDigit, Char.le_def] using hd

/-- The digits of a positive number do not start with zero. -/
theorem natDigits_head {n : Nat} (hn : n ≠ 0) : ∃ c cs, natDigits n = c :: cs ∧ c ≠ '0' := by
  induction n using Nat.strongRecOn with
  | _ n ih =>
    rw [natDigits, Nat.toDigits_eq_if (by decide)]
    by_cases h : n < 10
    · have hd : ∀ k < 10, k ≠ 0 → Nat.digitChar k ≠ '0' := by decide
      exact ⟨Nat.digitChar n, [], by simp [h], hd n h hn⟩
    · obtain ⟨c, cs, hc, h0⟩ := ih (n / 10) (by omega) (by omega)
      exact ⟨c, cs ++ [Nat.digitChar (n % 10)], by rw [if_neg h, ← natDigits, hc]; rfl, h0⟩

theorem readWhole_natDigits (n : Nat) {rest : List Char} (hr : EndsValue rest) :
    readWhole (natDigits n ++ rest) = some (natDigits n, rest) := by
  by_cases hn : n = 0
  · subst hn
    rfl
  · obtain ⟨c, cs, hc, h0⟩ := natDigits_head hn
    have hd : ∀ d ∈ natDigits n, isAsciiDigit d = true := fun d => isAsciiDigit_of_mem
    have ht : (natDigits n ++ rest).takeWhile isAsciiDigit = natDigits n := by
      rw [List.takeWhile_append_of_pos hd, hr.digits.1, List.append_nil]
    have hw : (natDigits n ++ rest).dropWhile isAsciiDigit = rest := by
      rw [List.dropWhile_append_of_pos hd, hr.digits.2]
    rw [readWhole]
    · simp only [ht, hw]
      simp [hc]
    · intro more he
      rw [hc] at he
      exact h0 (List.cons.inj he).1

theorem readMagnitude_natDigits (negative : Bool) (n : Nat) {rest : List Char} (hr : EndsValue rest)
    (hn : (natDigits n).length ≤ digitLimit) :
    readMagnitude negative (natDigits n ++ rest) =
      .ok (.int (if negative then -(n : Int) else n), rest) := by
  simp [readMagnitude, readWhole_natDigits n hr, hr.noFraction, integer, Nat.not_lt.2 hn,
    digitsValue_natDigits, Except.map]

/-! ### Values without others inside -/

theorem readWord_quote (cs : List Char) : readWord ('"' :: cs) = none := by
  simp [readWord, words, afterWord?]

theorem readWord_digit {c : Char} (hc : isAsciiDigit c = true) (cs : List Char) :
    readWord (c :: cs) = none ∧ readWord ('-' :: c :: cs) = none := by
  have hn : c ≠ 'n' ∧ c ≠ 't' ∧ c ≠ 'f' ∧ c ≠ 'N' ∧ c ≠ 'I' ∧ c ≠ '-' := by
    refine ⟨?_, ?_, ?_, ?_, ?_, ?_⟩ <;> (rintro rfl; revert hc; decide)
  obtain ⟨h1, h2, h3, h4, h5, h6⟩ := hn
  simp [readWord, words, afterWord?, h1.symm, h2.symm, h3.symm, h4.symm, h5.symm, h6.symm]

theorem readScalar_null (rest : List Char) :
    readScalar ("null".toList ++ rest) = .ok (.null, rest) := by
  simp [readScalar, readWord, words, afterWord?]
  rfl

theorem readScalar_bool (b : Bool) (rest : List Char) :
    readScalar ((if b then "true" else "false").toList ++ rest) = .ok (.bool b, rest) := by
  cases b <;> simp [readScalar, readWord, words, afterWord?] <;> rfl

theorem readScalar_str (s : String) (rest : List Char) :
    readScalar ((stringText s).toList ++ rest) = .ok (.str s, rest) := by
  have hr := readString_escaped s.toList rest
  simp [toList_stringText, readScalar, readWord_quote, hr, Parse.ofReading]

theorem readScalar_int {n : Int} (hn : Text.isShowable n = true) {rest : List Char}
    (hr : EndsValue rest) : readScalar ((intText n).toList ++ rest) = .ok (.int n, rest) := by
  have hl : (natDigits n.natAbs).length ≤ digitLimit := by simpa [Text.isShowable] using hn
  have hne : natDigits n.natAbs ≠ [] := Nat.toDigits_ne_nil
  obtain ⟨d, ds, hd⟩ := List.exists_cons_of_ne_nil hne
  have hc : isAsciiDigit d = true :=
    @isAsciiDigit_of_mem n.natAbs d (by rw [hd]; exact List.mem_cons_self)
  cases n with
  | ofNat m =>
    have hm := readMagnitude_natDigits false m hr hl
    have ht : (intText (.ofNat m)).toList = d :: ds := by simpa [intText] using hd
    have hq : d ≠ '"' := by rintro rfl; revert hc; decide
    have hs : d ≠ '-' := by rintro rfl; revert hc; decide
    rw [ht, List.cons_append, readScalar, (readWord_digit hc _).1]
    · rw [show natDigits m = d :: ds from hd] at hm
      exact hm
    · intro more he
      exact hq (List.cons.inj he).1
    · intro more he
      exact hs (List.cons.inj he).1
  | negSucc m =>
    have hm := readMagnitude_natDigits true (m + 1) hr hl
    have ht : (intText (.negSucc m)).toList = '-' :: d :: ds := by simpa [intText] using hd
    simp only [ht, List.cons_append, readScalar, (readWord_digit hc _).2]
    rw [show natDigits (m + 1) = d :: ds from hd] at hm
    exact hm

/-! ### Where values start -/

theorem skipSpace_newLine (level : Nat) (cs : List Char) :
    skipSpace ((newLine level).toList ++ cs) = skipSpace cs := by
  rw [skipSpace, List.dropWhile_append_of_pos, skipSpace]
  intro c hc
  simp only [newLine, String.toList_ofList, List.mem_cons, List.mem_replicate] at hc
  obtain rfl | ⟨-, rfl⟩ := hc <;> rfl

theorem head_of_readValue {fuel room : Nat} {cs : List Char} {r : Value × List Char}
    (h : readValue fuel room cs = .ok r) :
    ∃ c more, cs = c :: more ∧ isSpace c = false ∧ c ≠ ']' := by
  cases fuel with
  | zero => cases h
  | succ fuel =>
    cases cs with
    | nil => cases h
    | cons c more =>
      refine ⟨c, more, rfl, ?_, ?_⟩
      · rw [Bool.eq_false_iff]
        intro hs
        simp only [isSpace, Bool.or_eq_true, decide_eq_true_eq] at hs
        obtain ((rfl | rfl) | rfl) | rfl := hs <;> cases h
      · rintro rfl
        cases h

theorem skipSpace_of_readValue {fuel room : Nat} {cs : List Char} {r : Value × List Char}
    (h : readValue fuel room cs = .ok r) : skipSpace cs = cs := by
  obtain ⟨c, more, rfl, hs, -⟩ := head_of_readValue h
  simp [skipSpace, hs]

/-- Elements start where the first of them does. -/
theorem readValue_of_readElements {fuel room : Nat} {cs : List Char} {r : List Value × List Char}
    (h : readElements fuel room cs = .ok r) : ∃ fuel' r', readValue fuel' room cs = .ok r' := by
  cases fuel with
  | zero => cases h
  | succ fuel =>
    rw [readElements] at h
    split at h
    · cases h
    · next v rest hv => exact ⟨fuel, _, hv⟩

/-- Members start with the quote of the first key. -/
theorem head_of_readMembers {fuel room : Nat} {acc : Members} {cs : List Char}
    {r : Members × List Char} (h : readMembers fuel room acc cs = .ok r) :
    ∃ more, cs = '"' :: more := by
  cases fuel with
  | zero => cases h
  | succ fuel =>
    rw [readMembers.eq_def] at h
    dsimp only at h
    split at h
    · next more => exact ⟨more, rfl⟩
    · cases h

/-! ### Items on lines of their own -/

/-- Items on lines of their own at a level, without the line breaks around them. -/
def itemLines (level : Nat) (items : List String) : List Char :=
  (("," ++ newLine level).intercalate items).toList

theorem itemLines_singleton (level : Nat) (item : String) :
    itemLines level [item] = item.toList := by
  simp [itemLines]

theorem itemLines_cons_cons (level : Nat) (item next : String) (more : List String) :
    itemLines level (item :: next :: more) =
      item.toList ++ ',' :: ((newLine level).toList ++ itemLines level (next :: more)) := by
  simp [itemLines, String.toList_intercalate]

theorem toList_bracketed (opening closing : String) (level : Nat) {items : List String}
    (h : items ≠ []) : (bracketed opening closing level items).toList =
      opening.toList ++ ((newLine (level + 1)).toList ++ (itemLines (level + 1) items ++
        ((newLine level).toList ++ closing.toList))) := by
  simp [bracketed, h, itemLines]

def memberText (level : Nat) (m : String × Value) : String :=
  stringText m.1 ++ ": " ++ prettyAt level m.2

theorem prettyElements_eq_map (level : Nat) (elements : List Value) :
    prettyElements level elements = elements.map (prettyAt level) := by
  induction elements with
  | nil => rfl
  | cons v rest ih => simp [prettyElements, ih]

theorem prettyMembers_eq_map (level : Nat) (members : Members) :
    prettyMembers level members = members.map (memberText level) := by
  induction members with
  | nil => rfl
  | cons m rest ih => simp [prettyMembers, memberText, ih]

/-- Whether a value written at a level is read back where there is some room, whatever ends it. -/
def ReadsBack (room level : Nat) (v : Value) : Prop :=
  ∀ (fuel : Nat) (rest : List Char), EndsValue rest → (prettyAt level v).toList.length < fuel →
    readValue fuel room ((prettyAt level v).toList ++ rest) = .ok (v, rest)

theorem readElements_itemLines {room level : Nat} (outer : Nat) (after : List Char)
    {elements : List Value} (hne : elements ≠ []) (hv : ∀ v ∈ elements, ReadsBack room level v)
    (fuel : Nat) (hf : (itemLines level (elements.map (prettyAt level))).length + 1 < fuel) :
    readElements fuel room (itemLines level (elements.map (prettyAt level)) ++
      ((newLine outer).toList ++ ']' :: after)) = .ok (elements, after) := by
  have hb : skipSpace (']' :: after) = ']' :: after := rfl
  have hc : ∀ cs, skipSpace (',' :: cs) = ',' :: cs := fun _ => rfl
  induction elements generalizing fuel with
  | nil => exact absurd rfl hne
  | cons v more ih =>
    obtain ⟨fuel, rfl⟩ : ∃ k, fuel = k + 1 := ⟨fuel - 1, by omega⟩
    cases more with
    | nil =>
      rw [List.map_singleton, itemLines_singleton] at hf ⊢
      have hr := hv v (by simp) fuel _ (endsValue_newLine outer (']' :: after)) (by omega)
      simp only [readElements, hr, skipSpace_newLine, hb]
    | cons w more =>
      rw [List.map_cons, List.map_cons, itemLines_cons_cons, ← List.map_cons] at hf ⊢
      simp only [List.length_append, List.length_cons] at hf
      have hm := ih (by simp) (fun u hu => hv u (List.mem_cons_of_mem v hu)) fuel (by omega)
      obtain ⟨_, _, hw⟩ := readValue_of_readElements hm
      have hr := fun cs => hv v (by simp) fuel _ (endsValue_comma cs) (by omega)
      simp only [List.append_assoc, List.cons_append, readElements, hr, hc, skipSpace_newLine,
        skipSpace_of_readValue hw, hm, Except.map]

theorem readMembers_member {fuel room level : Nat} {m : String × Value}
    (hv : ReadsBack room level m.2) (acc : Members) {rest : List Char} (hr : EndsValue rest)
    (hf : (memberText level m).toList.length < fuel) :
    readMembers (fuel + 1) room acc ((memberText level m).toList ++ rest) =
      match skipSpace rest with
      | '\x7d' :: after => .ok (acc.insert m.1 m.2, after)
      | ',' :: more => readMembers fuel room (acc.insert m.1 m.2) (skipSpace more)
      | _ => .error .malformed := by
  have ht : (memberText level m).toList ++ rest = '"' :: (m.1.toList.flatMap escapeChar ++
      '"' :: ':' :: ' ' :: ((prettyAt level m.2).toList ++ rest)) := by
    simp [memberText, toList_stringText, String.toList_append]
  have hl : (prettyAt level m.2).toList.length < fuel := by
    simp only [memberText, String.toList_append, List.length_append] at hf
    omega
  have hr := hv fuel rest hr hl
  have hcolon : ∀ cs, skipSpace (':' :: cs) = ':' :: cs := fun _ => rfl
  have hblank : ∀ cs, skipSpace (' ' :: cs) = skipSpace cs := fun _ => rfl
  simp only [ht, readMembers, readString_escaped, hcolon, hblank, skipSpace_of_readValue hr,
    String.ofList_toList]
  generalize readValue fuel room ((prettyAt level m.2).toList ++ rest) = outcome at hr ⊢
  subst hr
  rfl

theorem insert_fresh {acc : Members} {key : String} (h : key ∉ acc.map Prod.fst) (v : Value) :
    acc.insert key v = acc ++ [(key, v)] := by
  induction acc with
  | nil => rfl
  | cons m more ih =>
    simp only [List.map_cons, List.mem_cons, not_or] at h
    simp [Members.insert, Ne.symm h.1, ih h.2]

theorem readMembers_itemLines {room level : Nat} (outer : Nat) (after : List Char)
    {members : Members} (hne : members ≠ []) (hv : ∀ m ∈ members, ReadsBack room level m.2)
    (acc : Members) (hd : ((acc ++ members).map Prod.fst).Nodup)
    (fuel : Nat) (hf : (itemLines level (members.map (memberText level))).length + 1 < fuel) :
    readMembers fuel room acc (itemLines level (members.map (memberText level)) ++
      ((newLine outer).toList ++ '\x7d' :: after)) = .ok (acc ++ members, after) := by
  have hb : skipSpace ('\x7d' :: after) = '\x7d' :: after := rfl
  have hc : ∀ cs, skipSpace (',' :: cs) = ',' :: cs := fun _ => rfl
  induction members generalizing fuel acc with
  | nil => exact absurd rfl hne
  | cons m more ih =>
    obtain ⟨fuel, rfl⟩ : ∃ k, fuel = k + 1 := ⟨fuel - 1, by omega⟩
    have hins : acc.insert m.1 m.2 = acc ++ [m] := by
      apply insert_fresh
      simp only [List.map_append, List.nodup_append, List.map_cons, List.mem_cons] at hd
      intro hm
      exact hd.2.2 _ hm _ (.inl rfl) rfl
    cases more with
    | nil =>
      rw [List.map_singleton, itemLines_singleton] at hf ⊢
      rw [readMembers_member (hv m (by simp)) acc (endsValue_newLine outer _) (by omega)]
      simp only [skipSpace_newLine, hb, hins]
    | cons w more =>
      rw [List.map_cons, List.map_cons, itemLines_cons_cons, ← List.map_cons] at hf ⊢
      simp only [List.length_append, List.length_cons] at hf
      rw [List.append_cons] at hd
      have hm := ih (by simp) (fun u hu => hv u (List.mem_cons_of_mem m hu)) _ hd fuel (by omega)
      obtain ⟨text, hq⟩ := head_of_readMembers hm
      have hquote : skipSpace ('"' :: text) = '"' :: text := rfl
      rw [hq] at hm
      rw [List.append_assoc, List.cons_append,
        readMembers_member (hv m (by simp)) acc (endsValue_comma _) (by omega)]
      simp only [List.append_assoc, hc, skipSpace_newLine, hins, hq, hquote, hm, List.cons_append,
        List.nil_append]

theorem readValue_bracket {fuel room : Nat} (level : Nat) {cs : List Char}
    {r : List Value × List Char} (h : readElements fuel room cs = .ok r) :
    readValue (fuel + 1) (room + 1) ('[' :: ((newLine level).toList ++ cs)) =
      .ok (.list r.1, r.2) := by
  obtain ⟨_, _, hw⟩ := readValue_of_readElements h
  obtain ⟨c, more, rfl, -, hb⟩ := head_of_readValue hw
  simp only [readValue, within, skipSpace_newLine, skipSpace_of_readValue hw]
  split
  · next he => exact absurd (List.cons.inj he).1 hb
  · rw [h]
    rfl

theorem readValue_brace {fuel room : Nat} (level : Nat) {cs : List Char} {r : Members × List Char}
    (h : readMembers fuel room [] cs = .ok r) :
    readValue (fuel + 1) (room + 1) ('\x7b' :: ((newLine level).toList ++ cs)) =
      .ok (.object r.1, r.2) := by
  obtain ⟨more, rfl⟩ := head_of_readMembers h
  have hq : skipSpace ('"' :: more) = '"' :: more := rfl
  simp only [readValue, within, skipSpace_newLine, hq]
  split
  · next he => exact absurd (List.cons.inj he).1 (by decide)
  · rw [h]
    rfl

/-! ### Values -/

theorem readsBack_scalar (room level : Nat) {v : Value} (hx : v.isExact = true)
    (hs : v.isShowable = true) (hn : v.nesting = 0) : ReadsBack room level v := by
  intro fuel rest hr hf
  obtain ⟨fuel, rfl⟩ : ∃ k, fuel = k + 1 := ⟨fuel - 1, by omega⟩
  have hscalar : readScalar ((prettyAt level v).toList ++ rest) = .ok (v, rest) := by
    cases v with
    | null => exact readScalar_null rest
    | bool b => exact readScalar_bool b rest
    | int n => exact readScalar_int hs hr
    | float x => cases hx
    | moment m => cases hx
    | str s => exact readScalar_str s rest
    | list elements => cases hn
    | object members => cases hn
  rw [readValue]
  · exact hscalar
  · intro more he
    rw [he] at hscalar
    cases hscalar
  · intro more he
    rw [he] at hscalar
    cases hscalar

theorem readsBack_list {room level : Nat} {elements : List Value}
    (hv : ∀ v ∈ elements, ReadsBack room (level + 1) v) :
    ReadsBack (room + 1) level (.list elements) := by
  intro fuel rest hr hf
  obtain ⟨fuel, rfl⟩ : ∃ k, fuel = k + 1 := ⟨fuel - 1, by omega⟩
  rw [prettyAt, prettyElements_eq_map] at hf ⊢
  by_cases he : elements = []
  · subst he
    simp [bracketed, readValue, within, skipSpace, isSpace]
  · have hi : elements.map (prettyAt (level + 1)) ≠ [] := by simpa using he
    have hone : "[".toList.length = 1 ∧ "]".toList.length = 1 := ⟨rfl, rfl⟩
    rw [toList_bracketed _ _ _ hi] at hf ⊢
    simp only [List.length_append, hone] at hf
    have hm := readElements_itemLines level rest he hv fuel (by omega)
    simpa using readValue_bracket (level + 1) hm

theorem readsBack_object {room level : Nat} {members : Members}
    (hd : (members.map Prod.fst).Nodup) (hv : ∀ m ∈ members, ReadsBack room (level + 1) m.2) :
    ReadsBack (room + 1) level (.object members) := by
  intro fuel rest hr hf
  obtain ⟨fuel, rfl⟩ : ∃ k, fuel = k + 1 := ⟨fuel - 1, by omega⟩
  rw [prettyAt, prettyMembers_eq_map] at hf ⊢
  by_cases he : members = []
  · subst he
    simp [bracketed, readValue, within, skipSpace, isSpace]
  · have hi : members.map (memberText (level + 1)) ≠ [] := by simpa using he
    have hone : "\x7b".toList.length = 1 ∧ "\x7d".toList.length = 1 := ⟨rfl, rfl⟩
    rw [toList_bracketed _ _ _ hi] at hf ⊢
    simp only [List.length_append, hone] at hf
    have hm := readMembers_itemLines level rest he hv [] hd fuel (by omega)
    simpa using readValue_brace (level + 1) hm

/-- By induction on the room: what stands in a list or an object has less of it. -/
theorem readsBack_of_nesting_le {room : Nat} (level : Nat) {v : Value} (hx : v.isExact = true)
    (hs : v.isShowable = true) (hn : v.nesting ≤ room) : ReadsBack room level v := by
  induction room generalizing level v with
  | zero => exact readsBack_scalar 0 level hx hs (by omega)
  | succ room ih =>
    cases v with
    | list elements =>
      simp only [Value.isExact, Value.areExact_iff] at hx
      simp only [Value.isShowable, Value.areShowable_iff] at hs
      rw [Value.nesting_list_le_iff] at hn
      exact readsBack_list fun u hu => ih (level + 1) (hx u hu) (hs u hu) (hn u hu)
    | object members =>
      simp only [Value.isExact, Bool.and_eq_true, decide_eq_true_eq,
        Value.areMembersExact_iff] at hx
      simp only [Value.isShowable, Value.areMembersShowable_iff] at hs
      rw [Value.nesting_object_le_iff] at hn
      exact readsBack_object hx.1 fun m hm => ih (level + 1) (hx.2 m hm) (hs m hm) (hn m hm)
    | null => exact readsBack_scalar _ level hx hs rfl
    | bool b => exact readsBack_scalar _ level hx hs rfl
    | int n => exact readsBack_scalar _ level hx hs rfl
    | float x => exact readsBack_scalar _ level hx hs rfl
    | moment m => exact readsBack_scalar _ level hx hs rfl
    | str s => exact readsBack_scalar _ level hx hs rfl

/-- The text of an exact value is read as the value, unless a number in it is too long or it is nested
too deeply. -/
theorem parse_pretty {limit : Nat} {v : Value} (hx : v.isExact = true) (hs : v.isShowable = true)
    (hn : v.nesting ≤ limit) : parse limit (pretty v) = .ok v := by
  have hend : EndsValue [] := by
    intro c hc
    cases hc
  have hr := readsBack_of_nesting_le 0 hx hs hn ((pretty v).toList.length + 1) [] hend
    (Nat.lt_succ_self _)
  rw [← pretty, List.append_nil] at hr
  rw [parse]
  simp only [skipSpace_of_readValue hr, hr]
  rfl

end Json

end StructLayout
