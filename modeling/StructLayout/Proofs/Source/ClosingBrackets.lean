import Mathlib.Data.Nat.Find
import Mathlib.Order.Bounds.Basic
import StructLayout.Proofs.Source.NestedText

/-!
# Where brackets are closed

`closingAt` counts the brackets of one kind from an opening bracket on.  It finds the first place at
which there are as many closing as opening ones (`closeIn_eq_some_iff`), and none if there is no such
place.

In properly nested text that is the bracket's partner (`exists_inside`), so that the brackets of the
other kinds are closed there, too: counted together they are balanced there for the first time, and it
is the first place behind which a separator cuts (`EndsBody`).  The main statement is
`closingAt_isLeast`.
-/

namespace StructLayout.Source

variable {text inside : List Char} {place last depth n : Nat} {opener closer : Char}
  {ms : List (Char × Bool)}

/-! ### Excerpts -/

/-- What stands in a text from one place up to another one, both included. -/
def excerpt (text : List Char) (first last : Nat) : List Char :=
  (text.drop first).take (last + 1 - first)

/-- How often a character occurs outside of literals. -/
def countInCode (c : Char) (cs : List Char) : Nat := (mark .code cs).count (c, true)

theorem mark_take (m : Mode) (cs : List Char) (n : Nat) :
    mark m (cs.take n) = (mark m cs).take n := by
  induction cs generalizing m n with
  | nil => simp [mark]
  | cons c cs ih =>
    cases n with
    | zero => rfl
    | succ n => rw [List.take_succ_cons, mark, mark, List.take_succ_cons, ih]

theorem mark_opener (hkind : closerOf? opener = some closer) (cs : List Char) :
    mark .code (opener :: cs) = (opener, true) :: mark .code cs := by
  have hq := (isQuote_of_closerOf? hkind).1
  simp [mark, Mode.isCode, Mode.next, hq]

theorem exists_drop_eq (hat : text[place]? = some opener) :
    ∃ tail, text.drop place = opener :: tail ∧ place + (tail.length + 1) = text.length := by
  obtain ⟨hlt, hget⟩ := List.getElem?_eq_some_iff.1 hat
  refine ⟨text.drop (place + 1), ?_, ?_⟩
  · rw [List.drop_eq_getElem_cons hlt, hget]
  · rw [List.length_drop]
    omega

/-! ### The least place -/

/-- Least numbers are the same from some number on that none is below. -/
theorem isLeast_add_iff {p q : Nat → Prop} (d : Nat) (hlow : ∀ k, p k → d ≤ k)
    (hp : ∀ k, p (d + k) ↔ q k) (n : Nat) :
    IsLeast {k | p k} n ↔ ∃ k, n = d + k ∧ IsLeast {k | q k} k := by
  constructor
  · rintro ⟨hn, hle⟩
    obtain ⟨k, rfl⟩ := Nat.exists_eq_add_of_le (hlow n hn)
    refine ⟨k, rfl, (hp k).1 hn, ?_⟩
    intro i hi
    have := hle ((hp i).2 hi)
    omega
  · rintro ⟨k, rfl, hk, hle⟩
    refine ⟨(hp k).2 hk, ?_⟩
    intro i hi
    obtain ⟨j, rfl⟩ := Nat.exists_eq_add_of_le (hlow i hi)
    have := hle ((hp j).1 hi)
    omega

/-- Up to a character, as many brackets of a kind are closed as are opened or were open before. -/
def ClosesAt (opener closer : Char) (depth : Nat) (ms : List (Char × Bool)) (k : Nat) : Prop :=
  k < ms.length ∧
    depth + (ms.take (k + 1)).count (opener, true) = (ms.take (k + 1)).count (closer, true)

/-- Behind the first character the brackets are counted on, unless they are balanced there. -/
theorem isLeast_closesAt_cons {next : Nat} {marked : Char × Bool} (hpos : 0 < next)
    (hnext : next + [marked].count (closer, true) = depth + [marked].count (opener, true)) (n : Nat) :
    IsLeast {k | ClosesAt opener closer depth (marked :: ms) k} n ↔
      ∃ k, n = 1 + k ∧ IsLeast {k | ClosesAt opener closer next ms k} k := by
  have hcount (b : Char) (k : Nat) : ((marked :: ms).take (k + 1)).count (b, true) =
      [marked].count (b, true) + (ms.take k).count (b, true) := by
    rw [List.take_succ_cons, ← List.singleton_append, List.count_append]
  apply isLeast_add_iff 1
  · rintro k ⟨-, hk⟩
    apply Nat.pos_of_ne_zero
    rintro rfl
    rw [hcount, hcount, List.take_zero, List.count_nil, List.count_nil] at hk
    omega
  · intro k
    unfold ClosesAt
    rw [Nat.add_comm 1 k, hcount, hcount, List.length_cons]
    omega

/-- Where the first character closes the last open bracket, no other place is the least one. -/
theorem isLeast_closesAt_zero (h : ClosesAt opener closer depth ms 0) (n : Nat) :
    IsLeast {k | ClosesAt opener closer depth ms k} n ↔ n = 0 := by
  constructor
  · intro hn
    exact Nat.le_zero.1 (hn.2 h)
  · rintro rfl
    exact ⟨h, fun _ _ => Nat.zero_le _⟩

/-- The bracket that is found is the first one at which the brackets of its kind are balanced. -/
theorem closeIn_eq_some_iff (hkind : closerOf? opener = some closer) (hd : 0 < depth)
    (ms : List (Char × Bool)) (n : Nat) :
    closeIn opener closer depth ms = some n ↔
      IsLeast {k | ClosesAt opener closer depth ms k} n := by
  have hne := closer_ne_opener hkind
  induction ms generalizing depth n with
  | nil =>
    constructor
    · intro h
      cases h
    · rintro ⟨⟨hlt, -⟩, -⟩
      exact absurd hlt (Nat.not_lt_zero n)
  | cons marked ms ih =>
    have step {next : Nat} (hpos : 0 < next)
        (hnext : next + [marked].count (closer, true) = depth + [marked].count (opener, true)) :
        (closeIn opener closer next ms).map (· + 1) = some n ↔
          IsLeast {k | ClosesAt opener closer depth (marked :: ms) k} n := by
      rw [isLeast_closesAt_cons hpos hnext, Option.map_eq_some_iff]
      constructor
      · rintro ⟨k, hk, rfl⟩
        exact ⟨k, Nat.add_comm k 1, (ih hpos k).1 hk⟩
      · rintro ⟨k, rfl, hk⟩
        exact ⟨k, (ih hpos k).2 hk, Nat.add_comm k 1⟩
    by_cases hopen : marked = (opener, true)
    · subst hopen
      rw [closeIn_opener]
      apply step (Nat.succ_pos depth)
      simp [hne.symm]
    · by_cases hclose : marked = (closer, true)
      · subst hclose
        rcases Nat.eq_or_lt_of_le hd with rfl | hmore
        · -- the last bracket that is open
          have hlast : ClosesAt opener closer 1 ((closer, true) :: ms) 0 := by
            refine ⟨Nat.succ_pos _, ?_⟩
            simp [hne]
          rw [closeIn_closer_one hne, isLeast_closesAt_zero hlast, Option.some_inj, eq_comm]
        · rw [closeIn_closer hne hmore]
          apply step
          · omega
          · simp [hne]
            omega
      · have hskip : marked.2 = false ∨ marked.1 ≠ opener ∧ marked.1 ≠ closer := by
          obtain ⟨c, isCode⟩ := marked
          cases isCode with
          | false => exact .inl rfl
          | true => exact .inr ⟨fun hc => hopen (by rw [← hc]), fun hc => hclose (by rw [← hc])⟩
        rw [closeIn_skip depth hskip]
        apply step hd
        rw [List.count_singleton, List.count_singleton, if_neg (by simpa using hclose),
          if_neg (by simpa using hopen)]

theorem exists_isLeast {p : Nat → Prop} {k : Nat} (h : p k) : ∃ n, IsLeast {k | p k} n := by
  classical
  have hex : ∃ n, p n := ⟨k, h⟩
  exact ⟨Nat.find hex, Nat.find_spec hex, fun i hi => Nat.find_min' hex hi⟩

/-! ### The closing bracket of a place -/

/-- Between two places, as many brackets of a kind are closed as are opened, literals apart. -/
def IsBalanced (opener closer : Char) (text : List Char) (place k : Nat) : Prop :=
  place < k ∧ k < text.length ∧
    countInCode opener (excerpt text place k) = countInCode closer (excerpt text place k)

variable {tail : List Char}

theorem excerpt_eq (htail : text.drop place = opener :: tail) (k : Nat) :
    excerpt text place (place + k) = opener :: tail.take k := by
  have hlength : place + k + 1 - place = k + 1 := by omega
  rw [excerpt, htail, hlength, List.take_succ_cons]

/-- The places at which a kind of bracket is balanced are those at which one open bracket is
closed. -/
theorem isLeast_isBalanced_iff (hkind : closerOf? opener = some closer)
    (htail : text.drop place = opener :: tail)
    (hlength : place + (tail.length + 1) = text.length) (last : Nat) :
    IsLeast {k | IsBalanced opener closer text place k} last ↔
      ∃ n, last = place + 1 + n ∧ IsLeast {k | ClosesAt opener closer 1 (mark .code tail) k} n := by
  have hne := closer_ne_opener hkind
  apply isLeast_add_iff (place + 1)
  · intro k hk
    exact hk.1
  · intro k
    have hopened : countInCode opener (excerpt text place (place + 1 + k)) =
        1 + ((mark .code tail).take (k + 1)).count (opener, true) := by
      rw [Nat.add_assoc, Nat.add_comm 1 k, excerpt_eq htail, countInCode, mark_opener hkind,
        mark_take, List.count_cons_self, Nat.add_comm]
    have hclosed : countInCode closer (excerpt text place (place + 1 + k)) =
        ((mark .code tail).take (k + 1)).count (closer, true) := by
      rw [Nat.add_assoc, Nat.add_comm 1 k, excerpt_eq htail, countInCode, mark_opener hkind,
        mark_take, List.count_cons_of_ne]
      intro he
      cases he
      exact hne rfl
    unfold IsBalanced ClosesAt
    rw [hopened, hclosed, length_mark]
    omega

theorem closingAt_eq (hkind : closerOf? opener = some closer)
    (htail : text.drop place = opener :: tail)
    (hlength : place + (tail.length + 1) = text.length) :
    closingAt text place = .ok (match closeIn opener closer 1 (mark .code tail) with
      | some n => (place + 1 + n : Nat)
      | none => -1) := by
  have hclosing : closing? (opener :: tail) =
      (closeIn opener closer 1 (mark .code tail)).map (· + 1) := by
    simp only [closing?, hkind, Option.bind_some]
    rw [mark_opener hkind, closeIn_opener]
  have hrange : ¬ ((text.length : Int) ≤ place ∨ (place : Int) < -text.length) := by omega
  unfold closingAt
  dsimp only
  rw [if_neg (by simpa using hrange), if_pos (Int.natCast_nonneg place), Int.toNat_natCast, htail]
  dsimp only
  rw [if_pos (isOpener_of_closerOf? hkind), hclosing]
  cases closeIn opener closer 1 (mark .code tail) with
  | none => rfl
  | some n =>
    show Except.ok ((place : Int) + (n + 1 : Nat)) = Except.ok ((place + 1 + n : Nat) : Int)
    congr 1
    omega

/-! ### Nested brackets -/

/-- In properly nested text the bracket that is found is the partner of the opening one. -/
theorem exists_inside (hkind : closerOf? opener = some closer)
    (hn : closeIn opener closer 1 (mark .code tail) = some n)
    (hnested : NestedMarks (fun _ => True) (mark .code (opener :: tail.take (n + 1)))) :
    tail.take (n + 1) = tail.take n ++ [closer] ∧ IsNested (fun _ => True) (tail.take n) := by
  rw [mark_opener hkind] at hnested
  generalize hmarks : mark .code (tail.take (n + 1)) = marks at hnested
  cases hnested with
  | plain ho _ _ _ =>
    rw [isOpener_of_closerOf? hkind] at ho
    cases ho
  | @bracket _ _ partner insideMarks ms hb hi _ =>
    obtain rfl : partner = closer := Option.some.inj (hb.symm.trans hkind)
    have hlt := closeIn_lt hn
    rw [length_mark] at hlt
    have hfound : n = insideMarks.length := by
      have hall := List.take_append_drop (n + 1) (mark .code tail)
      rw [← mark_take, hmarks, List.append_assoc, List.cons_append] at hall
      rw [← hall, closeIn_nested hkind Nat.one_pos hi,
        closeIn_closer_one (closer_ne_opener hkind)] at hn
      simpa using hn.symm
    have hlength := congrArg List.length hmarks
    rw [length_mark, List.length_take, List.length_append, List.length_cons] at hlength
    obtain rfl : ms = [] := by
      apply List.eq_nil_of_length_eq_zero
      omega
    have htake : tail.take (n + 1) = tail.take n ++ [tail[n]] := List.take_succ_eq_append_getElem hlt
    rw [htake, mark_append] at hmarks
    obtain ⟨hinside, hlast⟩ := List.append_inj' hmarks rfl
    obtain ⟨hcloser, hcode⟩ := Prod.mk.inj (List.cons.inj hlast).1
    rw [htake, hcloser]
    refine ⟨rfl, ?_, ?_⟩
    · rwa [hinside]
    · simp only [Mode.isCode, Bool.and_eq_true, decide_eq_true_eq] at hcode
      exact hcode.1

/-- All scanners agree on the end of what a bracket opens: what is enclosed is balanced and never
closes more than it opens; all brackets together are balanced there first; and there first a separator
cuts. -/
structure EndsBody (text : List Char) (place last : Nat) : Prop where
  delta_eq : depthDelta (excerpt text (place + 1) (last - 1)) = 0
  delta_nonneg : ∀ n, 0 ≤ depthDelta ((excerpt text (place + 1) (last - 1)).take n)
  depth_isLeast :
    IsLeast {k | place ≤ k ∧ k < text.length ∧ depthDelta (excerpt text place k) = 0} last
  part_isLeast : ∀ separators separator, isNeutral separator = true → separator ∈ separators →
    IsLeast {k | place ≤ k ∧ k < text.length ∧
      EndsPart separators separator (excerpt text place k)} last

/-- The beginnings of nested text do not close more than they open. -/
theorem IsNested.depthDelta_take {top : Char → Prop} (h : IsNested top inside) (n : Nat) :
    0 ≤ depthDelta (inside.take n) := by
  show 0 ≤ marksDelta (mark .code (inside.take n))
  rw [mark_take]
  exact h.marks.delta_nonneg (List.take_append_drop n _).symm

theorem depthDelta_excerpt_pos (hkind : closerOf? opener = some closer)
    (htail : text.drop place = opener :: tail) {top : Char → Prop} (hinside : IsNested top (tail.take n))
    {k : Nat} (hk : place ≤ k) (hkn : k < place + 1 + n) : 0 < depthDelta (excerpt text place k) := by
  obtain ⟨i, rfl⟩ := Nat.exists_eq_add_of_le hk
  have hbefore := hinside.depthDelta_take i
  rw [List.take_take, Nat.min_eq_left (by omega)] at hbefore
  rw [excerpt_eq htail]
  show 0 < marksDelta (mark .code (opener :: tail.take i))
  rw [mark_opener hkind, marksDelta_cons, (depthStep_bracket hkind).1]
  show 0 < 1 + depthDelta (tail.take i)
  omega

/-- A property of text without an open bracket holds first where the bracket is closed, if it holds
there. -/
theorem isLeast_of_open {last : Nat} {p : List Char → Prop} (hle : ∀ cs, p cs → depthDelta cs ≤ 0)
    (hopen : ∀ k, place ≤ k → k < last → 0 < depthDelta (excerpt text place k))
    (hplace : place ≤ last) (hlast : last < text.length) (hp : p (excerpt text place last)) :
    IsLeast {k | place ≤ k ∧ k < text.length ∧ p (excerpt text place k)} last := by
  refine ⟨⟨hplace, hlast, hp⟩, ?_⟩
  rintro k ⟨hk, -, hpk⟩
  apply Nat.le_of_not_lt
  intro hkn
  have hpos := hopen k hk hkn
  have hnonpos := hle _ hpk
  omega

theorem endsBody_of_nested (hkind : closerOf? opener = some closer)
    (htail : text.drop place = opener :: tail)
    (hlength : place + (tail.length + 1) = text.length)
    (hn : closeIn opener closer 1 (mark .code tail) = some n)
    (hnested : NestedMarks (fun _ => True) (mark .code (opener :: tail.take (n + 1)))) :
    EndsBody text place (place + 1 + n) := by
  obtain ⟨htake, hinside⟩ := exists_inside hkind hn hnested
  have hlt := closeIn_lt hn
  rw [length_mark] at hlt
  have henclosed : excerpt text (place + 1) (place + 1 + n - 1) = tail.take n := by
    have hcount : place + 1 + n - 1 + 1 - (place + 1) = n := by omega
    rw [excerpt, hcount, ← List.drop_drop, htail]
    rfl
  have hbody : IsNested (fun _ => True) (excerpt text place (place + 1 + n)) := by
    rw [Nat.add_assoc, Nat.add_comm 1 n, excerpt_eq htail, htake]
    exact hinside.bracket hkind
  have hopen : ∀ k, place ≤ k → k < place + 1 + n → 0 < depthDelta (excerpt text place k) :=
    fun _ => depthDelta_excerpt_pos hkind htail hinside
  refine ⟨?_, ?_, ?_, ?_⟩
  · rw [henclosed]
    exact marksDelta_nested hinside.marks
  · intro i
    rw [henclosed]
    exact hinside.depthDelta_take i
  · apply isLeast_of_open (fun _ hzero => Int.le_of_eq hzero) hopen (by omega) (by omega)
    exact marksDelta_nested hbody.marks
  · intro separators separator hc hs
    refine isLeast_of_open (fun cs hends => ?_) hopen (by omega) (by omega) ?_
    · rw [endsPart_iff hc hs] at hends
      exact hends.depthDelta_le
    · rw [endsPart_iff hc hs]
      exact hbody.endsAtTop

/-- From an opening bracket on, the closing bracket that is found is at the least place at which the
brackets of its kind are balanced, and none is found exactly if they are balanced nowhere.  If the
brackets of all kinds are properly nested up to there, counting them together and splitting find the
same end. -/
theorem closingAt_isLeast (hat : text[place]? = some opener)
    (hkind : closerOf? opener = some closer) :
    (∀ last : Nat, closingAt text place = .ok last ↔
      IsLeast {k | IsBalanced opener closer text place k} last) ∧
    (closingAt text place = .ok (-1) ↔ ∀ k, ¬ IsBalanced opener closer text place k) ∧
    ∀ last : Nat, closingAt text place = .ok last →
      NestedMarks (fun _ => True) (mark .code (excerpt text place last)) →
      EndsBody text place last := by
  obtain ⟨tail, htail, hlength⟩ := exists_drop_eq hat
  have hclosing := closingAt_eq hkind htail hlength
  have hleast := isLeast_isBalanced_iff hkind htail hlength
  have hfound (last : Nat) : closingAt text place = .ok last ↔
      ∃ n, last = place + 1 + n ∧ closeIn opener closer 1 (mark .code tail) = some n := by
    rw [hclosing]
    cases closeIn opener closer 1 (mark .code tail) with
    | none => simp
    | some n =>
      simp only [Except.ok.injEq, Option.some.injEq, Int.natCast_inj]
      constructor
      · intro h
        exact ⟨n, h.symm, rfl⟩
      · rintro ⟨_, h, rfl⟩
        exact h.symm
  have hsome (last : Nat) : closingAt text place = .ok last ↔
      IsLeast {k | IsBalanced opener closer text place k} last := by
    rw [hfound, hleast]
    simp only [closeIn_eq_some_iff hkind Nat.one_pos]
  refine ⟨hsome, ?_, ?_⟩
  · constructor
    · intro hnone k hk
      obtain ⟨last, hl⟩ := exists_isLeast hk
      have hlast := (hsome last).2 hl
      rw [hnone] at hlast
      have hneg := Except.ok.inj hlast
      omega
    · intro hnone
      rw [hclosing]
      cases hn : closeIn opener closer 1 (mark .code tail) with
      | none => rfl
      | some n =>
        have hl := (hsome (place + 1 + n)).1 ((hfound _).2 ⟨n, rfl, hn⟩)
        exact absurd hl.1 (hnone _)
  · intro last hlast hnested
    obtain ⟨n, rfl, hn⟩ := (hfound last).1 hlast
    rw [Nat.add_assoc, Nat.add_comm 1 n, excerpt_eq htail] at hnested
    exact endsBody_of_nested hkind htail hlength hn hnested

/-- A struct with a bracket of another kind and a literal with a closing bracket in its body. -/
def structLine : List Char := "p struct\x7ba []int; b string \x60json:\"\x7d\"\x60\x7d // \x7d".toList

theorem isNested_structLine : IsNested (fun _ => True) (excerpt structLine 8 37) := by
  have hplain (cs : List Char)
      (h : ∀ c ∈ cs, isQuote c = false ∧ isOpener c = false ∧ isCloser c = false) :
      IsNested (fun _ => True) cs :=
    .of_plain fun c hc => ⟨(h c hc).1, (h c hc).2.1, (h c hc).2.2, trivial⟩
  have hempty : IsNested (fun _ => True) [] := .nil
  have harray : IsNested (fun _ => True) ('[' :: ([] ++ ']' :: "int; b string ".toList)) :=
    .bracket_append rfl hempty (hplain _ (by decide))
  have htag : IsNested (fun _ => True) ('\x60' :: ("json:\"\x7d\"".toList ++ ['\x60'])) :=
    .rawLiteral (by decide)
  have hbody := ((hplain "a ".toList (by decide)).append harray).append htag
  exact .bracket rfl hbody

theorem closingAt_isLeast_structLine :
    structLine[8]? = some '\x7b' ∧ closerOf? '\x7b' = some '\x7d' ∧
    closingAt structLine 8 = .ok 37 ∧
    NestedMarks (fun _ => True) (mark .code (excerpt structLine 8 37)) ∧
    IsLeast {k | IsBalanced '\x7b' '\x7d' structLine 8 k} 37 ∧ EndsBody structLine 8 37 := by
  have hat : structLine[8]? = some '\x7b' := by decide
  have hkind : closerOf? '\x7b' = some '\x7d' := rfl
  have hclosing : closingAt structLine 8 = .ok 37 := by decide +kernel
  have hnested := isNested_structLine.marks
  obtain ⟨hfound, -, hends⟩ := closingAt_isLeast hat hkind
  exact ⟨hat, hkind, hclosing, hnested, (hfound 37).1 hclosing, hends 37 hclosing hnested⟩

end StructLayout.Source
