import Mathlib.Algebra.Ring.Nat
import Mathlib.Data.List.Induction
import StructLayout.Limits
import StructLayout.Proofs.Json.RoundTrip

/-!
# What is read as JSON can be shown

The reader refuses what could not be written again: an integer of too many digits, and a list or object
that is nested too deeply.  A number of some digits is written with no more than these
(`length_natDigits_le`), and what is read with some room for nesting does not use up more
(`givesShown`).  The main statement is `requireShowable_of_parse`.
-/

namespace StructLayout

/-- A value without too long integers and with a bounded nesting. -/
def Value.IsShownWithin (room : Nat) (v : Value) : Prop := v.isShowable = true ∧ v.nesting ≤ room

theorem Value.isShownWithin_list {room : Nat} {elements : List Value}
    (h : ∀ v ∈ elements, v.IsShownWithin room) : (Value.list elements).IsShownWithin (room + 1) := by
  constructor
  · exact (areShowable_iff elements).2 fun v hv => (h v hv).1
  · exact (nesting_list_le_iff elements room).2 fun v hv => (h v hv).2

theorem Value.isShownWithin_object {room : Nat} {members : Members}
    (h : ∀ m ∈ members, m.2.IsShownWithin room) : (Value.object members).IsShownWithin (room + 1) := by
  constructor
  · exact (areMembersShowable_iff members).2 fun m hm => (h m hm).1
  · exact (nesting_object_le_iff members room).2 fun m hm => (h m hm).2

/-- Setting a member keeps what holds of all values of members. -/
theorem Members.forall_mem_insert {P : Value → Prop} {members : Members} (key : String) {v : Value}
    (hv : P v) (h : ∀ m ∈ members, P m.2) : ∀ m ∈ members.insert key v, P m.2 := by
  induction members with
  | nil => simpa [insert] using hv
  | cons entry rest ih =>
      obtain ⟨hentry, hrest⟩ := List.forall_mem_cons.1 h
      rw [insert]
      split
      · exact List.forall_mem_cons.2 ⟨hv, hrest⟩
      · exact List.forall_mem_cons.2 ⟨hentry, ih hrest⟩

namespace Json

open Text

/-- What a result is turned into comes from that result. -/
theorem exists_of_map_eq_ok {α β : Type} {f : α → β} {r : Except Flaw α} {b : β}
    (h : r.map f = .ok b) : ∃ a, r = .ok a ∧ f a = b := by
  cases r with
  | error flaw => cases h
  | ok a => exact ⟨a, rfl, Except.ok.inj h⟩

/-! ### Integers -/

/-- Some digits stand for a number below the power of ten of their count. -/
theorem digitsValue_lt {digits : List Char} (h : ∀ c ∈ digits, isAsciiDigit c = true) :
    digitsValue digits < 10 ^ digits.length := by
  induction digits using List.reverseRecOn with
  | nil => simp [digitsValue]
  | append_singleton digits c ih =>
      have hc : c.toNat - '0'.toNat < 10 := by
        have hc := h c (by simp)
        simp only [isAsciiDigit, Bool.and_eq_true, decide_eq_true_eq] at hc
        have hle : c.toNat ≤ '9'.toNat := hc.2
        have h9 : '9'.toNat = '0'.toNat + 9 := rfl
        omega
      have hlt := ih fun d hd => h d (by simp [hd])
      simp only [digitsValue, List.foldl_append, List.foldl_cons, List.foldl_nil, List.length_append,
        List.length_singleton, Nat.pow_succ] at hlt ⊢
      omega

theorem length_natDigits_le {digits : List Char} (hd : digits ≠ [])
    (h : ∀ c ∈ digits, isAsciiDigit c = true) :
    (natDigits (digitsValue digits)).length ≤ digits.length := by
  have hpos : 0 < digits.length := List.length_pos_iff.2 hd
  exact (Nat.length_toDigits_le_iff (by decide) hpos).2 (digitsValue_lt h)

theorem isShownWithin_of_integer {negative : Bool} {digits : List Char} {v : Value}
    (hd : digits ≠ []) (h : ∀ c ∈ digits, isAsciiDigit c = true)
    (hv : integer negative digits = .ok v) : v.IsShownWithin 0 := by
  unfold integer at hv
  split at hv
  · cases hv
  · next hlimit =>
      cases hv
      have hlen := Nat.le_trans (length_natDigits_le hd h) (Nat.not_lt.1 hlimit)
      refine ⟨decide_eq_true ?_, Nat.le_refl 0⟩
      cases negative
      · exact hlen
      · simpa using hlen

theorem digits_of_readWhole {cs digits rest : List Char} (h : readWhole cs = some (digits, rest)) :
    digits ≠ [] ∧ ∀ c ∈ digits, isAsciiDigit c = true := by
  unfold readWhole at h
  split at h
  · cases h
    decide
  · dsimp only at h
    split at h
    · cases h
    · next hne =>
        cases h
        exact ⟨by simpa using hne, List.all_eq_true.1 List.all_takeWhile⟩

theorem isShownWithin_of_readMagnitude {negative : Bool} {cs rest : List Char} {v : Value}
    (h : readMagnitude negative cs = .ok (v, rest)) : v.IsShownWithin 0 := by
  unfold readMagnitude at h
  split at h
  · cases h
  · next whole after hw =>
      obtain ⟨hne, hdigits⟩ := digits_of_readWhole hw
      dsimp only at h
      split at h
      · obtain ⟨w, hi, heq⟩ := exists_of_map_eq_ok h
        cases heq
        exact isShownWithin_of_integer hne hdigits hi
      · cases h
        exact ⟨rfl, Nat.le_refl 0⟩

theorem isShownWithin_of_readScalar {cs rest : List Char} {v : Value}
    (h : readScalar cs = .ok (v, rest)) : v.IsShownWithin 0 := by
  unfold readScalar at h
  split at h
  · next r hr =>
      cases h
      obtain ⟨entry, hentry, hword⟩ := List.exists_of_findSome?_eq_some hr
      obtain ⟨after, -, hafter⟩ := Option.map_eq_some_iff.1 hword
      cases hafter
      have hwords : ∀ entry ∈ words, entry.2.isShowable = true ∧ entry.2.nesting = 0 := by decide
      exact ⟨(hwords entry hentry).1, Nat.le_of_eq (hwords entry hentry).2⟩
  · split at h
    · next body _ =>
        cases hs : readString body with
        | none => rw [hs] at h; cases h
        | some r =>
            rw [hs] at h
            cases h
            exact ⟨rfl, Nat.le_refl 0⟩
    · exact isShownWithin_of_readMagnitude h
    · exact isShownWithin_of_readMagnitude h

/-! ### Values -/

theorem exists_room_of_within {room : Nat} {kind : String} {read : Nat → Parse Value}
    {r : Value × List Char} (h : within room kind read = .ok r) :
    ∃ less, room = less + 1 ∧ read less = .ok r := by
  cases room with
  | zero => cases h
  | succ less => exact ⟨less, rfl, h⟩

/-- What the readers of values, elements and members give, with some fuel, can be shown. -/
structure GivesShown (fuel : Nat) : Prop where
  value : ∀ room cs v rest, readValue fuel room cs = .ok (v, rest) → v.IsShownWithin room
  elements : ∀ room cs vs rest, readElements fuel room cs = .ok (vs, rest) →
    ∀ v ∈ vs, v.IsShownWithin room
  members : ∀ room acc cs ms rest, readMembers fuel room acc cs = .ok (ms, rest) →
    (∀ m ∈ acc, m.2.IsShownWithin room) → ∀ m ∈ ms, m.2.IsShownWithin room

namespace GivesShown

variable {fuel room : Nat} {cs rest : List Char}

theorem value_succ (ih : GivesShown fuel) {v : Value}
    (h : readValue (fuel + 1) room cs = .ok (v, rest)) : v.IsShownWithin room := by
  unfold readValue at h
  split at h
  · next body =>
    obtain ⟨less, rfl, hread⟩ := exists_room_of_within h
    clear h
    split at hread
    · cases hread
      exact Value.isShownWithin_list (List.forall_mem_nil _)
    · obtain ⟨r, hr, heq⟩ := exists_of_map_eq_ok hread
      cases heq
      exact Value.isShownWithin_list (ih.elements _ _ _ _ hr)
  · next body =>
    obtain ⟨less, rfl, hread⟩ := exists_room_of_within h
    clear h
    split at hread
    · cases hread
      exact Value.isShownWithin_object (List.forall_mem_nil _)
    · obtain ⟨r, hr, heq⟩ := exists_of_map_eq_ok hread
      cases heq
      exact Value.isShownWithin_object (ih.members _ _ _ _ _ hr (List.forall_mem_nil _))
  · have hs := isShownWithin_of_readScalar h
    exact ⟨hs.1, Nat.le_trans hs.2 (Nat.zero_le room)⟩

theorem elements_succ (ih : GivesShown fuel) {vs : List Value}
    (h : readElements (fuel + 1) room cs = .ok (vs, rest)) : ∀ v ∈ vs, v.IsShownWithin room := by
  unfold readElements at h
  split at h
  · cases h
  · next v after hv =>
    have hhead := ih.value _ _ _ _ hv
    split at h
    · cases h
      exact List.forall_mem_singleton.2 hhead
    · next more _ =>
      obtain ⟨r, hr, heq⟩ := exists_of_map_eq_ok h
      cases heq
      exact List.forall_mem_cons.2 ⟨hhead, ih.elements _ _ _ _ hr⟩
    · cases h

theorem members_succ (ih : GivesShown fuel) {acc ms : Members}
    (h : readMembers (fuel + 1) room acc cs = .ok (ms, rest))
    (hacc : ∀ m ∈ acc, m.2.IsShownWithin room) : ∀ m ∈ ms, m.2.IsShownWithin room := by
  unfold readMembers at h
  split at h
  · split at h
    · cases h
    · split at h
      · split at h
        · cases h
        · next v after hv =>
          have hmore (key : String) := Members.forall_mem_insert key (ih.value _ _ _ _ hv) hacc
          dsimp only at h
          split at h
          · cases h
            exact hmore _
          · exact ih.members _ _ _ _ _ h (hmore _)
          · cases h
      · cases h
  · cases h

end GivesShown

theorem givesShown (fuel : Nat) : GivesShown fuel := by
  induction fuel with
  | zero =>
      constructor
      · intro room cs v rest h
        cases h
      · intro room cs vs rest h
        cases h
      · intro room acc cs ms rest h
        cases h
  | succ fuel ih =>
      exact ⟨fun _ _ _ _ => ih.value_succ, fun _ _ _ _ => ih.elements_succ,
        fun _ _ _ _ _ => ih.members_succ⟩

/-- **What is read as JSON can be shown.** -/
theorem requireShowable_of_parse (limits : Limits) {text : String} {v : Value}
    (h : parse limits.reading text = .ok v) : v.requireShowable limits.showing = .ok v := by
  unfold parse at h
  dsimp only at h
  split at h
  · next rest hw =>
    split at h
    · cases h
      have hs := (givesShown _).value _ _ _ _ hw
      have hn : ¬ limits.showing < v.nesting :=
        Nat.not_lt.2 (Nat.le_trans hs.2 limits.reading_le_showing)
      rw [Value.requireShowable, if_neg hn, if_pos hs.1]
    · cases h
  · cases h

end Json

end StructLayout
