import StructLayout.Error
import StructLayout.Source.Literal

/-!
# Brackets in source text

Brackets count only in code, not inside literals.  `depthDelta` is the net change of nesting over a
text, all three kinds of bracket taken together; `closing?` finds the bracket that closes the one a
text starts with, looking only at brackets of that kind.  The main statement says that the found
bracket is a later character of the text (`closing?_lt`).
-/

namespace StructLayout.Source

/-- The bracket that closes an opening bracket. -/
def closerOf? (c : Char) : Option Char :=
  if c = '(' then some ')' else if c = '[' then some ']' else if c = '\x7b' then some '\x7d'
  else none

def isOpener (c : Char) : Bool := c = '(' || c = '[' || c = '\x7b'

def isCloser (c : Char) : Bool := c = ')' || c = ']' || c = '\x7d'

/-- The change of nesting at a character. -/
def depthStep (marked : Char × Bool) : Int :=
  if marked.2 && isOpener marked.1 then 1
  else if marked.2 && isCloser marked.1 then -1
  else 0

/-- The net change of nesting over a text. -/
def depthDelta (cs : List Char) : Int :=
  (mark .code cs).foldr (fun marked depth => depthStep marked + depth) 0

/-- How many characters stand before the bracket that brings the nesting of one kind back to zero,
given how deep it is at the start. -/
def closeIn (opener closer : Char) : Nat → List (Char × Bool) → Option Nat
  | _, [] => none
  | depth, (c, isCode) :: rest =>
    if isCode && c = opener then (closeIn opener closer (depth + 1) rest).map (· + 1)
    else if isCode && c = closer then
      if depth ≤ 1 then some 0 else (closeIn opener closer (depth - 1) rest).map (· + 1)
    else (closeIn opener closer depth rest).map (· + 1)

/-- How many characters stand before the bracket that closes the one at the start of a text. -/
def closing? (cs : List Char) : Option Nat :=
  match cs with
  | [] => none
  | c :: _ => (closerOf? c).bind fun closer => closeIn c closer 0 (mark .code cs)

/-- What stands between the bracket at the start of a text and the one that closes it, and what
stands behind that. -/
def enclosed? (cs : List Char) : Option (List Char × List Char) :=
  (closing? cs).map fun n => ((cs.take n).drop 1, cs.drop (n + 1))

/-- The place of the bracket that closes the one at a place, or `-1` if there is none.  A negative
place counts from the end, and from there the text is read on from its start. -/
def closingAt (cs : List Char) (place : Int) : Except Fault Int :=
  let length : Int := cs.length
  if length ≤ place || place < -length then .error .outOfRange
  else
    let tail := if 0 ≤ place then cs.drop place.toNat else cs.drop (length + place).toNat ++ cs
    match tail with
    | [] => .error .outOfRange
    | c :: _ =>
      if isOpener c then
        match closing? tail with
        | some n => .ok (place + n)
        | none => .ok (-1)
      else .error .notABracket

/-! ### Small facts -/

theorem closeIn_lt {opener closer : Char} {depth n : Nat} {ms : List (Char × Bool)}
    (h : closeIn opener closer depth ms = some n) : n < ms.length := by
  induction ms generalizing depth n with
  | nil => cases h
  | cons m rest ih =>
    obtain ⟨c, isCode⟩ := m
    have step {d : Nat} (hd : (closeIn opener closer d rest).map (· + 1) = some n) :
        n < ((c, isCode) :: rest).length := by
      obtain ⟨k, hk, rfl⟩ := Option.map_eq_some_iff.1 hd
      have := ih hk
      simp only [List.length_cons]
      omega
    unfold closeIn at h
    split at h
    · exact step h
    · split at h
      · split at h
        · cases h
          simp
        · exact step h
      · exact step h

/-- The closing bracket is a character of the text. -/
theorem closing?_lt {cs : List Char} {n : Nat} (h : closing? cs = some n) : n < cs.length := by
  unfold closing? at h
  split at h
  · cases h
  · next c rest =>
    obtain ⟨closer, _, hc⟩ := Option.bind_eq_some_iff.1 h
    simpa using closeIn_lt hc

/-- What is enclosed, and what follows, is shorter than the text by two characters together. -/
theorem enclosed?_sublist {cs inside after : List Char} (h : enclosed? cs = some (inside, after)) :
    (inside ++ after).Sublist (cs.drop 1) := by
  obtain ⟨n, hn, he⟩ := Option.map_eq_some_iff.1 h
  cases he
  have hl := closing?_lt hn
  cases cs with
  | nil => simp at hl
  | cons c rest =>
    cases n with
    | zero => simp
    | succ n =>
      have hs : (rest.take n ++ rest.drop (n + 1)).Sublist (rest.take n ++ rest.drop n) :=
        (List.drop_sublist_drop_left rest (Nat.le_succ n)).append_left _
      simpa using hs

end StructLayout.Source
