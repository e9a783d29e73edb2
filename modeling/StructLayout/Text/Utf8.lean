import StructLayout.Error

/-!
# Reading UTF-8

Bytes are read as UTF-8 in two ways: `decodeLossy` puts the replacement character in place of every
maximal sequence that cannot be the start of a character, and `decodeStrict` refuses such a sequence.
Line breaks of all conventions are brought to one form by `unifyNewlines`.  The main statement says
that unifying leaves no carriage return (`unifyNewlines_return`).
-/

namespace StructLayout.Text

/-- The range of the byte behind a lead byte, and how many more bytes the character has behind
that one; absent for a byte that leads nothing. -/
def leadRange? (lead : Nat) : Option (Nat × Nat × Nat) :=
  if 0xC2 ≤ lead && lead ≤ 0xDF then some (0x80, 0xBF, 0)
  else if lead = 0xE0 then some (0xA0, 0xBF, 1)
  else if lead = 0xED then some (0x80, 0x9F, 1)
  else if 0xE1 ≤ lead && lead ≤ 0xEF then some (0x80, 0xBF, 1)
  else if lead = 0xF0 then some (0x90, 0xBF, 2)
  else if 0xF1 ≤ lead && lead ≤ 0xF3 then some (0x80, 0xBF, 2)
  else if lead = 0xF4 then some (0x80, 0x8F, 2)
  else none

def leadBits (lead : Nat) : Nat :=
  if lead < 0xE0 then lead - 0xC0 else if lead < 0xF0 then lead - 0xE0 else lead - 0xF0

/-- The first character of a sequence of bytes, or why there is none; either way with the number of
bytes it takes up. -/
inductive Leading where
  | char (c : Char) (count : Nat)
  | bad (reason : String) (count : Nat)
deriving Repr

/-- Reads the bytes behind a lead byte: those still owed, the first of them in a range. -/
def readTail (low high : Nat) : Nat → Nat → Nat → List UInt8 → Leading
  | 0, value, count, _ => .char (Char.ofNat value) count
  | _ + 1, _, count, [] => .bad "unexpected end of data" count
  | owed + 1, value, count, b :: rest =>
    let n := b.toNat
    if low ≤ n && n ≤ high then readTail 0x80 0xBF owed (value * 64 + (n - 0x80)) (count + 1) rest
    else .bad "invalid continuation byte" count

/-- The first character of a sequence of bytes that starts with a given one. -/
def leading (b : UInt8) (rest : List UInt8) : Leading :=
  let n := b.toNat
  if n < 0x80 then .char (Char.ofNat n) 1
  else
    match leadRange? n with
    | some (low, high, more) => readTail low high (more + 1) (leadBits n) 1 rest
    | none => .bad "invalid start byte" 1

def replacement : Char := Char.ofNat 0xFFFD

/-- The characters of bytes, undecodable sequences replaced; `skip` bytes are already read. -/
def decodeLossyFrom : Nat → List UInt8 → List Char
  | _, [] => []
  | skip + 1, _ :: rest => decodeLossyFrom skip rest
  | 0, b :: rest =>
    match leading b rest with
    | .char c count => c :: decodeLossyFrom (count - 1) rest
    | .bad _ count => replacement :: decodeLossyFrom (count - 1) rest

/-- The characters of bytes, undecodable sequences replaced. -/
def decodeLossy (bytes : List UInt8) : List Char := decodeLossyFrom 0 bytes

/-- The characters of bytes that stand at a position; an undecodable sequence is refused. -/
def decodeStrictFrom (position : Nat) : Nat → List UInt8 → Except Fault (List Char)
  | _, [] => .ok []
  | skip + 1, _ :: rest => decodeStrictFrom (position + 1) skip rest
  | 0, b :: rest =>
    match leading b rest with
    | .char c count => (decodeStrictFrom (position + 1) (count - 1) rest).map (c :: ·)
    | .bad reason count => .error (.undecodable b.toNat position count reason)

/-- The characters of bytes; an undecodable sequence is refused. -/
def decodeStrict (bytes : List UInt8) : Except Fault (List Char) := decodeStrictFrom 0 0 bytes

/-- A text with every line break a line feed. -/
def unifyNewlines : List Char → List Char
  | '\r' :: '\n' :: rest => '\n' :: unifyNewlines rest
  | '\r' :: rest => '\n' :: unifyNewlines rest
  | c :: rest => c :: unifyNewlines rest
  | [] => []

theorem unifyNewlines_return (cs : List Char) : '\r' ∉ unifyNewlines cs := by
  fun_induction unifyNewlines cs with
  | case1 rest ih => simpa using ih
  | case2 rest _ ih => simpa using ih
  | case3 c rest _ hc ih =>
    simp only [List.mem_cons, not_or]
    exact ⟨fun h => hc h.symm, ih⟩
  | case4 => simp

end StructLayout.Text
