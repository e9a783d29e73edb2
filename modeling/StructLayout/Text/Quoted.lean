import StructLayout.Text.Printable

/-!
# Quoted text

A text in messages stands between single quotes, or between double quotes if it holds a single
quote and no double quote.  The quote in use and the backslash are escaped, line feed, carriage
return and tab have letters, and any other character without a visible form is written as two, four
or eight hexadecimal digits.  The main statement says that a text of plain characters is only put
between quotes (`quote_plain`).
-/

namespace StructLayout.Text

/-- A number in lower-case hexadecimal with at least `width` digits. -/
def hexadecimal (width n : Nat) : List Char :=
  let digits := Nat.toDigits 16 n
  List.replicate (width - digits.length) '0' ++ digits

/-- The quote to put around a text. -/
def quoteFor (cs : List Char) : Char :=
  if cs.contains '\'' && !cs.contains '"' then '"' else '\''

/-- One character inside a text quoted with `mark`. -/
def escapeFor (mark c : Char) : List Char :=
  if c = mark || c = '\\' then ['\\', c]
  else if c = '\n' then ['\\', 'n']
  else if c = '\r' then ['\\', 'r']
  else if c = '\t' then ['\\', 't']
  else if isPrintable c then [c]
  else if c.toNat < 0x100 then '\\' :: 'x' :: hexadecimal 2 c.toNat
  else if c.toNat < 0x10000 then '\\' :: 'u' :: hexadecimal 4 c.toNat
  else '\\' :: 'U' :: hexadecimal 8 c.toNat

/-- A text between quotes, with everything escaped that would not show. -/
def quoteChars (cs : List Char) : List Char :=
  let mark := quoteFor cs
  mark :: cs.flatMap (escapeFor mark) ++ [mark]

/-- A string between quotes, with everything escaped that would not show. -/
def quoted (s : String) : String := String.ofList (quoteChars s.toList)

/-- A character that stands for itself between single quotes. -/
def isPlain (c : Char) : Bool := c != '\'' && c != '\\' && isPrintable c

theorem isPrintable_newline : isPrintable '\n' = false := by decide

theorem isPrintable_return : isPrintable '\r' = false := by decide

theorem isPrintable_tab : isPrintable '\t' = false := by decide

theorem escapeFor_plain {c : Char} (h : isPlain c = true) : escapeFor '\'' c = [c] := by
  simp only [isPlain, Bool.and_eq_true, bne_iff_ne, ne_eq] at h
  obtain ⟨⟨hq, hb⟩, hp⟩ := h
  have hn : c ≠ '\n' := fun e => by simp [e, isPrintable_newline] at hp
  have hr : c ≠ '\r' := fun e => by simp [e, isPrintable_return] at hp
  have ht : c ≠ '\t' := fun e => by simp [e, isPrintable_tab] at hp
  simp [escapeFor, hq, hb, hn, hr, ht, hp]

/-- Plain characters are only put between quotes. -/
theorem quote_plain {cs : List Char} (h : ∀ c ∈ cs, isPlain c = true) :
    quoteChars cs = '\'' :: cs ++ ['\''] := by
  have hq : quoteFor cs = '\'' := by
    have hm : '\'' ∉ cs := fun hm => by simpa [isPlain] using h _ hm
    simp [quoteFor, hm]
  have hf : cs.flatMap (escapeFor '\'') = cs := by
    clear hq
    induction cs with
    | nil => rfl
    | cons c cs ih =>
      rw [List.flatMap_cons, escapeFor_plain (h c (by simp)), ih fun d hd => h d (by simp [hd])]
      rfl
  simp only [quoteChars, hq, hf]

end StructLayout.Text
