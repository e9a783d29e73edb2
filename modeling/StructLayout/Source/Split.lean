import StructLayout.Source.Bracket
import StructLayout.Text.Blank
import StructLayout.Text.Lines

/-!
# Splitting at top level

A text is split at separators that are code and stand outside all brackets; a closing bracket
without an opening one is ignored.  Parts are trimmed, and empty ones dropped.  Every part is taken
from the text in order (`splitTopLevel_sublist`).
-/

namespace StructLayout.Source

/-- The raw parts of a marked text, given how deep it is nested at the start. -/
def cutParts (separators : List Char) : Nat → List (Char × Bool) → List (List Char)
  | _, [] => [[]]
  | depth, (c, isCode) :: rest =>
    if isCode && isOpener c then Text.consHead c (cutParts separators (depth + 1) rest)
    else if isCode && isCloser c then Text.consHead c (cutParts separators (depth - 1) rest)
    else if isCode && depth = 0 && separators.contains c then [] :: cutParts separators 0 rest
    else Text.consHead c (cutParts separators depth rest)

def splitTopLevel (separators text : List Char) : List (List Char) :=
  ((cutParts separators 0 (mark .code text)).map Text.trim).filter fun part => !part.isEmpty

/-- The separators between the entries of a struct body. -/
def entrySeparators : List Char := [';', '\n']

/-- The raw parts, joined, are the text without some of its characters. -/
theorem flatten_cutParts_sublist (separators : List Char) (depth : Nat) (ms : List (Char × Bool)) :
    (cutParts separators depth ms).flatten.Sublist (ms.map Prod.fst) := by
  induction ms generalizing depth with
  | nil => simp [cutParts]
  | cons m rest ih =>
    obtain ⟨c, isCode⟩ := m
    unfold cutParts
    split
    · simpa [Text.flatten_consHead] using ih (depth + 1)
    · split
      · simpa [Text.flatten_consHead] using ih (depth - 1)
      · split
        · simpa using (ih 0).cons c
        · simpa [Text.flatten_consHead] using ih depth

/-- Every part is taken from the text in order. -/
theorem splitTopLevel_sublist {separators text part : List Char}
    (h : part ∈ splitTopLevel separators text) : part.Sublist text := by
  simp only [splitTopLevel, List.mem_filter, List.mem_map] at h
  obtain ⟨⟨raw, hr, rfl⟩, _⟩ := h
  have hs := flatten_cutParts_sublist separators 0 (mark .code text)
  rw [map_fst_mark] at hs
  exact (Text.trim_sublist raw).trans ((List.sublist_flatten_of_mem hr).trans hs)

end StructLayout.Source
