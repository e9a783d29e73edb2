import StructLayout.Error

/-!
# Printing piece by piece

A listing is a sequence of pieces, and whoever prints it decides what each of them adds to the page.
Printing stops at the first piece that fails.  A listing with a text has printed all of it
(`shown_of_text`).
-/

namespace StructLayout.Output

/-- A piece of a listing: a line of marked-up text, or a rule with a title. -/
inductive Piece where
  | line (markup : String)
  | rule (title : String)
deriving DecidableEq, Repr

/-- What prints a listing.  It has its own way to make text literal, and refuses what it takes for
flawed markup. -/
structure Printer where
  escape : String → String
  line : String → Except Fault String
  rule : String → Except Fault String
deriving Inhabited

def Printer.print (printer : Printer) : Piece → Except Fault String
  | .line markup => printer.line markup
  | .rule title => printer.rule title

/-- A listing: the pieces to print, or why there is none. -/
abbrev Listing := List (Outcome Piece)

namespace Listing

/-- What comes of a value, or the failure to get it. -/
def attempt {α : Type} (r : Outcome α) (next : α → Listing) : Listing :=
  match r with
  | .ok a => next a
  | .error e => [.error e]

def reached (printer : Printer) : Listing → List String × Option Failure
  | [] => ([], none)
  | piece :: rest =>
    match piece.bind fun p => Outcome.ofFault (printer.print p) with
    | .ok s => (s :: (reached printer rest).1, (reached printer rest).2)
    | .error e => ([], some e)

/-- What is on the page when printing stops, and why it stops early if it does. -/
def shown (printer : Printer) (l : Listing) : String × Option Failure :=
  (String.join (l.reached printer).1, (l.reached printer).2)

def text (printer : Printer) (l : Listing) : Outcome String :=
  match l.shown printer with
  | (text, none) => .ok text
  | (_, some e) => .error e

variable {printer : Printer} {l : Listing}

theorem shown_of_text {text : String} (h : l.text printer = .ok text) :
    l.shown printer = (text, none) := by
  unfold Listing.text at h
  split at h
  · next hs => cases h; exact hs
  · cases h

theorem reached_append_ok (more : Listing) (h : (l.reached printer).2 = none) :
    reached printer (l ++ more) =
      ((l.reached printer).1 ++ (reached printer more).1, (reached printer more).2) := by
  induction l with
  | nil => rfl
  | cons piece rest ih =>
    simp only [List.cons_append, reached] at h ⊢
    split at h
    · next s hs => rw [ih h]; simp
    · cases h

/-- Printing goes on behind a listing only if that is printed to its end. -/
theorem reached_of_append {more : Listing} (h : (reached printer (l ++ more)).2 = none) :
    (l.reached printer).2 = none := by
  induction l with
  | nil => rfl
  | cons piece rest ih =>
    simp only [List.cons_append, reached] at h ⊢
    split at h
    · exact ih h
    · cases h

end Listing

end StructLayout.Output
