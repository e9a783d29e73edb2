/-!
# What there is room for

A program that descends into nested data by calling itself gives up where its stack is full, and one
that draws gives up where no memory is left.  Both depend on the machine and on what called the
program, so a run takes its limits as an argument, a number for each kind of descent.
-/

namespace StructLayout

/-- How far a run can go before it gives up: the levels for sizing a type, the lists and objects nested
in each other that a document may hold and that can be shown, the room for those of a settings file,
and the times that a cell can be drawn.  What has been read can be shown. -/
structure Limits where
  sizing : Nat
  reading : Nat
  showing : Nat
  settings : Nat
  drawing : Nat
  reading_le_showing : reading ≤ showing := by decide
deriving DecidableEq, Repr

def Limits.uniform (n : Nat) : Limits where
  sizing := n
  reading := n
  showing := n
  settings := n
  drawing := n
  reading_le_showing := Nat.le_refl n

end StructLayout
