import StructLayout.Binary64.Arithmetic
import StructLayout.Value.Display

/-!
# Numbers of documents

For arithmetic a value has to be a number: an integer of any size, a truth value that counts as zero
or one, or a floating-point number.  Integers among themselves are exact; as soon as a
floating-point number takes part, the integer is converted to one, which fails if it is too large.
Comparisons are exact in all cases.

The main statements say that integers are added, subtracted and compared as such (`add_whole`,
`sub_whole`, `lt_whole`).
-/

namespace StructLayout

inductive Number where
  | whole (n : Int)
  | double (x : Binary64)
deriving DecidableEq, Repr, Inhabited

namespace Number

def ofValue (v : Value) : Except Fault Number :=
  match v with
  | .int n => .ok (.whole n)
  | .bool b => .ok (.whole (if b then 1 else 0))
  | .float x => .ok (.double x)
  | v => .error (.notNumeric v.kindName)

def toValue : Number → Value
  | .whole n => .int n
  | .double x => .float x

def toDouble : Number → Except Fault Binary64
  | .whole n =>
    match Binary64.ofInt n with
    | .infinite _ => .error .tooLargeForFloat
    | x => .ok x
  | .double x => .ok x

/-- Applies an operation on integers or, if one of the numbers is no integer, on floating-point
numbers. -/
def combine (onWhole : Int → Int → Int) (onDouble : Binary64 → Binary64 → Binary64)
    (a b : Number) : Except Fault Number :=
  match a, b with
  | .whole m, .whole n => .ok (.whole (onWhole m n))
  | a, b => do
    let x ← a.toDouble
    let y ← b.toDouble
    pure (.double (onDouble x y))

def add (a b : Number) : Except Fault Number := combine (· + ·) Binary64.add a b

def sub (a b : Number) : Except Fault Number := combine (· - ·) Binary64.sub a b

/-- The remainder after division by a positive number. -/
def mod (a b : Number) : Except Fault Number := combine (· % ·) Binary64.floorMod a b

def lt : Number → Number → Bool
  | .whole m, .whole n => m < n
  | .whole m, .double y => y.intLt m
  | .double x, .whole n => x.ltInt n
  | .double x, .double y => x.lt y

def isZero : Number → Bool
  | .whole n => n = 0
  | .double x => x.isZero

/-- Whether a number is zero or negative; not-a-number is neither. -/
def isNonPositive (a : Number) : Bool := a.isZero || a.lt (.whole 0)

/-- The greater of two numbers, the first one if they are equal. -/
def greater (a b : Number) : Number := if a.lt b then b else a

def text (a : Number) : String := a.toValue.display

/-! ### Integers -/

@[simp] theorem ofValue_int (n : Int) : ofValue (.int n) = .ok (.whole n) := rfl

@[simp] theorem add_whole (m n : Int) : add (.whole m) (.whole n) = .ok (.whole (m + n)) := rfl

@[simp] theorem sub_whole (m n : Int) : sub (.whole m) (.whole n) = .ok (.whole (m - n)) := rfl

@[simp] theorem mod_whole (m n : Int) : mod (.whole m) (.whole n) = .ok (.whole (m % n)) := rfl

@[simp] theorem lt_whole (m n : Int) : lt (.whole m) (.whole n) = decide (m < n) := rfl

@[simp] theorem greater_whole (m n : Int) : greater (.whole m) (.whole n) = .whole (max m n) := by
  unfold greater
  simp only [lt_whole, decide_eq_true_eq]
  split
  · rw [Int.max_eq_right (by omega)]
  · rw [Int.max_eq_left (by omega)]

@[simp] theorem isNonPositive_whole (n : Int) : isNonPositive (.whole n) = decide (n ≤ 0) := by
  rw [Bool.eq_iff_iff]
  simp only [isNonPositive, isZero, lt_whole, Bool.or_eq_true, decide_eq_true_eq]
  omega

end Number

end StructLayout
