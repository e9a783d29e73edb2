import StructLayout.Binary64.Basic
import StructLayout.Value.Moment

/-!
# Document values

A value of a document or of a settings file: what a reader of the notation produces before anyone
has checked its shape.  Members of an object keep the order in which their keys first appeared, and
each key occurs once.  The main statements say that a member just set is the one found
(`get?_insert_self`) and that setting it leaves the others alone (`get?_insert_ne`).
-/

namespace StructLayout

inductive Value where
  | null
  | bool (b : Bool)
  | int (n : Int)
  | float (x : Binary64)
  | str (s : String)
  | moment (m : Moment)
  | list (elements : List Value)
  | object (members : List (String × Value))
deriving Repr, Inhabited

/-- The members of an object, in the order of their first appearance. -/
abbrev Members := List (String × Value)

/-! ### Equality of structure -/

mutual

def Value.decEq : (a b : Value) → Decidable (a = b)
  | .null, b => match b with
    | .null => isTrue rfl
    | .bool _ | .int _ | .float _ | .str _ | .list _ | .object _ | .moment _ => isFalse (by simp)
  | .bool x, b => match b with
    | .bool y => decidable_of_iff (x = y) (by simp)
    | .null | .int _ | .float _ | .str _ | .list _ | .object _ | .moment _ => isFalse (by simp)
  | .int x, b => match b with
    | .int y => decidable_of_iff (x = y) (by simp)
    | .null | .bool _ | .float _ | .str _ | .list _ | .object _ | .moment _ => isFalse (by simp)
  | .float x, b => match b with
    | .float y => decidable_of_iff (x = y) (by simp)
    | .null | .bool _ | .int _ | .str _ | .list _ | .object _ | .moment _ => isFalse (by simp)
  | .str x, b => match b with
    | .str y => decidable_of_iff (x = y) (by simp)
    | .null | .bool _ | .int _ | .float _ | .list _ | .object _ | .moment _ => isFalse (by simp)
  | .moment x, b => match b with
    | .moment y => decidable_of_iff (x = y) (by simp)
    | .null | .bool _ | .int _ | .float _ | .str _ | .list _ | .object _ => isFalse (by simp)
  | .list x, b => match b with
    | .list y => match Value.decEqElements x y with
      | isTrue h => isTrue (by rw [h])
      | isFalse h => isFalse (by simpa using h)
    | .null | .bool _ | .int _ | .float _ | .str _ | .object _ | .moment _ => isFalse (by simp)
  | .object x, b => match b with
    | .object y => match Value.decEqMembers x y with
      | isTrue h => isTrue (by rw [h])
      | isFalse h => isFalse (by simpa using h)
    | .null | .bool _ | .int _ | .float _ | .str _ | .list _ | .moment _ => isFalse (by simp)

def Value.decEqElements : (a b : List Value) → Decidable (a = b)
  | [], [] => isTrue rfl
  | [], _ :: _ | _ :: _, [] => isFalse (by simp)
  | x :: xs, y :: ys =>
    match Value.decEq x y, Value.decEqElements xs ys with
    | isTrue h, isTrue t => isTrue (by rw [h, t])
    | isFalse h, _ => isFalse (by simp [h])
    | _, isFalse t => isFalse (by simp [t])

def Value.decEqMembers : (a b : List (String × Value)) → Decidable (a = b)
  | [], [] => isTrue rfl
  | [], _ :: _ | _ :: _, [] => isFalse (by simp)
  | (j, x) :: xs, (k, y) :: ys =>
    match (inferInstance : Decidable (j = k)), Value.decEq x y, Value.decEqMembers xs ys with
    | isTrue hk, isTrue h, isTrue t => isTrue (by rw [hk, h, t])
    | isFalse hk, _, _ => isFalse (by simp [hk])
    | _, isFalse h, _ => isFalse (by simp [h])
    | _, _, isFalse t => isFalse (by simp [t])

end

instance : DecidableEq Value := Value.decEq

/-! ### Members of an object -/

namespace Members

def get? (members : Members) (key : String) : Option Value := members.lookup key

/-- The members with the value of a key set; a new key comes last. -/
def insert : Members → String → Value → Members
  | [], key, v => [(key, v)]
  | (k, w) :: rest, key, v => if k = key then (k, v) :: rest else (k, w) :: insert rest key v

/-- The members with a sequence of keys set one after the other. -/
def insertAll (members : Members) (more : Members) : Members :=
  more.foldl (fun acc entry => acc.insert entry.1 entry.2) members

theorem get?_cons (k : String) (w : Value) (rest : Members) (key : String) :
    get? ((k, w) :: rest) key = if key = k then some w else get? rest key := by
  by_cases h : key = k
  · simp [get?, h]
  · have hb : (key == k) = false := by simpa using h
    simp [get?, List.lookup_cons, hb, h]

@[simp] theorem get?_insert_self (members : Members) (key : String) (v : Value) :
    (members.insert key v).get? key = some v := by
  induction members with
  | nil => simp [insert, get?_cons]
  | cons entry rest ih =>
    obtain ⟨k, w⟩ := entry
    by_cases h : k = key
    · simp [insert, h, get?_cons]
    · simp [insert, h, get?_cons, Ne.symm h, ih]

theorem get?_insert_ne {members : Members} {key other : String} (v : Value) (h : other ≠ key) :
    (members.insert key v).get? other = members.get? other := by
  induction members with
  | nil => simp [insert, get?_cons, h]
  | cons entry rest ih =>
    obtain ⟨k, w⟩ := entry
    by_cases hk : k = key
    · subst hk
      simp [insert, get?_cons, h]
    · simp [insert, hk, get?_cons, ih]

end Members

namespace Value

/-! ### Questions about a value -/

/-- Whether a value counts as present: everything but null, false, zero and what is empty. -/
def isTruthy : Value → Bool
  | .null => false
  | .bool b => b
  | .int n => n != 0
  | .float x => !x.isZero
  | .str s => !s.isEmpty
  | .moment _ => true
  | .list elements => !elements.isEmpty
  | .object members => !members.isEmpty

def member (members : Members) (key : String) (default : Value) : Value :=
  (members.get? key).getD default

/-- The integer that a whole number or a truth value stands for. -/
def asInt? : Value → Option Int
  | .int n => some n
  | .bool b => some (if b then 1 else 0)
  | _ => none

mutual

/-- Equality of values as a reader sees it: numbers are equal when their values are, a truth value
counts as zero or one, and the order of an object's members does not matter. -/
def same : Value → Value → Bool
  | .null, .null => true
  | .str s, .str t => s = t
  | .moment m, .moment n => m = n
  | .list xs, .list ys => sameElements xs ys
  | .object xs, .object ys => xs.length = ys.length && sameMembers xs ys
  | .bool a, .bool b => a = b
  | .bool a, .int n => (if a then 1 else 0) = n
  | .bool a, .float x => x.equalsInt (if a then 1 else 0)
  | .int n, .bool b => n = if b then 1 else 0
  | .int n, .int m => n = m
  | .int n, .float x => x.equalsInt n
  | .float x, .bool b => x.equalsInt (if b then 1 else 0)
  | .float x, .int n => x.equalsInt n
  | .float x, .float y => x.valueEq y
  | _, _ => false

/-- Lists are the same when their elements are, place by place. -/
def sameElements : List Value → List Value → Bool
  | [], [] => true
  | x :: xs, y :: ys => same x y && sameElements xs ys
  | _, _ => false

/-- Every member of the first list has a member of the same key and value in the second. -/
def sameMembers : List (String × Value) → List (String × Value) → Bool
  | [], _ => true
  | (k, x) :: xs, ys =>
    (match ys.lookup k with
      | some y => same x y
      | none => false) && sameMembers xs ys

end

@[simp] theorem same_int (n m : Int) : same (.int n) (.int m) = decide (n = m) := by
  simp [same]

@[simp] theorem isTruthy_str (s : String) : isTruthy (.str s) = !s.isEmpty := rfl

end Value

end StructLayout
