import StructLayout.Text.Integer
import StructLayout.Text.Quoted

/-!
# What can go wrong

`Error` lists the causes that the library itself diagnoses, each with a message and details. `Fault`
lists what happens when a document, a settings file or an argument holds a value of a kind that an
operation cannot use.  `Failure` is either.  The `ofFault`, `ofError` and `ofIndeterminate` lemmas
say how a result of one kind of failure is lifted, and the `mapM` and `filterM` lemmas what steps
that do not fail give together.
-/

namespace StructLayout

/-- A type whose size and alignment cannot be determined. -/
structure Indeterminate where
  typeExpr : String
  reason : String
deriving DecidableEq, Repr, Inhabited

inductive Error where
  | indeterminate (cause : Indeterminate)
  | fileAccess (path reason : String)
  | parsing (path reason : String)
  | unknownPlatform (name : String) (known : List String)
  | invalidPath (path reason : String)
  | invalidSetting (key value reason : String)
  | noInputs (paths : List String)
  | report (message : String) (details : List (String × String))
deriving DecidableEq, Repr, Inhabited

namespace Error

/-- What went wrong, in one clause. -/
def message : Error → String
  | .indeterminate cause => "Cannot determine layout of " ++ cause.typeExpr
  | .fileAccess path _ => "Cannot access file: " ++ path
  | .parsing path _ => "Failed to parse descriptor file: " ++ path
  | .unknownPlatform name _ => "Unknown arch " ++ name
  | .invalidPath path _ => "Invalid path: " ++ path
  | .invalidSetting key value _ => "Invalid configuration for " ++ key ++ ": " ++ value
  | .noInputs _ => "No import paths found"
  | .report message _ => message

/-- The names of the platforms that have sizing rules, in order. -/
def sortedNames (names : List String) : List String :=
  names.mergeSort fun a b => decide (a ≤ b)

def details : Error → List (String × String)
  | .indeterminate cause => [("type", cause.typeExpr), ("reason", cause.reason)]
  | .fileAccess path reason => [("filepath", path), ("reason", reason)]
  | .parsing path reason => [("filepath", path), ("reason", reason)]
  | .unknownPlatform name known =>
    [("arch", name), ("supported", ", ".intercalate (sortedNames known))]
  | .invalidPath path reason => [("path", path), ("reason", reason)]
  | .invalidSetting key value reason => [("key", key), ("value", value), ("reason", reason)]
  | .noInputs paths =>
    [("paths", if paths.isEmpty then "<none>" else ", ".intercalate paths)]
  | .report _ details => details

/-- The message, followed by the details in parentheses if there are any. -/
def text (e : Error) : String :=
  if e.details.isEmpty then e.message
  else
    e.message ++ " (" ++
      ", ".intercalate (e.details.map fun entry => entry.1 ++ "=" ++ entry.2) ++ ")"

end Error

/-- A value of a kind that an operation cannot use. -/
inductive Fault where
  | notIterable (kind : String)
  | noMember (kind name : String)
  | notOrdered (left right : String)
  | notPath (kind : String)
  | notText (kind : String)
  | noLength (kind : String)
  | notNumeric (kind : String)
  | unknownKey (name : String)
  | missingKey (name : String)
  | badNumber (text : String)
  | tooManyDigits (count : Nat)
  | tooLongToShow
  | badValue (text : String)
  | notPositive (name : String)
  | outOfRange
  | notABracket
  | infiniteNumber
  | tooLargeForFloat
  | tooManyCells
  | outOfMemory
  | undecodable (byte position count : Nat) (reason : String)
  | badMarkup (text : String)
  | system (text : String)
  | tooDeep (activity : String)
deriving DecidableEq, Repr, Inhabited

/-- The most characters of a refused number that a message shows, quotes included. -/
def Fault.shownOfNumber : Nat := 200

def Fault.text : Fault → String
  | .notIterable kind => "'" ++ kind ++ "' object is not iterable"
  | .noMember kind name => "'" ++ kind ++ "' object has no attribute '" ++ name ++ "'"
  | .notOrdered left right =>
    "'<' not supported between instances of '" ++ left ++ "' and '" ++ right ++ "'"
  | .notPath kind => "expected str, bytes or os.PathLike object, not " ++ kind
  | .notText kind => "expected string or bytes-like object, got '" ++ kind ++ "'"
  | .noLength kind => "object of type '" ++ kind ++ "' has no len()"
  | .notNumeric kind => "unsupported operand type: '" ++ kind ++ "'"
  | .unknownKey name => "got an unexpected keyword argument '" ++ name ++ "'"
  | .missingKey name => Text.quoted name
  | .badNumber text =>
    "invalid literal for int() with base 10: " ++
      String.ofList ((Text.quoteChars text.toList).take shownOfNumber)
  | .tooManyDigits count =>
    "Exceeds the limit (" ++ Text.intText Text.digitLimit ++
      " digits) for integer string conversion: value has " ++ Text.intText count ++
      " digits; use sys.set_int_max_str_digits() to increase the limit"
  | .tooLongToShow =>
    "Exceeds the limit (" ++ Text.intText Text.digitLimit ++
      " digits) for integer string conversion; use sys.set_int_max_str_digits() to increase the limit"
  | .badValue text => text
  | .notPositive name => name ++ " must be positive"
  | .outOfRange => "string index out of range"
  | .notABracket => "not a bracket"
  | .infiniteNumber => "cannot convert float infinity to integer"
  | .tooLargeForFloat => "int too large to convert to float"
  | .tooManyCells => "cannot fit 'int' into an index-sized integer"
  | .outOfMemory => ""
  | .undecodable byte position count reason =>
    let place := if count = 1 then
        "byte 0x" ++ String.ofList (Text.hexadecimal 2 byte) ++ " in position " ++
          Text.intText position
      else
        "bytes in position " ++ Text.intText position ++ "-" ++ Text.intText (position + count - 1)
    "'utf-8' codec can't decode " ++ place ++ ": " ++ reason
  | .badMarkup text => text
  | .system text => text
  | .tooDeep activity => "maximum recursion depth exceeded" ++ activity

def Fault.ofNumber (text : String) : Text.Flaw → Fault
  | .malformed => .badNumber text
  | .tooManyDigits count => .tooManyDigits count

/-- Why an operation gave no result. -/
inductive Failure where
  | error (e : Error)
  | fault (f : Fault)
deriving DecidableEq, Repr, Inhabited

namespace Failure

def text : Failure → String
  | .error e => e.text
  | .fault f => f.text

end Failure

/-- The result of an operation that may fail. -/
abbrev Outcome (α : Type) := Except Failure α

/-- Lifts a result whose only failure is a fault. -/
def Outcome.ofFault {α : Type} (r : Except Fault α) : Outcome α := r.mapError .fault

/-- Lifts a result whose only failure is a diagnosed error. -/
def Outcome.ofError {α : Type} (r : Except Error α) : Outcome α := r.mapError .error

/-- Lifts a result whose only failure is a type without a layout. -/
def Outcome.ofIndeterminate {α : Type} (r : Except Indeterminate α) : Outcome α :=
  r.mapError fun cause => .error (.indeterminate cause)

@[simp] theorem Outcome.ofIndeterminate_ok {α : Type} (a : α) : ofIndeterminate (.ok a) = .ok a := rfl

@[simp] theorem Outcome.ofIndeterminate_error {α : Type} (cause : Indeterminate) :
    ofIndeterminate (.error cause : Except Indeterminate α) =
      .error (.error (.indeterminate cause)) := rfl

@[simp] theorem Outcome.ofFault_ok {α : Type} (a : α) : ofFault (.ok a) = .ok a := rfl

@[simp] theorem Outcome.ofFault_error {α : Type} (f : Fault) :
    ofFault (.error f : Except Fault α) = .error (.fault f) := rfl

@[simp] theorem Outcome.ofError_ok {α : Type} (a : α) : ofError (.ok a) = .ok a := rfl

@[simp] theorem Outcome.ofError_error {α : Type} (e : Error) :
    ofError (.error e : Except Error α) = .error (.error e) := rfl

theorem Outcome.mapM_eq_ok {ε α β : Type} {run : α → Except ε β} {f : α → β} {xs : List α}
    (h : ∀ x ∈ xs, run x = .ok (f x)) : xs.mapM run = .ok (xs.map f) := by
  induction xs with
  | nil => rfl
  | cons x xs ih =>
    obtain ⟨hx, hxs⟩ := List.forall_mem_cons.1 h
    rw [List.mapM_cons, hx, ih hxs]
    rfl

/-- Steps that do not fail give the results of all of them and no others. -/
theorem Outcome.mapM_ok {ε α β : Type} {run : α → Except ε β} {R : α → β → Prop} {xs : List α}
    (h : ∀ x ∈ xs, ∃ y, run x = .ok y ∧ R x y) :
    ∃ ys, xs.mapM run = .ok ys ∧ (∀ y ∈ ys, ∃ x ∈ xs, R x y) ∧ ∀ x ∈ xs, ∃ y ∈ ys, R x y := by
  induction xs with
  | nil => exact ⟨[], rfl, by simp, by simp⟩
  | cons x rest ih =>
    obtain ⟨⟨y, hx, hy⟩, hrest⟩ := List.forall_mem_cons.1 h
    obtain ⟨ys, hf, hfrom, hto⟩ := ih hrest
    refine ⟨y :: ys, by rw [List.mapM_cons, hx, hf]; rfl, ?_, ?_⟩
    · refine List.forall_mem_cons.2 ⟨⟨x, List.mem_cons_self, hy⟩, fun z hz => ?_⟩
      obtain ⟨w, hw, hr⟩ := hfrom z hz
      exact ⟨w, List.mem_cons_of_mem _ hw, hr⟩
    · refine List.forall_mem_cons.2 ⟨⟨y, List.mem_cons_self, hy⟩, fun w hw => ?_⟩
      obtain ⟨z, hz, hr⟩ := hto w hw
      exact ⟨z, List.mem_cons_of_mem _ hz, hr⟩

/-- Filtering with tests that do not fail is filtering. -/
theorem Outcome.filterM_eq_ok {ε α : Type} {test : α → Except ε Bool} {p : α → Bool} {xs : List α}
    (h : ∀ x ∈ xs, test x = .ok (p x)) : xs.filterM test = .ok (xs.filter p) := by
  have haux : ∀ found, xs.filterAuxM test found = .ok ((xs.filter p).reverse ++ found) := by
    induction xs with
    | nil => exact fun found => rfl
    | cons x rest ih =>
      intro found
      obtain ⟨hx, hrest⟩ := List.forall_mem_cons.1 h
      cases hp : p x <;> simp [List.filterAuxM, hx, hp, ih hrest, bind, Except.bind]
  rw [List.filterM, haux, List.append_nil]
  exact congrArg Except.ok (List.reverse_reverse _)

end StructLayout
