import StructLayout.Layout.Placement

/-!
# Types with fixed rules

The predeclared types, and the types of the standard library that occur often enough to be worth
knowing.  Most of the latter are given by their underlying type (`wellKnown`); those laid out like an
interface value, like a machine word, or with eight bytes on every platform have rules of their own
(`fixedLayout?`).  The main statement says that a fixed layout has an alignment of at least one
(`one_le_fixedLayout?_align`).
-/

namespace StructLayout.Sizing

/-- The size and alignment of a type. -/
structure TypeLayout where
  size : Int
  align : Int
deriving DecidableEq, Repr, Inhabited

/-- The predeclared types of fixed size, with their sizes. -/
def basicSizes : List (String × Int) := [
  ("bool", 1), ("int8", 1), ("uint8", 1), ("byte", 1), ("int16", 2), ("uint16", 2), ("int32", 4),
  ("uint32", 4), ("rune", 4), ("float32", 4), ("int64", 8), ("uint64", 8), ("float64", 8),
  ("complex64", 8), ("complex128", 16)]

/-- The complex types, which are aligned like one of their two parts. -/
def complexTypes : List String := ["complex64", "complex128"]

def wordTypes : List String := ["int", "uint", "uintptr", "unsafe.Pointer"]

/-- The types laid out like an interface value, in two words. -/
def interfaceTypes : List String := [
  "any", "error", "context.Context", "fmt.Stringer", "io.Reader", "io.Writer", "io.Closer",
  "io.ReadCloser", "io.ReadWriter", "io.WriteCloser", "io.ReadWriteCloser", "net.Conn", "net.Addr",
  "reflect.Type", "sort.Interface"]

def eightByteTypes : List String := ["atomic.Int64", "atomic.Uint64"]

/-- The generic types that take one machine word whatever their argument. -/
def genericWordTypes : List String := ["atomic.Pointer"]

/-- Standard library types with their underlying types. -/
def wellKnown : List (String × String) := [
  ("time.Time", "struct\x7bwall uint64; ext int64; loc *time.Location\x7d"),
  ("time.Duration", "int64"),
  ("time.Month", "int"),
  ("time.Weekday", "int"),
  ("sync.Mutex", "struct\x7bstate int32; sema uint32\x7d"),
  ("sync.RWMutex",
    "struct\x7bw sync.Mutex; writerSem uint32; readerSem uint32; " ++
      "readerCount atomic.Int32; readerWait atomic.Int32\x7d"),
  ("sync.WaitGroup", "struct\x7bnoCopy struct\x7b\x7d; state atomic.Uint64; sema uint32\x7d"),
  ("sync.Once", "struct\x7bdone atomic.Uint32; m sync.Mutex\x7d"),
  ("atomic.Bool", "struct\x7b_ struct\x7b\x7d; v uint32\x7d"),
  ("atomic.Int32", "struct\x7b_ struct\x7b\x7d; v int32\x7d"),
  ("atomic.Uint32", "struct\x7b_ struct\x7b\x7d; v uint32\x7d"),
  ("atomic.Uintptr", "struct\x7b_ struct\x7b\x7d; v uintptr\x7d"),
  ("atomic.Value", "struct\x7bv any\x7d"),
  ("json.RawMessage", "[]byte"),
  ("json.Number", "string"),
  ("net.IP", "[]byte"),
  ("net.IPMask", "[]byte"),
  ("http.Header", "map[string][]string"),
  ("url.Values", "map[string][]string"),
  ("bytes.Buffer", "struct\x7bbuf []byte; off int; lastRead int8\x7d"),
  ("strings.Builder", "struct\x7baddr *strings.Builder; buf []byte\x7d"),
  ("big.Int", "struct\x7bneg bool; abs []uint\x7d")]

def wordLayout (abi : Abi) : TypeLayout := { size := abi.wordSize, align := abi.wordSize }

/-- Several machine words in a row. -/
def wordsLayout (abi : Abi) (count : Int) : TypeLayout :=
  { size := count * abi.wordSize, align := abi.wordSize }

/-- A predeclared type of a size; its alignment is limited by the platform. -/
def basicLayout (abi : Abi) (size natural : Int) : TypeLayout :=
  { size, align := max 1 (min natural abi.maxAlign) }

def fixedLayout? (abi : Abi) (name : String) : Option TypeLayout :=
  match basicSizes.lookup name with
  | some size =>
    some (basicLayout abi size (if complexTypes.contains name then size / 2 else size))
  | none =>
    if wordTypes.contains name then some (wordLayout abi)
    else if name = "string" then some (wordsLayout abi 2)
    else if interfaceTypes.contains name then some (wordsLayout abi 2)
    else if eightByteTypes.contains name then some { size := 8, align := 8 }
    else none

/-- Where a fixed layout comes from. -/
theorem fixedLayout?_cases {abi : Abi} {name : String} {l : TypeLayout}
    (h : fixedLayout? abi name = some l) :
    (∃ size, (name, size) ∈ basicSizes ∧
      l = basicLayout abi size (if complexTypes.contains name then size / 2 else size)) ∨
    (name ∈ wordTypes ∧ l = wordLayout abi) ∨
    ((name = "string" ∨ name ∈ interfaceTypes) ∧ l = wordsLayout abi 2) ∨
    (name ∈ eightByteTypes ∧ l = { size := 8, align := 8 }) := by
  unfold fixedLayout? at h
  simp only [List.contains_iff_mem] at h
  split at h
  · next size hs =>
    obtain ⟨before, after, ht, -⟩ := List.lookup_eq_some_iff.1 hs
    cases h
    exact .inl ⟨size, by simp [ht], by simp⟩
  · repeat' split at h
    all_goals cases h
    · next hm => exact .inr (.inl ⟨hm, rfl⟩)
    · next he => exact .inr (.inr (.inl ⟨.inl he, rfl⟩))
    · next hm => exact .inr (.inr (.inl ⟨.inr hm, rfl⟩))
    · next hm => exact .inr (.inr (.inr ⟨hm, rfl⟩))

theorem one_le_fixedLayout?_align {abi : Abi} {name : String} {l : TypeLayout}
    (h : fixedLayout? abi name = some l) : 1 ≤ l.align := by
  rcases fixedLayout?_cases h with ⟨size, -, rfl⟩ | ⟨-, rfl⟩ | ⟨-, rfl⟩ | ⟨-, rfl⟩
  · exact Int.le_max_left 1 _
  · exact abi.wordSize_pos
  · exact abi.wordSize_pos
  · decide

end StructLayout.Sizing
