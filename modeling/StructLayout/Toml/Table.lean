import StructLayout.Value.Basic

/-!
# Tables of a settings document

While a document is read, a table remembers how it came about: named in a header, opened by the keys
of an entry, or only passed through on the way to another table.  That decides which later lines may
add to it.  A section is the run of entries under one header; keys may go on adding to the tables
that were opened in their own section.
-/

namespace StructLayout.Toml

inductive Origin where
  | passed
  | header
  | keys (section_ : Nat)
deriving DecidableEq, Repr, Inhabited

/-- An entry of a table that is being read: a finished value, a table, or a list of tables, the last
one of them open. -/
inductive Node where
  | value (v : Value)
  | table (origin : Origin) (entries : List (String × Node))
  | tables (done : List Value) (origin : Origin) (entries : List (String × Node))
deriving Repr, Inhabited

/-- The entries of a table that is being read. -/
abbrev Entries := List (String × Node)

mutual

def Node.toValue : Node → Value
  | .value v => v
  | .table _ entries => .object (values entries)
  | .tables done _ entries => .list (done ++ [.object (values entries)])

/-- The members that entries stand for. -/
def values : List (String × Node) → List (String × Value)
  | [] => []
  | (key, n) :: rest => (key, n.toValue) :: values rest

end

/-- Sets the entry of a key; a new key comes last. -/
def setEntry : Entries → String → Node → Entries
  | [], key, n => [(key, n)]
  | (k, m) :: rest, key, n => if k = key then (k, n) :: rest else (k, m) :: setEntry rest key n

/-- Sets a value below some keys of an entry, in a section.  Every table on the way must be new, only
passed through so far, or opened in the same section, and the last key must be new. -/
def setValue (current : Nat) (v : Value) : List String → Entries → Option Entries
  | [], _ => none
  | [key], entries =>
    match entries.lookup key with
    | some _ => none
    | none => some (setEntry entries key (.value v))
  | key :: more, entries =>
    let enter (inner : Entries) : Option Entries :=
      (setValue current v more inner).map fun inner =>
        setEntry entries key (.table (.keys current) inner)
    match entries.lookup key with
    | none => enter []
    | some (.table .passed inner) => enter inner
    | some (.table (.keys opened) inner) => if opened = current then enter inner else none
    | some _ => none

/-- Changes the table that a header leads to, through tables of any origin and the last table of
each list. -/
def atHeader (change : Entries → Option Entries) : List String → Entries → Option Entries
  | [], entries => change entries
  | key :: more, entries =>
    match entries.lookup key with
    | none =>
      (atHeader change more []).map fun inner => setEntry entries key (.table .passed inner)
    | some (.table origin inner) =>
      (atHeader change more inner).map fun inner => setEntry entries key (.table origin inner)
    | some (.tables done origin inner) =>
      (atHeader change more inner).map fun inner =>
        setEntry entries key (.tables done origin inner)
    | some (.value _) => none

/-- Opens the table of a key, which must be new or only passed through. -/
def openTable (key : String) (entries : Entries) : Option Entries :=
  match entries.lookup key with
  | none => some (setEntry entries key (.table .header []))
  | some (.table .passed inner) => some (setEntry entries key (.table .header inner))
  | some _ => none

/-- Opens a further table in the list of a key, which must be new or such a list. -/
def openListed (key : String) (entries : Entries) : Option Entries :=
  match entries.lookup key with
  | none => some (setEntry entries key (.tables [] .header []))
  | some (.tables done _ inner) =>
    some (setEntry entries key (.tables (done ++ [.object (values inner)]) .header []))
  | some _ => none

end StructLayout.Toml
