import Framewise.Toml.Scalar

/-! # Tables of a TOML document

  A table is a list of entries in the order in which they were written. A key
  with several parts leads through inner tables, which come into being on the
  way. Which tables may still be extended is a matter of how they were written:
  a table with a header is written once, and a table or list written as a value
  is closed for good.

  Main definitions:
  - `updateAt`: changes the table that a key leads to.
  - `Marks`: the keys that are declared or closed.
-/

namespace Framewise.Toml

/-- The entries of a table. -/
abbrev Entries := List (String × Value)

/-! ### Entries -/

/-- Replaces the value of a key that a table has. -/
def replace (entries : Entries) (name : String) (value : Value) : Entries :=
  entries.map fun entry => if entry.1 = name then (name, value) else entry

/-- Changes the table that a key leads to. Tables that are missing on the way come into
    being; with `inLists`, a list stands for its last item. Anything else on the way is an
    error. -/
def updateAt (inLists : Bool) (change : Entries → Option Entries) : Key → Entries → Option Entries
  | [], entries => change entries
  | part :: key, entries =>
    match Value.lookup entries part with
    | none => (updateAt inLists change key []).map fun inner => entries ++ [(part, .table inner)]
    | some (.table inner) =>
      (updateAt inLists change key inner).map fun inner => replace entries part (.table inner)
    | some (.list items) =>
      match inLists, items.getLast? with
      | true, some (.table inner) =>
        (updateAt inLists change key inner).map fun inner =>
          replace entries part (.list (items.dropLast ++ [.table inner]))
      | _, _ => none
    | some _ => none

/-- Adds an entry whose name is new. -/
def addEntry (name : String) (value : Value) (entries : Entries) : Option Entries :=
  if (Value.lookup entries name).isSome then none else some (entries ++ [(name, value)])

/-- Adds an empty table to the list of a name. -/
def addItem (name : String) (entries : Entries) : Option Entries :=
  match Value.lookup entries name with
  | none => some (entries ++ [(name, .list [.table []])])
  | some (.list items) => some (replace entries name (.list (items ++ [.table []])))
  | some _ => none

/-! ### Keys -/

/-- The key without its last part. -/
def parent (key : Key) : Key := key.dropLast

/-- The last part of a key. -/
def leaf (key : Key) : String := key.getLast?.getD ""

/-- The beginnings of a key, without the empty one and itself. -/
def innerParents (key : Key) : List Key :=
  (List.range key.length).filterMap fun n => if n = 0 then none else some (key.take n)

/-! ### Marks -/

/-- What may not be written again. -/
structure Marks where
  /-- Keys of tables that no header and no key with dots may open again. -/
  declared : List Key := []
  /-- Keys of tables and lists written as values; nothing below them may change. -/
  closed : List Key := []
  /-- Keys of tables opened by keys with dots under the current header; declared once the
      next header comes. -/
  pending : List Key := []
  deriving DecidableEq, Repr, Inhabited

namespace Marks

/-- True if a header has declared the key. -/
def isDeclared (m : Marks) (key : Key) : Bool := m.declared.contains key

/-- True if the key is closed or lies below one that is. -/
def isClosed (m : Marks) (key : Key) : Bool := m.closed.any fun k => k.isPrefixOf key

/-- Declares a key. -/
def declare (m : Marks) (key : Key) : Marks := { m with declared := key :: m.declared }

/-- Closes a key. -/
def close (m : Marks) (key : Key) : Marks := { m with closed := key :: m.closed }

/-- Declares what keys with dots have opened. -/
def settle (m : Marks) : Marks :=
  { m with declared := m.pending ++ m.declared, pending := [] }

/-- Forgets a key and everything below it. -/
def forget (m : Marks) (key : Key) : Marks :=
  { m with declared := m.declared.filter fun k => !key.isPrefixOf k,
           closed := m.closed.filter fun k => !key.isPrefixOf k }

end Marks

/-- True for a value that is closed once it is written. -/
def closes : Value → Bool
  | .table _ => true
  | .list _ => true
  | _ => false

end Framewise.Toml
