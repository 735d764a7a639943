import Framewise.Toml.Table

/-! # TOML documents

  A document is a sequence of lines: an entry, the header of a table, the header
  of a list item, a comment, or nothing. Reading one gives its entries in the
  order in which they were written, or nothing at all if it is not well-formed.
-/

namespace Framewise.Toml

/-! ### Values -/

/-- The state of an inline table: its entries and the keys closed in it. -/
structure Inline where
  /-- The entries so far. -/
  entries : Entries := []
  /-- What may not be extended. -/
  marks : Marks := {}
  deriving Repr, Inhabited

/-- Adds an entry to an inline table. -/
def Inline.add (t : Inline) (key : Key) (value : Value) : Option Inline :=
  if t.marks.isClosed key then none
  else
    (updateAt false (addEntry (leaf key) value) (parent key) t.entries).map fun entries =>
      { entries := entries, marks := if closes value then t.marks.close key else t.marks }

mutual

/-- A value; `fuel` bounds the depth and length of the recursion. -/
def readValue : (fuel : Nat) → List Char → Option (Value × Rest)
  | 0, _ => none
  | fuel + 1, cs =>
    match cs with
    | '[' :: cs => do readItems fuel [] (← skipSpace false cs)
    | '\x7b' :: cs =>
      match skipBlank cs with
      | '\x7d' :: cs => some (.table [], cs)
      | cs => readEntries fuel {} cs
    | c :: _ =>
      if c = '"' || c = '\'' then (readString cs).map fun (s, rest) => (.text s, rest)
      else readScalar cs
    | [] => none

/-- The items of a list behind those already read, last first. -/
def readItems : (fuel : Nat) → List Value → List Char → Option (Value × Rest)
  | 0, _, _ => none
  | fuel + 1, items, cs =>
    match cs with
    | ']' :: cs => some (.list items.reverse, cs)
    | cs => do
      let (item, cs) ← readValue fuel cs
      match ← skipSpace false cs with
      | ']' :: cs => return (.list (item :: items).reverse, cs)
      | ',' :: cs => readItems fuel (item :: items) (← skipSpace false cs)
      | _ => none

/-- The entries of an inline table behind those already read. -/
def readEntries : (fuel : Nat) → Inline → List Char → Option (Value × Rest)
  | 0, _, _ => none
  | fuel + 1, t, cs => do
    let (key, cs) ← readKey cs
    let cs ← readChar '=' cs
    let (value, cs) ← readValue fuel (skipBlank cs)
    let t ← t.add key value
    match skipBlank cs with
    | '\x7d' :: cs => return (.table t.entries, cs)
    | ',' :: cs => readEntries fuel t (skipBlank cs)
    | _ => none

end

/-! ### Lines -/

/-- A document that has been read in part. -/
structure State where
  /-- Its entries. -/
  entries : Entries := []
  /-- What may not be written again. -/
  marks : Marks := {}
  /-- The key of the current header. -/
  header : Key := []
  deriving Repr, Inhabited

namespace State

/-- Marks the tables that a key with dots opens on its way; none of them may be declared. -/
def openParents (m : Marks) (header : Key) : List Key → Option Marks
  | [] => some m
  | key :: keys =>
    if m.isDeclared (header ++ key) then none
    else openParents { m with pending := (header ++ key) :: m.pending } header keys

/-- Adds an entry below the current header. -/
def add (s : State) (key : Key) (value : Value) : Option State := do
  let marks ← openParents s.marks s.header (innerParents key)
  let place := s.header ++ parent key
  if marks.isClosed place then none
  else
    let entries ← updateAt true (addEntry (leaf key) value) place s.entries
    return { s with entries := entries,
                    marks := if closes value then marks.close (s.header ++ key) else marks }

/-- Opens the table of a header. -/
def openTable (s : State) (key : Key) : Option State := do
  let marks := s.marks.settle
  if marks.isDeclared key || marks.isClosed key then none
  else
    let entries ← updateAt true some key s.entries
    return { entries := entries, marks := marks.declare key, header := key }

/-- Opens a new item of the list of a header. -/
def openItem (s : State) (key : Key) : Option State := do
  let marks := s.marks.settle
  if marks.isClosed key then none
  else
    let entries ← updateAt true (addItem (leaf key)) (parent key) s.entries
    return { entries := entries, marks := (marks.forget key).declare key, header := key }

end State

/-- A header or an entry at the head of a line. -/
def readStatement (s : State) : List Char → Option (State × Rest)
  | '[' :: '[' :: cs => do
    let (key, cs) ← readKey (skipBlank cs)
    let s ← s.openItem key
    return (s, ← readChar ']' (← readChar ']' cs))
  | '[' :: cs => do
    let (key, cs) ← readKey (skipBlank cs)
    let s ← s.openTable key
    return (s, ← readChar ']' cs)
  | cs => do
    let (key, cs) ← readKey cs
    let cs ← readChar '=' cs
    let (value, cs) ← readValue (cs.length + 1) (skipBlank cs)
    return (← s.add key value, cs)

/-- The lines of a document; `fuel` bounds their number. -/
def readLines : (fuel : Nat) → State → List Char → Option State
  | 0, _, _ => none
  | fuel + 1, s, cs =>
    match skipBlank cs with
    | [] => some s
    | '\n' :: cs => readLines fuel s cs
    | cs => do
      let (s, cs) ← if cs.head? = some '#' then pure (s, cs) else readStatement s cs
      match ← skipComment (skipBlank cs) with
      | [] => return s
      | '\n' :: cs => readLines fuel s cs
      | _ => none

/-- Line ends of two characters become one. -/
def joinNewlines : List Char → List Char
  | '\r' :: '\n' :: cs => '\n' :: joinNewlines cs
  | c :: cs => c :: joinNewlines cs
  | [] => []

/-- The entries of a document. -/
def parse (cs : List Char) : Option Entries :=
  let cs := joinNewlines cs
  (readLines (cs.length + 1) {} cs).map State.entries

end Framewise.Toml
