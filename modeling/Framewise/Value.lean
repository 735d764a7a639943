import Framewise.Number.Basic
import Framewise.Text.Quoted

/-! # Values

  The values that a script's literals, a serialized tree or a settings file can
  hold. A table keeps its entries in the order in which they were given; keys
  are texts and the first entry of a key counts.

  Main definitions:
  - `Value.truthy`: whether a value counts as true in a condition.
  - `Value.quoted`: a value as it is shown inside a message, texts in quotes.
  - `Value.display`: the same with a text shown bare.
  - `Value.isWritable`, `Value.depth`: what the display of a value asks for.
-/

namespace Framewise

/-- The kinds of calendar values a settings file can hold. -/
inductive Moment where
  | date
  | time
  | datetime
  deriving DecidableEq, Repr, Inhabited

/-- The name of a kind of calendar value. -/
def Moment.name : Moment → String
  | .date => "date"
  | .time => "time"
  | .datetime => "datetime"

/-- A value. -/
inductive Value where
  | null
  | bool (b : Bool)
  | number (x : Number)
  | complex (re im : Double)
  | text (s : String)
  | bytes (data : List UInt8)
  | list (items : List Value)
  | table (entries : List (String × Value))
  | moment (kind : Moment)
  deriving Repr, Inhabited

namespace Value

/-- A whole number as a value. -/
def int (i : Int) : Value := .number (.int i)

/-- A double as a value. -/
def float (x : Double) : Value := .number (.float x)

/-! ### Queries -/

/-- The entry of a key. -/
def lookup (entries : List (String × Value)) (key : String) : Option Value :=
  (entries.find? fun entry => entry.1 = key).map (·.2)

/-- The text a value is, if it is one. -/
def text? : Option Value → Option String
  | some (.text s) => some s
  | _ => none

/-- True for the values that count as true in a condition: all but null, `false`, the zeros
    and what is empty. -/
def truthy : Value → Bool
  | .null => false
  | .bool b => b
  | .number (.int i) => i != 0
  | .number (.float x) => !x.isZero
  | .complex re im => !(re.isZero && im.isZero)
  | .text s => !s.isEmpty
  | .bytes data => !data.isEmpty
  | .list items => !items.isEmpty
  | .table entries => !entries.isEmpty
  | .moment _ => true

/-! ### Display -/

/-- One byte of a quoted byte string. -/
def quoteByte (b : UInt8) : List Char :=
  let c := Char.ofNat b.toNat
  if b.toNat < 128 then Text.quoteChar '\'' c else '\\' :: 'x' :: Text.hexDigits 2 b.toNat

mutual

/-- A value as shown inside a message, texts in quotes. -/
def quoted : Value → String
  | .null => "None"
  | .bool true => "True"
  | .bool false => "False"
  | .number x => x.display
  | .complex re im => "(" ++ re.display ++ "+" ++ im.display ++ "j)"
  | .text s => Text.quoted s
  | .bytes data => "b'" ++ String.ofList (data.flatMap quoteByte) ++ "'"
  | .list items => "[" ++ String.intercalate ", " (quotedItems items) ++ "]"
  | .table entries => "\x7b" ++ String.intercalate ", " (quotedEntries entries) ++ "\x7d"
  | .moment kind => kind.name

/-- The items of a list, each as shown. -/
def quotedItems : List Value → List String
  | [] => []
  | v :: vs => quoted v :: quotedItems vs

/-- The entries of a table, each as `key: value`. -/
def quotedEntries : List (String × Value) → List String
  | [] => []
  | (key, v) :: rest => (Text.quoted key ++ ": " ++ quoted v) :: quotedEntries rest

end

/-- A value as shown inside a message, a text bare. -/
def display : Value → String
  | .text s => s
  | v => v.quoted

/-! ### Limits of display -/

mutual

/-- True if a value can be written: no whole number in it has too many digits. -/
def isWritable : Value → Bool
  | .number x => x.isWritable
  | .list items => areWritable items
  | .table entries => areWritableEntries entries
  | _ => true

/-- True if all items of a list can be written. -/
def areWritable : List Value → Bool
  | [] => true
  | v :: vs => isWritable v && areWritable vs

/-- True if all entries of a table can be written. -/
def areWritableEntries : List (String × Value) → Bool
  | [] => true
  | (_, v) :: rest => isWritable v && areWritableEntries rest

end

mutual

/-- How deeply lists and tables are nested in a value. -/
def depth : Value → Nat
  | .list items => 1 + depthOfItems items
  | .table entries => 1 + depthOfEntries entries
  | _ => 1

/-- The greatest depth of the items of a list. -/
def depthOfItems : List Value → Nat
  | [] => 0
  | v :: vs => max (depth v) (depthOfItems vs)

/-- The greatest depth of the entries of a table. -/
def depthOfEntries : List (String × Value) → Nat
  | [] => 0
  | (_, v) :: rest => max (depth v) (depthOfEntries rest)

end

end Value

end Framewise
