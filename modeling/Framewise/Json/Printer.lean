import Framewise.Value

/-! # Writing JSON

  Documents are written in ASCII: a character outside it is written by one or
  two `\u` escapes (a surrogate pair above `U+FFFF`). `compact` writes on one
  line; `indented` puts each item of a list and each member of an object on a
  line of its own, two spaces deeper than what holds it, and writes empty lists
  and objects as brackets alone.
-/

namespace Framewise.Json

/-! ### Texts -/

/-- The escape of a 16-bit unit. -/
def unitEscape (n : Nat) : List Char := '\\' :: 'u' :: Text.hexDigits 4 n

/-- One character of a text. -/
def escapeChar (c : Char) : List Char :=
  if c = '"' || c = '\\' then ['\\', c]
  else if c = '\n' then ['\\', 'n']
  else if c = '\r' then ['\\', 'r']
  else if c = '\t' then ['\\', 't']
  else if c.toNat = 8 then ['\\', 'b']
  else if c.toNat = 12 then ['\\', 'f']
  else if 32 ≤ c.toNat && c.toNat < 127 then [c]
  else if c.toNat < 0x10000 then unitEscape c.toNat
  else
    let n := c.toNat - 0x10000
    unitEscape (0xD800 + n / 0x400) ++ unitEscape (0xDC00 + n % 0x400)

/-- A text in quotes. -/
def quote (s : String) : String :=
  String.ofList ('"' :: s.toList.flatMap escapeChar ++ ['"'])

/-! ### Scalars -/

/-- A value that is not a list or an object. -/
def scalar : Value → String
  | .bool true => "true"
  | .bool false => "false"
  | .number x => x.display
  | .text s => quote s
  | _ => "null"

/-! ### Layouts -/

mutual

/-- A document on one line. -/
def compact : Value → String
  | .list items => "[" ++ String.intercalate "," (compactItems items) ++ "]"
  | .table entries => "\x7b" ++ String.intercalate "," (compactEntries entries) ++ "\x7d"
  | v => scalar v

/-- The items of a list, each on one line. -/
def compactItems : List Value → List String
  | [] => []
  | v :: vs => compact v :: compactItems vs

/-- The members of an object, each on one line. -/
def compactEntries : List (String × Value) → List String
  | [] => []
  | (key, v) :: rest => (quote key ++ ":" ++ compact v) :: compactEntries rest

end

/-- The line break before something at a depth. -/
def newline (depth : Nat) : String := String.ofList ('\n' :: List.replicate (2 * depth) ' ')

mutual

/-- A document over several lines, at a depth. -/
def indentedAt (depth : Nat) : Value → String
  | .list [] => "[]"
  | .list items =>
    "[" ++ newline (depth + 1) ++
      String.intercalate ("," ++ newline (depth + 1)) (indentedItems (depth + 1) items) ++
      newline depth ++ "]"
  | .table [] => "\x7b\x7d"
  | .table entries =>
    "\x7b" ++ newline (depth + 1) ++
      String.intercalate ("," ++ newline (depth + 1)) (indentedEntries (depth + 1) entries) ++
      newline depth ++ "\x7d"
  | v => scalar v

/-- The items of a list at a depth. -/
def indentedItems (depth : Nat) : List Value → List String
  | [] => []
  | v :: vs => indentedAt depth v :: indentedItems depth vs

/-- The members of an object at a depth. -/
def indentedEntries (depth : Nat) : List (String × Value) → List String
  | [] => []
  | (key, v) :: rest =>
    (quote key ++ ": " ++ indentedAt depth v) :: indentedEntries depth rest

end

/-- A document over several lines. -/
def indented (v : Value) : String := indentedAt 0 v

end Framewise.Json
