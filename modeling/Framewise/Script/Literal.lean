import Framewise.Number.Read
import Framewise.Script.Lexeme
import Framewise.Value

/-! # The values of literals

  What the numbers and strings of a script stand for. A string can have the
  shape of one and still stand for nothing: an escape by code point may lack
  digits or go beyond the last code point, an escape by name may name no
  character, a string of bytes may hold other characters than those of ASCII,
  and no string may hold the character of code zero as it is.

  Which names characters have is not part of the language: `CharacterNames`
  stands for a table of them.
-/

namespace Framewise.Script

/-! ### Numbers -/

/-- The value of a digit in bases up to 16. -/
def digitValue (c : Char) : Nat :=
  if c.isDigit then c.toNat - 48 else c.toLower.toNat - 87

/-- The number that digits write in a base; underscores are skipped. -/
def basedValue (base : Nat) (cs : List Char) : Nat :=
  (cs.filter (· != '_')).foldl (fun n c => base * n + digitValue c) 0

/-- A number without a base letter. -/
def decimalValue? (cs : List Char) : Option Value :=
  match cs.getLast? with
  | some 'j' => (Number.readDouble Number.asciiDigit cs.dropLast).map imaginary
  | some 'J' => (Number.readDouble Number.asciiDigit cs.dropLast).map imaginary
  | _ =>
    if cs.all fun c => c.isDigit || c = '_' then
      if Number.digitLimit < (cs.filter Char.isDigit).length then none
      else (Number.readInt Number.asciiDigit cs).map .int
    else (Number.readDouble Number.asciiDigit cs).map .float
where
  /-- An imaginary number as a value. -/
  imaginary (x : Double) : Value := .complex (Double.signedZero false) x

/-- The value of a number. -/
def numberValue? (text : String) : Option Value :=
  match text.toList with
  | '0' :: base :: cs =>
    if base = 'x' || base = 'X' then some (.int (basedValue 16 cs))
    else if base = 'o' || base = 'O' then some (.int (basedValue 8 cs))
    else if base = 'b' || base = 'B' then some (.int (basedValue 2 cs))
    else decimalValue? ('0' :: base :: cs)
  | cs => decimalValue? cs

/-! ### Escapes -/

/-- What a character after a backslash stands for, if it is a short escape. -/
def shortEscape? (c : Char) : Option Nat :=
  if c = '\\' || c = '\'' || c = '"' then some c.toNat
  else if c = 'a' then some 7
  else if c = 'b' then some 8
  else if c = 't' then some 9
  else if c = 'n' then some 10
  else if c = 'v' then some 11
  else if c = 'f' then some 12
  else if c = 'r' then some 13
  else none

/-- The number of hexadecimal digits after a letter that begins an escape by code point. -/
def hexLength? (bytes : Bool) (c : Char) : Option Nat :=
  if c = 'x' then some 2
  else if bytes then none
  else if c = 'u' then some 4
  else if c = 'U' then some 8
  else none

/-- A table of the names of characters. -/
class CharacterNames where
  /-- The code point that a name stands for. -/
  codeOf? : String → Option Nat

/-- No names are known unless a table is given. -/
instance (priority := low) CharacterNames.unknown : CharacterNames := ⟨fun _ => none⟩

/-- The name between the braces of an escape by name, and what follows them. -/
def bracedName? : List Char → Option (String × List Char)
  | '\x7b' :: cs =>
    match cs.dropWhile (· != '\x7d') with
    | _ :: rest => some (String.ofList (cs.takeWhile (· != '\x7d')), rest)
    | [] => none
  | _ => none

/-- The code points of a string's text; `fuel` is at least its length. `none` means that an
    escape is malformed. -/
def unescape [CharacterNames] (bytes : Bool) : (fuel : Nat) → List Char → Option (List Nat)
  | 0, _ => some []
  | _ + 1, [] => some []
  | fuel + 1, c :: cs =>
    if c != '\\' then (unescape bytes fuel cs).map (c.toNat :: ·)
    else
      match cs with
      | [] => some [c.toNat]
      | e :: rest =>
        if e = '\n' then unescape bytes fuel rest
        else if isOctalDigit e then
          let digits := (cs.take 3).takeWhile isOctalDigit
          (unescape bytes fuel (cs.drop digits.length)).map (basedValue 8 digits :: ·)
        else if e = 'N' && !bytes then do
          let (name, more) ← bracedName? rest
          let n ← CharacterNames.codeOf? name
          (unescape bytes fuel more).map (n :: ·)
        else
          match shortEscape? e, hexLength? bytes e with
          | some n, _ => (unescape bytes fuel rest).map (n :: ·)
          | none, some length =>
            let digits := rest.take length
            if digits.length = length && digits.all isHexDigit &&
                basedValue 16 digits ≤ 0x10FFFF then
              (unescape bytes fuel (rest.drop length)).map (basedValue 16 digits :: ·)
            else none
          | none, none => (unescape bytes fuel rest).map fun ns => c.toNat :: e.toNat :: ns

/-! ### Strings -/

/-- The parts of a plain string. -/
structure StringParts where
  /-- Whether it is a string of bytes. -/
  bytes : Bool
  /-- Whether a backslash is an ordinary character. -/
  raw : Bool
  /-- What stands between the quotes. -/
  body : List Char
  deriving DecidableEq, Repr, Inhabited

/-- The parts of a string as written. -/
def stringParts (text : String) : StringParts :=
  let letters := text.toList.takeWhile fun c => !isQuote c
  let quoted := text.toList.dropWhile fun c => !isQuote c
  let width := match quoted with
    | a :: b :: c :: _ => if a = b && b = c then 3 else 1
    | _ => 1
  { bytes := letters.any fun c => c = 'b' || c = 'B'
    raw := letters.any fun c => c = 'r' || c = 'R'
    body := (quoted.drop width).take (quoted.length - 2 * width) }

/-- The value of a plain string. -/
def stringValue? [CharacterNames] (text : String) : Option Value := do
  let parts := stringParts text
  if parts.body.contains '\x00' then none
  else if parts.bytes && parts.body.any fun c => 128 ≤ c.toNat then none
  else
    let codes ←
      if parts.raw then some (parts.body.map Char.toNat)
      else unescape parts.bytes parts.body.length parts.body
    if parts.bytes then return .bytes (codes.map UInt8.ofNat)
    else return .text (String.ofList (codes.map Char.ofNat))

end Framewise.Script
