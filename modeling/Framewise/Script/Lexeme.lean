import Framewise.Script.Token
import Framewise.Text.Identifier

/-! # Lexemes

  How far a word, a number, a string or an operator reaches. Each function
  takes glyphs and gives those of the lexeme and those after it; `none` means
  that no script has what stands there.
-/

namespace Framewise.Script

/-- The glyphs of a lexeme and those after it. -/
abbrev Lexeme := List Glyph × List Glyph

/-- A lexeme with more glyphs in front. -/
def Lexeme.after (gs : List Glyph) (l : Lexeme) : Lexeme := (gs ++ l.1, l.2)

/-! ### Words -/

/-- True for a character that a word may hold: every character outside ASCII is taken into
    it, and the word is judged as a whole. -/
def isWordGlyph (g : Glyph) : Bool := g.char.isAlphanum || g.char = '_' || 128 ≤ g.char.toNat

/-- True for a character that a word may begin with. -/
def beginsWord (g : Glyph) : Bool := isWordGlyph g && !g.char.isDigit

/-- The longest word. -/
def scanWord (gs : List Glyph) : Option Lexeme :=
  let word := gs.takeWhile isWordGlyph
  if Text.isIdentifier (word.map Glyph.char) then some (word, gs.dropWhile isWordGlyph) else none

/-! ### Numbers -/

/-- True for `0` and `1`. -/
def isBinaryDigit (c : Char) : Bool := c = '0' || c = '1'

/-- True for `0` to `7`. -/
def isOctalDigit (c : Char) : Bool := '0' ≤ c && c ≤ '7'

/-- True for the digits of base 16. -/
def isHexDigit (c : Char) : Bool :=
  c.isDigit || ('a' ≤ c && c ≤ 'f') || ('A' ≤ c && c ≤ 'F')

/-- True if the first glyph is a digit. -/
def startsWithDigit (digit : Char → Bool) : List Glyph → Bool
  | g :: _ => digit g.char
  | [] => false

/-- Digits with single underscores, each of which must be followed by a digit. -/
def digitRun (digit : Char → Bool) : List Glyph → Option Lexeme
  | [] => some ([], [])
  | g :: gs =>
    if digit g.char || (g.char = '_' && startsWithDigit digit gs) then
      (digitRun digit gs).map (Lexeme.after [g])
    else if g.char = '_' then none
    else some ([], g :: gs)

/-- The digits of a number with a base letter; an underscore may come first, and no other
    decimal digit may follow. -/
def basedDigits (digit : Char → Bool) (gs : List Glyph) : Option Lexeme := do
  let (digits, rest) ← digitRun digit gs
  if digits.isEmpty || startsWithDigit Char.isDigit rest then none else some (digits, rest)

/-- The letter of an imaginary number, if there is one. -/
def imaginaryTail : List Glyph → Lexeme
  | g :: gs => if g.char = 'j' || g.char = 'J' then ([g], gs) else ([], g :: gs)
  | [] => ([], [])

/-- What may follow the digits of a number: an exponent and the imaginary letter. An `e`
    without digits after it is not part of the number, but with a sign it is an error. -/
def exponentTail : List Glyph → Option Lexeme
  | [] => some ([], [])
  | e :: gs =>
    if e.char = 'e' || e.char = 'E' then
      match gs with
      | sign :: after =>
        if sign.char = '+' || sign.char = '-' then
          if startsWithDigit Char.isDigit after then do
            let (digits, rest) ← digitRun Char.isDigit after
            some (Lexeme.after (e :: sign :: digits) (imaginaryTail rest))
          else none
        else if sign.char.isDigit then do
          let (digits, rest) ← digitRun Char.isDigit gs
          some (Lexeme.after (e :: digits) (imaginaryTail rest))
        else some ([], e :: gs)
      | [] => some ([], e :: gs)
    else some (imaginaryTail (e :: gs))

/-- What may follow a point. -/
def fractionTail (gs : List Glyph) : Option Lexeme :=
  if startsWithDigit Char.isDigit gs then do
    let (digits, rest) ← digitRun Char.isDigit gs
    return Lexeme.after digits (← exponentTail rest)
  else exponentTail gs

/-- A number without a base letter. Zeros may lead only if all digits are zeros, or if a
    point, an exponent or the imaginary letter follows. -/
def decimalNumber (gs : List Glyph) : Option Lexeme := do
  let (digits, rest) ← digitRun Char.isDigit gs
  match rest with
  | point :: after =>
    if point.char = '.' then return Lexeme.after (digits ++ [point]) (← fractionTail after)
  | [] => pure ()
  let (tail, rest) ← exponentTail rest
  let leadingZero :=
    startsWithDigit (· = '0') digits && digits.any fun g => '1' ≤ g.char && g.char ≤ '9'
  if leadingZero && tail.isEmpty then none else some (digits ++ tail, rest)

/-- The longest number. -/
def scanNumber : List Glyph → Option Lexeme
  | g :: gs =>
    if g.char = '.' then (fractionTail gs).map (Lexeme.after [g])
    else
      match gs with
      | base :: after =>
        let based := fun digit => (basedDigits digit after).map (Lexeme.after [g, base])
        if g.char != '0' then decimalNumber (g :: gs)
        else if base.char = 'x' || base.char = 'X' then based isHexDigit
        else if base.char = 'o' || base.char = 'O' then based isOctalDigit
        else if base.char = 'b' || base.char = 'B' then based isBinaryDigit
        else decimalNumber (g :: gs)
      | [] => decimalNumber [g]
  | [] => none

/-! ### Strings -/

/-- True for the letters that may stand before a plain string, in lower case. -/
def isStringLetters (word : String) : Bool := ["u", "b", "r", "br", "rb"].contains word

/-- True for the letters that make a string a formatted one, in lower case. -/
def isFormatLetters (word : String) : Bool := ["f", "fr", "rf", "t", "tr", "rt"].contains word

/-- A word in lower case; only ASCII letters matter to its users. -/
def lowered (gs : List Glyph) : String := String.ofList (gs.map fun g => g.char.toLower)

/-- True for a quote. -/
def isQuote (c : Char) : Bool := c = '\'' || c = '"'

/-- The opening quotes, three or one, and what follows them. -/
def openingQuotes : List Glyph → Option (List Glyph × List Glyph)
  | a :: b :: c :: gs =>
    if isQuote a.char then
      if a.char = b.char && b.char = c.char then some ([a, b, c], gs) else some ([a], b :: c :: gs)
    else none
  | a :: gs => if isQuote a.char then some ([a], gs) else none
  | [] => none

/-- True if three quotes stand in front. -/
def startsWithThree (quote : Char) : List Glyph → Bool
  | a :: b :: c :: _ => a.char = quote && b.char = quote && c.char = quote
  | _ => false

/-- The rest of a string after its opening quotes, closing quotes included. A character after
    a backslash counts as text. Only three quotes allow line ends. -/
def stringTail (quote : Char) (triple : Bool) : List Glyph → Option Lexeme
  | [] => none
  | g :: gs =>
    if g.char = '\\' then
      match gs with
      | h :: rest => (stringTail quote triple rest).map (Lexeme.after [g, h])
      | [] => none
    else if g.char = quote && !triple then some ([g], gs)
    else if startsWithThree quote (g :: gs) then some (g :: gs.take 2, gs.drop 2)
    else if g.char = '\n' && !triple then none
    else (stringTail quote triple gs).map (Lexeme.after [g])

/-- The longest string whose letters have been read. -/
def scanString (gs : List Glyph) : Option Lexeme := do
  let (quotes, rest) ← openingQuotes gs
  let first ← quotes.head?
  return Lexeme.after quotes (← stringTail first.char (quotes.length = 3) rest)

/-! ### Operators -/

/-- Operators of three characters. -/
def longOperators : List String := ["**=", "//=", ">>=", "<<=", "..."]

/-- Operators of two characters. -/
def pairOperators : List String :=
  ["**", "//", ">>", "<<", "<=", ">=", "==", "!=", "->", "+=", "-=", "*=", "/=", "%=", "&=",
    "|=", "^=", "@=", ":=", "<>"]

/-- Operators and brackets of one character. -/
def singleOperators : List String :=
  ["+", "-", "*", "/", "%", "@", "&", "|", "^", "~", "<", ">", "(", ")", "[", "]", "\x7b",
    "\x7d", ",", ":", ".", ";", "=", "!"]

/-- The longest operator. -/
def scanOperator (gs : List Glyph) : Option Lexeme :=
  if longOperators.contains (textOf (gs.take 3)) then some (gs.take 3, gs.drop 3)
  else if pairOperators.contains (textOf (gs.take 2)) then some (gs.take 2, gs.drop 2)
  else if singleOperators.contains (textOf (gs.take 1)) then some (gs.take 1, gs.drop 1)
  else none

end Framewise.Script
