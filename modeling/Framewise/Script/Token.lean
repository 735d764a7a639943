import Framewise.Source.Span

/-! # Tokens

  A script is a list of tokens: words, numbers, strings and operators, with
  line ends and changes of indentation between them. A formatted string is not
  one token but several: its opening quote, stretches of text, the tokens of the
  expressions in it, and its closing quote.

  Glyphs are the characters of a script with their places. A line ends at a line
  feed, a carriage return or both in a row, and at nothing else.
-/

namespace Framewise.Script

/-! ### Glyphs -/

/-- A character of a script in its place; lines and columns count from 1. -/
structure Glyph where
  /-- The character; every line end is a line feed. -/
  char : Char
  /-- Its line. -/
  line : Nat
  /-- Its column. -/
  column : Nat
  deriving DecidableEq, Repr, Inhabited

/-- The glyphs of characters that begin at a place. -/
def glyphsFrom (line column : Nat) : List Char → List Glyph
  | [] => []
  | '\r' :: '\n' :: cs => ⟨'\n', line, column⟩ :: glyphsFrom (line + 1) 1 cs
  | c :: cs =>
    if c = '\r' || c = '\n' then ⟨'\n', line, column⟩ :: glyphsFrom (line + 1) 1 cs
    else ⟨c, line, column⟩ :: glyphsFrom line (column + 1) cs

/-- The characters of a script without the mark that may open a file. -/
def dropByteOrderMark : List Char → List Char
  | [] => []
  | c :: cs => if c.toNat = 0xFEFF then cs else c :: cs

/-- The glyphs of a script. -/
def glyphsOf (code : String) : List Glyph := glyphsFrom 1 1 (dropByteOrderMark code.toList)

/-- The text of glyphs. -/
def textOf (gs : List Glyph) : String := String.ofList (gs.map Glyph.char)

/-! ### Tokens -/

/-- The kinds of tokens. -/
inductive TokenKind where
  /-- A name or a keyword. -/
  | word
  | number
  /-- A string with its letters and quotes. -/
  | string
  /-- The letters and the opening quote of a formatted string. -/
  | formatOpen
  /-- A stretch of text in a formatted string. -/
  | formatText
  /-- The closing quote of a formatted string. -/
  | formatClose
  | operator
  /-- The end of a logical line. -/
  | newline
  | indent
  | dedent
  deriving DecidableEq, Repr, Inhabited

/-- A token in its place. -/
structure Token where
  /-- What it is. -/
  kind : TokenKind
  /-- Its text, empty for line ends and changes of indentation. -/
  text : String := ""
  /-- Where it is. -/
  span : Span := ⟨0, 0, 0, 0⟩
  deriving DecidableEq, Repr, Inhabited

namespace Token

/-- True for an operator or bracket. -/
def isOperator (t : Token) (text : String) : Bool := t.kind = .operator && t.text = text

/-- True for a word. -/
def isWord (t : Token) (text : String) : Bool := t.kind = .word && t.text = text

end Token

/-- The words that are no names. -/
def keywords : List String :=
  ["False", "None", "True", "and", "as", "assert", "async", "await", "break", "class",
    "continue", "def", "del", "elif", "else", "except", "finally", "for", "from", "global",
    "if", "import", "in", "is", "lambda", "nonlocal", "not", "or", "pass", "raise", "return",
    "try", "while", "with", "yield"]

end Framewise.Script
