import Framewise.Number.Read

/-! # Lexemes of a TOML document

  White space, comments, strings and keys. A reader takes the rest of the
  document and gives what it read with what follows; `none` means that the
  document is not well-formed there. The document's line ends are line feeds.
-/

namespace Framewise.Toml

/-- What a reader leaves of the document. -/
abbrev Rest := List Char

/-- A key as it is written: parts between dots. -/
abbrev Key := List String

/-! ### Characters -/

/-- White space within a line. -/
def isBlank (c : Char) : Bool := c = ' ' || c = '\t'

/-- White space or a line end. -/
def isBlankOrNewline (c : Char) : Bool := isBlank c || c = '\n'

/-- A control character other than the tab; it must not stand in comments and strings. -/
def isControl (c : Char) : Bool := (c.toNat < 32 && c != '\t') || c.toNat = 127

/-- A character of a key without quotes. -/
def isBare (c : Char) : Bool := c.isAlphanum || c = '-' || c = '_'

/-! ### White space and comments -/

/-- Skips white space within the line. -/
def skipBlank (cs : List Char) : List Char := cs.dropWhile isBlank

/-- Skips the rest of a comment, up to the line end. -/
def skipCommentText : List Char → Option (List Char)
  | [] => some []
  | c :: cs => if c = '\n' then some (c :: cs) else if isControl c then none else skipCommentText cs

/-- Skips a comment, if there is one. -/
def skipComment : List Char → Option (List Char)
  | '#' :: cs => skipCommentText cs
  | cs => some cs

/-- Skips white space, line ends and comments; `comment` says that one has begun. -/
def skipSpace (comment : Bool) : List Char → Option (List Char)
  | [] => some []
  | c :: cs =>
    if comment then
      if c = '\n' then skipSpace false cs else if isControl c then none else skipSpace true cs
    else if isBlankOrNewline c then skipSpace false cs
    else if c = '#' then skipSpace true cs
    else some (c :: cs)

/-! ### Strings -/

/-- Where a reader is inside a string with escapes. -/
inductive StringMode where
  /-- Between escapes. -/
  | plain
  /-- After a backslash. -/
  | escape
  /-- In a number of a character: digits to come, and the value so far. -/
  | code (left value : Nat)
  /-- After a backslash that joins lines, before the line end. -/
  | joint
  /-- After a backslash that joins lines, behind the line end. -/
  | indent
  deriving DecidableEq, Repr, Inhabited

/-- The character of an escape with one letter. -/
def escaped? : Char → Option Char
  | 'b' => some '\x08'
  | 't' => some '\t'
  | 'n' => some '\n'
  | 'f' => some '\x0c'
  | 'r' => some '\r'
  | '"' => some '"'
  | '\\' => some '\\'
  | _ => none

/-- The value of a hexadecimal digit. -/
def hexValue? (c : Char) : Option Nat :=
  if c.isDigit then some (c.toNat - 48)
  else if 'a' ≤ c && c ≤ 'f' then some (c.toNat - 87)
  else if 'A' ≤ c && c ≤ 'F' then some (c.toNat - 55)
  else none

/-- True for the number of a character: in range and not a surrogate. -/
def isScalar (n : Nat) : Bool := n < 0xD800 || (0xDFFF < n && n < 0x110000)

/-- Puts a character in front of what a reader gives. -/
def emit (c : Char) (rest : Option (List Char × Rest)) : Option (List Char × Rest) :=
  rest.map fun (text, cs) => (c :: text, cs)

/-- The text of a string with escapes behind its opening quotes, up to and with the closing
    ones; `multi` says that it may hold line ends and is closed by three quotes. -/
def basicText (multi : Bool) : StringMode → List Char → Option (List Char × Rest)
  | _, [] => none
  | .escape, c :: cs =>
    if c = 'u' then basicText multi (.code 4 0) cs
    else if c = 'U' then basicText multi (.code 8 0) cs
    else if multi && c = '\n' then basicText multi .indent cs
    else if multi && isBlank c then basicText multi .joint cs
    else (escaped? c).bind fun e => emit e (basicText multi .plain cs)
  | .code left value, c :: cs =>
    (hexValue? c).bind fun d =>
      let value := value * 16 + d
      if 1 < left then basicText multi (.code (left - 1) value) cs
      else if isScalar value then emit (Char.ofNat value) (basicText multi .plain cs)
      else none
  | .joint, c :: cs =>
    if isBlank c then basicText multi .joint cs
    else if c = '\n' then basicText multi .indent cs
    else none
  | mode, c :: cs =>
    if mode = .indent && isBlankOrNewline c then basicText multi .indent cs
    else if c = '\\' then basicText multi .escape cs
    else if c = '"' then
      if !multi then some ([], cs)
      else
        match cs with
        | '"' :: '"' :: rest => some ([], rest)
        | _ => emit c (basicText multi .plain cs)
    else if isControl c && !(multi && c = '\n') then none
    else emit c (basicText multi .plain cs)

/-- The text of a string without escapes behind its opening quotes. -/
def literalText (multi : Bool) : List Char → Option (List Char × Rest)
  | [] => none
  | c :: cs =>
    if c = '\'' then
      if !multi then some ([], cs)
      else
        match cs with
        | '\'' :: '\'' :: rest => some ([], rest)
        | _ => emit c (literalText multi cs)
    else if isControl c && !(multi && c = '\n') then none
    else emit c (literalText multi cs)

/-- Up to two quotes right behind the closing ones still belong to the text. -/
def extraQuotes (quote : Char) (read : List Char × List Char) : List Char × List Char :=
  let (text, cs) := read
  match cs with
  | a :: b :: rest =>
    if a = quote then
      if b = quote then (text ++ [quote, quote], rest) else (text ++ [quote], b :: rest)
    else (text, cs)
  | [a] => if a = quote then (text ++ [quote], []) else (text, cs)
  | [] => (text, cs)

/-- Drops a line end right behind the opening quotes. -/
def dropNewline : List Char → List Char
  | '\n' :: cs => cs
  | cs => cs

/-- A string on one line, of either kind. -/
def readLineString : List Char → Option (String × Rest)
  | '"' :: cs => (basicText false .plain cs).map fun (text, rest) => (String.ofList text, rest)
  | '\'' :: cs => (literalText false cs).map fun (text, rest) => (String.ofList text, rest)
  | _ => none

/-- A string of any kind. -/
def readString : List Char → Option (String × Rest)
  | '"' :: '"' :: '"' :: cs =>
    (basicText true .plain (dropNewline cs)).map fun read =>
      let (text, rest) := extraQuotes '"' read
      (String.ofList text, rest)
  | '\'' :: '\'' :: '\'' :: cs =>
    (literalText true (dropNewline cs)).map fun read =>
      let (text, rest) := extraQuotes '\'' read
      (String.ofList text, rest)
  | cs => readLineString cs

/-! ### Keys -/

/-- One part of a key. -/
def readPart (cs : List Char) : Option (String × Rest) :=
  match cs.takeWhile isBare with
  | [] => readLineString cs
  | bare => some (String.ofList bare, cs.dropWhile isBare)

/-- The parts of a key; `fuel` bounds their number. -/
def readParts : (fuel : Nat) → List Char → Option (Key × Rest)
  | 0, _ => none
  | fuel + 1, cs => do
    let (part, cs) ← readPart cs
    match skipBlank cs with
    | '.' :: cs =>
      let (parts, cs) ← readParts fuel (skipBlank cs)
      return (part :: parts, cs)
    | cs => return ([part], cs)

/-- A key and the white space behind it. -/
def readKey (cs : List Char) : Option (Key × Rest) := readParts (cs.length + 1) cs

end Framewise.Toml
