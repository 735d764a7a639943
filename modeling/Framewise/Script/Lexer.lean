import Framewise.Script.Lexeme

/-! # From text to tokens

  The lexer walks over the glyphs of a script with a small state: the open
  brackets, the levels of indentation and the formatted strings it is in.

  - Inside brackets a line end means nothing; elsewhere it ends a logical line.
  - Lines that are blank or hold a comment alone do not count for indentation. A
    tab reaches the next multiple of eight; counted as one column it must lead to
    the same order of levels, and a deeper level must begin with the very white
    space of the level around it.
  - Places are those of the script in a regular layout: the white space in front
    of a logical line is that of its block, so a form feed in it takes no column.
  - A formatted string holds text until a brace opens an expression; a colon on
    the expression's own level begins a format, which is text again. Only three
    quotes allow line ends in text; in an expression they are always allowed.

  Main definitions:
  - `Lexer.step`: one step of the walk.
  - `lex`: the tokens and the comments of a script, `none` if it has no tokens.
-/

namespace Framewise.Script

/-! ### State -/

/-- A level of indentation. -/
structure Level where
  /-- Its width with tabs to the next multiple of eight. -/
  width : Nat
  /-- Its width with a tab as one column. -/
  narrowWidth : Nat
  /-- The white space itself. -/
  blank : List Char
  deriving DecidableEq, Repr, Inhabited

/-- An open formatted string. -/
structure FormatFrame where
  /-- The quote that ends it. -/
  quote : Char
  /-- Whether three of them do. -/
  triple : Bool
  /-- Whether a backslash is an ordinary character. -/
  raw : Bool
  /-- The number of brackets open in it. -/
  depth : Nat := 0
  /-- The number of formats begun in it. -/
  formats : Nat := 0
  deriving DecidableEq, Repr, Inhabited

namespace FormatFrame

/-- True where expressions are read. -/
def inExpression (f : FormatFrame) : Bool := f.formats < f.depth

/-- True in the text after a colon. -/
def inFormat (f : FormatFrame) : Bool := !f.inExpression && 0 < f.formats

/-- The frame after a bracket opens. -/
def opened (f : FormatFrame) : FormatFrame := { f with depth := f.depth + 1 }

/-- The frame after a bracket closes; with the last one the formats end too. -/
def closed (f : FormatFrame) : FormatFrame :=
  { f with depth := f.depth - 1, formats := if f.depth ≤ 1 then 0 else f.formats }

/-- True if the frame's closing quotes stand in front. -/
def endsAt (f : FormatFrame) : List Glyph → Bool
  | g :: gs =>
    if f.triple then startsWithThree f.quote (g :: gs) else g.char = f.quote
  | [] => false

end FormatFrame

/-- The state of the lexer. -/
structure Lexer where
  /-- The glyphs that are left. -/
  rest : List Glyph
  /-- True before the first token of a line. -/
  atLineStart : Bool := true
  /-- The brackets that are open, innermost first. -/
  brackets : List Char := []
  /-- The levels of indentation, innermost first. -/
  levels : List Level := []
  /-- The formatted strings that are open, innermost first. -/
  frames : List FormatFrame := []
  /-- The line that opened the current logical line. -/
  marginLine : Nat := 0
  /-- The white space in front of that line in the regular layout. -/
  margin : Nat := 0
  /-- The white space in front of it in the script. -/
  written : Nat := 0
  /-- The number of lines that the regular layout leaves out. -/
  dropped : Nat := 0
  /-- The tokens so far, last first. -/
  tokens : List Token := []
  /-- The comments so far with their lines, last first. -/
  comments : List (Int × String) := []
  deriving Repr, Inhabited

namespace Lexer

/-! ### Places -/

/-- The column of a glyph in the regular layout. -/
def columnOf (l : Lexer) (g : Glyph) : Nat :=
  if g.line = l.marginLine then g.column + l.margin - l.written else g.column

/-- The line of a glyph in the regular layout. -/
def lineOf (l : Lexer) (g : Glyph) : Nat := g.line - l.dropped

/-- The span of glyphs. -/
def spanOf (l : Lexer) (gs : List Glyph) : Span :=
  match gs.head?, gs.getLast? with
  | some first, some last =>
    ⟨l.lineOf first, l.columnOf first, l.lineOf last, l.columnOf last + 1⟩
  | _, _ => ⟨0, 0, 0, 0⟩

/-- Adds a token made of glyphs, with `rest` left after it. -/
def emit (l : Lexer) (kind : TokenKind) (gs rest : List Glyph) : Lexer :=
  { l with rest := rest, tokens := ⟨kind, textOf gs, l.spanOf gs⟩ :: l.tokens }

/-- Adds a token without text. -/
def mark (l : Lexer) (kind : TokenKind) : Lexer := { l with tokens := { kind := kind } :: l.tokens }

/-! ### Blanks and comments -/

/-- True for the characters that separate tokens. -/
def isGap (c : Char) : Bool := c = ' ' || c = '\t' || c.toNat = 12

/-- Skips the comment in front. -/
def skipComment (l : Lexer) : Lexer :=
  match l.rest with
  | g :: _ =>
    let text := l.rest.takeWhile fun h => h.char != '\n'
    { l with rest := l.rest.dropWhile fun h => h.char != '\n',
             comments := (l.lineOf g, textOf text) :: l.comments }
  | [] => l

/-! ### Indentation -/

/-- The two widths of white space; a form feed begins anew. -/
def widths (blank : List Char) : Nat × Nat :=
  blank.foldl (fun (width, narrow) c =>
    if c = ' ' then (width + 1, narrow + 1)
    else if c = '\t' then ((width / 8 + 1) * 8, narrow + 1)
    else (0, 0)) (0, 0)

/-- Closes levels until one is not wider than `width`. -/
def closeLevels (width : Nat) : List Level → Lexer → Lexer
  | level :: rest, l =>
    if width < level.width then closeLevels width rest { (l.mark .dedent) with levels := rest }
    else l
  | [], l => l

/-- The two widths of the innermost level. -/
def currentWidths (l : Lexer) : Nat × Nat :=
  match l.levels with
  | level :: _ => (level.width, level.narrowWidth)
  | [] => (0, 0)

/-- The white space of the innermost level. -/
def currentBlank (l : Lexer) : List Char :=
  match l.levels with
  | level :: _ => level.blank
  | [] => []

/-- Opens and closes levels for a logical line that begins after `blank`. -/
def indentTo (l : Lexer) (blank : List Char) : Option Lexer :=
  let (width, narrow) := widths blank
  let (currentWidth, currentNarrow) := l.currentWidths
  if width = currentWidth then if narrow = currentNarrow then some l else none
  else if currentWidth < width then
    if currentNarrow < narrow && l.currentBlank.isPrefixOf blank then
      some { (l.mark .indent) with levels := ⟨width, narrow, blank⟩ :: l.levels }
    else none
  else
    let closed := closeLevels width l.levels l
    if closed.currentWidths = (width, narrow) then some closed else none

/-- Sets the margin for a logical line that begins with the glyphs left. -/
def setMargin (l : Lexer) : Lexer :=
  match l.rest with
  | g :: _ =>
    { l with atLineStart := false, marginLine := g.line, margin := l.currentBlank.length,
             written := g.column - 1 }
  | [] => l

/-- True if a line end or a comment stands in front. -/
def endsLine : List Glyph → Bool
  | g :: _ => g.char = '\n' || g.char = '#'
  | [] => true

/-- Begins a line: skips it if it is blank or a comment, else settles its indentation. A line
    that begins with a continuation keeps the level it has, and is joined to the next. -/
def beginLine (l : Lexer) : Option Lexer :=
  let blank := l.rest.takeWhile fun g => isGap g.char
  let l := { l with rest := l.rest.dropWhile fun g => isGap g.char }
  match l.rest with
  | [] => some l
  | g :: gs =>
    if g.char = '\n' then some { l with rest := gs }
    else if g.char = '#' then some l.skipComment
    else if !l.brackets.isEmpty then some { l with atLineStart := false }
    else if g.char = '\\' then
      match gs with
      | h :: gs =>
        if h.char != '\n' || gs.isEmpty then none
        else
          let l := { l with rest := gs.dropWhile fun g => isGap g.char }
          if endsLine l.rest then some l
          else some { l with dropped := l.dropped + 1 }.setMargin
      | [] => none
    else (l.indentTo (blank.map Glyph.char)).map setMargin

/-! ### Formatted strings -/

/-- The text of a formatted string up to an expression, a format's end, the closing quote or
    a line end that is not allowed. `named` is true inside the braces of a named character. -/
def formatText (f : FormatFrame) :
    (fuel : Nat) → (named : Bool) → List Glyph → Lexeme
  | 0, _, gs => ([], gs)
  | _ + 1, _, [] => ([], [])
  | fuel + 1, named, g :: gs =>
    let more (named : Bool) (taken rest : List Glyph) : Lexeme :=
      Lexeme.after taken (formatText f fuel named rest)
    if isQuote g.char then
      if f.endsAt (g :: gs) then ([], g :: gs) else more named [g] gs
    else if g.char = '\n' && !f.triple then ([], g :: gs)
    else if g.char = '\\' then
      match gs with
      | [] => ([g], [])
      | h :: rest =>
        if f.raw then
          if isQuote h.char || h.char = '\\' then more named [g, h] rest else more named [g] gs
        else if f.inFormat then
          if h.char = '\x7b' || h.char = '\x7d' then more named [g] gs else more named [g, h] rest
        else
          match rest with
          | k :: after =>
            if h.char = 'N' && k.char = '\x7b' then more true [g, h, k] after
            else more named [g, h] rest
          | [] => more named [g, h] rest
    else if g.char = '\x7d' && named then more false [g] gs
    else if (g.char = '\x7b' || g.char = '\x7d') && !named then
      match gs with
      | h :: rest => if h.char = g.char && !f.inFormat then more named [g, h] rest else ([], g :: gs)
      | [] => ([], g :: gs)
    else more named [g] gs

/-- The text or the closing quote of a formatted string, where one is due. -/
def formatPart? (l : Lexer) : Option Lexer :=
  match l.frames with
  | [] => none
  | f :: outer =>
    if f.inExpression then none
    else
      let (text, rest) := formatText f l.rest.length false l.rest
      if !text.isEmpty then some (l.emit .formatText text rest)
      else if f.endsAt l.rest then
        let n := if f.triple then 3 else 1
        some { l.emit .formatClose (l.rest.take n) (l.rest.drop n) with frames := outer }
      else none

/-- Opens a formatted string whose letters are given. -/
def openFormat (l : Lexer) (letters rest : List Glyph) : Option Lexer := do
  let (quotes, after) ← openingQuotes rest
  let first ← quotes.head?
  let frame : FormatFrame :=
    { quote := first.char, triple := quotes.length = 3,
      raw := letters.any fun g => g.char.toLower = 'r' }
  return { l.emit .formatOpen (letters ++ quotes) after with frames := frame :: l.frames }

/-! ### Tokens -/

/-- A word, or a string with letters in front. -/
def wordOrString (l : Lexer) : Option Lexer := do
  let letters := l.rest.takeWhile isWordGlyph
  let rest := l.rest.dropWhile isWordGlyph
  let quoted := match rest with
    | g :: _ => isQuote g.char
    | [] => false
  if quoted && isFormatLetters (lowered letters) then l.openFormat letters rest
  else if quoted && isStringLetters (lowered letters) then do
    let (body, rest) ← scanString rest
    return l.emit .string (letters ++ body) rest
  else
    let (word, rest) ← scanWord l.rest
    return l.emit .word word rest

/-- The bracket that closes an opening one. -/
def closingOf (c : Char) : Char :=
  if c = '(' then ')' else if c = '[' then ']' else '\x7d'

/-- Applies a change to the innermost formatted string. -/
def updateFrame (l : Lexer) (change : FormatFrame → FormatFrame) : Lexer :=
  match l.frames with
  | f :: outer => { l with frames := change f :: outer }
  | [] => l

/-- True if a colon here begins a format. -/
def beginsFormat (l : Lexer) : Bool :=
  match l.frames with
  | f :: _ => f.depth = f.formats + 1
  | [] => false

/-- Opens a bracket. -/
def openBracket (l : Lexer) (c : Char) : Lexer :=
  { (l.updateFrame FormatFrame.opened) with brackets := c :: l.brackets }

/-- Closes a bracket, which must match the one opened last. -/
def closeBracket (l : Lexer) (c : Char) : Option Lexer :=
  match l.brackets with
  | opening :: outer =>
    if closingOf opening = c then
      some { (l.updateFrame FormatFrame.closed) with brackets := outer }
    else none
  | [] => none

/-- An operator or bracket. -/
def operator (l : Lexer) (g : Glyph) (gs : List Glyph) : Option Lexer := do
  if g.char = ':' && l.beginsFormat then
    return (l.emit .operator [g] gs).updateFrame fun f => { f with formats := f.formats + 1 }
  let (text, rest) ← scanOperator (g :: gs)
  let l := l.emit .operator text rest
  if g.char = '(' || g.char = '[' || g.char = '\x7b' then return l.openBracket g.char
  else if g.char = ')' || g.char = ']' || g.char = '\x7d' then l.closeBracket g.char
  else return l

/-- One token after the white space in front of it. -/
def token (l : Lexer) (g : Glyph) (gs : List Glyph) : Option Lexer :=
  if g.char = '#' then some l.skipComment
  else if g.char = '\n' then
    let next := { l with rest := gs, atLineStart := true }
    some (if l.brackets.isEmpty then next.mark .newline else next)
  else if g.char = '\\' then
    match gs with
    | h :: rest => if h.char = '\n' && !rest.isEmpty then some { l with rest := rest } else none
    | [] => none
  else if beginsWord g then l.wordOrString
  else if g.char.isDigit || (g.char = '.' && startsWithDigit Char.isDigit gs) then do
    let (number, rest) ← scanNumber (g :: gs)
    return l.emit .number number rest
  else if isQuote g.char then do
    let (text, rest) ← scanString (g :: gs)
    return l.emit .string text rest
  else l.operator g gs

/-- True in the text of a formatted string at a line end that it must not hold. -/
def brokenFormat (l : Lexer) : Bool :=
  match l.frames, l.rest with
  | f :: _, g :: _ => !f.inExpression && !f.triple && g.char = '\n'
  | _, _ => false

/-- One step; `none` if no token can stand here. -/
def step (l : Lexer) : Option Lexer :=
  match l.formatPart? with
  | some next => some next
  | none =>
    if l.brokenFormat then none
    else if l.atLineStart then l.beginLine
    else
      match l.rest.dropWhile fun g => isGap g.char with
      | [] => some { l with rest := [] }
      | g :: gs => { l with rest := g :: gs }.token g gs

/-- Steps until no glyph is left; `fuel` bounds their number. -/
def run : (fuel : Nat) → Lexer → Option Lexer
  | 0, l => if l.rest.isEmpty then some l else none
  | fuel + 1, l => if l.rest.isEmpty then some l else l.step.bind (run fuel)

/-- Ends the last line and closes all levels. -/
def finish (l : Lexer) : Lexer :=
  let l := if l.atLineStart then l else l.mark .newline
  closeLevels 0 l.levels l

end Lexer

/-! ### Scripts -/

/-- The tokens of a script, and its comments with their lines. -/
structure Lexed where
  /-- The tokens in order. -/
  tokens : List Token
  /-- The comments in order. -/
  comments : List (Int × String)
  deriving Repr, Inhabited

/-- The tokens of a script; `none` if it has no tokens. -/
def lex (code : String) : Option Lexed :=
  let glyphs := glyphsOf code
  ((Lexer.run (2 * glyphs.length) { rest := glyphs }).map Lexer.finish).map fun l =>
    ⟨l.tokens.reverse, l.comments.reverse⟩

end Framewise.Script
