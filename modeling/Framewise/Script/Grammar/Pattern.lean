import Framewise.Script.Grammar.Expression

/-! # Patterns

  The patterns of a match statement. They are checked and not kept, so their
  parsers give nothing.
-/

namespace Framewise.Script

open Parse

/-- Takes a token or fails, and gives nothing. -/
def skip {α : Type} (p : Parse α) : Parse Unit := do
  let _ ← p
  return ()

/-- A number with an optional sign; gives its text. -/
def signedNumber : Parse String := do
  skip (attempt (operator "-"))
  return (← ofKind .number).text

/-- True for the text of an imaginary number. -/
def isImaginary (text : String) : Bool := text.toList.any fun c => c = 'j' || c = 'J'

/-- A number in a pattern: a signed one, or the sum of a real and an imaginary one. -/
def numberPattern : Parse Unit := do
  let first ← signedNumber
  match ← attempt (operatorIn ["+", "-"]) with
  | some _ =>
    let second ← ofKind .number
    let base16 := first.toList.any fun c => c = 'x' || c = 'X'
    require ((base16 || !isImaginary first) && isImaginary second.text)
  | none => return ()

/-- A dotted name; gives the number of its parts. -/
def dottedPattern : Parse Nat := do
  skip identifier
  let parts ← many (do
    let _ ← operator "."
    identifier)
  return parts.length + 1

/-- A name that a pattern binds, which is not the underscore. -/
def captureName : Parse Unit := do
  let name ← identifier
  require (name.text != "_")
  require !(← sees fun t => t.isOperator "." || t.isOperator "(" || t.isOperator "=")

section Grammar

variable (n : Nested) (pattern : Parse Unit)

/-- A star with the name that takes the rest of a sequence. -/
def starPattern : Parse Unit := do
  skip (operator "*")
  skip identifier

/-- An element of a sequence. -/
def elementPattern : Parse Unit := do
  if ← seesOperator "*" then starPattern else pattern

/-- Elements with commas between them; gives their number and whether a comma ends them. -/
def elementPatterns : Parse (Nat × Bool) := do
  let (elements, comma) ← commaList (elementPattern pattern)
  return (elements.length, comma.isSome)

/-- A group or a sequence in parentheses. -/
def parenthesisPattern : Parse Unit := do
  skip (operator "(")
  if ← seesOperator ")" then skip (operator ")")
  else
    let starred ← seesOperator "*"
    let (count, comma) ← elementPatterns pattern
    require (!starred || comma || 1 < count)
    skip (operator ")")

/-- A sequence in square brackets. -/
def bracketPattern : Parse Unit := do
  skip (operator "[")
  if ← seesOperator "]" then skip (operator "]")
  else
    skip (elementPatterns pattern)
    skip (operator "]")

/-- A key of a mapping: a literal or a dotted name of several parts. -/
def keyPattern : Parse Unit := do
  let t ← peek
  match t.map Token.kind with
  | some .string => skip (strings n)
  | some .formatOpen => skip (strings n)
  | some .word =>
    let t ← peek
    if ((t.map Token.text).bind constantOf?).isSome then skip (ofKind .word)
    else require (1 < (← dottedPattern))
  | _ => numberPattern

/-- An entry of a mapping. -/
def entryPattern : Parse Unit := do
  keyPattern n
  skip (operator ":")
  pattern

/-- The name that takes the rest of a mapping. -/
def restPattern : Parse Unit := do
  skip (operator "**")
  captureName

/-- A mapping; the name for the rest comes last. -/
def mappingPattern : Parse Unit := do
  skip (operator "\x7b")
  if ← seesOperator "\x7d" then skip (operator "\x7d")
  else
    if ← seesOperator "**" then restPattern
    else
      skip (entryPattern n pattern)
      skip (many (do
        skip (operator ",")
        entryPattern n pattern))
      skip (attempt (do
        skip (operator ",")
        restPattern))
    skip (attempt (operator ","))
    skip (operator "\x7d")

/-- The arguments of a class pattern; no plain one may follow a keyword. -/
def classArguments : (fuel : Nat) → (keyword : Bool) → Parse Unit
  | 0, _ => failure
  | fuel + 1, keyword => do
    if ← seesOperator ")" then return ()
    else
      let named ← seesKeyword
      require (named || !keyword)
      if named then
        skip identifier
        skip (operator "=")
      pattern
      if ← seesOperator "," then
        skip (operator ",")
        classArguments fuel (keyword || named)
      else return ()

/-- A pattern that begins with a word: a constant, a name, a dotted name or a class. -/
def wordPattern : Parse Unit := do
  let t ← peek
  if ((t.map Token.text).bind constantOf?).isSome then skip (ofKind .word)
  else
    skip dottedPattern
    if ← seesOperator "(" then
      skip (operator "(")
      let ts ← get
      classArguments pattern (ts.length + 1) false
      skip (operator ")")
    else require !(← seesOperator "=")

/-- A pattern without alternatives. -/
def closedPattern : Parse Unit := do
  let t ← peek
  match t with
  | none => failure
  | some t =>
    match t.kind with
    | .word => wordPattern pattern
    | .string => skip (strings n)
    | .formatOpen => skip (strings n)
    | .operator =>
      if t.text = "(" then parenthesisPattern pattern
      else if t.text = "[" then bracketPattern pattern
      else if t.text = "\x7b" then mappingPattern n pattern
      else numberPattern
    | _ => numberPattern

/-- A pattern with alternatives and a name. -/
def anyPattern : Parse Unit := do
  closedPattern n pattern
  skip (many (do
    skip (operator "|")
    closedPattern n pattern))
  if ← seesWord "as" then
    skip (word "as")
    captureName

end Grammar

/-- Patterns nested at most a number of levels deep. -/
def patternUpTo (n : Nested) : (depth : Nat) → Parse Unit
  | 0 => failure
  | depth + 1 => anyPattern n (patternUpTo n depth)

/-- The patterns of a case: one, or several that stand for a sequence. -/
def casePatterns (n : Nested) : Parse Unit := do
  let ts ← get
  let starred ← seesOperator "*"
  let (count, comma) ← elementPatterns (patternUpTo n (ts.length + 1))
  require (!starred || comma || 1 < count)

end Framewise.Script
