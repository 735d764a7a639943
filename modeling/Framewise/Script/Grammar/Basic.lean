import Framewise.Script.Syntax
import Framewise.Script.Token

/-! # Parsers

  A parser reads some tokens from the front and gives a result with the tokens
  that are left, or nothing. Choices are ordered and decided by the next token
  wherever that is possible.
-/

namespace Framewise.Script

/-- A parser: it takes tokens from the front, or fails. -/
abbrev Parse := StateT (List Token) Option

namespace Parse

/-! ### Single tokens -/

/-- The next token, if there is one. -/
def peek : Parse (Option Token) := fun ts => some (ts.head?, ts)

/-- True if the next token is as wanted. -/
def sees (wanted : Token → Bool) : Parse Bool := fun ts => some ((ts.head?.map wanted).getD false, ts)

/-- Takes a token that is as wanted. -/
def satisfy (wanted : Token → Bool) : Parse Token
  | t :: ts => if wanted t then some (t, ts) else none
  | [] => none

/-- Takes an operator or bracket. -/
def operator (text : String) : Parse Token := satisfy fun t => t.isOperator text

/-- Takes one of several operators. -/
def operatorIn (texts : List String) : Parse Token :=
  satisfy fun t => t.kind = .operator && texts.contains t.text

/-- Takes a certain word. -/
def word (text : String) : Parse Token := satisfy fun t => t.isWord text

/-- Takes a token of a kind. -/
def ofKind (kind : TokenKind) : Parse Token := satisfy fun t => t.kind = kind

/-- Takes a word that is a name. -/
def identifier : Parse Token := satisfy fun t => t.kind = .word && !keywords.contains t.text

/-- True if an operator comes next. -/
def seesOperator (text : String) : Parse Bool := sees fun t => t.isOperator text

/-- True if a certain word comes next. -/
def seesWord (text : String) : Parse Bool := sees fun t => t.isWord text

/-- Fails unless a condition holds. -/
def require (holds : Bool) : Parse Unit := fun ts => if holds then some ((), ts) else none

/-! ### Repetition -/

/-- What a parser gives, or nothing if it fails; then no token is taken. -/
def attempt {α : Type} (p : Parse α) : Parse (Option α) := fun ts =>
  match p ts with
  | some (a, rest) => some (some a, rest)
  | none => some (none, ts)

/-- Applies a parser as often as it succeeds, at most `n` times. -/
def manyUpTo {α : Type} (p : Parse α) : Nat → Parse (List α)
  | 0 => pure []
  | n + 1 => fun ts =>
    match p ts with
    | some (a, rest) => ((manyUpTo p n).run rest).map fun (as, rest) => (a :: as, rest)
    | none => some ([], ts)

/-- Applies a parser as often as it succeeds. -/
def many {α : Type} (p : Parse α) : Parse (List α) := fun ts => manyUpTo p ts.length ts

/-- Applies a parser as often as it succeeds, at least once. -/
def many1 {α : Type} (p : Parse α) : Parse (List α) := do
  let a ← p
  return a :: (← many p)

/-- Items with commas between them; a comma after the last one is given too. -/
def commaList {α : Type} (item : Parse α) : Parse (List α × Option Token) := do
  let a ← item
  let as ← many (do
    let _ ← operator ","
    item)
  return (a :: as, ← attempt (operator ","))

end Parse

/-! ### Spans -/

/-- The span from the start of one to the end of another. -/
def spanning (a b : Span) : Span := ⟨a.startLine, a.startColumn, b.endLine, b.endColumn⟩

/-- The empty span where another begins. -/
def spanBefore (a : Span) : Span := ⟨a.startLine, a.startColumn, a.startLine, a.startColumn⟩

/-- The extent of the last of several expressions. -/
def lastExtent (fallback : Span) (es : List Expr) : Span :=
  (es.getLast?.map Expr.extent).getD fallback

/-! ### Targets -/

mutual

/-- True if something can be assigned to an expression; in an unpacking, stars are allowed. -/
def isTarget : Expr → Bool
  | .name _ _ => true
  | .attribute _ _ _ => true
  | .subscript _ _ _ => true
  | .sequence _ kind elements => kind != .set && areTargets elements
  | .parenthesized _ inner => isTarget inner && !inner.isStarred
  | .starred _ inner => isTarget inner && !inner.isStarred
  | _ => false

/-- `isTarget` for each of several expressions. -/
def areTargets : List Expr → Bool
  | [] => true
  | e :: es => isTarget e && areTargets es

end

/-- True for a name, an attribute or a subscript. -/
def isPlace : Expr → Bool
  | .name _ _ => true
  | .attribute _ _ _ => true
  | .subscript _ _ _ => true
  | _ => false

/-- True for a place, in any number of parentheses. -/
def isSinglePlace : Expr → Bool
  | .parenthesized _ inner => isSinglePlace inner
  | e => isPlace e

mutual

/-- True if an expression can be deleted. -/
def isDeletable : Expr → Bool
  | .name _ _ => true
  | .attribute _ _ _ => true
  | .subscript _ _ _ => true
  | .sequence _ kind elements => kind != .set && areDeletable elements
  | .parenthesized _ inner => isDeletable inner
  | _ => false

/-- `isDeletable` for each of several expressions. -/
def areDeletable : List Expr → Bool
  | [] => true
  | e :: es => isDeletable e && areDeletable es

end

end Framewise.Script
