import Framewise.Script.Grammar.Pattern
import Framewise.Script.Lexer

/-! # Statements

  The grammar of statements. A compound statement holds bodies of further
  statements; the parser of these is an argument, and `statementUpTo` ties the
  knot as `nested` does for expressions.

  Main definitions:
  - `Script.Source`: a script that has been read.
  - `Script.parse`: reads a script, `none` if its syntax is wrong.
-/

namespace Framewise.Script

open Parse

/-! ### Simple statements -/

section Simple

variable (n : Nested)

/-- A dotted name. -/
def dottedName : Parse Expr := do
  let first ← identifier
  let parts ← many (do
    let _ ← operator "."
    identifier)
  return parts.foldl (fun e part => .attribute (spanning first.span part.span) e part.text)
    (.name first.span first.text)

/-- A name given behind `as`, if one is. -/
def aliasName : Parse (List Expr) := do
  if ← seesWord "as" then
    let _ ← word "as"
    let name ← identifier
    return [.name name.span name.text]
  else return []

/-- A simple statement that begins with a keyword and holds operands. -/
def keywordStatement (kind : SimpleKind) (keyword : Token) (operands : List Expr) : Stmt :=
  .simple (spanning keyword.span (lastExtent keyword.span operands)) kind operands

/-- An import of modules. -/
def importStatement : Parse Stmt := do
  let keyword ← word "import"
  let first ← dottedItem
  let others ← many (do
    let _ ← operator ","
    dottedItem)
  return keywordStatement .import keyword (first ++ others.flatten)
where
  /-- A module with the name it is given. -/
  dottedItem : Parse (List Expr) := do
    let name ← dottedName
    return name :: (← aliasName)

/-- A name imported from a module, with the name it is given. -/
def importedName : Parse (List Expr) := do
  let name ← identifier
  return .name name.span name.text :: (← aliasName)

/-- The names imported from a module, and where they end. -/
def importedNames : Parse (List Expr × Span) := do
  if ← seesOperator "*" then
    let star ← operator "*"
    return ([], star.span)
  else if ← seesOperator "(" then
    let _ ← operator "("
    let (names, _) ← commaList importedName
    let closing ← operator ")"
    return (names.flatten, closing.span)
  else
    let first ← importedName
    let others ← many (do
      let _ ← operator ","
      importedName)
    let names := first ++ others.flatten
    return (names, lastExtent ⟨0, 0, 0, 0⟩ names)

/-- An import of names from a module. -/
def importFromStatement : Parse Stmt := do
  let keyword ← word "from"
  let dots ← many (operatorIn [".", "..."])
  let module ← if dots.isEmpty then some <$> dottedName else attempt dottedName
  let _ ← word "import"
  let (names, stop) ← importedNames
  return .simple (spanning keyword.span stop) .importFrom (module.toList ++ names)

/-- True before the end of a simple statement. -/
def seesStatementEnd : Parse Bool := sees fun t => t.kind = .newline || t.isOperator ";"

/-- A deletion. -/
def deleteStatement : Parse Stmt := do
  let keyword ← word "del"
  let target ← starExpressions n
  require (isDeletable target)
  require (← seesStatementEnd)
  return keywordStatement .delete keyword [target]

/-- A declaration of names. -/
def declaration (kind : SimpleKind) (text : String) : Parse Stmt := do
  let keyword ← word text
  let first ← identifier
  let others ← many (do
    let _ ← operator ","
    identifier)
  return keywordStatement kind keyword ((first :: others).map fun t => .name t.span t.text)

/-- An assertion. -/
def assertStatement : Parse Stmt := do
  let keyword ← word "assert"
  let test ← n.expression
  let message ←
    if ← seesOperator "," then do
      let _ ← operator ","
      some <$> n.expression
    else pure none
  return keywordStatement .assert keyword (test :: message.toList)

/-- A raise. -/
def raiseStatement : Parse Stmt := do
  let keyword ← word "raise"
  match ← attempt n.expression with
  | none => return keywordStatement .raise keyword []
  | some e =>
    let cause ←
      if ← seesWord "from" then do
        let _ ← word "from"
        some <$> n.expression
      else pure none
    return keywordStatement .raise keyword (e :: cause.toList)

/-- A return. -/
def returnStatement : Parse Stmt := do
  let keyword ← word "return"
  let value ← attempt (starExpressions n)
  return .return (spanning keyword.span ((value.map Expr.extent).getD keyword.span)) value

/-- The default behind an equals sign, if there is one. -/
def fallbackOf (p : Parse Expr) : Parse (Option Expr) := do
  if ← seesOperator "=" then
    let _ ← operator "="
    some <$> p
  else return none

/-- A type parameter. -/
def typeParameter : Parse TypeParameter := do
  if ← seesOperator "*" then
    let _ ← operator "*"
    let name ← identifier
    return { span := name.span, name := name.text, fallback := ← fallbackOf (starExpression n) }
  else if ← seesOperator "**" then
    let _ ← operator "**"
    let name ← identifier
    return { span := name.span, name := name.text, fallback := ← fallbackOf n.expression }
  else
    let name ← identifier
    let bound ← typeHint true n.expression
    return { span := name.span, name := name.text, bound := bound,
             fallback := ← fallbackOf n.expression }

/-- Type parameters in square brackets, if there are any. -/
def typeParameters : Parse (List TypeParameter) := do
  if ← seesOperator "[" then
    let _ ← operator "["
    let (ps, _) ← commaList (typeParameter n)
    let _ ← operator "]"
    return ps
  else return []

/-- A type alias. -/
def typeAliasStatement : Parse Stmt := do
  let keyword ← word "type"
  let name ← identifier
  let ps ← typeParameters n
  let _ ← operator "="
  let value ← n.expression
  return .typeAlias (spanning keyword.span value.extent) (.name name.span name.text) ps value

/-- The operators of an assignment that updates its target. -/
def augmentedOperators : List String :=
  ["+=", "-=", "*=", "/=", "//=", "%=", "@=", "&=", "|=", "^=", "<<=", ">>=", "**="]

/-- The rest of an assignment after its first target. -/
def assignRest (start : Span) : (fuel : Nat) → (targets : List Expr) → Parse Stmt
  | 0, _ => failure
  | fuel + 1, targets => do
    let _ ← operator "="
    let value ← yieldOrExpressions n
    if ← seesOperator "=" then
      require (isTarget value)
      assignRest start fuel (targets ++ [value])
    else return .assign (spanning start value.extent) targets value

/-- An assignment, or an expression on its own. -/
def expressionStatement : Parse Stmt := do
  let e ← starExpressions n
  let start := e.extent
  if ← seesOperator ":" then
    require (isPlace e)
    let _ ← operator ":"
    let hint ← n.expression
    if ← seesOperator "=" then
      let _ ← operator "="
      let value ← yieldOrExpressions n
      return .annotated (spanning start value.extent) e hint (some value)
    else return .annotated (spanning start hint.extent) e hint none
  else if ← seesOperator "=" then
    require (isTarget e)
    let ts ← get
    assignRest n start ts.length [e]
  else
    match ← attempt (operatorIn augmentedOperators) with
    | some _ =>
      require (isSinglePlace e)
      let value ← yieldOrExpressions n
      return .augmented (spanning start value.extent) e value
    | none => return .expression start e

/-- True before a type alias: the word `type` with a name behind it. -/
def seesTypeAlias : Parse Bool := fun ts =>
  match ts with
  | type :: name :: _ =>
    some (type.isWord "type" && name.kind = .word && !keywords.contains name.text, ts)
  | _ => some (false, ts)

/-- A simple statement that is a keyword alone. -/
def bareStatement (kind : SimpleKind) (text : String) : Parse Stmt := do
  let keyword ← word text
  return .simple keyword.span kind []

/-- A simple statement. -/
def simpleStatement : Parse Stmt := do
  let t ← peek
  match t with
  | none => failure
  | some t =>
    if t.kind != .word then expressionStatement n
    else
      match t.text with
      | "return" => returnStatement n
      | "import" => importStatement
      | "from" => importFromStatement
      | "raise" => raiseStatement n
      | "pass" => bareStatement .pass "pass"
      | "break" => bareStatement .break "break"
      | "continue" => bareStatement .continue "continue"
      | "del" => deleteStatement n
      | "assert" => assertStatement n
      | "global" => declaration .global "global"
      | "nonlocal" => declaration .nonlocal "nonlocal"
      | "yield" => do
        let e ← yieldExpression n
        return .expression e.extent e
      | _ => if ← seesTypeAlias then typeAliasStatement n else expressionStatement n

/-- A line of simple statements. -/
def simpleStatements : Parse (List Stmt) := do
  let first ← simpleStatement n
  let others ← many (do
    let _ ← operator ";"
    simpleStatement n)
  let _ ← attempt (operator ";")
  let _ ← ofKind .newline
  return first :: others

end Simple

/-! ### Compound statements -/

section Compound

variable (n : Nested) (statement : Parse (List Stmt))

/-- The span from the first of several statements to the last. -/
def statementsSpan (body : List Stmt) : Span :=
  match body.head?, body.getLast? with
  | some first, some last => spanning first.span last.span
  | _, _ => ⟨0, 0, 0, 0⟩

/-- A body: indented lines, or statements on the line of the header. -/
def block : Parse Block := do
  if ← sees fun t => t.kind = .newline then
    let _ ← ofKind .newline
    let _ ← ofKind .indent
    let body := (← many1 statement).flatten
    let _ ← ofKind .dedent
    return .mk (statementsSpan body) .indented body
  else
    let body ← simpleStatements n
    return .mk (statementsSpan body) .inline body

/-- A colon and a body. -/
def colonBlock : Parse Block := do
  let _ ← operator ":"
  block n statement

/-- A body behind a keyword, if the keyword comes next. -/
def clause (text : String) : Parse Orelse := do
  if ← seesWord text then
    let keyword ← word text
    let body ← colonBlock n statement
    return .clause (spanning keyword.span body.span) body.statements
  else return .none

/-- Where a statement ends: with what follows its body, or with the body. -/
def stopOf (body : Span) (tails : List Orelse) : Span :=
  tails.foldl (fun stop tail => (tail.span?).getD stop) body

/-- A conditional; a further condition is a conditional of its own. -/
def ifStatement (text : String) : (fuel : Nat) → Parse Stmt
  | 0 => failure
  | fuel + 1 => do
    let keyword ← word text
    let test ← namedExpression n
    let body ← colonBlock n statement
    let orelse ←
      if ← seesWord "elif" then Orelse.chained <$> ifStatement "elif" fuel
      else clause n statement "else"
    return .if (spanning keyword.span (stopOf body.span [orelse])) test body orelse

/-- A conditional loop. -/
def whileStatement : Parse Stmt := do
  let keyword ← word "while"
  let test ← namedExpression n
  let body ← colonBlock n statement
  let orelse ← clause n statement "else"
  return .while (spanning keyword.span (stopOf body.span [orelse])) test body orelse

/-- A loop over elements; `start` is where the statement begins. -/
def forStatement (start : Span) : Parse Stmt := do
  let _ ← word "for"
  let target ← starTargets n
  let _ ← word "in"
  let iterable ← starExpressions n
  let body ← colonBlock n statement
  let orelse ← clause n statement "else"
  return .for (spanning start (stopOf body.span [orelse])) target iterable body orelse

/-- A handler of errors, of groups of them if there is a star. -/
def handler (grouped : Bool) : Parse Handler := do
  let keyword ← word "except"
  let type ←
    if grouped then do
      let _ ← operator "*"
      some <$> n.expression
    else if ← seesOperator ":" then pure none
    else some <$> n.expression
  if type.isSome && (← seesWord "as") then
    let _ ← word "as"
    let _ ← identifier
  let body ← colonBlock n statement
  return .mk (spanning keyword.span body.span) type body

/-- True before a handler with a star. -/
def seesGroupedHandler : Parse Bool := fun ts =>
  match ts with
  | keyword :: star :: _ => some (keyword.isWord "except" && star.isOperator "*", ts)
  | _ => some (false, ts)

/-- A guarded statement. -/
def tryStatement : Parse Stmt := do
  let keyword ← word "try"
  let body ← colonBlock n statement
  if ← seesWord "finally" then
    let final ← clause n statement "finally"
    return .try (spanning keyword.span (stopOf body.span [final])) body [] .none final
  else
    let grouped ← seesGroupedHandler
    let handlers ← many1 (handler n statement grouped)
    let orelse ← clause n statement "else"
    let final ← clause n statement "finally"
    let stop := (handlers.getLast?.map Handler.span).getD body.span
    return .try (spanning keyword.span (stopOf stop [orelse, final])) body handlers orelse final

/-- An item of a with statement: an expression, and the target it is bound to. -/
def withItem : Parse (List Expr) := do
  let e ← n.expression
  match ← attempt (do
    let _ ← word "as"
    let target ← starTarget n
    require (← sees fun t => t.isOperator "," || t.isOperator ")" || t.isOperator ":")
    return target) with
  | some target => return [e, target]
  | none => return [e]

/-- The items of a with statement in parentheses, up to the colon. -/
def withItemsInParentheses : Parse (List Expr) := do
  let _ ← operator "("
  let (items, _) ← commaList (withItem n)
  let _ ← operator ")"
  require (← seesOperator ":")
  return items.flatten

/-- The items of a with statement. -/
def withItems : Parse (List Expr) := do
  let first ← withItem n
  let others ← many (do
    let _ ← operator ","
    withItem n)
  return first ++ others.flatten

/-- A with statement; `start` is where it begins. -/
def withStatement (start : Span) : Parse Stmt := do
  let _ ← word "with"
  let items ←
    match ← attempt (withItemsInParentheses n) with
    | some items => pure items
    | none => withItems n
  let body ← colonBlock n statement
  return .with (spanning start body.span) items body

/-- A function; `start` is where it begins, decorators left out. -/
def functionStatement (decorators : List Expr) (start : Span) : Parse Stmt := do
  let _ ← word "def"
  let name ← identifier
  let types ← typeParameters n
  let _ ← operator "("
  let ps ← parameters n true ")"
  let _ ← operator ")"
  let result ←
    if ← seesOperator "->" then do
      let _ ← operator "->"
      some <$> n.expression
    else pure none
  let body ← colonBlock n statement
  return .function (spanning start body.span) decorators name.text types ps result body

/-- A class. -/
def classStatement (decorators : List Expr) : Parse Stmt := do
  let keyword ← word "class"
  let name ← identifier
  let types ← typeParameters n
  let as ←
    if ← seesOperator "(" then do
      let _ ← operator "("
      let ts ← get
      let as ← argumentsFrom n (ts.length + 1) .positional
      let _ ← operator ")"
      pure as
    else pure []
  let body ← colonBlock n statement
  return .class (spanning keyword.span body.span) decorators name.text types as body

/-- Statements that may begin with `async`: functions, loops and with statements. -/
def asyncStatement : Parse Stmt := do
  let keyword ← word "async"
  if ← seesWord "def" then functionStatement n statement [] keyword.span
  else if ← seesWord "for" then forStatement n statement keyword.span
  else withStatement n statement keyword.span

/-- A decorator on a line of its own. -/
def decorator : Parse Expr := do
  let _ ← operator "@"
  let e ← namedExpression n
  let _ ← ofKind .newline
  return e

/-- A function or class with decorators. -/
def decoratedStatement : Parse Stmt := do
  let decorators ← many1 (decorator n)
  if ← seesWord "class" then classStatement n statement decorators
  else
    let start ← peek
    let _ ← attempt (word "async")
    functionStatement n statement decorators ((start.map Token.span).getD ⟨0, 0, 0, 0⟩)

/-- A case of a match. -/
def matchCase : Parse Case := do
  let keyword ← word "case"
  casePatterns n
  let guard ←
    if ← seesWord "if" then do
      let _ ← word "if"
      some <$> namedExpression n
    else pure none
  let body ← colonBlock n statement
  return .mk (spanning keyword.span body.span) guard body

/-- A match. -/
def matchStatement : Parse Stmt := do
  let keyword ← word "match"
  let (subjects, comma) ← commaList (starNamedExpression n)
  let subject := tupleOf subjects comma
  require !subject.isStarred
  let _ ← operator ":"
  let _ ← ofKind .newline
  let _ ← ofKind .indent
  let cases ← many1 (matchCase n statement)
  let _ ← ofKind .dedent
  let stop := (cases.getLast?.map Case.span).getD keyword.span
  return .match (spanning keyword.span stop) subject cases

/-- A match, or a line of simple statements that begins with the name `match`. -/
def matchOrSimple : Parse (List Stmt) := do
  match ← attempt (matchStatement n statement) with
  | some s => return [s]
  | none => simpleStatements n

/-- A statement, or a line of simple ones. -/
def anyStatement : Parse (List Stmt) := do
  let ts ← get
  let one (p : Parse Stmt) : Parse (List Stmt) := List.singleton <$> p
  match ts.head? with
  | none => failure
  | some t =>
    if t.isOperator "@" then one (decoratedStatement n statement)
    else if t.kind != .word then simpleStatements n
    else
      match t.text with
      | "def" => one (functionStatement n statement [] t.span)
      | "class" => one (classStatement n statement [])
      | "async" => one (asyncStatement n statement)
      | "if" => one (ifStatement n statement "if" ts.length)
      | "while" => one (whileStatement n statement)
      | "for" => one (forStatement n statement t.span)
      | "try" => one (tryStatement n statement)
      | "with" => one (withStatement n statement t.span)
      | "match" => matchOrSimple n statement
      | _ => simpleStatements n

end Compound

/-- Statements nested at most a number of levels deep. -/
def statementUpTo (n : Nested) : (depth : Nat) → Parse (List Stmt)
  | 0 => failure
  | depth + 1 => anyStatement n (statementUpTo n depth)

/-! ### Scripts -/

/-- A script that has been read. -/
structure Source where
  /-- Its statements. -/
  body : List Stmt
  /-- The line after its last one. -/
  endLine : Int
  /-- Its comments with their lines. -/
  comments : List (Int × String)
  deriving Repr

/-- Reads tokens as statements; all of them have to be used. -/
def parseTokens (tokens : List Token) : Option (List Stmt) :=
  let depth := tokens.length + 1
  match many (statementUpTo (nested depth) depth) tokens with
  | some (body, []) => some body.flatten
  | _ => none

/-- The line after the last one that holds a glyph. -/
def lineAfter (glyphs : List Glyph) : Nat := ((glyphs.getLast?).map Glyph.line).getD 0 + 1

/-- Reads a script; `none` if its syntax is wrong. -/
def parse (code : String) : Option Source := do
  let lexed ← lex code
  let body ← parseTokens lexed.tokens
  return { body := body, endLine := lineAfter (glyphsOf code), comments := lexed.comments }

end Framewise.Script
