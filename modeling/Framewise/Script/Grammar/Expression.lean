import Framewise.Script.Grammar.Basic

/-! # Expressions

  The grammar of expressions, from the strongest binding to the weakest: atoms,
  primaries, powers, signs, the binary operators, comparisons, `not`, `and`,
  `or`, conditionals and lambdas.

  Expressions nest: an atom can hold any expression in brackets. Each parser here
  takes the parsers of what is nested in it as an argument, and `nested` ties the
  knot: `nested n` reads expressions nested at most `n` deep. Whatever is nested
  comes after a token of its own, so as many levels as there are tokens suffice.
-/

namespace Framewise.Script

open Parse

/-- The parsers of what can be nested in an expression. -/
structure Nested where
  /-- A conditional, a lambda or anything that binds stronger. -/
  expression : Parse Expr
  /-- Anything that binds as strongly as `or`. -/
  disjunction : Parse Expr
  /-- Anything that binds as strongly as `not`. -/
  inversion : Parse Expr
  /-- Anything that binds as strongly as a bar. -/
  bitwiseOr : Parse Expr
  /-- Anything that binds as strongly as a sign. -/
  factor : Parse Expr
  /-- An atom with attributes, calls and subscripts. -/
  primary : Parse Expr
  /-- The expressions of a replacement in a formatted string. -/
  replacement : Parse (List Expr)

section Grammar

variable (n : Nested)

/-! ### Lists of expressions -/

/-- A binding `x := e`, or an expression that none follows. -/
def namedExpression : Parse Expr := fun ts =>
  match ts with
  | name :: walrus :: rest =>
    if name.kind = .word && !keywords.contains name.text && walrus.isOperator ":=" then
      (n.expression.run rest).map fun (value, rest) =>
        (.operation (spanning name.span value.extent) .named
          [.name name.span name.text, value], rest)
    else n.expression ts
  | _ => n.expression ts

/-- A star and what it unpacks. -/
def starredBy (inner : Parse Expr) : Parse Expr := do
  let star ← operator "*"
  let e ← inner
  return .starred (spanning star.span e.extent) e

/-- An expression, or a star and what it unpacks. -/
def starExpression : Parse Expr := do
  if ← seesOperator "*" then starredBy n.bitwiseOr else n.expression

/-- Like `starExpression`, with bindings. -/
def starNamedExpression : Parse Expr := do
  if ← seesOperator "*" then starredBy n.bitwiseOr else namedExpression n

/-- The tuple of several elements; a single one without a comma stands for itself. -/
def tupleOf (elements : List Expr) (comma : Option Token) : Expr :=
  match elements, comma with
  | [e], none => e
  | es, comma =>
    let start := ((es.head?).map Expr.extent).getD ⟨0, 0, 0, 0⟩
    let stop := (comma.map Token.span).getD (lastExtent start es)
    .sequence (spanning start stop) .tuple es

/-- Expressions with commas between them. -/
def starExpressions : Parse Expr := do
  let (elements, comma) ← commaList (starExpression n)
  return tupleOf elements comma

/-- A yield. -/
def yieldExpression : Parse Expr := do
  let keyword ← word "yield"
  let value ←
    if ← seesWord "from" then do
      let _ ← word "from"
      some <$> n.expression
    else attempt (starExpressions n)
  return .operation (spanning keyword.span ((value.map Expr.extent).getD keyword.span)) .yield
    value.toList

/-- A yield or expressions with commas between them. -/
def yieldOrExpressions : Parse Expr := do
  if ← seesWord "yield" then yieldExpression n else starExpressions n

/-! ### Comprehensions -/

/-- A target of a loop, with a star if one stands there. -/
def starTarget : Parse Expr := do
  let e ← if ← seesOperator "*" then starredBy n.primary else n.primary
  require (isTarget e)
  return e

/-- The targets of a loop. -/
def starTargets : Parse Expr := do
  let (elements, comma) ← commaList (starTarget n)
  return tupleOf elements comma

/-- One `for` of a comprehension: its target, what it runs over, and its conditions. -/
def comprehensionClause : Parse (List Expr) := do
  let _ ← attempt (word "async")
  let _ ← word "for"
  let target ← starTargets n
  let _ ← word "in"
  let iterable ← n.disjunction
  let conditions ← many (do
    let _ ← word "if"
    n.disjunction)
  return target :: iterable :: conditions

/-- The clauses of a comprehension. -/
def comprehensionClauses : Parse (List Expr) := List.flatten <$> many1 (comprehensionClause n)

/-- True if a comprehension follows an element. -/
def seesComprehension : Parse Bool := sees fun t => t.isWord "for" || t.isWord "async"

/-- A generator with a given element. -/
def generatorOf (element : Expr) : Parse Expr := do
  let clauses ← comprehensionClauses n
  return .operation (spanning element.extent (lastExtent element.extent clauses)) .generator
    (element :: clauses)

/-! ### Brackets -/

/-- What stands in parentheses: nothing, a yield, a generator, a tuple or one expression. -/
def parentheses : Parse Expr := do
  let opening ← operator "("
  let wrap (inner : Expr) : Parse Expr := do
    let closing ← operator ")"
    return .parenthesized (spanning opening.span closing.span) inner
  if ← seesOperator ")" then
    let closing ← operator ")"
    return .parenthesized (spanning opening.span closing.span)
      (.sequence (spanBefore closing.span) .tuple [])
  else if ← seesWord "yield" then wrap (← yieldExpression n)
  else
    let first ← starNamedExpression n
    if ← seesComprehension then
      require !first.isStarred
      wrap (← generatorOf n first)
    else
      let others ← many (do
        let _ ← operator ","
        starNamedExpression n)
      let comma ← attempt (operator ",")
      require (!first.isStarred || !others.isEmpty || comma.isSome)
      wrap (tupleOf (first :: others) comma)

/-- A list or a comprehension in square brackets. -/
def squareBrackets : Parse Expr := do
  let opening ← operator "["
  if ← seesOperator "]" then
    let closing ← operator "]"
    return .sequence (spanning opening.span closing.span) .list []
  else
    let first ← starNamedExpression n
    if ← seesComprehension then
      require !first.isStarred
      let clauses ← comprehensionClauses n
      let closing ← operator "]"
      return .operation (spanning opening.span closing.span) .listComprehension (first :: clauses)
    else
      let others ← many (do
        let _ ← operator ","
        starNamedExpression n)
      let _ ← attempt (operator ",")
      let closing ← operator "]"
      return .sequence (spanning opening.span closing.span) .list (first :: others)

/-- A key with its value. -/
def keyValue : Parse (List Expr) := do
  let key ← n.expression
  let _ ← operator ":"
  let value ← n.expression
  return [key, value]

/-- An entry of a dictionary: a key with its value, or another dictionary. -/
def dictEntry : Parse (List Expr) := do
  if ← seesOperator "**" then
    let _ ← operator "**"
    return [← n.bitwiseOr]
  else keyValue n

/-- The rest of a dictionary after its first entry. -/
def dictRest (opening : Token) (first : List Expr) : Parse Expr := do
  let others ← many (do
    let _ ← operator ","
    dictEntry n)
  let _ ← attempt (operator ",")
  let closing ← operator "\x7d"
  return .operation (spanning opening.span closing.span) .dict (first ++ others.flatten)

/-- The rest of a set after its first element. -/
def setRest (opening : Token) (first : Expr) : Parse Expr := do
  let others ← many (do
    let _ ← operator ","
    starNamedExpression n)
  let _ ← attempt (operator ",")
  let closing ← operator "\x7d"
  return .sequence (spanning opening.span closing.span) .set (first :: others)

/-- A comprehension in braces. -/
def braceComprehension (opening : Token) (kind : OperationKind) (first : List Expr) :
    Parse Expr := do
  let clauses ← comprehensionClauses n
  let closing ← operator "\x7d"
  return .operation (spanning opening.span closing.span) kind (first ++ clauses)

/-- True for a binding without parentheses. -/
def isBinding : Expr → Bool
  | .operation _ .named _ => true
  | _ => false

/-- A dictionary, a set or a comprehension in braces. -/
def braces : Parse Expr := do
  let opening ← operator "\x7b"
  if ← seesOperator "\x7d" then
    let closing ← operator "\x7d"
    return .operation (spanning opening.span closing.span) .dict []
  else if ← seesOperator "**" then dictRest n opening (← dictEntry n)
  else
    let first ← starNamedExpression n
    if ← seesOperator ":" then
      require (!first.isStarred && !isBinding first)
      let _ ← operator ":"
      let value ← n.expression
      if ← seesComprehension then braceComprehension n opening .dictComprehension [first, value]
      else dictRest n opening [first, value]
    else if ← seesComprehension then
      require !first.isStarred
      braceComprehension n opening .setComprehension [first]
    else setRest n opening first

/-! ### Strings -/

/-- A replacement in a formatted string: its expression, then those in its format. -/
def replacement : Parse (List Expr) := do
  let _ ← operator "\x7b"
  let e ← yieldOrExpressions n
  let _ ← attempt (operator "=")
  if ← seesOperator "!" then
    let _ ← operator "!"
    let _ ← identifier
  let format ←
    if ← seesOperator ":" then do
      let _ ← operator ":"
      List.flatten <$> many (do
        if ← sees fun t => t.kind = .formatText then
          let _ ← ofKind .formatText
          return []
        else n.replacement)
    else pure []
  let _ ← operator "\x7d"
  return e :: format

/-- A formatted string. -/
def formattedString : Parse Expr := do
  let opening ← ofKind .formatOpen
  let parts ← many (do
    if ← sees fun t => t.kind = .formatText then
      let _ ← ofKind .formatText
      return []
    else replacement n)
  let closing ← ofKind .formatClose
  let kind := if opening.text.toList.any fun c => c = 't' || c = 'T' then .template else .formatted
  return .operation (spanning opening.span closing.span) kind parts.flatten

/-- A plain or formatted string. -/
def stringPiece : Parse Expr := do
  if ← sees fun t => t.kind = .string then
    let t ← ofKind .string
    return .string t.span t.text
  else formattedString n

/-- Strings in a row. -/
def strings : Parse Expr := do
  let first ← stringPiece n
  let others ← many (stringPiece n)
  if others.isEmpty then return first
  else return .concatenation (spanning first.span (lastExtent first.span others)) (first :: others)

/-! ### Atoms -/

/-- The constant that a word stands for. -/
def constantOf? (text : String) : Option Constant :=
  if text = "True" then some .true
  else if text = "False" then some .false
  else if text = "None" then some .none
  else none

/-- A word as an atom: a constant or a name. -/
def wordAtom : Parse Expr
  | t :: ts =>
    match constantOf? t.text with
    | some c => some (.constant t.span c, ts)
    | none => if keywords.contains t.text then none else some (.name t.span t.text, ts)
  | [] => none

/-- A bracket or an ellipsis as an atom. -/
def operatorAtom : Parse Expr := do
  let t ← peek
  match t with
  | some t =>
    if t.text = "(" then parentheses n
    else if t.text = "[" then squareBrackets n
    else if t.text = "\x7b" then braces n
    else
      let dots ← operator "..."
      return .operation dots.span .ellipsis []
  | none => failure

/-- An expression without operators. -/
def atom : Parse Expr := do
  let t ← peek
  match t.map Token.kind with
  | some .word => wordAtom
  | some .number => do
    let t ← ofKind .number
    return .number t.span t.text
  | some .string => strings n
  | some .formatOpen => strings n
  | some .operator => operatorAtom n
  | _ => failure

/-! ### Calls and subscripts -/

/-- How far the arguments of a call have come. -/
inductive ArgumentStage where
  /-- No keyword yet. -/
  | positional
  /-- After a keyword: no plain argument may follow. -/
  | keyword
  /-- After a double star: no single star may follow either. -/
  | mapping
  deriving DecidableEq, Repr, Inhabited

/-- True if the next two tokens begin a keyword argument. -/
def seesKeyword : Parse Bool := fun ts =>
  match ts with
  | name :: equals :: _ =>
    some (name.kind = .word && !keywords.contains name.text && equals.isOperator "=", ts)
  | _ => some (false, ts)

/-- One argument, and the stage after it. -/
def argument (stage : ArgumentStage) : Parse (Argument × ArgumentStage) := do
  if ← seesOperator "**" then
    let _ ← operator "**"
    return (.positional .two (← n.expression), .mapping)
  else if ← seesOperator "*" then
    require (stage != .mapping)
    let _ ← operator "*"
    return (.positional .one (← n.expression), stage)
  else if ← seesKeyword then
    let name ← identifier
    let _ ← operator "="
    let value ← n.expression
    return (.keyword (spanning name.span value.extent) name.span name.text value,
      if stage = .positional then .keyword else stage)
  else
    require (stage = .positional)
    return (.positional .none (← namedExpression n), .positional)

/-- Arguments up to the closing parenthesis, which is not taken. -/
def argumentsFrom : (fuel : Nat) → ArgumentStage → Parse (List Argument)
  | 0, _ => failure
  | fuel + 1, stage => do
    if ← seesOperator ")" then return []
    else
      let (a, stage) ← argument n stage
      if ← seesOperator "," then
        let _ ← operator ","
        return a :: (← argumentsFrom fuel stage)
      else return [a]

/-- A generator that is the only argument of a call, if the argument begins one. -/
def soleGenerator (first : Argument) : Parse (Option Argument) := do
  match first with
  | .positional .none e =>
    if ← seesComprehension then return some (.positional .none (← generatorOf n e))
    else return none
  | _ => return none

/-- The arguments in parentheses, with the closing one. -/
def arguments : Parse (List Argument × Token) := do
  let _ ← operator "("
  let ts ← get
  if ← seesOperator ")" then return ([], ← operator ")")
  else
    let (first, stage) ← argument n .positional
    match ← soleGenerator n first with
    | some generator => return ([generator], ← operator ")")
    | none =>
      let others ←
        if ← seesOperator "," then do
          let _ ← operator ","
          argumentsFrom n (ts.length + 1) stage
        else pure []
      return (first :: others, ← operator ")")

/-- The span of a slice that begins at one span and, if its last colon is followed by no bound,
    reaches to the operator that comes next. -/
def sliceSpan (start : Span) (bound : Option Expr) : Parse Span := do
  match bound with
  | some e => return spanning start e.extent
  | none =>
    match ← peek with
    | some t =>
      require (t.kind = .operator)
      return spanning start (spanBefore t.span)
    | none => failure

/-- The rest of a slice after its lower bound. -/
def sliceFrom (lower : Option Expr) : Parse Expr := do
  let colon ← operator ":"
  let start := (lower.map Expr.extent).getD colon.span
  let upper ← attempt n.expression
  if ← seesOperator ":" then
    let _ ← operator ":"
    let step ← attempt n.expression
    return .slice (← sliceSpan start step) (lower.toList ++ upper.toList ++ step.toList)
  else return .slice (← sliceSpan start upper) (lower.toList ++ upper.toList)

/-- One item of a subscript: an index, a starred one, or a slice. -/
def subscriptItem : Parse Expr := do
  if ← seesOperator ":" then sliceFrom n none
  else if ← seesOperator "*" then starredBy n.expression
  else
    let e ← namedExpression n
    if !isBinding e && (← seesOperator ":") then sliceFrom n (some e) else return e

/-- The items of a subscript in square brackets, with the closing one. -/
def subscriptItems : Parse (List Expr × Token) := do
  let _ ← operator "["
  let (items, _) ← commaList (subscriptItem n)
  return (items, ← operator "]")

/-- An attribute, a call or a subscript of an expression. -/
def trailer (e : Expr) : Parse Expr := do
  if ← seesOperator "." then
    let _ ← operator "."
    let name ← identifier
    return .attribute (spanning e.extent name.span) e name.text
  else if ← seesOperator "(" then
    let (as, closing) ← arguments n
    return .call (spanning e.extent closing.span) e as
  else
    let (items, closing) ← subscriptItems n
    return .subscript (spanning e.extent closing.span) e items

/-- Attributes, calls and subscripts of an expression, as many as there are. -/
def trailers : (fuel : Nat) → Expr → Parse Expr
  | 0, e => pure e
  | fuel + 1, e => do
    match ← attempt (trailer n e) with
    | some e => trailers fuel e
    | none => return e

/-- An atom with attributes, calls and subscripts. -/
def primary : Parse Expr := do
  let e ← atom n
  let ts ← get
  trailers n ts.length e

/-! ### Operators -/

/-- An operation on two operands. -/
def binaryOf (kind : OperationKind) (left right : Expr) : Expr :=
  .operation (spanning left.extent right.extent) kind [left, right]

/-- Operands with operators between them, grouped from the left. -/
def leftGrouped (kind : OperationKind) (sign : Parse Token) (operand : Parse Expr) :
    Parse Expr := do
  let first ← operand
  let others ← many (do
    let _ ← sign
    operand)
  return others.foldl (binaryOf kind) first

/-- A primary that may be awaited. -/
def awaited : Parse Expr := do
  if ← seesWord "await" then
    let keyword ← word "await"
    let e ← primary n
    return .operation (spanning keyword.span e.extent) .await [e]
  else primary n

/-- A power. -/
def power : Parse Expr := do
  let base ← awaited n
  match ← attempt (do
    let _ ← operator "**"
    n.factor) with
  | some exponent => return binaryOf .binary base exponent
  | none => return base

/-- A power with signs in front. -/
def factor : Parse Expr := do
  match ← attempt (operatorIn ["+", "-", "~"]) with
  | some sign =>
    let e ← n.factor
    return .operation (spanning sign.span e.extent) .unary [e]
  | none => power n

/-- Products and quotients. -/
def term : Parse Expr :=
  leftGrouped .binary (operatorIn ["*", "/", "//", "%", "@"]) (factor n)

/-- Sums and differences. -/
def sum : Parse Expr := leftGrouped .binary (operatorIn ["+", "-"]) (term n)

/-- Shifts. -/
def shift : Parse Expr := leftGrouped .binary (operatorIn ["<<", ">>"]) (sum n)

/-- Conjunctions of bits. -/
def bitwiseAnd : Parse Expr := leftGrouped .binary (operator "&") (shift n)

/-- Exclusive disjunctions of bits. -/
def bitwiseXor : Parse Expr := leftGrouped .binary (operator "^") (bitwiseAnd n)

/-- Disjunctions of bits. -/
def bitwiseOr : Parse Expr := leftGrouped .binary (operator "|") (bitwiseXor n)

/-- The operator of a comparison. -/
def comparisonOperator : Parse String := do
  match ← attempt (operatorIn ["==", "!=", "<=", "<", ">=", ">"]) with
  | some t => return t.text
  | none =>
    if ← seesWord "in" then
      let _ ← word "in"
      return "in"
    else if ← seesWord "not" then
      let _ ← word "not"
      let _ ← word "in"
      return "not in"
    else
      let _ ← word "is"
      match ← attempt (word "not") with
      | some _ => return "is not"
      | none => return "is"

/-- A comparison. -/
def comparison : Parse Expr := do
  let first ← bitwiseOr n
  let others ← many (do
    let sign ← comparisonOperator
    return (sign, ← bitwiseOr n))
  if others.isEmpty then return first
  else
    let operands := others.map (·.2)
    return .comparison (spanning first.extent (lastExtent first.extent operands)) first
      (others.map (·.1)) operands

/-- A comparison that may be negated. -/
def inversion : Parse Expr := do
  if ← seesWord "not" then
    let keyword ← word "not"
    let e ← n.inversion
    return .operation (spanning keyword.span e.extent) .unary [e]
  else comparison n

/-- A conjunction. -/
def conjunction : Parse Expr := leftGrouped .boolean (word "and") (inversion n)

/-- A disjunction. -/
def disjunction : Parse Expr := leftGrouped .boolean (word "or") (conjunction n)

/-! ### Parameters -/

/-- How far the parameters of a function have come. -/
structure ParameterStage where
  /-- Some parameter has been read. -/
  any : Bool := false
  /-- A parameter with a default has been read. -/
  defaulted : Bool := false
  /-- The slash has been read. -/
  slashed : Bool := false
  /-- A star has been read: all that follows is given by keyword. -/
  starred : Bool := false
  deriving DecidableEq, Repr, Inhabited

/-- The declared type behind a colon, if types may be declared and one is. -/
def typeHint (typed : Bool) (type : Parse Expr) : Parse (Option Expr) := do
  if typed && (← seesOperator ":") then
    let _ ← operator ":"
    some <$> type
  else return none

/-- A plain parameter. -/
def plainParameter (typed : Bool) (stage : ParameterStage) :
    Parse (List Parameter × ParameterStage) := do
  let name ← identifier
  let hint ← typeHint typed n.expression
  let fallback ←
    if ← seesOperator "=" then do
      let _ ← operator "="
      some <$> n.expression
    else pure none
  require (fallback.isSome || !stage.defaulted || stage.starred)
  return ([.mk name.span .none name.text hint fallback],
    { stage with any := true, defaulted := stage.defaulted || fallback.isSome })

/-- A parameter behind a star, or a star alone that a plain parameter must follow. -/
def starParameter (typed : Bool) (stage : ParameterStage) :
    Parse (List Parameter × ParameterStage) := do
  require !stage.starred
  let star ← operator "*"
  let next := { stage with starred := true }
  if ← seesOperator "," then
    let _ ← operator ","
    let (ps, next) ← plainParameter n typed next
    return (ps, next)
  else
    let name ← identifier
    let hint ← typeHint typed (starExpression n)
    return ([.mk (spanning star.span name.span) .one name.text hint none], next)

/-- The slash after the parameters given by position. -/
def slash (stage : ParameterStage) : Parse (List Parameter × ParameterStage) := do
  require (stage.any && !stage.slashed && !stage.starred)
  let _ ← operator "/"
  return ([], { stage with slashed := true })

/-- Parameters up to a closing token, which is not taken. -/
def parametersFrom (typed : Bool) (closing : String) :
    (fuel : Nat) → ParameterStage → Parse (List Parameter)
  | 0, _ => failure
  | fuel + 1, stage => do
    if ← seesOperator closing then return []
    else if ← seesOperator "**" then
      let stars ← operator "**"
      let name ← identifier
      let hint ← typeHint typed n.expression
      let _ ← attempt (operator ",")
      require (← seesOperator closing)
      return [.mk (spanning stars.span name.span) .two name.text hint none]
    else
      let (ps, stage) ←
        if ← seesOperator "*" then starParameter n typed stage
        else if ← seesOperator "/" then slash stage
        else plainParameter n typed stage
      if ← seesOperator "," then
        let _ ← operator ","
        return ps ++ (← parametersFrom typed closing fuel stage)
      else
        require (← seesOperator closing)
        return ps

/-- The parameters of a function up to a closing token, which is not taken. -/
def parameters (typed : Bool) (closing : String) : Parse (List Parameter) := do
  let ts ← get
  parametersFrom n typed closing (ts.length + 1) {}

/-! ### Whole expressions -/

/-- A lambda. -/
def lambda : Parse Expr := do
  let keyword ← word "lambda"
  let ps ← parameters n false ":"
  let _ ← operator ":"
  let body ← n.expression
  return .lambda (spanning keyword.span body.extent) ps body

/-- An expression. -/
def expression : Parse Expr := do
  if ← seesWord "lambda" then lambda n
  else
    let e ← disjunction n
    match ← attempt (do
      let _ ← word "if"
      let test ← disjunction n
      let _ ← word "else"
      return (test, ← n.expression)) with
    | some (test, alternative) =>
      return .operation (spanning e.extent alternative.extent) .conditional [e, test, alternative]
    | none => return e

end Grammar

/-- The parsers of expressions nested at most a number of levels deep. -/
def nested : (depth : Nat) → Nested
  | 0 =>
    { expression := failure, disjunction := failure, inversion := failure, bitwiseOr := failure,
      factor := failure, primary := failure, replacement := failure }
  | depth + 1 =>
    let n := nested depth
    { expression := expression n, disjunction := disjunction n, inversion := inversion n,
      bitwiseOr := bitwiseOr n, factor := factor n, primary := primary n,
      replacement := replacement n }

end Framewise.Script
