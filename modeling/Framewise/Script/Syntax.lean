import Framewise.Source.Span

/-! # Syntax trees

  The syntax of a script, as far as an analysis of names, attributes, calls,
  subscripts and comparisons can tell scripts apart. Expressions that no rule
  looks into are operations: they keep their kind and their operands in the
  order of the text. Patterns of a match statement are not kept.

  Every tree has a span. The span of an expression leaves out parentheses around
  it; these are trees of their own, so `Expr.extent` includes them.
-/

namespace Framewise.Script

/-! ### Names of kinds -/

/-- The stars in front of an argument or parameter. -/
inductive Stars where
  | none
  | one
  | two
  deriving DecidableEq, Repr, Inhabited

/-- The stars as text. -/
def Stars.text : Stars → String
  | .none => ""
  | .one => "*"
  | .two => "**"

/-- The constants that are words. -/
inductive Constant where
  | true
  | false
  | none
  deriving DecidableEq, Repr, Inhabited

/-- The displays of several elements. -/
inductive SequenceKind where
  | tuple
  | list
  | set
  deriving DecidableEq, Repr, Inhabited

/-- The name of a kind of sequence in trees. -/
def SequenceKind.label : SequenceKind → String
  | .tuple => "Tuple"
  | .list => "List"
  | .set => "Set"

/-- The expressions of which only the operands matter. -/
inductive OperationKind where
  | binary
  | boolean
  | unary
  | conditional
  | await
  | yield
  | named
  | listComprehension
  | setComprehension
  | dictComprehension
  | generator
  | dict
  | formatted
  | template
  | ellipsis
  deriving DecidableEq, Repr, Inhabited

/-- The name of a kind of operation in trees. -/
def OperationKind.label : OperationKind → String
  | .binary => "BinaryOperation"
  | .boolean => "BooleanOperation"
  | .unary => "UnaryOperation"
  | .conditional => "IfExp"
  | .await => "Await"
  | .yield => "Yield"
  | .named => "NamedExpr"
  | .listComprehension => "ListComp"
  | .setComprehension => "SetComp"
  | .dictComprehension => "DictComp"
  | .generator => "GeneratorExp"
  | .dict => "Dict"
  | .formatted => "FormattedString"
  | .template => "TemplatedString"
  | .ellipsis => "Ellipsis"

/-- The simple statements of which only the operands matter. -/
inductive SimpleKind where
  | import
  | importFrom
  | delete
  | global
  | nonlocal
  | assert
  | raise
  | pass
  | break
  | continue
  deriving DecidableEq, Repr, Inhabited

/-- The name of a kind of simple statement in trees. -/
def SimpleKind.label : SimpleKind → String
  | .import => "Import"
  | .importFrom => "ImportFrom"
  | .delete => "Del"
  | .global => "Global"
  | .nonlocal => "Nonlocal"
  | .assert => "Assert"
  | .raise => "Raise"
  | .pass => "Pass"
  | .break => "Break"
  | .continue => "Continue"

/-! ### Expressions -/

mutual

/-- An expression. -/
inductive Expr where
  | name (span : Span) (id : String)
  | constant (span : Span) (value : Constant)
  /-- A number as written. -/
  | number (span : Span) (text : String)
  /-- A plain string as written, with its letters and quotes. -/
  | string (span : Span) (text : String)
  /-- Strings in a row, plain or formatted. -/
  | concatenation (span : Span) (pieces : List Expr)
  | attribute (span : Span) (receiver : Expr) (name : String)
  | call (span : Span) (callee : Expr) (arguments : List Argument)
  | subscript (span : Span) (receiver : Expr) (items : List Expr)
  /-- The bounds of a slice that are given; only as an item of a subscript. -/
  | slice (span : Span) (bounds : List Expr)
  | comparison (span : Span) (first : Expr) (operators : List String) (operands : List Expr)
  | sequence (span : Span) (kind : SequenceKind) (elements : List Expr)
  | starred (span : Span) (inner : Expr)
  | lambda (span : Span) (parameters : List Parameter) (body : Expr)
  | operation (span : Span) (kind : OperationKind) (operands : List Expr)
  /-- An expression in parentheses; `extent` includes them. -/
  | parenthesized (extent : Span) (inner : Expr)
  deriving Repr

/-- An argument of a call or a class. -/
inductive Argument where
  | positional (stars : Stars) (value : Expr)
  | keyword (span nameSpan : Span) (name : String) (value : Expr)
  deriving Repr

/-- A parameter of a function. -/
inductive Parameter where
  /-- The span holds the stars and the name; `hint` is the declared type. -/
  | mk (span : Span) (stars : Stars) (name : String) (hint fallback : Option Expr)
  deriving Repr

end

instance : Inhabited Expr := ⟨.name ⟨0, 0, 0, 0⟩ ""⟩

instance : Inhabited Argument := ⟨.positional .none default⟩

instance : Inhabited Parameter := ⟨.mk ⟨0, 0, 0, 0⟩ .none "" none none⟩

namespace Expr

/-- The span of an expression, without parentheses around it. -/
def span : Expr → Span
  | .name span _ => span
  | .constant span _ => span
  | .number span _ => span
  | .string span _ => span
  | .concatenation span _ => span
  | .attribute span _ _ => span
  | .call span _ _ => span
  | .subscript span _ _ => span
  | .slice span _ => span
  | .comparison span _ _ _ => span
  | .sequence span _ _ => span
  | .starred span _ => span
  | .lambda span _ _ => span
  | .operation span _ _ => span
  | .parenthesized _ inner => inner.span

/-- The span of an expression with the parentheses around it. -/
def extent : Expr → Span
  | .parenthesized extent _ => extent
  | e => e.span

/-- True for an expression behind a star. -/
def isStarred : Expr → Bool
  | .starred _ _ => true
  | _ => false

end Expr

/-- A type parameter of a function, class or type. -/
structure TypeParameter where
  /-- Where its name stands. -/
  span : Span
  /-- Its name. -/
  name : String
  /-- The type that bounds it. -/
  bound : Option Expr := none
  /-- The type taken if none is given. -/
  fallback : Option Expr := none
  deriving Repr

/-! ### Statements -/

/-- The layouts of a body. -/
inductive BlockKind where
  /-- Indented lines. -/
  | indented
  /-- On the line of its header. -/
  | inline
  deriving DecidableEq, Repr, Inhabited

/-- The name of a layout in trees. -/
def BlockKind.label : BlockKind → String
  | .indented => "IndentedBlock"
  | .inline => "SimpleStatementSuite"

mutual

/-- A statement. -/
inductive Stmt where
  | expression (span : Span) (value : Expr)
  | assign (span : Span) (targets : List Expr) (value : Expr)
  | annotated (span : Span) (target hint : Expr) (value : Option Expr)
  | augmented (span : Span) (target value : Expr)
  | return (span : Span) (value : Option Expr)
  | simple (span : Span) (kind : SimpleKind) (operands : List Expr)
  | typeAlias (span : Span) (name : Expr) (parameters : List TypeParameter) (value : Expr)
  | function (span : Span) (decorators : List Expr) (name : String)
      (typeParameters : List TypeParameter) (parameters : List Parameter) (result : Option Expr)
      (body : Block)
  | class (span : Span) (decorators : List Expr) (name : String)
      (typeParameters : List TypeParameter) (arguments : List Argument) (body : Block)
  | if (span : Span) (test : Expr) (body : Block) (orelse : Orelse)
  | for (span : Span) (target iterable : Expr) (body : Block) (orelse : Orelse)
  | while (span : Span) (test : Expr) (body : Block) (orelse : Orelse)
  | try (span : Span) (body : Block) (handlers : List Handler) (orelse final : Orelse)
  | match (span : Span) (subject : Expr) (cases : List Case)
  /-- The items are the expressions and the targets they are bound to, in order. -/
  | with (span : Span) (items : List Expr) (body : Block)
  deriving Repr

/-- The body of a statement. -/
inductive Block where
  | mk (span : Span) (kind : BlockKind) (body : List Stmt)
  deriving Repr

/-- What follows the body of a statement. -/
inductive Orelse where
  | none
  /-- A further condition: a statement of its own. -/
  | chained (next : Stmt)
  /-- A body behind a keyword; the span begins at the keyword. -/
  | clause (span : Span) (body : List Stmt)
  deriving Repr

/-- A handler of errors. -/
inductive Handler where
  | mk (span : Span) (type : Option Expr) (body : Block)
  deriving Repr

/-- A case of a match. -/
inductive Case where
  | mk (span : Span) (guard : Option Expr) (body : Block)
  deriving Repr

end

instance : Inhabited Stmt := ⟨.expression ⟨0, 0, 0, 0⟩ default⟩

namespace Stmt

/-- The span of a statement. -/
def span : Stmt → Span
  | .expression span _ => span
  | .assign span _ _ => span
  | .annotated span _ _ _ => span
  | .augmented span _ _ => span
  | .return span _ => span
  | .simple span _ _ => span
  | .typeAlias span _ _ _ => span
  | .function span _ _ _ _ _ _ => span
  | .class span _ _ _ _ _ => span
  | .if span _ _ _ => span
  | .for span _ _ _ _ => span
  | .while span _ _ _ => span
  | .try span _ _ _ _ => span
  | .match span _ _ => span
  | .with span _ _ => span

end Stmt

/-- The span of a body. -/
def Block.span : Block → Span
  | .mk span _ _ => span

/-- The statements of a body. -/
def Block.statements : Block → List Stmt
  | .mk _ _ body => body

/-- The span of what follows a body, if something does. -/
def Orelse.span? : Orelse → Option Span
  | .none => Option.none
  | .chained next => some next.span
  | .clause span _ => some span

/-- The span of a handler. -/
def Handler.span : Handler → Span
  | .mk span _ _ => span

/-- The span of a case. -/
def Case.span : Case → Span
  | .mk span _ _ => span

end Framewise.Script
