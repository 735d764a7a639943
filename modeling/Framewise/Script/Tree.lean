import Framewise.Node.Basic
import Framewise.Script.Grammar.Statement
import Framewise.Script.Literal

/-! # From syntax to trees

  A script becomes a tree of nodes. Names, literals, attributes, calls,
  subscripts, comparisons, sequences, assignments, returns, functions, classes
  and branches have a kind of their own; every other construct becomes a node of
  kind `other` with its operands as children.

  The parts of a script that say nothing about its values are left out: patterns,
  type parameters of functions and classes, names of caught errors.

  Main definitions:
  - `exprNode`, `stmtNode`: the node of an expression or statement in a role.
  - `Source.node`: the tree of a script, `none` if a literal has no value.
-/

namespace Framewise.Script

/-! ### Literals -/

/-- A node with a value. -/
def literalNode (role tag : String) (span : Span) (value : Value) : Node :=
  { kind := .literal, span := span, role := role, tag := tag, literal := some value }

/-- A node of kind `other`. -/
def otherNode (role tag : String) (span : Span) (children : List Node) : Node :=
  { kind := .other, span := span, role := role, tag := tag, children := children }

/-- The value of a constant. -/
def Constant.value : Constant → Value
  | .true => .bool Bool.true
  | .false => .bool Bool.false
  | .none => .null

/-- Two values in a row: texts and bytes can be joined with their like. -/
def joinValues : Value → Value → Option Value
  | .text a, .text b => some (.text (a ++ b))
  | .bytes a, .bytes b => some (.bytes (a ++ b))
  | _, _ => none

/-- True for a string that is not plain. -/
def isFormatted : Expr → Bool
  | .string _ _ => false
  | _ => true

/-- The value of a single plain string. -/
def pieceValue? [CharacterNames] : Expr → Option Value
  | .string _ text => stringValue? text
  | _ => none

/-- The value of strings in a row. The outer `none` means that a string read on the way has no
    value; the inner one that the whole has none, because of a formatted string or a mixture
    of text and bytes. Reading goes from the left and stops at a formatted string, which is
    seen one string ahead if it is the last. -/
def piecesValue? [CharacterNames] : List Expr → Option (Option Value)
  | [] => some none
  | [a] => if isFormatted a then some none else (pieceValue? a).map some
  | [a, b] =>
    if isFormatted a || isFormatted b then some none
    else do
      let x ← pieceValue? a
      let y ← pieceValue? b
      return joinValues x y
  | a :: rest =>
    if isFormatted a then some none
    else do
      let x ← pieceValue? a
      let y ← piecesValue? rest
      return y.bind (joinValues x)

/-! ### Expressions -/

/-- A node marked as starred. -/
def withStar (stars : String) (n : Node) : Node :=
  if stars.isEmpty then n else { n with attrs := n.attrs ++ [("star", .text stars)] }

/-- The index of a subscript: its only item, or a tuple of all. -/
def indexNode : List Node → Node
  | [item] => { item with role := Role.index }
  | items =>
    let first := (items.head?.map Node.span).getD ⟨0, 0, 0, 0⟩
    let last := (items.getLast?.map Node.span).getD first
    { kind := .sequence, span := first.covering last, role := Role.index,
      tag := SequenceKind.tuple.label, children := items }

mutual

/-- The node of an expression in a role. -/
def exprNode [CharacterNames] (role : String) : Expr → Option Node
  | .name span id => some { kind := .name, span := span, role := role, tag := "Name", name := some id }
  | .constant span value => some (literalNode role "Name" span value.value)
  | .number span text => do
    let value ← numberValue? text
    let tag := match value with
      | .number (.float _) => "Float"
      | .complex _ _ => "Imaginary"
      | _ => "Integer"
    return literalNode role tag span value
  | .string span text => do
    let value ← stringValue? text
    return literalNode role "SimpleString" span value
  | .concatenation span pieces => do
    match ← piecesValue? pieces with
    | some value => return literalNode role "ConcatenatedString" span value
    | none => return otherNode role "ConcatenatedString" span []
  | .attribute span receiver name => do
    let receiver ← exprNode Role.receiver receiver
    return { kind := .attribute, span := span, role := role, tag := "Attribute", name := some name,
             children := [receiver] }
  | .call span callee arguments => do
    let callee ← exprNode Role.func callee
    let arguments ← argumentNodes arguments
    return { kind := .call, span := span, role := role, tag := "Call",
             children := callee :: arguments }
  | .subscript span receiver items => do
    let receiver ← exprNode Role.receiver receiver
    let items ← itemNodes items
    return { kind := .subscript, span := span, role := role, tag := "Subscript",
             children := [receiver, indexNode items] }
  | .slice span bounds => do
    let bounds ← exprNodes Role.child bounds
    return otherNode role "Slice" span bounds
  | .comparison span first operators operands => do
    let first ← exprNode Role.left first
    let operands ← exprNodes Role.comparator operands
    return { kind := .compare, span := span, role := role, tag := "Comparison",
             attrs := [("operators", .list (operators.map .text))], children := first :: operands }
  | .sequence span kind elements => do
    let elements ← elementNodes elements
    return { kind := .sequence, span := span, role := role, tag := kind.label,
             children := elements }
  | .starred span inner => do
    let inner ← exprNode Role.child inner
    return otherNode role "StarredElement" span [inner]
  | .lambda span parameters body => do
    let parameters ← parameterNodes Role.child parameters
    let body ← exprNode Role.child body
    return otherNode role "Lambda" span (parameters ++ [body])
  | .operation span kind operands => do
    let operands ← exprNodes Role.child operands
    return otherNode role kind.label span operands
  | .parenthesized _ inner => exprNode role inner

/-- The nodes of several expressions in a role. -/
def exprNodes [CharacterNames] (role : String) : List Expr → Option (List Node)
  | [] => some []
  | e :: es => do
    let n ← exprNode role e
    let ns ← exprNodes role es
    return n :: ns

/-- The node of an expression that may be absent. -/
def optionNodes [CharacterNames] (role : String) : Option Expr → Option (List Node)
  | none => some []
  | some e => do
    let n ← exprNode role e
    return [n]

/-- The elements of a sequence; a star marks the node of what it unpacks. -/
def elementNodes [CharacterNames] : List Expr → Option (List Node)
  | [] => some []
  | .starred _ inner :: es => do
    let n ← exprNode Role.element inner
    let ns ← elementNodes es
    return withStar "*" n :: ns
  | e :: es => do
    let n ← exprNode Role.element e
    let ns ← elementNodes es
    return n :: ns

/-- The items of a subscript; stars leave no mark. -/
def itemNodes [CharacterNames] : List Expr → Option (List Node)
  | [] => some []
  | .starred _ inner :: es => do
    let n ← exprNode Role.element inner
    let ns ← itemNodes es
    return n :: ns
  | e :: es => do
    let n ← exprNode Role.element e
    let ns ← itemNodes es
    return n :: ns

/-- The arguments of a call. -/
def argumentNodes [CharacterNames] : List Argument → Option (List Node)
  | [] => some []
  | .positional stars value :: as => do
    let n ← exprNode Role.arg value
    let ns ← argumentNodes as
    return withStar stars.text n :: ns
  | .keyword span _ name value :: as => do
    let n ← exprNode Role.value value
    let ns ← argumentNodes as
    return { kind := .keyword, span := span, role := Role.keyword, tag := "Arg",
             name := some name, children := [n] } :: ns

/-- The parameters of a function in a role. -/
def parameterNodes [CharacterNames] (role : String) : List Parameter → Option (List Node)
  | [] => some []
  | .mk span stars name hint fallback :: ps => do
    let hint ← optionNodes Role.annotation_ hint
    let fallback ← optionNodes Role.default fallback
    let ns ← parameterNodes role ps
    return { kind := .parameter, span := span, role := role, tag := "Param", name := some name,
             attrs := [("star", .text stars.text)], children := hint ++ fallback } :: ns

end

/-- The bases of a class: what is given by position. -/
def baseNodes [CharacterNames] : List Argument → Option (List Node)
  | [] => some []
  | .positional stars value :: as => do
    if stars = .two then baseNodes as
    else
      let n ← exprNode Role.arg value
      let ns ← baseNodes as
      return n :: ns
  | .keyword _ _ _ _ :: as => baseNodes as

/-- What is given to a class by keyword: each name as a node, then its value. -/
def classKeywordNodes [CharacterNames] : List Argument → Option (List Node)
  | [] => some []
  | .positional stars value :: as => do
    if stars = .two then
      let n ← exprNode Role.arg value
      let ns ← classKeywordNodes as
      return n :: ns
    else classKeywordNodes as
  | .keyword _ nameSpan name value :: as => do
    let n ← exprNode Role.arg (.name nameSpan name)
    let v ← exprNode Role.arg value
    let ns ← classKeywordNodes as
    return n :: v :: ns

/-- The nodes of type parameters: each name, its bound and its default. -/
def typeParameterNodes [CharacterNames] : List TypeParameter → Option (List Node)
  | [] => some []
  | p :: ps => do
    let name ← exprNode Role.child (.name p.span p.name)
    let bound ← optionNodes Role.child p.bound
    let fallback ← optionNodes Role.child p.fallback
    let ns ← typeParameterNodes ps
    return name :: bound ++ fallback ++ ns

/-! ### Statements -/

/-- A node of kind `block`. -/
def blockNode (role tag : String) (span : Span) (children : List Node) : Node :=
  { kind := .block, span := span, role := role, tag := tag, children := children }

/-- A node of kind `branch`. -/
def branchNode (role tag : String) (span : Span) (children : List Node) : Node :=
  { kind := .branch, span := span, role := role, tag := tag, children := children }

mutual

/-- The node of a statement in a role. -/
def stmtNode [CharacterNames] (role : String) : Stmt → Option Node
  | .expression span value => do
    let value ← exprNode Role.expr value
    return { kind := .statement, span := span, role := role, tag := "Expr", children := [value] }
  | .assign span targets value => do
    let targets ← exprNodes Role.target targets
    let value ← exprNode Role.value value
    return { kind := .assignment, span := span, role := role, tag := "Assign",
             children := targets ++ [value] }
  | .annotated span target hint value => do
    let target ← exprNode Role.target target
    let hint ← exprNode Role.annotation_ hint
    let value ← optionNodes Role.value value
    return { kind := .assignment, span := span, role := role, tag := "AnnAssign",
             children := target :: hint :: value }
  | .augmented span target value => do
    let target ← exprNode Role.target target
    let value ← exprNode Role.value value
    return { kind := .assignment, span := span, role := role, tag := "AugAssign",
             children := [target, value] }
  | .return span value => do
    let value ← optionNodes Role.value value
    return { kind := .return, span := span, role := role, tag := "Return", children := value }
  | .simple span kind operands => do
    let operands ← exprNodes Role.child operands
    return otherNode role kind.label span operands
  | .typeAlias span name parameters value => do
    let name ← exprNode Role.child name
    let parameters ← typeParameterNodes parameters
    let value ← exprNode Role.child value
    return otherNode role "TypeAlias" span (name :: parameters ++ [value])
  | .function span decorators name _ parameters result body => do
    let decorators ← exprNodes Role.decorator decorators
    let parameters ← parameterNodes Role.param parameters
    let result ← optionNodes Role.annotation_ result
    let body ← bodyNode Role.body body
    return { kind := .functionDef, span := span, role := role, tag := "FunctionDef",
             name := some name, children := decorators ++ parameters ++ result ++ [body] }
  | .class span decorators name _ arguments body => do
    let decorators ← exprNodes Role.decorator decorators
    let bases ← baseNodes arguments
    let keywords ← classKeywordNodes arguments
    let body ← bodyNode Role.body body
    return { kind := .classDef, span := span, role := role, tag := "ClassDef", name := some name,
             children := decorators ++ bases ++ keywords ++ [body] }
  | .if span test body orelse => do
    let test ← exprNode Role.test test
    let body ← bodyNode Role.body body
    let orelse ← orelseNodes Role.orelse "Else" orelse
    return branchNode role "If" span (test :: body :: orelse)
  | .for span target iterable body orelse => do
    let iterable ← exprNode Role.iter iterable
    let target ← exprNode Role.target target
    let body ← bodyNode Role.body body
    let orelse ← orelseNodes Role.orelse "Else" orelse
    return branchNode role "For" span (iterable :: target :: body :: orelse)
  | .while span test body orelse => do
    let test ← exprNode Role.test test
    let body ← bodyNode Role.body body
    let orelse ← orelseNodes Role.orelse "Else" orelse
    return branchNode role "While" span (test :: body :: orelse)
  | .try span body handlers orelse final => do
    let body ← bodyNode Role.body body
    let handlers ← handlerNodes handlers
    let orelse ← orelseNodes Role.orelse "Else" orelse
    let final ← orelseNodes Role.finally_ "Finally" final
    return branchNode role "Try" span (body :: handlers ++ orelse ++ final)
  | .match span subject cases => do
    let subject ← exprNode Role.test subject
    let cases ← caseNodes cases
    return branchNode role "Match" span (subject :: cases)
  | .with span items (.mk _ _ body) => do
    let items ← exprNodes Role.child items
    let body ← stmtNodes Role.child body
    return otherNode role "With" span (items ++ body)

/-- The nodes of several statements in a role. -/
def stmtNodes [CharacterNames] (role : String) : List Stmt → Option (List Node)
  | [] => some []
  | s :: ss => do
    let n ← stmtNode role s
    let ns ← stmtNodes role ss
    return n :: ns

/-- The node of a body in a role. -/
def bodyNode [CharacterNames] (role : String) : Block → Option Node
  | .mk span kind body => do
    let body ← stmtNodes Role.body body
    return blockNode role kind.label span body

/-- The node of what follows a body, if something does. -/
def orelseNodes [CharacterNames] (role tag : String) : Orelse → Option (List Node)
  | .none => some []
  | .chained next => do
    let n ← stmtNode role next
    return [n]
  | .clause span body => do
    let body ← stmtNodes Role.body body
    return [blockNode role tag span body]

/-- The nodes of handlers. -/
def handlerNodes [CharacterNames] : List Handler → Option (List Node)
  | [] => some []
  | .mk span type body :: hs => do
    let type ← optionNodes Role.test type
    let body ← bodyNode Role.body body
    let ns ← handlerNodes hs
    return blockNode Role.handler "ExceptHandler" span (type ++ [body]) :: ns

/-- The nodes of cases. -/
def caseNodes [CharacterNames] : List Case → Option (List Node)
  | [] => some []
  | .mk span guard body :: cs => do
    let guard ← optionNodes Role.test guard
    let body ← bodyNode Role.body body
    let ns ← caseNodes cs
    return blockNode Role.case "MatchCase" span (guard ++ [body]) :: ns

end

/-! ### Scripts -/

/-- The tree of a script; `none` if a literal has no value. -/
def Source.node [CharacterNames] (s : Source) : Option Node := do
  let body ← stmtNodes Role.body s.body
  let span : Span := if body.isEmpty then ⟨1, 1, 1, 1⟩ else ⟨1, 1, s.endLine, 1⟩
  return { kind := .module, span := span, tag := "Module", children := body }

end Framewise.Script
