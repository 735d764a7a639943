import Framewise.Ident
import Framewise.Node.Kind
import Framewise.Source.SourceText
import Framewise.Value

/-! # Nodes

  Rules and tracking read a script as a tree of uniform nodes. A node has a
  kind, a span, an ordered list of children and the role it plays in its
  parent; children are addressed by role. Roles and tags are open: a serialized
  tree may hold any text there, and what this library looks for is listed in
  `Role` and in the tags of branches.

  Main definitions:
  - `Node.child?`, `Node.childrenIn`: children by role.
  - `Node.walk`: the nodes of a tree from the root down, with a stack.
-/

namespace Framewise

/-! ### Roles -/

namespace Role

/-- The object of an attribute or a subscript. -/
def receiver : String := "receiver"

/-- The callee of a call. -/
def func : String := "func"

/-- A positional argument. -/
def arg : String := "arg"

/-- A keyword argument. -/
def keyword : String := "keyword"

/-- The value of an assignment, a return or a keyword. -/
def value : String := "value"

/-- The index of a subscript. -/
def index : String := "index"

/-- A target of an assignment or a loop. -/
def target : String := "target"

/-- The first operand of a comparison. -/
def left : String := "left"

/-- A later operand of a comparison. -/
def comparator : String := "comparator"

/-- A condition. -/
def test : String := "test"

/-- What a loop runs over. -/
def iter : String := "iter"

/-- A body. -/
def body : String := "body"

/-- The alternative of a branch. -/
def orelse : String := "orelse"

/-- An exception handler. -/
def handler : String := "handler"

/-- The closing block of a guarded statement. -/
def finally_ : String := "finally"

/-- A case of a match. -/
def case : String := "case"

/-- A parameter. -/
def param : String := "param"

/-- A type annotation. -/
def annotation_ : String := "annotation"

/-- The default of a parameter. -/
def default : String := "default"

/-- An element of a sequence. -/
def element : String := "element"

/-- The expression of an expression statement. -/
def expr : String := "expr"

/-- A decorator. -/
def decorator : String := "decorator"

/-- A part of a construct without roles of its own. -/
def child : String := "child"

end Role

/-! ### Nodes -/

/-- A node of a normalized tree. -/
structure Node where
  /-- Kind of the node. -/
  kind : NodeKind
  /-- Range of the source. -/
  span : Span
  /-- Role played in the parent. -/
  role : String := ""
  /-- Construct the node stands for (`If`, `List`, `AugAssign`, ...). -/
  tag : String := ""
  /-- Identifier, if the node carries one. -/
  name : Ident := none
  /-- Value of a literal; `none` if the node carries no value. -/
  literal : Option Value := none
  /-- Further facts, such as the operators of a comparison. -/
  attrs : List (String × Value) := []
  /-- Children in source order. -/
  children : List Node := []
  deriving Repr, Inhabited

namespace Node

/-- The first child in a role. -/
def child? (n : Node) (role : String) : Option Node := n.children.find? fun c => c.role = role

/-- Every child in a role, in order. -/
def childrenIn (n : Node) (role : String) : List Node := n.children.filter fun c => c.role = role

/-- The text of a literal that is one. -/
def text? (n : Node) : Option String := Value.text? n.literal

/-- The value of an attribute. -/
def attr? (n : Node) (key : String) : Option Value := Value.lookup n.attrs key

/-- True if the node is marked as starred. -/
def starred (n : Node) : Bool := ((n.attr? "star").map Value.truthy).getD false

/-- The source text of the node. -/
def textIn (n : Node) (source : Option SourceText) : Option String :=
  source.bind fun s => s.slice n.span

/-! ### Walks -/

mutual

/-- Number of nodes of a tree. -/
def size : Node → Nat
  | { children := cs, .. } => 1 + sizeAll cs

/-- Number of nodes of several trees. -/
def sizeAll : List Node → Nat
  | [] => 0
  | c :: cs => size c + sizeAll cs

end

/-- Takes nodes from a stack, putting the children of each on top unless `prune` holds of
    it, for at most `steps` nodes. -/
def walkStack (prune : Node → Bool) : (steps : Nat) → List Node → List Node
  | 0, _ => []
  | _ + 1, [] => []
  | steps + 1, n :: stack =>
    n :: walkStack prune steps (if prune n then stack else n.children ++ stack)

/-- The nodes of a tree, each before its descendants, siblings in order. -/
def walk (n : Node) : List Node := walkStack (fun _ => false) n.size [n]

/-- True for the nodes that open a scope of their own. -/
def opensScope (n : Node) : Bool := n.kind = .functionDef || n.kind = .classDef

/-- The nodes of a function's body, without what lies in scopes nested in it. -/
def localNodes (function : Node) : List Node :=
  let body := function.childrenIn Role.body
  walkStack opensScope (sizeAll body) body

end Node

end Framewise
