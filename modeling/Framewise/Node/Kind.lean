/-! # Kinds of nodes

  A node of a normalized tree has one of eighteen kinds. The first eight are the
  ones that rules match on; the others carry structure and leaf values. A kind
  has a fixed name in serialized trees.
-/

namespace Framewise

/-- The kind of a node. -/
inductive NodeKind where
  | call
  | subscript
  | attribute
  | assignment
  | compare
  | functionDef
  | parameter
  | return
  | module
  | classDef
  | block
  | branch
  | statement
  | name
  | literal
  | keyword
  | sequence
  | other
  deriving DecidableEq, Repr, Inhabited

namespace NodeKind

/-- The name of a kind in serialized trees. -/
def label : NodeKind → String
  | .call => "call"
  | .subscript => "subscript"
  | .attribute => "attribute"
  | .assignment => "assignment"
  | .compare => "compare"
  | .functionDef => "function_def"
  | .parameter => "parameter"
  | .return => "return"
  | .module => "module"
  | .classDef => "class_def"
  | .block => "block"
  | .branch => "branch"
  | .statement => "statement"
  | .name => "name"
  | .literal => "literal"
  | .keyword => "keyword"
  | .sequence => "sequence"
  | .other => "other"

/-- All kinds, in the order in which they are listed to a reader. -/
def all : List NodeKind :=
  [.call, .subscript, .attribute, .assignment, .compare, .functionDef, .parameter, .return,
    .module, .classDef, .block, .branch, .statement, .name, .literal, .keyword, .sequence,
    .other]

/-- The kind of a name. -/
def ofLabel? (s : String) : Option NodeKind := all.find? fun kind => kind.label = s

end NodeKind

end Framewise
