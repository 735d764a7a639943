import Framewise.Node.Basic

/-! # Room on the stack

  A walk over a tree is a recursion over it, and the stack has room for a
  limited number of nested calls. How many a tree needs follows from its
  deepest path: each node on it costs the calls that are open while one of its
  children is looked at, and whatever is done at the last node some more.

  Main definition: `Node.frames`.
-/

namespace Framewise

/-- The tags of the branches whose arms are run one by one. -/
def armedTags : List String := ["If", "For", "While", "Try", "Match"]

/-- The calls that are open at a node while a child of it is looked at. The arms of a branch
    are calls of their own; a function or a class adds a scope, through which a name may have
    to be looked up further inwards; a subscript is passed a second time when what it selects
    from is classified. -/
def openCalls (kind : NodeKind) (tag : String) : Nat :=
  match kind with
  | .branch => if armedTags.contains tag then 6 else 3
  | .functionDef => 4
  | .classDef => 4
  | .subscript => 3
  | _ => 2

/-- The calls that are kept free for what is done at a single node. -/
def reservedCalls : Nat := 16

/-- The depth of what stands for a star among some attributes. -/
def starDepth (attrs : List (String × Value)) : Nat :=
  ((Value.lookup attrs "star").map Value.depth).getD 0

namespace Node

mutual

/-- The nested calls that a walk over a tree may need. -/
def frames : Node → Nat
  | { kind := kind, tag := tag, attrs := attrs, children := cs, .. } =>
    openCalls kind tag + max (reservedCalls + starDepth attrs) (framesBelow cs)
  termination_by structural n => n

/-- The nested calls that a walk over several trees may need. -/
def framesBelow : List Node → Nat
  | [] => 0
  | c :: cs => max (frames c) (framesBelow cs)
  termination_by structural cs => cs

end

end Node

end Framewise
