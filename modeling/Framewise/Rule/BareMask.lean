import Framewise.Rule.Basic

/-! # Bare boolean masks

  `df[df.a > 1]` filters rows through the same brackets that select columns.
  The rule wants the row accessor, `df.loc[df.a > 1]`. It matches a comparison
  in which some operand begins with the frame's own name.
-/

namespace Framewise.Rule

/-- True if an operand of a comparison begins with a name. -/
def comparesName (compare : Node) (name : Ident) : Bool :=
  let operands := (compare.child? Role.left).toList ++ compare.childrenIn Role.comparator
  operands.any fun operand =>
    match Frame.rootName operand with
    | some root => root.name = name
    | none => false

/-- Flags `frame[comparison on frame]`. -/
def bareMask : Matcher := fun site view =>
  let n := site.node
  if n.kind != .subscript then .ok []
  else do
    match ← view.frameOf (n.child? Role.receiver), n.child? Role.index with
    | some b, some index =>
      if index.kind = .compare && comparesName index b.name then
        let frame := b.name.display
        return [{ message := "Boolean filter on frame '" ++ frame ++
                    "' bypasses an explicit row accessor; use explicit row accessor " ++
                    frame ++ ".loc[...]"
                  subject := b.name
                  fix := (view.textOf (some index)).map fun mask =>
                    frame ++ ".loc[" ++ mask ++ "]" }]
      else return []
    | _, _ => return []

end Framewise.Rule
