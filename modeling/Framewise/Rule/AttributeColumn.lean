import Framewise.Rule.Basic

/-! # Columns read as attributes

  `df.price` reads a column as if it were an attribute of the frame. An
  attribute that frames have of their own, one that begins with an underscore
  and the callee of a method call are left alone.
-/

namespace Framewise.Rule

/-- The finding for a column of a frame. -/
def attributeFinding (frame : Ident) (column : String) : Finding :=
  let selection := frame.display ++ "[\"" ++ column ++ "\"]"
  { message := "Column '" ++ column ++ "' of frame '" ++ frame.display ++
      "' is accessed as an attribute; use subscript selection " ++ selection
    subject := frame
    fix := some selection }

/-- True for an attribute that can be a column. -/
def isColumnAttribute (name : String) : Bool :=
  !name.isEmpty && !"_".isPrefixOf name && !Frame.ownAttributes.contains name

/-- Flags `frame.column`. -/
def attributeColumn : Matcher := fun site view =>
  let n := site.node
  if n.kind != .attribute || n.role = Role.func then .ok []
  else do
    match ← view.frameOf (n.child? Role.receiver) with
    | none => return []
    | some b =>
      let column := n.name.getD ""
      return if isColumnAttribute column then [attributeFinding b.name column] else []

end Framewise.Rule
