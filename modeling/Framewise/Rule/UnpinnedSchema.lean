import Framewise.Rule.Basic

/-! # Schemas that are not pinned

  A frame that was read or built has whatever columns its source has. Before it
  is handed on (as an argument, a return value or a side of a merge) or read by
  column, its columns should be listed: `x = x[["a", "b"]]`.
-/

namespace Framewise.Rule

/-- The ways of using a frame that ask for a pinned schema. -/
inductive Use where
  | argument
  | returned
  | merged
  | columnRead
  deriving DecidableEq, Repr, Inhabited

/-- A use in words. -/
def Use.phrase : Use → String
  | .argument => "a call argument"
  | .returned => "a return value"
  | .merged => "a merge"
  | .columnRead => "a column read"

/-- How a name is used, if the use asks for a pinned schema. -/
def useOf (site : Site) : Option Use :=
  match site.parent with
  | none => none
  | some parent =>
    let role := site.node.role
    if role = Role.arg && parent.kind = .call then some .argument
    else if role = Role.value && parent.kind = .keyword then some .argument
    else if role = Role.value && parent.kind = .return then some .returned
    else if role = Role.receiver && parent.kind = .attribute then
      if parent.role = Role.func &&
          Frame.listed (Frame.mergeCallees ++ Frame.joinCallees) parent.name then some .merged
      else none
    else if role = Role.receiver && parent.kind = .subscript && parent.role != Role.target then
      match parent.child? Role.index with
      | some index => if Frame.isColumnKey index then some .columnRead else none
      | none => none
    else none

/-- True for a frame whose columns are whatever its source has. -/
def isUnpinned (b : Binding) : Bool :=
  !b.pinned && (b.origin = .read || b.origin = .construction)

/-- Flags uses of a frame that was read or built and not pinned. -/
def unpinnedSchema : Matcher := fun site view =>
  if site.node.kind != .name then .ok []
  else do
    match ← view.frameOf (some site.node) with
    | none => return []
    | some b =>
      if !isUnpinned b then return []
      else
        match useOf site with
        | none => return []
        | some use =>
          let frame := b.name.display
          return [{ message := "Frame '" ++ frame ++ "' (" ++ b.origin.label ++ ") reaches " ++
                      use.phrase ++ " before its columns are selected; pin schema explicitly with " ++
                      frame ++ " = " ++ frame ++ "[[...]]"
                    subject := b.name }]

end Framewise.Rule
