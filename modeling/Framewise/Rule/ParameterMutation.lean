import Framewise.Rule.Basic

/-! # Frame parameters that are changed and returned

  A function that writes into a frame it was given, and returns a frame, leaves
  its caller with a changed argument. The parameter must still be bound to the
  caller's object: after `df = df.copy()` the function owns it.
-/

namespace Framewise.Rule

/-- The name node among a node's candidates. -/
def nameNode? (n : Option Node) : Option Node := n.filter fun n => n.kind = .name

/-- The name that a target writes into: `df` in `df["a"] = ...`, `df.loc[m, "a"] = ...` and
    `df.a = ...`. -/
def mutatedName (target : Node) : Option Node :=
  match target.kind with
  | .subscript =>
    match target.child? Role.receiver with
    | some receiver =>
      if receiver.kind = .attribute && Frame.listed Frame.rowAccessors receiver.name then
        nameNode? (receiver.child? Role.receiver)
      else nameNode? (some receiver)
    | none => none
  | .attribute =>
    if Frame.listed Frame.ownAttributes target.name then none
    else nameNode? (target.child? Role.receiver)
  | _ => none

/-- The finding for one target, if it writes into a frame parameter. -/
def mutationFinding (view : View) (summary : Summary) (target : Node) : Option Finding := do
  let frame ← mutatedName target
  let b ← view.local? frame.name
  if b.origin = .parameter then
    return { message := "Frame parameter '" ++ b.name.display ++ "' of '" ++ summary.name ++
               "' is mutated and a frame is returned; " ++
               "avoid mutating and returning frame parameters"
             subject := b.name
             fix := some (b.name.display ++ " = " ++ b.name.display ++ ".copy()")
             span := some target.span }
  else none

/-- Flags writes into frame parameters of functions that return a frame. -/
def parameterMutation : Matcher := fun site view =>
  let n := site.node
  if n.kind != .assignment then .ok []
  else
    match view.function? with
    | some summary =>
      if summary.returnsFrame then
        .ok ((n.childrenIn Role.target).filterMap (mutationFinding view summary))
      else .ok []
    | none => .ok []

end Framewise.Rule
