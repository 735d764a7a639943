import Framewise.Rule.Basic

/-! # Merges that leave things unsaid

  A merge should say how it joins, on what, and how many matches it expects.
  Each of the three that a call leaves out is a finding of its own. `merge` is
  taken for a frame merge unless it is called on a module known to have another
  one; `join` only if it is called on a frame.
-/

namespace Framewise.Rule

/-- True if a call is taken for a merge of frames. -/
def isFrameMerge (view : View) (call : Node) : Except Crash Bool :=
  let callee := Frame.calleeName call
  let receiver := Frame.methodReceiver call
  if Frame.listed Frame.joinCallees callee then view.isFrame receiver
  else if Frame.listed Frame.mergeCallees callee then
    .ok <| match receiver with
      | some r => !(r.kind = .name && Frame.listed Frame.otherMergers r.name)
      | none => true
  else .ok false

/-- Flags each argument that a merge leaves out. -/
def implicitMerge : Matcher := fun site view =>
  let n := site.node
  if n.kind != .call then .ok []
  else do
    if ← isFrameMerge view n then
      return (Frame.unstatedDuties n).map fun duty =>
        { message := "'" ++ (Frame.calleeName n).display ++ "' does not state its " ++
            duty.meaning ++ "; pass '" ++ duty.argument ++ "=' explicitly"
          subject := some duty.argument }
    else return []

end Framewise.Rule
