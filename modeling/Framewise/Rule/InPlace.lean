import Framewise.Rule.Basic

/-! # Changes in place

  `df.dropna(inplace=True)` changes the frame it is called on. The opposite
  slip is the bare statement `df.dropna()`, whose result is thrown away. Either
  way the fix is an assignment of the call, without the keyword, to the
  receiver; it is offered if the source text of every part is at hand.
-/

namespace Framewise.Rule

/-- An argument of a call in a fix: nothing for a child that is no argument or is the
    keyword `inplace`, and `none` inside if its text is not at hand. -/
def fixArgument (view : View) (child : Node) : Option (Option String) :=
  if child.role = Role.arg then
    let star := ((child.attr? "star").map Value.display).getD ""
    some ((view.textOf (some child)).map (star ++ ·))
  else if child.kind = .keyword && child.name != some Frame.inPlaceKeyword then
    some ((view.textOf (child.child? Role.value)).map (child.name.display ++ "=" ++ ·))
  else none

/-- The call as an assignment to its receiver. -/
def reassignment (view : View) (call : Node) : Option String := do
  let receiver ← view.textOf (Frame.methodReceiver call)
  let func ← view.textOf (call.child? Role.func)
  let args ← (call.children.filterMap (fixArgument view)).mapM fun arg => arg
  return receiver ++ " = " ++ func ++ "(" ++ String.intercalate ", " args ++ ")"

/-- True if the star of an argument can be written. -/
def isWritableStar (child : Node) : Bool := ((child.attr? "star").map Value.isWritable).getD true

/-- True if the call can be written as an assignment, or is not written at all. The arguments
    are written one after the other, up to the first whose text is not at hand. -/
def isWritableFix (view : View) (call : Node) : Bool :=
  (view.textOf (Frame.methodReceiver call)).isNone ||
  (view.textOf (call.child? Role.func)).isNone ||
  (call.children.takeWhile fun child => fixArgument view child != some none).all fun child =>
    child.role != Role.arg || isWritableStar child

/-- The finding that offers an assignment for a call of a method. -/
def inPlaceFinding (view : View) (call : Node) (method message : String) : Finding where
  message := message
  subject := some method
  fix := reassignment view call
  isWritable := isWritableFix view call

/-- Flags `inplace=True` and results thrown away. -/
def inPlace : Matcher := fun site view =>
  let n := site.node
  if n.kind != .call then .ok []
  else
    match Tracker.inPlaceMethod n with
    | some method =>
      .ok [inPlaceFinding view n method
        ("'" ++ method ++ "' mutates its receiver with inplace=True; use reassignment")]
    | none =>
      if n.role != Role.expr then .ok []
      else
        match Frame.calleeName n with
        | none => .ok []
        | some method =>
          if !Frame.inPlaceMethods.contains method then .ok []
          else do
            if ← view.isFrame (Frame.methodReceiver n) then
              return [inPlaceFinding view n method
                ("Result of '" ++ method ++
                  "' is discarded and the frame is left unchanged; use reassignment")]
            else return []

end Framewise.Rule
