import Framewise.Binding.Classify
import Framewise.Binding.Store

/-! # Summaries of functions

  On entering a function the analysis looks once over its parameters and its
  body. A parameter is a frame if its annotation or its name says so. The body
  is read from top to bottom without regard to control flow: an assignment
  gives its names the facts of its value, and the function returns a frame if
  some return statement does at that point.
-/

namespace Framewise

/-- What is known about a function when its scope is entered. -/
structure Summary where
  /-- Name of the function. -/
  name : String
  /-- Names of the parameters, in order. -/
  parameters : List String
  /-- The parameters that are frames. -/
  frameParameters : List String
  /-- Whether some return statement yields a frame. -/
  returnsFrame : Bool
  deriving DecidableEq, Repr, Inhabited

namespace Summary

/-- Parameter names that stand for the object or class of a method. -/
def receiverNames : List String := ["self", "cls"]

/-- The parameters of a function: all that have a name, without the receiver. -/
def parametersOf (function : Node) : List String :=
  (function.childrenIn Role.param).filterMap fun p =>
    match p.name with
    | some s => if receiverNames.contains s then none else some s
    | none => none

/-- True if a parameter is a frame by its annotation or its name. -/
def isFrameParameter (p : Node) (name : String) : Bool :=
  !p.starred &&
    (Frame.annotatesFrame (p.child? Role.annotation_) || Frame.namesFrame name)

/-- The parameters of a function that are frames. -/
def frameParametersOf (function : Node) : List String :=
  let parameters := parametersOf function
  (function.childrenIn Role.param).filterMap fun p =>
    match p.name with
    | some s => if parameters.contains s && isFrameParameter p s then some s else none
    | none => none

/-- The origin with which a parameter is bound. -/
def parameterOrigin (frames : List String) (name : String) : Origin :=
  if frames.contains name then .parameter else .unknown

/-- The parameters as a store. -/
def parameterStore (parameters frames : List String) : Store :=
  parameters.foldl (fun store name =>
    store.put (some name) { name := some name, origin := parameterOrigin frames name }) .empty

/-- Names of the body first, then those of the enclosing scopes. -/
def resolveIn (store : Store) (outer : Resolver) : Resolver := fun name =>
  match store.get? name with
  | some b => .ok (if b.isFrame then some b else none)
  | none => outer name

/-- One node of a body: the store and whether a frame has been returned. -/
def readNode (outer : Resolver) (state : Store × Bool) (n : Node) :
    Except Fault (Store × Bool) :=
  let (store, returns) := state
  if n.kind = .assignment && n.tag != "AugAssign" then do
    let facts ←
      match n.child? Role.value with
      | some value => classify (resolveIn store outer) value
      | none => pure .unknown
    let names := ((n.childrenIn Role.target).filter fun t => t.kind = .name).map (·.name)
    return (names.foldl (fun store name =>
      store.put name { name := name, origin := facts.origin, pinned := facts.pinned }) store,
      returns)
  else if n.kind = .return then
    match n.child? Role.value with
    | some value => do
      let facts ← classify (resolveIn store outer) value
      return (store, returns || facts.isFrame)
    | none => pure (store, returns)
  else pure (store, returns)

/-- The name of a function, or a stand-in. -/
def nameOf (function : Node) : String :=
  match function.name with
  | some s => if s.isEmpty then "<lambda>" else s
  | none => "<lambda>"

/-- The summary of a function, given the resolver of the enclosing scopes. -/
def of (function : Node) (outer : Resolver) : Except Fault Summary := do
  let parameters := parametersOf function
  let frames := frameParametersOf function
  let (_, returns) ← function.localNodes.foldlM (readNode outer)
    (parameterStore parameters frames, false)
  return { name := nameOf function, parameters := parameters, frameParameters := frames,
           returnsFrame := returns }

end Summary

end Framewise
