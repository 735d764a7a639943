import Framewise.Binding.Summary

/-! # The tracker

  The tracker holds the chain of scopes that is open at a point of a script:
  the innermost scope and those around it. Names resolve from the inside out; a
  name bound nowhere that follows the naming of frames is taken for one by
  convention. Assignments bind names of the innermost scope only.

  A branch runs every arm from the same store and merges what they lead to;
  that part needs a way to run an arm, and stands with the traversal.
-/

namespace Framewise

/-- One scope: a module, a class or a function. -/
structure Scope where
  /-- Name shown for the scope. -/
  name : String
  /-- Facts about the function, if it is one. -/
  summary : Option Summary := none
  /-- Bindings made in the scope. -/
  store : Store := .empty
  deriving DecidableEq, Repr, Inhabited

/-- The chain of open scopes. -/
structure Tracker where
  /-- The innermost scope. -/
  current : Scope
  /-- The scopes around it, from the inside out. -/
  outer : List Scope := []
  deriving DecidableEq, Repr, Inhabited

namespace Tracker

/-- A tracker at the start of a module. -/
def start : Tracker := { current := { name := "<module>" } }

/-- The open scopes from the inside out. -/
def scopes (t : Tracker) : List Scope := t.current :: t.outer

/-! ### Scopes -/

/-- Opens a scope. -/
def enter (t : Tracker) (name : String) (summary : Option Summary := none) : Tracker :=
  { current := { name := name, summary := summary }, outer := t.current :: t.outer }

/-- Closes the innermost scope; the scope of the module stays open. -/
def exit (t : Tracker) : Tracker :=
  match t.outer with
  | scope :: rest => { current := scope, outer := rest }
  | [] => t

/-- Replaces the bindings of the innermost scope. -/
def withStore (t : Tracker) (store : Store) : Tracker :=
  { t with current := { t.current with store := store } }

/-! ### Bindings -/

/-- Binds a name in the innermost scope. -/
def bind (t : Tracker) (name : Ident) (facts : Facts) : Tracker :=
  t.withStore (t.current.store.put name
    { name := name, origin := facts.origin, pinned := facts.pinned })

/-- The binding of a name in the innermost scope. -/
def local? (t : Tracker) (name : Ident) : Option Binding := t.current.store.get? name

/-- The binding of a name, from the inside out. -/
def lookup (t : Tracker) (name : Ident) : Option Binding :=
  t.scopes.findSome? fun scope => scope.store.get? name

/-- The frame binding of a name: its binding if that is a frame; for a name that is not
    bound, one by convention if the name is that of a frame. -/
def resolve (t : Tracker) : Resolver := fun name =>
  match t.lookup name with
  | some b => .ok (if b.isFrame then some b else none)
  | none =>
    match name with
    | some s =>
      .ok (if Frame.namesFrame s then some { name := name, origin := .convention } else none)
    | none => .error .unnamed

/-- Opens the scope of a function and binds its parameters. -/
def enterFunction (t : Tracker) (function : Node) : Except Fault Tracker := do
  let summary ← Summary.of function t.resolve
  return summary.parameters.foldl (fun t name =>
    t.bind (some name) { origin := Summary.parameterOrigin summary.frameParameters name })
    (t.enter summary.name (some summary))

mutual

/-- Binds a target: a name, or the names inside an unpacking. Unpacked names are unknown,
    and other targets bind nothing. -/
def bindTarget (t : Tracker) (facts : Facts) : Node → Tracker
  | { kind := kind, name := name, children := cs, .. } =>
    match kind with
    | .name => t.bind name facts
    | .sequence => bindElements t cs
    | _ => t

/-- Binds the elements of an unpacking. -/
def bindElements (t : Tracker) : List Node → Tracker
  | [] => t
  | c :: cs => bindElements (bindTarget t .unknown c) cs

end

/-! ### Questions -/

/-- What an expression yields at this point. -/
def classify (t : Tracker) (n : Node) : Except Fault Facts := Framewise.classify t.resolve n

/-- The frame binding of a name node. -/
def frameOf (t : Tracker) : Option Node → Except Fault (Option Binding)
  | some n => if n.kind = .name then t.resolve n.name else .ok none
  | none => .ok none

/-- The facts of an expression if it is a frame. -/
def frameFacts (t : Tracker) (n : Option Node) : Except Fault (Option Facts) :=
  Framewise.frameFacts t.resolve n

/-- True if an expression is a frame. -/
def isFrame (t : Tracker) (n : Option Node) : Except Fault Bool := do
  return (← t.frameFacts n).isSome

/-- True if an expression is a frame with its columns listed. -/
def isPinned (t : Tracker) (n : Option Node) : Except Fault Bool := do
  return ((← t.frameFacts n).map Facts.pinned).getD false

/-- The facts with which an assignment binds its targets. -/
def assignedFacts (t : Tracker) (assignment : Node) : Except Fault Facts :=
  if assignment.tag = "AugAssign" then .ok .unknown
  else
    match assignment.child? Role.value with
    | some value => t.classify value
    | none => .ok .unknown

/-- Records what an assignment binds. -/
def bindAssignment (t : Tracker) (assignment : Node) : Except Fault Tracker := do
  let facts ← t.assignedFacts assignment
  return (assignment.childrenIn Role.target).foldl (fun t target => t.bindTarget facts target) t

/-- The method by which a call changes its receiver, if it is told to. -/
def inPlaceMethod (call : Node) : Option String :=
  if Frame.isTrueLiteral (Frame.keywordValue call Frame.inPlaceKeyword) then
    match Frame.calleeName call with
    | some s => some (if s.isEmpty then "<call>" else s)
    | none => some "<call>"
  else none

end Tracker

end Framewise
