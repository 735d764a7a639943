import Framewise.Frame.Shape

/-! # Classification of expressions

  What an expression yields, given what its names are bound to. Names take the
  facts of their binding, calls are looked up in the table of origins and among
  the methods of frames, subscripts select columns or rows. Any other shape is
  unknown. A resolver may fail on a missing identifier; the failure is passed
  on.
-/

namespace Framewise

/-- The facts of a frame, or nothing if the facts are not those of one. -/
def Facts.frame? (f : Facts) : Option Facts := if f.isFrame then some f else none

/-- The facts of a binding that may be missing. -/
def factsOf (b : Option Binding) : Facts := (b.map Binding.facts).getD .unknown

/-- The facts of a call, from its callee and the facts of its receiver. -/
def callFacts (call : Node) (callee : String) (receiver : Option Facts) : Facts :=
  let fits (row : Frame.CallPattern) : Bool :=
    row.covers callee && (!row.onFrame || receiver.isSome) &&
      (!row.onLibrary || Frame.isLibraryCall call)
  match Frame.origins.find? fits with
  | some row => { origin := row.origin }
  | none =>
    match receiver with
    | some facts =>
      if Frame.returningMethods.contains callee then
        if Frame.isTrueLiteral (Frame.keywordValue call Frame.inPlaceKeyword) then .unknown
        else { origin := .derived, pinned := facts.pinned }
      else .unknown
    | none => .unknown

/-- The facts of a subscript through a row accessor, from those of the frame. -/
def accessorFacts (accessor : Ident) (index : Node) (base : Option Facts) : Facts :=
  match base with
  | none => .unknown
  | some base =>
    if Frame.listed Frame.cellAccessors accessor then .unknown
    else
      let rows : Facts := { origin := .derived, pinned := base.pinned }
      if index.kind = .sequence && index.tag = "Tuple" then
        match index.children with
        | [_, columns] =>
          if Frame.isColumnList columns then { origin := .selection, pinned := true }
          else if columns.kind = .literal then .unknown
          else rows
        | _ => rows
      else rows

/-- The facts of a subscript of a frame itself. -/
def selectionFacts (index : Node) (base : Option Facts) : Facts :=
  match base with
  | none => .unknown
  | some base =>
    if Frame.isColumnList index then { origin := .selection, pinned := true }
    else if index.kind = .compare then { origin := .derived, pinned := base.pinned }
    else .unknown

mutual

/-- What an expression yields. -/
def classify (resolve : Resolver) : Node → Except Fault Facts
  | n@{ kind := kind, name := name, children := cs, .. } =>
    match kind with
    | .name => do return factsOf (← resolve name)
    | .call =>
      match Frame.calleeName n with
      | none => .ok .unknown
      | some callee => do return callFacts n callee (← methodReceiverFacts resolve cs)
    | .subscript =>
      match n.child? Role.receiver, n.child? Role.index with
      | some receiver, some index =>
        if receiver.kind = .attribute && Frame.listed Frame.rowAccessors receiver.name then do
          return accessorFacts receiver.name index (← accessedFacts resolve cs)
        else do
          return selectionFacts index (← receiverFacts resolve cs)
      | _, _ => .ok .unknown
    | _ => .ok .unknown

/-- The facts of the first receiver among some children, if it is a frame. -/
def receiverFacts (resolve : Resolver) : List Node → Except Fault (Option Facts)
  | [] => .ok none
  | c :: cs =>
    if c.role = Role.receiver then do return (← classify resolve c).frame?
    else receiverFacts resolve cs

/-- The facts of the receiver of the first receiver among some children. -/
def accessedFacts (resolve : Resolver) : List Node → Except Fault (Option Facts)
  | [] => .ok none
  | { role := role, children := inner, .. } :: cs =>
    if role = Role.receiver then receiverFacts resolve inner else accessedFacts resolve cs

/-- The facts of the receiver of the method called, if the callee is one. -/
def methodReceiverFacts (resolve : Resolver) : List Node → Except Fault (Option Facts)
  | [] => .ok none
  | { kind := kind, role := role, children := inner, .. } :: cs =>
    if role = Role.func then
      if kind = .attribute then receiverFacts resolve inner else .ok none
    else methodReceiverFacts resolve cs

end

/-- The facts of an expression if it is a frame. -/
def frameFacts (resolve : Resolver) : Option Node → Except Fault (Option Facts)
  | none => .ok none
  | some n => do return (← classify resolve n).frame?

end Framewise
