import Framewise.Node.Basic
import Framewise.Schema.Read

/-! # Trees from outside

  A tree may be handed over as nested objects. Each has a `kind` and a `span`,
  and may have `children`, `name`, `literal`, `role`, `tag` and `attrs`; other
  entries are ignored. A tree is read whole or not at all: the first fault in
  the order of these fields, depth first, is reported with the path to it.
  Objects nested `depthLimit` deep are refused.

  Main definitions:
  - `Node.ofValue`: reads a tree.
  - `Node.toValue`: the object form of a tree.
-/

namespace Framewise.Node

open Schema (Step Cause Problem)

/-- The first problem met, or a result. -/
abbrev FirstProblem (α : Type) := Except Problem α

/-- Sees a problem from one step further out. -/
def inside {α : Type} (step : Step) (r : FirstProblem α) : FirstProblem α :=
  r.mapError (Problem.under step)

/-- Reads a value in place. -/
def readHere {α : Type} (read : Value → Schema.Read α) (v : Value) : FirstProblem α :=
  (read v).mapError fun cause => ⟨[], cause⟩

/-- A field that must be there. -/
def readRequired {α : Type} (entries : List (String × Value)) (key : String)
    (read : Value → FirstProblem α) : FirstProblem α :=
  match Value.lookup entries key with
  | some v => inside (.key key) (read v)
  | none => .error ⟨[.key key], .missing⟩

/-- A field with a default. -/
def readDefaulted {α : Type} (entries : List (String × Value)) (key : String) (fallback : α)
    (read : Value → Schema.Read α) : FirstProblem α :=
  match Value.lookup entries key with
  | some v => inside (.key key) (readHere read v)
  | none => .ok fallback

/-- A span. -/
def readSpan : Value → FirstProblem Span
  | .table entries => do
    let field (key : String) := readRequired entries key (readHere Schema.positiveInt)
    return { startLine := ← field "start_line", startColumn := ← field "start_column",
             endLine := ← field "end_line", endColumn := ← field "end_column" }
  | _ => .error ⟨[], .notModel "_RawSpan"⟩

/-- The attributes of a node. -/
def readAttrs : Value → Schema.Read (List (String × Value))
  | .table entries => .ok entries
  | _ => .error .notTable

/-- The depth at which nested objects are refused. -/
def depthLimit : Nat := 255

/-- The fields of a node other than its children. -/
def readFields (entries : List (String × Value)) (kind : NodeKind) (span : Span)
    (children : List Node) : FirstProblem Node := do
  let name ← readDefaulted entries "name" none (Schema.optional Schema.text)
  let role ← readDefaulted entries "role" "" Schema.text
  let tag ← readDefaulted entries "tag" "" Schema.text
  let attrs ← readDefaulted entries "attrs" [] readAttrs
  return { kind := kind, span := span, role := role, tag := tag, name := name,
           literal := Value.lookup entries "literal", attrs := attrs, children := children }

/-- Reads the items of a list from a number on. -/
def readItems (read : Value → FirstProblem Node) :
    (index : Nat) → List Value → FirstProblem (List Node)
  | _, [] => .ok []
  | index, v :: vs => do
    let n ← inside (.item index) (read v)
    let ns ← readItems read (index + 1) vs
    return n :: ns

/-- The children of a node, each read by `read`. -/
def readChildren (read : Value → FirstProblem Node) (entries : List (String × Value)) :
    FirstProblem (List Node) :=
  match Value.lookup entries "children" with
  | none => .ok []
  | some (.list items) => inside (.key "children") (readItems read 0 items)
  | some _ => .error ⟨[.key "children"], .notList⟩

/-- Reads a node; `levels` is what is left of the depth limit. -/
def readNode : (levels : Nat) → Value → FirstProblem Node
  | 0, _ => .error ⟨[], .tooDeep⟩
  | levels + 1, .table entries => do
    let kind ← readRequired entries "kind" (readHere (Schema.listed NodeKind.all NodeKind.label))
    let span ← readRequired entries "span" readSpan
    let children ← readChildren (readNode levels) entries
    readFields entries kind span children
  | _ + 1, _ => .error ⟨[], .notModel "_RawNode"⟩

/-- Reads a tree. -/
def ofValue (v : Value) : FirstProblem Node := readNode depthLimit v

/-- The text of a problem with a tree. -/
def problemMessage (p : Problem) : String :=
  let place := Schema.displayPath p.path
  "Malformed node: " ++ p.cause.message ++ " (at " ++
    (if place.isEmpty then "<root>" else place) ++ ")"

/-! ### The object form -/

/-- The object form of a span. -/
def spanValue (s : Span) : Value :=
  .table [("start_line", .int s.startLine), ("start_column", .int s.startColumn),
    ("end_line", .int s.endLine), ("end_column", .int s.endColumn)]

/-- An identifier as a value. -/
def identValue : Ident → Value
  | some s => .text s
  | none => .null

mutual

/-- The object form of a tree. -/
def toValue : Node → Value
  | { kind, span, role, tag, name, literal, attrs, children } =>
    .table ([("kind", .text kind.label), ("span", spanValue span),
        ("children", .list (toValues children)), ("name", identValue name),
        ("role", .text role), ("tag", .text tag), ("attrs", .table attrs)] ++
      (literal.map fun v => ("literal", v)).toList)

/-- The object forms of several trees. -/
def toValues : List Node → List Value
  | [] => []
  | n :: ns => toValue n :: toValues ns

end

end Framewise.Node
