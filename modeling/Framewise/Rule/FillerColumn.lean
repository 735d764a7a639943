import Framewise.Rule.Basic

/-! # Filler values in new columns

  `df["n"] = 0` fills a new column with a value that passes for data. The rule
  wants the mark of missing data. It looks at each target of an assignment
  whose value is a literal zero or empty text.
-/

namespace Framewise.Rule

/-- The frame and the column that a target assigns: `frame["col"]` or
    `frame.loc[rows, "col"]`. -/
def assignedColumn (target : Node) : Option (Node × String) :=
  if target.kind != .subscript then none
  else do
    let receiver ← target.child? Role.receiver
    let index ← target.child? Role.index
    if receiver.kind = .name && Frame.isColumnKey index then
      return (receiver, ← index.text?)
    else if receiver.kind = .attribute && receiver.name = some "loc" then
      let frame ← receiver.child? Role.receiver
      if frame.kind != .name || index.kind != .sequence then none
      else
        match index.children with
        | [_, column] => if Frame.isColumnKey column then return (frame, ← column.text?) else none
        | _ => none
    else none

/-- The finding for one target. -/
def fillerFinding (frame : Ident) (label shown : String) (span : Span) : Finding :=
  { message := "New column '" ++ label ++ "' of frame '" ++ frame.display ++
      "' is filled with " ++ shown ++ "; use missing-value sentinel " ++ Frame.missingMark
    subject := some label
    fix := some (frame.display ++ "[\"" ++ label ++ "\"] = " ++ Frame.missingMark)
    span := some span }

/-- The findings for a list of targets. -/
def fillerFindings (view : View) (shown : String) : List Node → Except Crash (List Finding)
  | [] => .ok []
  | target :: rest =>
    match assignedColumn target with
    | none => fillerFindings view shown rest
    | some (frame, label) => do
      let binding ← view.frameOf (some frame)
      let later ← fillerFindings view shown rest
      match binding with
      | none => return later
      | some b => return fillerFinding b.name label shown target.span :: later

/-- The value of an assignment as shown: its source text, or the value itself. -/
def shownValue (view : View) (value : Node) : String :=
  match view.textOf (some value) with
  | some s => if s.isEmpty then (value.literal.getD .null).quoted else s
  | none => (value.literal.getD .null).quoted

/-- Flags `frame["col"] = 0`. -/
def fillerColumn : Matcher := fun site view =>
  let n := site.node
  if n.kind != .assignment || n.tag = "AugAssign" then .ok []
  else
    match n.child? Role.value with
    | none => .ok []
    | some value =>
      if Frame.isFillerLiteral value then
        fillerFindings view (shownValue view value) (n.childrenIn Role.target)
      else .ok []

end Framewise.Rule
