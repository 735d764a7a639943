import Framewise.Frame.Vocabulary
import Framewise.Node.Basic

/-! # Shapes of frame code

  What a node looks like, read off the tree alone: the callee and the receiver
  of a call, its keywords, lists of column names, filler values, annotations.
  Nothing here depends on what names are bound to.
-/

namespace Framewise.Frame

/-! ### Calls -/

/-- The last name of a call's callee (`read_csv` in `pd.read_csv(...)`). -/
def calleeName (call : Node) : Ident :=
  match call.child? Role.func with
  | some func => if func.kind = .name || func.kind = .attribute then func.name else none
  | none => none

/-- The receiver of a method call (`df` in `df.merge(...)`). -/
def methodReceiver (call : Node) : Option Node :=
  match call.child? Role.func with
  | some func => if func.kind = .attribute then func.child? Role.receiver else none
  | none => none

/-- True if an identifier is in a table. -/
def listed (table : List String) (name : Ident) : Bool :=
  match name with
  | some s => table.contains s
  | none => false

mutual

/-- True if a chain of attributes begins with the name of a frame library. -/
def rootedAtLibrary : Node → Bool
  | { kind := kind, name := name, children := cs, .. } =>
    if kind = .attribute then receiverRootedAtLibrary cs
    else kind = .name && listed libraries name

/-- The same of the first receiver among some children. -/
def receiverRootedAtLibrary : List Node → Bool
  | [] => false
  | c :: cs => if c.role = Role.receiver then rootedAtLibrary c else receiverRootedAtLibrary cs

end

/-- True for a bare call (`read_source()`) and for one whose receiver begins with the name
    of a frame library (`pd.read_csv(...)`, `pd.DataFrame.from_dict(...)`). -/
def isLibraryCall (call : Node) : Bool :=
  match methodReceiver call with
  | some receiver => rootedAtLibrary receiver
  | none =>
    match call.child? Role.func with
    | some func => func.kind = .name
    | none => false

/-- The value of the first keyword argument of a name. -/
def keywordValue (call : Node) (name : String) : Option Node :=
  match (call.childrenIn Role.keyword).find? fun k => k.name = some name with
  | some k => k.child? Role.value
  | none => none

/-- True if the call passes on keywords that cannot be known. -/
def hasKeywordSplat (call : Node) : Bool :=
  (call.childrenIn Role.arg).any fun a => Value.text? (a.attr? "star") = some "**"

/-! ### Values -/

/-- True for the literal `True`. -/
def isTrueLiteral (n : Option Node) : Bool :=
  match n with
  | some n =>
    n.kind = .literal && (match n.literal with | some (.bool true) => true | _ => false)
  | none => false

/-- True for values that pass for data: a zero and the empty text. -/
def isFiller : Value → Bool
  | .number (.int i) => i = 0
  | .number (.float x) => x.isZero
  | .text s => s.isEmpty
  | _ => false

/-- True for a literal that passes for data. -/
def isFillerLiteral (n : Node) : Bool :=
  n.kind = .literal && (n.literal.map isFiller).getD false

/-- True for a literal column name. -/
def isColumnKey (n : Node) : Bool := n.kind = .literal && n.text?.isSome

/-- True for a list of literal column names. -/
def isColumnList (n : Node) : Bool :=
  n.kind = .sequence && n.tag = "List" && n.children.all fun c => isColumnKey c && !c.starred

/-! ### Annotations -/

/-- The part of a dotted name after the last dot. -/
def lastPart (s : String) : String :=
  String.ofList (s.toList.reverse.takeWhile (· != '.')).reverse

/-- True if an annotation names a frame type. -/
def annotatesFrame (n : Option Node) : Bool :=
  match n with
  | some n =>
    if n.kind = .name || n.kind = .attribute then listed types n.name
    else if n.kind = .literal then
      match n.text? with
      | some s => types.contains (lastPart s)
      | none => false
    else false
  | none => false

/-! ### Merges -/

/-- The duties that a merge leaves unstated, in their order. -/
def unstatedDuties (call : Node) : List MergeDuty :=
  if hasKeywordSplat call then []
  else
    let present := (call.childrenIn Role.keyword).map (·.name)
    mergeDuties.filter fun duty => !duty.keywords.any fun k => present.contains (some k)

/-- The names of the arguments that a merge leaves unstated. -/
def unstatedArguments (call : Node) : List String := (unstatedDuties call).map (·.argument)

/-! ### Chains -/

mutual

/-- The name at the root of a chain of attributes, subscripts and calls. -/
def rootName : Node → Option Node
  | n@{ kind := kind, children := cs, .. } =>
    match kind with
    | .name => some n
    | .attribute | .subscript => rootOfFirst Role.receiver cs
    | .call => rootOfFirst Role.func cs
    | _ => none

/-- The root of the first child in a role. -/
def rootOfFirst (role : String) : List Node → Option Node
  | [] => none
  | c :: cs => if c.role = role then rootName c else rootOfFirst role cs

end

end Framewise.Frame
