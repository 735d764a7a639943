import Framewise.Proofs.Route
import Framewise.Script.Tree

/-! # Trees of scripts

  A tree that is read from a file may hold any roles and tags. The tree of a
  script is built more regularly: every child of a branch has a role that the
  branch asks for, there is one body, and at most one alternative; and every node
  of kind `name` has a name. The proof goes along the construction of the tree.

  Main definition: `Node.WellBuilt`, every node of a tree is regular in this sense.

  Main result: `source_wellBuilt`, the tree of a script is well built.
-/

namespace Framewise

/-! ## Regular nodes -/

namespace Node

/-- A node that lacks nothing: its passage leaves out no child, and it has its name. -/
structure Regular (n : Node) : Prop where
  balanced : n.Balanced
  named : n.kind = .name → n.name.isSome = true

/-- Every node of a tree is regular. -/
def WellBuilt (n : Node) : Prop := ∀ m ∈ n.preorder, m.Regular

theorem wellBuilt_iff (n : Node) :
    n.WellBuilt ↔ n.Regular ∧ ∀ c ∈ n.children, c.WellBuilt := forall_preorder_iff

theorem balanced_of_not_branch {n : Node} (h : n.kind ≠ .branch) : n.Balanced := by
  constructor
  · intro c _
    unfold stages
    split
    next => by_cases hbody : c.role = Role.body <;> simp [Stage.pick, playing, notPlaying, hbody]
    next => by_cases hbody : c.role = Role.body <;> simp [Stage.pick, playing, notPlaying, hbody]
    next hkind => exact absurd hkind h
    next => simp [Stage.pick]
  · intro role hfirst
    unfold stages at hfirst
    split at hfirst
    next => simp at hfirst
    next => simp at hfirst
    next hkind => exact absurd hkind h
    next => simp at hfirst

/-- A node that is neither a branch nor a name lacks nothing. -/
theorem wellBuilt_of_plain {n : Node} (hbranch : n.kind ≠ .branch) (hname : n.kind ≠ .name)
    (hchildren : ∀ c ∈ n.children, c.WellBuilt) : n.WellBuilt :=
  n.wellBuilt_iff.mpr
    ⟨⟨balanced_of_not_branch hbranch, fun h => absurd h hname⟩, hchildren⟩

theorem wellBuilt_of_balanced {n : Node} (hbranch : n.kind = .branch) (h : n.Balanced)
    (hchildren : ∀ c ∈ n.children, c.WellBuilt) : n.WellBuilt :=
  n.wellBuilt_iff.mpr ⟨⟨h, fun hname => by simp [hbranch] at hname⟩, hchildren⟩

/-- The role of a node says nothing about what lies below it. -/
theorem WellBuilt.withRole {n : Node} (h : n.WellBuilt) (role : String) :
    { n with role := role }.WellBuilt := by
  obtain ⟨⟨⟨hmeant, hsingle⟩, hnamed⟩, hchildren⟩ := n.wellBuilt_iff.mp h
  exact wellBuilt_iff _ |>.mpr ⟨⟨⟨hmeant, hsingle⟩, hnamed⟩, hchildren⟩

/-- A well built tree whose root plays a role. -/
structure BuiltAs (role : String) (n : Node) : Prop where
  role_eq : n.role = role
  wellBuilt : n.WellBuilt

/-- Well built trees whose roots all play a role. -/
def AllBuiltAs (role : String) (ns : List Node) : Prop := ∀ c ∈ ns, c.BuiltAs role

theorem AllBuiltAs.wellBuilt {role : String} {ns : List Node} (h : AllBuiltAs role ns) :
    ∀ c ∈ ns, c.WellBuilt := fun c hc => (h c hc).wellBuilt

theorem AllBuiltAs.cons {role : String} {n : Node} {ns : List Node} (hn : n.BuiltAs role)
    (hns : AllBuiltAs role ns) : AllBuiltAs role (n :: ns) :=
  List.forall_mem_cons.mpr ⟨hn, hns⟩

theorem AllBuiltAs.append {role : String} {ns ms : List Node} (hns : AllBuiltAs role ns)
    (hms : AllBuiltAs role ms) : AllBuiltAs role (ns ++ ms) :=
  List.forall_mem_append.mpr ⟨hns, hms⟩

/-- Of nodes that all play one role, either all or none are found in a role. -/
theorem AllBuiltAs.filter_role {role : String} {ns : List Node} (h : AllBuiltAs role ns)
    (role' : String) : ns.filter (fun c => c.role = role') = if role = role' then ns else [] := by
  split
  next heq => exact List.filter_eq_self.mpr fun c hc => by simp [(h c hc).role_eq, heq]
  next hne => exact List.filter_eq_nil_iff.mpr fun c hc => by simp [(h c hc).role_eq, hne]

end Node

namespace Script

open Node

/-! ## Expressions -/

theorem literalNode_built (role tag : String) (span : Span) (value : Value) :
    (literalNode role tag span value).BuiltAs role :=
  ⟨rfl, wellBuilt_of_plain nofun nofun nofun⟩

theorem otherNode_built (role tag : String) (span : Span) {children : List Node}
    (h : ∀ c ∈ children, c.WellBuilt) : (otherNode role tag span children).BuiltAs role :=
  ⟨rfl, wellBuilt_of_plain nofun nofun h⟩

theorem withStar_built {role : String} {n : Node} (h : n.BuiltAs role) (stars : String) :
    (withStar stars n).BuiltAs role := by
  unfold withStar
  split
  · exact h
  · obtain ⟨⟨⟨hmeant, hsingle⟩, hnamed⟩, hchildren⟩ := n.wellBuilt_iff.mp h.wellBuilt
    exact ⟨h.role_eq, wellBuilt_iff _ |>.mpr ⟨⟨⟨hmeant, hsingle⟩, hnamed⟩, hchildren⟩⟩

theorem indexNode_built {items : List Node} (h : ∀ c ∈ items, c.WellBuilt) :
    (indexNode items).WellBuilt := by
  unfold indexNode
  split
  next item => exact (h item List.mem_cons_self).withRole _
  next => exact wellBuilt_of_plain nofun nofun h

-- One theorem per function that builds nodes, along its own recursion. Children whose role a
-- branch asks for carry it in the statement; for all others it is enough that they are well built.
mutual

theorem exprNode_built (role : String) : (e : Expr) → Yields (BuiltAs role) (exprNode role e)
  | .name span id => by
    rw [exprNode]
    refine .some ⟨rfl, wellBuilt_iff _ |>.mpr ⟨⟨balanced_of_not_branch nofun, ?_⟩, nofun⟩⟩
    exact fun _ => rfl
  | .constant span value => by
    rw [exprNode]
    exact .some (literalNode_built _ _ _ _)
  | .number span text => by
    rw [exprNode]
    exact .bind_any fun value => .some (literalNode_built _ _ _ _)
  | .string span text => by
    rw [exprNode]
    exact .bind_any fun value => .some (literalNode_built _ _ _ _)
  | .concatenation span pieces => by
    rw [exprNode]
    refine .bind_any fun value => ?_
    cases value with
    | some value => exact .some (literalNode_built _ _ _ _)
    | none => exact .some (otherNode_built _ _ _ nofun)
  | .attribute span receiver name => by
    rw [exprNode]
    refine (exprNode_built Role.receiver receiver).bind fun r hr => .some ⟨rfl, ?_⟩
    exact wellBuilt_of_plain nofun nofun (List.forall_mem_singleton.mpr hr.wellBuilt)
  | .call span callee arguments => by
    rw [exprNode]
    refine (exprNode_built Role.func callee).bind fun f hf =>
      (argumentNodes_built arguments).bind fun args hargs => .some ⟨rfl, ?_⟩
    exact wellBuilt_of_plain nofun nofun (List.forall_mem_cons.mpr ⟨hf.wellBuilt, hargs⟩)
  | .subscript span receiver items => by
    rw [exprNode]
    refine (exprNode_built Role.receiver receiver).bind fun r hr =>
      (itemNodes_built items).bind fun is his => .some ⟨rfl, ?_⟩
    refine wellBuilt_of_plain nofun nofun (List.forall_mem_cons.mpr ⟨hr.wellBuilt, ?_⟩)
    exact List.forall_mem_singleton.mpr (indexNode_built his)
  | .slice span bounds => by
    rw [exprNode]
    exact (exprNodes_built Role.child bounds).bind fun bs hbs =>
      .some (otherNode_built _ _ _ hbs.wellBuilt)
  | .comparison span first operators operands => by
    rw [exprNode]
    refine (exprNode_built Role.left first).bind fun f hf =>
      (exprNodes_built Role.comparator operands).bind fun os hos => .some ⟨rfl, ?_⟩
    exact wellBuilt_of_plain nofun nofun (List.forall_mem_cons.mpr ⟨hf.wellBuilt, hos.wellBuilt⟩)
  | .sequence span kind elements => by
    rw [exprNode]
    refine (elementNodes_built elements).bind fun es hes => .some ⟨rfl, ?_⟩
    exact wellBuilt_of_plain nofun nofun hes
  | .starred span inner => by
    rw [exprNode]
    exact (exprNode_built Role.child inner).bind fun i hi =>
      .some (otherNode_built _ _ _ (List.forall_mem_singleton.mpr hi.wellBuilt))
  | .lambda span parameters body => by
    rw [exprNode]
    refine (parameterNodes_built Role.child parameters).bind fun ps hps =>
      (exprNode_built Role.child body).bind fun b hb => .some (otherNode_built _ _ _ ?_)
    exact List.forall_mem_append.mpr
      ⟨hps.wellBuilt, List.forall_mem_singleton.mpr hb.wellBuilt⟩
  | .operation span kind operands => by
    rw [exprNode]
    exact (exprNodes_built Role.child operands).bind fun os hos =>
      .some (otherNode_built _ _ _ hos.wellBuilt)
  | .parenthesized extent inner => by
    rw [exprNode]
    exact exprNode_built role inner

theorem exprNodes_built (role : String) :
    (es : List Expr) → Yields (AllBuiltAs role) (exprNodes role es)
  | [] => .some nofun
  | e :: es => by
    rw [exprNodes]
    exact (exprNode_built role e).bind fun n hn =>
      (exprNodes_built role es).bind fun ns hns => .some (hns.cons hn)

theorem optionNodes_built (role : String) :
    (e : Option Expr) → Yields (AllBuiltAs role) (optionNodes role e)
  | none => .some nofun
  | some e => by
    rw [optionNodes]
    exact (exprNode_built role e).bind fun n hn => .some (.cons hn nofun)

theorem elementNodes_built :
    (es : List Expr) → Yields (fun ns => ∀ c ∈ ns, c.WellBuilt) (elementNodes es)
  | [] => .some nofun
  | e :: es => by
    -- a star in front of an element is moved into its node
    by_cases hstar : ∃ span inner, e = .starred span inner
    · obtain ⟨span, inner, rfl⟩ := hstar
      rw [elementNodes]
      exact (exprNode_built Role.element inner).bind fun n hn => (elementNodes_built es).bind
        fun ns hns => .some (List.forall_mem_cons.mpr ⟨(withStar_built hn _).wellBuilt, hns⟩)
    · rw [elementNodes]
      · exact (exprNode_built Role.element e).bind fun n hn => (elementNodes_built es).bind
          fun ns hns => .some (List.forall_mem_cons.mpr ⟨hn.wellBuilt, hns⟩)
      · exact fun span inner h => hstar ⟨span, inner, h⟩

theorem itemNodes_built :
    (es : List Expr) → Yields (fun ns => ∀ c ∈ ns, c.WellBuilt) (itemNodes es)
  | [] => .some nofun
  | e :: es => by
    by_cases hstar : ∃ span inner, e = .starred span inner
    · obtain ⟨span, inner, rfl⟩ := hstar
      rw [itemNodes]
      exact (exprNode_built Role.element inner).bind fun n hn => (itemNodes_built es).bind
        fun ns hns => .some (List.forall_mem_cons.mpr ⟨hn.wellBuilt, hns⟩)
    · rw [itemNodes]
      · exact (exprNode_built Role.element e).bind fun n hn => (itemNodes_built es).bind
          fun ns hns => .some (List.forall_mem_cons.mpr ⟨hn.wellBuilt, hns⟩)
      · exact fun span inner h => hstar ⟨span, inner, h⟩

theorem argumentNodes_built :
    (as : List Argument) → Yields (fun ns => ∀ c ∈ ns, c.WellBuilt) (argumentNodes as)
  | [] => .some nofun
  | .positional stars value :: as => by
    rw [argumentNodes]
    exact (exprNode_built Role.arg value).bind fun n hn => (argumentNodes_built as).bind
      fun ns hns => .some (List.forall_mem_cons.mpr ⟨(withStar_built hn _).wellBuilt, hns⟩)
  | .keyword span nameSpan name value :: as => by
    rw [argumentNodes]
    refine (exprNode_built Role.value value).bind fun n hn => (argumentNodes_built as).bind
      fun ns hns => .some (List.forall_mem_cons.mpr ⟨?_, hns⟩)
    exact wellBuilt_of_plain nofun nofun (List.forall_mem_singleton.mpr hn.wellBuilt)

theorem parameterNodes_built (role : String) :
    (ps : List Parameter) → Yields (AllBuiltAs role) (parameterNodes role ps)
  | [] => .some nofun
  | .mk span stars name hint fallback :: ps => by
    rw [parameterNodes]
    refine (optionNodes_built Role.annotation_ hint).bind fun h hh =>
      (optionNodes_built Role.default fallback).bind fun f hf =>
      (parameterNodes_built role ps).bind fun ns hns => .some (hns.cons ⟨rfl, ?_⟩)
    exact wellBuilt_of_plain nofun nofun (List.forall_mem_append.mpr ⟨hh.wellBuilt, hf.wellBuilt⟩)

end

theorem baseNodes_built :
    (as : List Argument) → Yields (AllBuiltAs Role.arg) (baseNodes as)
  | [] => .some nofun
  | .positional stars value :: as => by
    rw [baseNodes]
    split
    · exact baseNodes_built as
    · exact (exprNode_built Role.arg value).bind fun n hn =>
        (baseNodes_built as).bind fun ns hns => .some (hns.cons hn)
  | .keyword _ _ _ _ :: as => by
    rw [baseNodes]
    exact baseNodes_built as

theorem classKeywordNodes_built :
    (as : List Argument) → Yields (AllBuiltAs Role.arg) (classKeywordNodes as)
  | [] => .some nofun
  | .positional stars value :: as => by
    rw [classKeywordNodes]
    split
    · exact (exprNode_built Role.arg value).bind fun n hn =>
        (classKeywordNodes_built as).bind fun ns hns => .some (hns.cons hn)
    · exact classKeywordNodes_built as
  | .keyword _ nameSpan name value :: as => by
    rw [classKeywordNodes]
    exact (exprNode_built Role.arg (.name nameSpan name)).bind fun n hn =>
      (exprNode_built Role.arg value).bind fun v hv =>
      (classKeywordNodes_built as).bind fun ns hns => .some ((hns.cons hv).cons hn)

theorem typeParameterNodes_built :
    (ps : List TypeParameter) → Yields (AllBuiltAs Role.child) (typeParameterNodes ps)
  | [] => .some nofun
  | p :: ps => by
    rw [typeParameterNodes]
    refine (exprNode_built Role.child (.name p.span p.name)).bind fun n hn =>
      (optionNodes_built Role.child p.bound).bind fun b hb =>
      (optionNodes_built Role.child p.fallback).bind fun f hf =>
      (typeParameterNodes_built ps).bind fun ns hns => .some ?_
    exact .append (.append (.cons hn hb) hf) hns

/-! ## Branches -/

theorem blockNode_built (role tag : String) (span : Span) {children : List Node}
    (h : ∀ c ∈ children, c.WellBuilt) : (blockNode role tag span children).BuiltAs role :=
  ⟨rfl, wellBuilt_of_plain nofun nofun h⟩

/-- The children of a branch, part by part, each part in its role. -/
abbrev Parts := List (String × List Node)

/-- The nodes of all parts. -/
def Parts.nodes (parts : Parts) : List Node := parts.flatMap (·.2)

/-- Every part plays its role. -/
def Parts.Built (parts : Parts) : Prop := ∀ part ∈ parts, AllBuiltAs part.1 part.2

theorem Parts.filter_role {parts : Parts} (h : parts.Built) (role : String) :
    parts.nodes.filter (fun c => c.role = role) =
      Parts.nodes (parts.filter fun part => part.1 = role) := by
  unfold Parts.nodes
  induction parts with
  | nil => rfl
  | cons part parts ih =>
    obtain ⟨hpart, hparts⟩ := List.forall_mem_cons.mp h
    rw [List.flatMap_cons, List.filter_append, ih hparts, hpart.filter_role, List.filter_cons]
    by_cases hrole : part.1 = role
    · simp [hrole]
    · simp [hrole]

/-- A branch lacks nothing if its stages ask for every part, and a part of which only the first
    node is visited has no second. -/
theorem branchNode_built (role tag : String) (span : Span) {parts : Parts} (hbuilt : parts.Built)
    (hmeant : ∀ part ∈ parts, ∀ c : Node, c.role = part.1 →
      ∃ stage ∈ (branchNode role tag span parts.nodes).stages, stage.pick c = true)
    (hsingle : ∀ role', Stage.first role' ∈ (branchNode role tag span parts.nodes).stages →
      (Parts.nodes (parts.filter fun part => part.1 = role')).length ≤ 1) :
    (branchNode role tag span parts.nodes).BuiltAs role := by
  refine ⟨rfl, wellBuilt_of_balanced rfl ⟨?_, ?_⟩ ?_⟩
  · intro c hc
    obtain ⟨part, hpart, hcpart⟩ := List.mem_flatMap.mp hc
    exact hmeant part hpart c (hbuilt part hpart c hcpart).role_eq
  · -- the children in a role are the parts in that role
    intro role' hfirst
    show (parts.nodes.filter fun c => c.role = role').length ≤ 1
    rw [Parts.filter_role hbuilt]
    exact hsingle role' hfirst
  · intro c hc
    obtain ⟨part, hpart, hcpart⟩ := List.mem_flatMap.mp hc
    exact (hbuilt part hpart c hcpart).wellBuilt

/-- What follows a body is at most one node. -/
structure OrelseBuilt (role : String) (ns : List Node) : Prop where
  built : AllBuiltAs role ns
  single : ns.length ≤ 1

section Branches

variable (role : String) (span : Span) {test iterable target body : Node}
variable {orelse final handlers cases : List Node}

/-- A condition with a body and an alternative, or a loop on a condition. -/
theorem conditional_built {tag : String} (htag : tag = "If" ∨ tag = "While")
    (htest : test.BuiltAs Role.test) (hbody : body.BuiltAs Role.body)
    (horelse : OrelseBuilt Role.orelse orelse) :
    (branchNode role tag span (test :: body :: orelse)).BuiltAs role := by
  have hbuilt : Parts.Built [(Role.test, [test]), (Role.body, [body]), (Role.orelse, orelse)] := by
    simpa [Parts.Built, AllBuiltAs] using ⟨htest, hbody, horelse.built⟩
  have hstages : ∀ cs, (branchNode role tag span cs).stages =
      [.every (playing Role.test), .first Role.body, .first Role.orelse] := by
    rcases htag with rfl | rfl <;> simp [branchNode, stages]
  -- what is left to check is a comparison of role names
  have h := branchNode_built role tag span hbuilt
  simp only [hstages] at h
  simpa +contextual [Parts.nodes, Stage.pick, playing, Role.test, Role.body, Role.orelse,
    horelse.single] using h

/-- A loop over a sequence, with a target. -/
theorem loop_built (hiter : iterable.BuiltAs Role.iter) (htarget : target.BuiltAs Role.target)
    (hbody : body.BuiltAs Role.body) (horelse : OrelseBuilt Role.orelse orelse) :
    (branchNode role "For" span (iterable :: target :: body :: orelse)).BuiltAs role := by
  have hbuilt : Parts.Built [(Role.iter, [iterable]), (Role.target, [target]),
      (Role.body, [body]), (Role.orelse, orelse)] := by
    simpa [Parts.Built, AllBuiltAs] using ⟨hiter, htarget, hbody, horelse.built⟩
  have hstages : ∀ cs, (branchNode role "For" span cs).stages =
      [.every (playing Role.iter), .first Role.target, .every inLoop] := by
    simp [branchNode, stages]
  have h := branchNode_built role "For" span hbuilt
  simp only [hstages] at h
  simpa +contextual [Parts.nodes, Stage.pick, playing, inLoop, Role.iter, Role.target, Role.body,
    Role.orelse] using h

/-- A guarded body with its handlers, its alternative and its close. -/
theorem guarded_built (hbody : body.BuiltAs Role.body)
    (hhandlers : AllBuiltAs Role.handler handlers) (horelse : OrelseBuilt Role.orelse orelse)
    (hfinal : AllBuiltAs Role.finally_ final) :
    (branchNode role "Try" span (body :: handlers ++ orelse ++ final)).BuiltAs role := by
  have hbuilt : Parts.Built [(Role.body, [body]), (Role.handler, handlers),
      (Role.orelse, orelse), (Role.finally_, final)] := by
    simpa [Parts.Built, AllBuiltAs] using ⟨hbody, hhandlers, horelse.built, hfinal⟩
  have hstages : ∀ cs, (branchNode role "Try" span cs).stages =
      [.first Role.body, .first Role.orelse, .every (playing Role.handler),
        .every (playing Role.finally_)] := by
    simp [branchNode, stages]
  have h := branchNode_built role "Try" span hbuilt
  simp only [hstages] at h
  simpa +contextual [Parts.nodes, Stage.pick, playing, Role.handler, Role.finally_, Role.body,
    Role.orelse, horelse.single] using h

/-- A selection among cases. -/
theorem selection_built (htest : test.BuiltAs Role.test) (hcases : AllBuiltAs Role.case cases) :
    (branchNode role "Match" span (test :: cases)).BuiltAs role := by
  have hbuilt : Parts.Built [(Role.test, [test]), (Role.case, cases)] := by
    simpa [Parts.Built, AllBuiltAs] using ⟨htest, hcases⟩
  have hstages : ∀ cs, (branchNode role "Match" span cs).stages =
      [.every (playing Role.test), .every (playing Role.case)] := by
    simp [branchNode, stages]
  have h := branchNode_built role "Match" span hbuilt
  simp only [hstages] at h
  simpa +contextual [Parts.nodes, Stage.pick, playing, Role.test, Role.case] using h

end Branches

/-! ## Statements -/

-- Statements follow the same plan; each branch ends in the lemma about its tag.
mutual

theorem stmtNode_built (role : String) : (s : Stmt) → Yields (BuiltAs role) (stmtNode role s)
  | .expression span value => by
    rw [stmtNode]
    refine (exprNode_built Role.expr value).bind fun v hv => .some ⟨rfl, ?_⟩
    exact wellBuilt_of_plain nofun nofun (List.forall_mem_singleton.mpr hv.wellBuilt)
  | .assign span targets value => by
    rw [stmtNode]
    refine (exprNodes_built Role.target targets).bind fun ts hts =>
      (exprNode_built Role.value value).bind fun v hv => .some ⟨rfl, ?_⟩
    exact wellBuilt_of_plain nofun nofun (List.forall_mem_append.mpr
      ⟨hts.wellBuilt, List.forall_mem_singleton.mpr hv.wellBuilt⟩)
  | .annotated span target hint value => by
    rw [stmtNode]
    refine (exprNode_built Role.target target).bind fun t ht =>
      (exprNode_built Role.annotation_ hint).bind fun h hh =>
      (optionNodes_built Role.value value).bind fun v hv => .some ⟨rfl, ?_⟩
    exact wellBuilt_of_plain nofun nofun (List.forall_mem_cons.mpr
      ⟨ht.wellBuilt, List.forall_mem_cons.mpr ⟨hh.wellBuilt, hv.wellBuilt⟩⟩)
  | .augmented span target value => by
    rw [stmtNode]
    refine (exprNode_built Role.target target).bind fun t ht =>
      (exprNode_built Role.value value).bind fun v hv => .some ⟨rfl, ?_⟩
    exact wellBuilt_of_plain nofun nofun (List.forall_mem_cons.mpr
      ⟨ht.wellBuilt, List.forall_mem_singleton.mpr hv.wellBuilt⟩)
  | .return span value => by
    rw [stmtNode]
    refine (optionNodes_built Role.value value).bind fun v hv => .some ⟨rfl, ?_⟩
    exact wellBuilt_of_plain nofun nofun hv.wellBuilt
  | .simple span kind operands => by
    rw [stmtNode]
    exact (exprNodes_built Role.child operands).bind fun os hos =>
      .some (otherNode_built _ _ _ hos.wellBuilt)
  | .typeAlias span name parameters value => by
    rw [stmtNode]
    refine (exprNode_built Role.child name).bind fun n hn =>
      (typeParameterNodes_built parameters).bind fun ps hps =>
      (exprNode_built Role.child value).bind fun v hv => .some (otherNode_built _ _ _ ?_)
    have hlast : AllBuiltAs Role.child [v] := .cons hv nofun
    exact ((hps.cons hn).append hlast).wellBuilt
  | .function span decorators name typeParameters parameters result body => by
    rw [stmtNode]
    refine (exprNodes_built Role.decorator decorators).bind fun ds hds =>
      (parameterNodes_built Role.param parameters).bind fun ps hps =>
      (optionNodes_built Role.annotation_ result).bind fun r hr =>
      (bodyNode_built Role.body body).bind fun b hb => .some ⟨rfl, ?_⟩
    refine wellBuilt_of_plain nofun nofun ?_
    simp only [List.forall_mem_append, List.forall_mem_singleton]
    exact ⟨⟨⟨hds.wellBuilt, hps.wellBuilt⟩, hr.wellBuilt⟩, hb.wellBuilt⟩
  | .class span decorators name typeParameters arguments body => by
    rw [stmtNode]
    refine (exprNodes_built Role.decorator decorators).bind fun ds hds =>
      (baseNodes_built arguments).bind fun bs hbs =>
      (classKeywordNodes_built arguments).bind fun ks hks =>
      (bodyNode_built Role.body body).bind fun b hb => .some ⟨rfl, ?_⟩
    refine wellBuilt_of_plain nofun nofun ?_
    simp only [List.forall_mem_append, List.forall_mem_singleton]
    exact ⟨⟨⟨hds.wellBuilt, hbs.wellBuilt⟩, hks.wellBuilt⟩, hb.wellBuilt⟩
  | .if span test body orelse => by
    rw [stmtNode]
    exact (exprNode_built Role.test test).bind fun t ht =>
      (bodyNode_built Role.body body).bind fun b hb =>
      (orelseNodes_built Role.orelse "Else" orelse).bind fun o ho =>
        .some (conditional_built role span (.inl rfl) ht hb ho)
  | .for span target iterable body orelse => by
    rw [stmtNode]
    exact (exprNode_built Role.iter iterable).bind fun i hi =>
      (exprNode_built Role.target target).bind fun t ht =>
      (bodyNode_built Role.body body).bind fun b hb =>
      (orelseNodes_built Role.orelse "Else" orelse).bind fun o ho =>
        .some (loop_built role span hi ht hb ho)
  | .while span test body orelse => by
    rw [stmtNode]
    exact (exprNode_built Role.test test).bind fun t ht =>
      (bodyNode_built Role.body body).bind fun b hb =>
      (orelseNodes_built Role.orelse "Else" orelse).bind fun o ho =>
        .some (conditional_built role span (.inr rfl) ht hb ho)
  | .try span body handlers orelse final => by
    rw [stmtNode]
    exact (bodyNode_built Role.body body).bind fun b hb =>
      (handlerNodes_built handlers).bind fun hs hhs =>
      (orelseNodes_built Role.orelse "Else" orelse).bind fun o ho =>
      (orelseNodes_built Role.finally_ "Finally" final).bind fun f hf =>
        .some (guarded_built role span hb hhs ho hf.built)
  | .match span subject cases => by
    rw [stmtNode]
    exact (exprNode_built Role.test subject).bind fun s hs =>
      (caseNodes_built cases).bind fun cs hcs => .some (selection_built role span hs hcs)
  | .with span items (.mk _ _ body) => by
    rw [stmtNode]
    refine (exprNodes_built Role.child items).bind fun is his =>
      (stmtNodes_built Role.child body).bind fun b hb => .some (otherNode_built _ _ _ ?_)
    exact (his.append hb).wellBuilt

theorem stmtNodes_built (role : String) :
    (ss : List Stmt) → Yields (AllBuiltAs role) (stmtNodes role ss)
  | [] => by
    rw [stmtNodes]
    exact .some nofun
  | s :: ss => by
    rw [stmtNodes]
    exact (stmtNode_built role s).bind fun n hn =>
      (stmtNodes_built role ss).bind fun ns hns => .some (hns.cons hn)

theorem bodyNode_built (role : String) : (b : Block) → Yields (BuiltAs role) (bodyNode role b)
  | .mk span kind body => by
    rw [bodyNode]
    exact (stmtNodes_built Role.body body).bind fun b hb =>
      .some (blockNode_built _ _ _ hb.wellBuilt)

theorem orelseNodes_built (role tag : String) :
    (o : Orelse) → Yields (OrelseBuilt role) (orelseNodes role tag o)
  | .none => by
    rw [orelseNodes]
    exact .some ⟨nofun, Nat.zero_le 1⟩
  | .chained next => by
    rw [orelseNodes]
    exact (stmtNode_built role next).bind fun n hn => .some ⟨.cons hn nofun, Nat.le_refl 1⟩
  | .clause span body => by
    rw [orelseNodes]
    exact (stmtNodes_built Role.body body).bind fun b hb =>
      .some ⟨.cons (blockNode_built _ _ _ hb.wellBuilt) nofun, Nat.le_refl 1⟩

theorem handlerNodes_built :
    (hs : List Handler) → Yields (AllBuiltAs Role.handler) (handlerNodes hs)
  | [] => by
    rw [handlerNodes]
    exact .some nofun
  | .mk span type body :: hs => by
    rw [handlerNodes]
    refine (optionNodes_built Role.test type).bind fun t ht =>
      (bodyNode_built Role.body body).bind fun b hb =>
      (handlerNodes_built hs).bind fun ns hns => .some (hns.cons (blockNode_built _ _ _ ?_))
    exact List.forall_mem_append.mpr ⟨ht.wellBuilt, List.forall_mem_singleton.mpr hb.wellBuilt⟩

theorem caseNodes_built :
    (cs : List Case) → Yields (AllBuiltAs Role.case) (caseNodes cs)
  | [] => by
    rw [caseNodes]
    exact .some nofun
  | .mk span guard body :: cs => by
    rw [caseNodes]
    refine (optionNodes_built Role.test guard).bind fun g hg =>
      (bodyNode_built Role.body body).bind fun b hb =>
      (caseNodes_built cs).bind fun ns hns => .some (hns.cons (blockNode_built _ _ _ ?_))
    exact List.forall_mem_append.mpr ⟨hg.wellBuilt, List.forall_mem_singleton.mpr hb.wellBuilt⟩

end

/-- The tree of a script is well built. -/
theorem source_wellBuilt (s : Source) : Yields WellBuilt s.node := by
  unfold Source.node
  exact (stmtNodes_built Role.body s.body).bind fun b hb =>
    .some (wellBuilt_of_plain nofun nofun hb.wellBuilt)

end Script

end Framewise
