import Framewise.Proofs.Outline
import Framewise.Proofs.Success
import Framewise.Proofs.Tree
import Framewise.Script.Tree

/-! # Trees and outlines

  The tree of a script is made along its syntax. The nodes of the landmark kinds,
  each with its span, are the landmarks of the outline that are not hidden, each as
  often as it occurs there; and every node has the span of some piece. The order may
  differ: the iterable of a loop comes before its target, the bases of a class before
  its keywords.

  Main definition: `Renders`, nodes stand for the pieces of an outline.

  Main result: `source_renders`.
-/

namespace Framewise

/-- True for the kinds of nodes that stand for landmarks. -/
def NodeKind.isLandmark (kind : NodeKind) : Bool :=
  [NodeKind.attribute, .call, .subscript, .compare].contains kind

/-- The kind and the span of a node that stands for a landmark. -/
def Node.landmark? (n : Node) : Option (NodeKind × Span) :=
  if n.kind.isLandmark then some (n.kind, n.span) else none

namespace Script

/-- The kind and the span of a landmark that is not hidden. -/
def Mark.shown? (m : Mark) : Option (NodeKind × Span) :=
  if m.hidden then none else m.kind.map fun kind => (kind, m.span)

@[simp] theorem Mark.shown?_plain (span : Span) : (Mark.plain span).shown? = none := rfl

@[simp] theorem Mark.shown?_landmark (kind : NodeKind) (span : Span) :
    (Mark.landmark kind span).shown? = some (kind, span) := rfl

@[simp] theorem Mark.shown?_hide (m : Mark) : m.hide.shown? = none := rfl

/-! ## Nodes for the pieces of an outline -/

/-- The nodes of several trees stand for the pieces of an outline. -/
structure Renders (marks : List Mark) (ns : List Node) : Prop where
  landmarks : ((ns.flatMap Node.preorder).filterMap Node.landmark?).Perm
    (marks.filterMap Mark.shown?)
  spans : ∀ n ∈ ns.flatMap Node.preorder, ∃ m ∈ marks, m.span = n.span

namespace Renders

variable {ms ms' : List Mark} {ns ns' : List Node} {n : Node}

theorem nil : Renders [] [] := ⟨.refl _, nofun⟩

theorem append (h : Renders ms ns) (h' : Renders ms' ns') : Renders (ms ++ ms') (ns ++ ns') where
  landmarks := by
    rw [List.flatMap_append, List.filterMap_append, List.filterMap_append]
    exact h.landmarks.append h'.landmarks
  spans := by
    intro n hn
    rw [List.flatMap_append] at hn
    rcases List.mem_append.mp hn with hn | hn
    · obtain ⟨m, hm, heq⟩ := h.spans n hn
      exact ⟨m, List.mem_append_left _ hm, heq⟩
    · obtain ⟨m, hm, heq⟩ := h'.spans n hn
      exact ⟨m, List.mem_append_right _ hm, heq⟩

theorem cons (h : Renders ms [n]) (h' : Renders ms' ns) : Renders (ms ++ ms') (n :: ns) :=
  h.append h'

/-- The order of the pieces does not matter. -/
theorem perm (h : Renders ms ns) (hperm : ms.Perm ms') : Renders ms' ns where
  landmarks := h.landmarks.trans (hperm.filterMap _)
  spans := by
    intro n hn
    obtain ⟨m, hm, heq⟩ := h.spans n hn
    exact ⟨m, hperm.mem_iff.mp hm, heq⟩

/-- Nor does the order of the trees. -/
theorem perm_nodes (h : Renders ms ns) (hperm : ns.Perm ns') : Renders ms ns' where
  landmarks := ((hperm.flatMap_right Node.preorder).filterMap _).symm.trans h.landmarks
  spans := by
    intro n hn
    exact h.spans n ((hperm.flatMap_right Node.preorder).mem_iff.mpr hn)

/-- No node stands for hidden pieces. -/
theorem hidden (ms : List Mark) : Renders (ms.map Mark.hide) [] where
  landmarks := by
    have hnone : (ms.map Mark.hide).filterMap Mark.shown? = [] := by
      simp [List.filterMap_eq_nil_iff]
    rw [hnone]
    exact .refl _
  spans := nofun

/-- So they can be added. -/
theorem append_hidden (h : Renders ms ns) (hs : List Mark) :
    Renders (ms ++ hs.map Mark.hide) ns := by
  simpa using h.append (hidden hs)

/-- A piece that is no landmark may have no node. -/
theorem plain (h : Renders ms ns) (span : Span) : Renders (.plain span :: ms) ns where
  landmarks := h.landmarks
  spans := by
    intro n hn
    obtain ⟨m, hm, heq⟩ := h.spans n hn
    exact ⟨m, List.mem_cons_of_mem _ hm, heq⟩

theorem spans_root {m : Mark} (hspan : m.span = n.span) (h : Renders ms n.children) :
    ∀ k ∈ [n].flatMap Node.preorder, ∃ m' ∈ m :: ms, m'.span = k.span := by
  intro k hk
  rw [List.flatMap_singleton, Node.preorder_eq] at hk
  rcases List.mem_cons.mp hk with rfl | hk
  · exact ⟨m, List.mem_cons_self, hspan⟩
  · obtain ⟨m', hm', heq⟩ := h.spans k hk
    exact ⟨m', List.mem_cons_of_mem _ hm', heq⟩

/-- A node that stands for no landmark. -/
theorem node {span : Span} (hroot : n.landmark? = none) (hspan : span = n.span)
    (h : Renders ms n.children) : Renders (.plain span :: ms) [n] where
  landmarks := by
    rw [List.flatMap_singleton, Node.preorder_eq, List.filterMap_cons_none hroot,
      List.filterMap_cons_none (Mark.shown?_plain _)]
    exact h.landmarks
  spans := h.spans_root hspan

/-- Such a node in front of others. -/
theorem node_cons {span : Span} (hroot : n.landmark? = none) (hspan : span = n.span)
    (h : Renders ms n.children) (h' : Renders ms' ns) :
    Renders (.plain span :: (ms ++ ms')) (n :: ns) :=
  (node hroot hspan h).append h'

/-- A node that stands for a landmark. -/
theorem landmark {kind : NodeKind} {span : Span} (hroot : n.landmark? = some (kind, span))
    (hspan : span = n.span) (h : Renders ms n.children) :
    Renders (.landmark kind span :: ms) [n] where
  landmarks := by
    rw [List.flatMap_singleton, Node.preorder_eq, List.filterMap_cons_some hroot,
      List.filterMap_cons_some (Mark.shown?_landmark _ _)]
    exact h.landmarks.cons _
  spans := h.spans_root hspan

/-- Only the kind, the span and the children of a node matter. -/
theorem congr {n' : Node} (h : Renders ms [n]) (hkind : n'.kind = n.kind)
    (hspan : n'.span = n.span) (hchildren : n'.children = n.children) : Renders ms [n'] where
  landmarks := by
    have hroot : n'.landmark? = n.landmark? := by simp [Node.landmark?, hkind, hspan]
    have h := h.landmarks
    rw [List.flatMap_singleton, Node.preorder_eq, List.filterMap_cons] at h ⊢
    rwa [hroot, hchildren]
  spans := by
    intro k hk
    rw [List.flatMap_singleton, Node.preorder_eq] at hk
    rcases List.mem_cons.mp hk with rfl | hk
    · rw [hspan]
      exact h.spans n (by simp [Node.self_mem_preorder])
    · rw [hchildren] at hk
      refine h.spans k ?_
      rw [List.flatMap_singleton, Node.preorder_eq]
      exact List.mem_cons_of_mem _ hk

theorem withStar (h : Renders ms [n]) (stars : String) : Renders ms [withStar stars n] := by
  unfold Script.withStar
  split
  · exact h
  · exact h.congr rfl rfl rfl

end Renders

/-! ## Spans of expressions -/

/-- The node of an expression has its span, without the parentheses around it, and no star. -/
theorem exprNode_front (role : String) (e : Expr) :
    Yields (fun n => n.span = e.span ∧ n.role = role ∧ n.attr? "star" = none) (exprNode role e) := by
  cases e with
  | name | constant =>
    rw [exprNode]
    exact .some ⟨rfl, rfl, rfl⟩
  | call | subscript | comparison | lambda =>
    rw [exprNode]
    exact .bind_any fun _ => .bind_any fun _ => .some ⟨rfl, rfl, rfl⟩
  | concatenation span pieces =>
    rw [exprNode]
    refine .bind_any fun value => ?_
    cases value with
    | some value => exact .some ⟨rfl, rfl, rfl⟩
    | none => exact .some ⟨rfl, rfl, rfl⟩
  | parenthesized extent inner =>
    rw [exprNode]
    exact exprNode_front role inner
  | _ =>
    rw [exprNode]
    exact .bind_any fun _ => .some ⟨rfl, rfl, rfl⟩

theorem exprNode_span (role : String) (e : Expr) :
    Yields (fun n => n.span = e.span) (exprNode role e) :=
  (exprNode_front role e).mono fun _ h => h.1

theorem itemNodes_spans (es : List Expr) :
    Yields (fun ns => ns.map Node.span = es.map itemSpan) (itemNodes es) := by
  induction es with
  | nil => exact .some rfl
  | cons e es ih =>
    by_cases hstar : ∃ span inner, e = .starred span inner
    · obtain ⟨span, inner, rfl⟩ := hstar
      rw [itemNodes]
      refine (exprNode_span Role.element inner).bind fun n hn => ih.bind fun ns hns => .some ?_
      rw [List.map_cons, List.map_cons, hn, hns]
      rfl
    · have hspan : itemSpan e = e.span := by
        cases e with
        | starred span inner => exact absurd ⟨span, inner, rfl⟩ hstar
        | _ => rfl
      rw [itemNodes]
      · refine (exprNode_span Role.element e).bind fun n hn => ih.bind fun ns hns => .some ?_
        rw [List.map_cons, List.map_cons, hn, hns, hspan]
      · exact fun span inner h => hstar ⟨span, inner, h⟩

/-- The index of a subscript stands for its items and for the whole from first to last. -/
theorem indexNode_renders {items : List Expr} {ms : List Mark} {ns : List Node}
    (hspans : ns.map Node.span = items.map itemSpan) (h : Renders ms ns) :
    Renders (.plain (indexSpan items) :: ms) [indexNode ns] := by
  unfold indexNode
  split
  next item =>
    have hindex : Renders ms [{ item with role := Role.index }] := h.congr rfl rfl rfl
    exact hindex.plain _
  next =>
    have hspan : indexSpan items = ((ns.head?.map Node.span).getD ⟨0, 0, 0, 0⟩).covering
        ((ns.getLast?.map Node.span).getD ((ns.head?.map Node.span).getD ⟨0, 0, 0, 0⟩)) := by
      unfold indexSpan
      simp only [← List.head?_map, ← List.getLast?_map, hspans]
    rw [hspan]
    exact .node rfl rfl h

/-! ## Expressions -/

-- One theorem per function that builds nodes, along its own recursion.
mutual

theorem exprNode_renders (role : String) :
    (e : Expr) → Yields (fun n => Renders e.outline [n]) (exprNode role e)
  | .name span id => by
    rw [exprNode, Expr.outline]
    exact .some (.node rfl rfl .nil)
  | .constant span value => by
    rw [exprNode, Expr.outline]
    exact .some (.node rfl rfl .nil)
  | .number span text => by
    rw [exprNode, Expr.outline]
    exact .bind_any fun value => .some (.node rfl rfl .nil)
  | .string span text => by
    rw [exprNode, Expr.outline]
    exact .bind_any fun value => .some (.node rfl rfl .nil)
  | .concatenation span pieces => by
    rw [exprNode, Expr.outline]
    -- with a value or without, the node has no children
    refine .bind_any fun value => ?_
    cases value with
    | some value => exact .some (.node rfl rfl (.hidden _))
    | none => exact .some (.node rfl rfl (.hidden _))
  | .attribute span receiver name => by
    rw [exprNode, Expr.outline]
    exact (exprNode_renders Role.receiver receiver).bind fun r hr => .some (.landmark rfl rfl hr)
  | .call span callee arguments => by
    rw [exprNode, Expr.outline]
    exact (exprNode_renders Role.func callee).bind fun f hf =>
      (argumentNodes_renders arguments).bind fun args hargs =>
        .some (.landmark rfl rfl (hf.cons hargs))
  | .subscript span receiver items => by
    rw [exprNode, Expr.outline]
    refine (exprNode_renders Role.receiver receiver).bind fun r hr =>
      ((itemNodes_spans items).and (itemNodes_renders items)).bind fun is his => .some ?_
    have hindex := indexNode_renders his.1 his.2
    exact .landmark rfl rfl (hr.cons hindex)
  | .slice span bounds => by
    rw [exprNode, Expr.outline]
    exact (exprNodes_renders Role.child bounds).bind fun bs hbs => .some (.node rfl rfl hbs)
  | .comparison span first operators operands => by
    rw [exprNode, Expr.outline]
    exact (exprNode_renders Role.left first).bind fun f hf =>
      (exprNodes_renders Role.comparator operands).bind fun os hos =>
        .some (.landmark rfl rfl (hf.cons hos))
  | .sequence span kind elements => by
    rw [exprNode, Expr.outline]
    exact (elementNodes_renders elements).bind fun es hes => .some (.node rfl rfl hes)
  | .starred span inner => by
    rw [exprNode, Expr.outline]
    exact (exprNode_renders Role.child inner).bind fun i hi => .some (.node rfl rfl hi)
  | .lambda span parameters body => by
    rw [exprNode, Expr.outline]
    exact (parameterNodes_renders Role.child parameters).bind fun ps hps =>
      (exprNode_renders Role.child body).bind fun b hb => .some (.node rfl rfl (hps.append hb))
  | .operation span kind operands => by
    rw [exprNode, Expr.outline]
    exact (exprNodes_renders Role.child operands).bind fun os hos => .some (.node rfl rfl hos)
  | .parenthesized extent inner => by
    rw [exprNode, Expr.outline]
    exact (exprNode_renders role inner).mono fun n hn => hn.plain extent

theorem exprNodes_renders (role : String) :
    (es : List Expr) → Yields (Renders (outlines es)) (exprNodes role es)
  | [] => .some .nil
  | e :: es => by
    rw [exprNodes, outlines]
    exact (exprNode_renders role e).bind fun n hn =>
      (exprNodes_renders role es).bind fun ns hns => .some (hn.cons hns)

theorem optionNodes_renders (role : String) :
    (e : Option Expr) → Yields (Renders (optionOutline e)) (optionNodes role e)
  | none => .some .nil
  | some e => by
    rw [optionNodes, optionOutline]
    exact (exprNode_renders role e).bind fun n hn => .some hn

theorem elementNodes_renders :
    (es : List Expr) → Yields (Renders (outlines es)) (elementNodes es)
  | [] => .some .nil
  | e :: es => by
    -- a star in front of an element is a piece without a node
    by_cases hstar : ∃ span inner, e = .starred span inner
    · obtain ⟨span, inner, rfl⟩ := hstar
      rw [elementNodes, outlines, Expr.outline]
      exact (exprNode_renders Role.element inner).bind fun n hn =>
        (elementNodes_renders es).bind fun ns hns => .some (((hn.withStar _).plain span).cons hns)
    · rw [elementNodes, outlines]
      · exact (exprNode_renders Role.element e).bind fun n hn =>
          (elementNodes_renders es).bind fun ns hns => .some (hn.cons hns)
      · exact fun span inner h => hstar ⟨span, inner, h⟩

theorem itemNodes_renders :
    (es : List Expr) → Yields (Renders (outlines es)) (itemNodes es)
  | [] => .some .nil
  | e :: es => by
    by_cases hstar : ∃ span inner, e = .starred span inner
    · obtain ⟨span, inner, rfl⟩ := hstar
      rw [itemNodes, outlines, Expr.outline]
      exact (exprNode_renders Role.element inner).bind fun n hn =>
        (itemNodes_renders es).bind fun ns hns => .some ((hn.plain span).cons hns)
    · rw [itemNodes, outlines]
      · exact (exprNode_renders Role.element e).bind fun n hn =>
          (itemNodes_renders es).bind fun ns hns => .some (hn.cons hns)
      · exact fun span inner h => hstar ⟨span, inner, h⟩

theorem argumentNodes_renders :
    (as : List Argument) → Yields (Renders (argumentOutlines as)) (argumentNodes as)
  | [] => .some .nil
  | .positional stars value :: as => by
    rw [argumentNodes, argumentOutlines]
    exact (exprNode_renders Role.arg value).bind fun n hn =>
      (argumentNodes_renders as).bind fun ns hns => .some ((hn.withStar _).cons hns)
  | .keyword span nameSpan name value :: as => by
    rw [argumentNodes, argumentOutlines, ← List.cons_append]
    exact (exprNode_renders Role.value value).bind fun n hn =>
      (argumentNodes_renders as).bind fun ns hns =>
        .some (.node_cons rfl rfl (hn.plain nameSpan) hns)

theorem parameterNodes_renders (role : String) :
    (ps : List Parameter) → Yields (Renders (parameterOutlines ps)) (parameterNodes role ps)
  | [] => .some .nil
  | .mk span stars name hint fallback :: ps => by
    rw [parameterNodes, parameterOutlines]
    exact (optionNodes_renders Role.annotation_ hint).bind fun h hh =>
      (optionNodes_renders Role.default fallback).bind fun f hf =>
      (parameterNodes_renders role ps).bind fun ns hns =>
        .some (.node_cons rfl rfl (hh.append hf) hns)

end

/-- The bases of a class and what is given to it by keyword, in this order, stand for its
    arguments. -/
theorem classArguments_render : (as : List Argument) → Yields
    (fun bs => Yields (fun ks => Renders (argumentOutlines as) (bs ++ ks)) (classKeywordNodes as))
    (baseNodes as)
  | [] => .some (.some .nil)
  | .positional stars value :: as => by
    rw [baseNodes, classKeywordNodes, argumentOutlines]
    by_cases htwo : stars = .two
    · rw [if_pos htwo, if_pos htwo]
      refine (classArguments_render as).mono fun bs hbs => ?_
      refine (exprNode_renders Role.arg value).bind fun n hn => hbs.bind fun ks hks => .some ?_
      exact (hn.cons hks).perm_nodes List.perm_middle.symm
    · rw [if_neg htwo, if_neg htwo]
      refine (exprNode_renders Role.arg value).bind fun n hn =>
        (classArguments_render as).bind fun bs hbs => .some ?_
      exact hbs.mono fun ks hks => hn.cons hks
  | .keyword span nameSpan name value :: as => by
    rw [baseNodes, classKeywordNodes, argumentOutlines]
    refine (classArguments_render as).mono fun bs hbs => ?_
    refine (exprNode_renders Role.arg (.name nameSpan name)).bind fun n hn =>
      (exprNode_renders Role.arg value).bind fun v hv => hbs.bind fun ks hks => .some ?_
    have hall := (hn.cons (hv.cons hks)).plain span
    -- both nodes move behind the bases
    have hmoved : (n :: v :: (bs ++ ks)).Perm (bs ++ n :: v :: ks) :=
      ((List.perm_middle (a := v)).symm.cons n).trans List.perm_middle.symm
    exact hall.perm_nodes hmoved

theorem typeParameterNodes_render : (ps : List TypeParameter) →
    Yields (Renders (typeParameterOutlines ps)) (typeParameterNodes ps)
  | [] => .some .nil
  | p :: ps => by
    rw [typeParameterNodes]
    refine (exprNode_renders Role.child (.name p.span p.name)).bind fun n hn =>
      (optionNodes_renders Role.child p.bound).bind fun b hb =>
      (optionNodes_renders Role.child p.fallback).bind fun f hf =>
      (typeParameterNodes_render ps).bind fun ns hns => .some ?_
    have hparameter := hn.cons (hb.append hf)
    exact hparameter.append hns

/-! ## Statements -/

mutual

theorem stmtNode_renders (role : String) :
    (s : Stmt) → Yields (fun n => Renders s.outline [n]) (stmtNode role s)
  | .expression span value => by
    rw [stmtNode, Stmt.outline]
    exact (exprNode_renders Role.expr value).bind fun v hv => .some (.node rfl rfl hv)
  | .assign span targets value => by
    rw [stmtNode, Stmt.outline]
    exact (exprNodes_renders Role.target targets).bind fun ts hts =>
      (exprNode_renders Role.value value).bind fun v hv => .some (.node rfl rfl (hts.append hv))
  | .annotated span target hint value => by
    rw [stmtNode, Stmt.outline]
    exact (exprNode_renders Role.target target).bind fun t ht =>
      (exprNode_renders Role.annotation_ hint).bind fun h hh =>
      (optionNodes_renders Role.value value).bind fun v hv =>
        .some (.node rfl rfl ((ht.append hh).append hv))
  | .augmented span target value => by
    rw [stmtNode, Stmt.outline]
    exact (exprNode_renders Role.target target).bind fun t ht =>
      (exprNode_renders Role.value value).bind fun v hv => .some (.node rfl rfl (ht.cons hv))
  | .return span value => by
    rw [stmtNode, Stmt.outline]
    exact (optionNodes_renders Role.value value).bind fun v hv => .some (.node rfl rfl hv)
  | .simple span kind operands => by
    rw [stmtNode, Stmt.outline]
    exact (exprNodes_renders Role.child operands).bind fun os hos => .some (.node rfl rfl hos)
  | .typeAlias span name parameters value => by
    rw [stmtNode, Stmt.outline]
    exact (exprNode_renders Role.child name).bind fun n hn =>
      (typeParameterNodes_render parameters).bind fun ps hps =>
      (exprNode_renders Role.child value).bind fun v hv =>
        .some (.node rfl rfl ((hn.cons hps).append hv))
  | .function span decorators name types parameters result body => by
    rw [stmtNode, Stmt.outline]
    refine (exprNodes_renders Role.decorator decorators).bind fun ds hds =>
      (parameterNodes_renders Role.param parameters).bind fun ps hps =>
      (optionNodes_renders Role.annotation_ result).bind fun r hr =>
      (bodyNode_renders Role.body body).bind fun b hb => .some (.node rfl rfl ?_)
    have hfront := hds.append_hidden (typeParameterOutlines types)
    exact ((hfront.append hps).append hr).append hb
  | .class span decorators name types arguments body => by
    rw [stmtNode, Stmt.outline]
    refine (exprNodes_renders Role.decorator decorators).bind fun ds hds =>
      (classArguments_render arguments).bind fun bs hbs => hbs.bind fun ks hks =>
      (bodyNode_renders Role.body body).bind fun b hb => .some (.node rfl rfl ?_)
    have hfront := hds.append_hidden (typeParameterOutlines types)
    have hall := (hfront.append hks).append hb
    rwa [← List.append_assoc] at hall
  | .if span test body orelse => by
    rw [stmtNode, Stmt.outline]
    exact (exprNode_renders Role.test test).bind fun t ht =>
      (bodyNode_renders Role.body body).bind fun b hb =>
      (orelseNodes_renders Role.orelse "Else" orelse).bind fun o ho =>
        .some (.node rfl rfl ((ht.append hb).append ho))
  | .for span target iterable body orelse => by
    rw [stmtNode, Stmt.outline]
    refine (exprNode_renders Role.iter iterable).bind fun i hi =>
      (exprNode_renders Role.target target).bind fun t ht =>
      (bodyNode_renders Role.body body).bind fun b hb =>
      (orelseNodes_renders Role.orelse "Else" orelse).bind fun o ho => .some (.node rfl rfl ?_)
    -- the iterable has its node before the target
    have hswap : Renders (target.outline ++ iterable.outline) [i, t] :=
      (hi.append ht).perm List.perm_append_comm
    exact (hswap.append hb).append ho
  | .while span test body orelse => by
    rw [stmtNode, Stmt.outline]
    exact (exprNode_renders Role.test test).bind fun t ht =>
      (bodyNode_renders Role.body body).bind fun b hb =>
      (orelseNodes_renders Role.orelse "Else" orelse).bind fun o ho =>
        .some (.node rfl rfl ((ht.append hb).append ho))
  | .try span body handlers orelse final => by
    rw [stmtNode, Stmt.outline]
    exact (bodyNode_renders Role.body body).bind fun b hb =>
      (handlerNodes_render handlers).bind fun hs hhs =>
      (orelseNodes_renders Role.orelse "Else" orelse).bind fun o ho =>
      (orelseNodes_renders Role.finally_ "Finally" final).bind fun f hf =>
        .some (.node rfl rfl (((hb.cons hhs).append ho).append hf))
  | .match span subject cases => by
    rw [stmtNode, Stmt.outline]
    exact (exprNode_renders Role.test subject).bind fun s hs =>
      (caseNodes_render cases).bind fun cs hcs => .some (.node rfl rfl (hs.cons hcs))
  | .with span items (.mk blockSpan kind body) => by
    rw [stmtNode, Stmt.outline, Block.outline]
    -- the statements of the body stand right below the node
    exact (exprNodes_renders Role.child items).bind fun is his =>
      (stmtNodes_render Role.child body).bind fun b hb =>
        .some (.node rfl rfl (his.append (hb.plain blockSpan)))

theorem stmtNodes_render (role : String) :
    (ss : List Stmt) → Yields (Renders (stmtOutlines ss)) (stmtNodes role ss)
  | [] => by
    rw [stmtNodes, stmtOutlines]
    exact .some .nil
  | s :: ss => by
    rw [stmtNodes, stmtOutlines]
    exact (stmtNode_renders role s).bind fun n hn =>
      (stmtNodes_render role ss).bind fun ns hns => .some (hn.cons hns)

theorem bodyNode_renders (role : String) :
    (b : Block) → Yields (fun n => Renders b.outline [n]) (bodyNode role b)
  | .mk span kind body => by
    rw [bodyNode, Block.outline]
    exact (stmtNodes_render Role.body body).bind fun b hb => .some (.node rfl rfl hb)

theorem orelseNodes_renders (role tag : String) :
    (o : Orelse) → Yields (Renders o.outline) (orelseNodes role tag o)
  | .none => by
    rw [orelseNodes, Orelse.outline]
    exact .some .nil
  | .chained next => by
    rw [orelseNodes, Orelse.outline]
    exact (stmtNode_renders role next).bind fun n hn => .some hn
  | .clause span body => by
    rw [orelseNodes, Orelse.outline]
    exact (stmtNodes_render Role.body body).bind fun b hb => .some (.node rfl rfl hb)

theorem handlerNodes_render :
    (hs : List Handler) → Yields (Renders (handlerOutlines hs)) (handlerNodes hs)
  | [] => by
    rw [handlerNodes, handlerOutlines]
    exact .some .nil
  | .mk span type body :: hs => by
    rw [handlerNodes, handlerOutlines]
    exact (optionNodes_renders Role.test type).bind fun t ht =>
      (bodyNode_renders Role.body body).bind fun b hb =>
      (handlerNodes_render hs).bind fun ns hns => .some (.node_cons rfl rfl (ht.append hb) hns)

theorem caseNodes_render :
    (cs : List Case) → Yields (Renders (caseOutlines cs)) (caseNodes cs)
  | [] => by
    rw [caseNodes, caseOutlines]
    exact .some .nil
  | .mk span guard body :: cs => by
    rw [caseNodes, caseOutlines]
    exact (optionNodes_renders Role.test guard).bind fun g hg =>
      (bodyNode_renders Role.body body).bind fun b hb =>
      (caseNodes_render cs).bind fun ns hns => .some (.node_cons rfl rfl (hg.append hb) hns)

end

/-- The tree of a script stands for its outline and for the script as a whole. -/
theorem source_renders (s : Source) :
    Yields (fun root => Renders (.plain root.span :: s.outline) [root]) s.node := by
  unfold Source.node Source.outline
  exact (stmtNodes_render Role.body s.body).bind fun b hb => .some (.node rfl rfl hb)

end Script

end Framewise
