import Framewise.Proofs.Tree
import Framewise.Proofs.Success
import Framewise.Proofs.TracedStatements
import Framewise.Script.Tree

/-! # Trees and the tokens they stand for

  The nodes of a script are made of its expressions, and these can be traced to its
  tokens. So can the calls and the literals of the tree: each was made of a traced
  expression, and only its role or a star was added later.

  Main definitions:
  - `Node.MadeOf`, `Node.Stems`: a node made of an expression, and of a traced one.
  - `Node.Grown`: all calls and literals of a tree are made so.

  Main results: `source_grown`, `call_of_stems`, `text_of_stems`.
-/

namespace Framewise

open Script

namespace Node

variable {T : List Token} {n : Node}

/-- A node made of an expression; its role and its attributes may be others. -/
def MadeOf (n : Node) (e : Expr) : Prop :=
  ∃ role made, exprNode role e = some made ∧ n = { made with role := n.role, attrs := n.attrs }

/-- A node made of an expression that can be traced to tokens. -/
def Stems (T : List Token) (n : Node) : Prop := ∃ e, Traced T e ∧ n.MadeOf e

/-- True for calls and literals. -/
def isStem (n : Node) : Bool := n.kind = .call || n.kind = .literal

/-- All calls and literals of a tree are made of traced expressions. -/
def Grown (T : List Token) (n : Node) : Prop := ∀ m ∈ n.preorder, m.isStem = true → m.Stems T

/-- All trees of a list are grown. -/
def AllGrown (T : List Token) (ns : List Node) : Prop := ∀ c ∈ ns, c.Grown T

theorem AllGrown.nil : AllGrown T [] := fun _ h => absurd h List.not_mem_nil

theorem AllGrown.cons {ns : List Node} (hn : n.Grown T) (hns : AllGrown T ns) :
    AllGrown T (n :: ns) := List.forall_mem_cons.mpr ⟨hn, hns⟩

theorem AllGrown.append {ns ms : List Node} (hns : AllGrown T ns) (hms : AllGrown T ms) :
    AllGrown T (ns ++ ms) := List.forall_mem_append.mpr ⟨hns, hms⟩

theorem grown_iff : n.Grown T ↔ (n.isStem = true → n.Stems T) ∧ AllGrown T n.children :=
  forall_preorder_iff

/-- A node that is neither a call nor a literal. -/
theorem grown_of_plain (hplain : n.isStem = false) (hchildren : AllGrown T n.children) :
    n.Grown T := grown_iff.mpr ⟨fun h => absurd h (by simp [hplain]), hchildren⟩

theorem MadeOf.of_exprNode {role : String} {e : Expr} (h : exprNode role e = some n) : n.MadeOf e :=
  ⟨role, n, h, by cases n; rfl⟩

theorem grown_of_made {role : String} {e : Expr} (htraced : Traced T e)
    (h : exprNode role e = some n) (hchildren : AllGrown T n.children) : n.Grown T :=
  grown_iff.mpr ⟨fun _ => ⟨e, htraced, .of_exprNode h⟩, hchildren⟩

theorem grown_of_leaf {role : String} {e : Expr} (htraced : Traced T e)
    (h : Yields (fun n => n.children = []) (exprNode role e)) : Yields (Grown T) (exprNode role e) :=
  fun n hn => grown_of_made htraced hn (by rw [h n hn]; exact .nil)

theorem Stems.congr (h : n.Stems T) (role : String) (attrs : List (String × Value)) :
    { n with role := role, attrs := attrs }.Stems T := by
  obtain ⟨e, htraced, role', made, hmade, heq⟩ := h
  exact ⟨e, htraced, role', made, hmade, by rw [heq]⟩

/-- Neither the role of a node nor its attributes matter. -/
theorem Grown.congr (h : n.Grown T) (role : String) (attrs : List (String × Value)) :
    { n with role := role, attrs := attrs }.Grown T := by
  obtain ⟨hn, hchildren⟩ := grown_iff.mp h
  exact grown_iff.mpr ⟨fun hkind => (hn hkind).congr role attrs, hchildren⟩

theorem Grown.withStar (h : n.Grown T) (stars : String) : (withStar stars n).Grown T := by
  unfold Script.withStar
  split
  · exact h
  · exact h.congr n.role _

end Node

namespace Script

open Node

variable {T : List Token}

/-! ## Expressions -/

theorem otherNode_grown {role tag : String} {span : Span} {children : List Node}
    (h : AllGrown T children) : (otherNode role tag span children).Grown T :=
  grown_of_plain rfl h

theorem indexNode_grown {items : List Node} (h : AllGrown T items) : (indexNode items).Grown T := by
  unfold indexNode
  split
  next item => exact (h item List.mem_cons_self).congr _ item.attrs
  next => exact grown_of_plain rfl h

-- One theorem per function that builds nodes, along its own recursion.
mutual

theorem exprNode_grown (role : String) :
    (e : Expr) → Traced T e → Yields (Grown T) (exprNode role e)
  | .name span id, _ => by
    rw [exprNode]
    exact .some (grown_of_plain rfl .nil)
  | .constant span value, h => by
    refine grown_of_leaf h ?_
    rw [exprNode]
    exact .some rfl
  | .number span text, h => by
    refine grown_of_leaf h ?_
    rw [exprNode]
    exact .bind_any fun _ => .some rfl
  | .string span text, h => by
    refine grown_of_leaf h ?_
    rw [exprNode]
    exact .bind_any fun _ => .some rfl
  | .concatenation span pieces, h => by
    refine grown_of_leaf h ?_
    rw [exprNode]
    refine .bind_any fun value => ?_
    cases value <;> exact .some rfl
  | .attribute span receiver name, h => by
    rw [exprNode]
    refine (exprNode_grown Role.receiver receiver h).bind fun r hr => .some ?_
    exact grown_of_plain rfl (.cons hr .nil)
  | .call span callee arguments, h => by
    intro n hn
    refine grown_of_made h hn ?_
    rw [exprNode] at hn
    obtain ⟨f, hf, hn⟩ := Option.bind_eq_some_iff.mp hn
    obtain ⟨args, hargs, hn⟩ := Option.bind_eq_some_iff.mp hn
    cases hn
    exact AllGrown.cons (exprNode_grown Role.func callee h.1 f hf)
      (argumentNodes_grown arguments h.2.1 args hargs)
  | .subscript span receiver items, h => by
    rw [exprNode]
    refine (exprNode_grown Role.receiver receiver h.1).bind fun r hr =>
      (itemNodes_grown items h.2).bind fun is his => .some ?_
    exact grown_of_plain rfl
      (.cons hr (.cons (indexNode_grown his) .nil))
  | .slice span bounds, h => by
    rw [exprNode]
    exact (exprNodes_grown Role.child bounds h).bind fun bs hbs => .some (otherNode_grown hbs)
  | .comparison span first operators operands, h => by
    rw [exprNode]
    refine (exprNode_grown Role.left first h.1).bind fun f hf =>
      (exprNodes_grown Role.comparator operands h.2).bind fun os hos => .some ?_
    exact grown_of_plain rfl (.cons hf hos)
  | .sequence span kind elements, h => by
    rw [exprNode]
    refine (elementNodes_grown elements h).bind fun es hes => .some ?_
    exact grown_of_plain rfl hes
  | .starred span inner, h => by
    rw [exprNode]
    exact (exprNode_grown Role.child inner h).bind fun i hi =>
      .some (otherNode_grown (.cons hi .nil))
  | .lambda span parameters body, h => by
    rw [exprNode]
    exact (parameterNodes_grown Role.child parameters h.1).bind fun ps hps =>
      (exprNode_grown Role.child body h.2).bind fun b hb =>
        .some (otherNode_grown (.append hps (.cons hb .nil)))
  | .operation span kind operands, h => by
    rw [exprNode]
    exact (exprNodes_grown Role.child operands h).bind fun os hos => .some (otherNode_grown hos)
  | .parenthesized extent inner, h => by
    rw [exprNode]
    exact exprNode_grown role inner h

theorem exprNodes_grown (role : String) :
    (es : List Expr) → TracedAll T es → Yields (AllGrown T) (exprNodes role es)
  | [], _ => .some .nil
  | e :: es, h => by
    rw [exprNodes]
    exact (exprNode_grown role e h.1).bind fun n hn =>
      (exprNodes_grown role es h.2).bind fun ns hns => .some (.cons hn hns)

theorem optionNodes_grown (role : String) :
    (e : Option Expr) → TracedOption T e → Yields (AllGrown T) (optionNodes role e)
  | none, _ => .some .nil
  | some e, h => by
    rw [optionNodes]
    exact (exprNode_grown role e h).bind fun n hn => .some (.cons hn .nil)

theorem elementNodes_grown :
    (es : List Expr) → TracedAll T es → Yields (AllGrown T) (elementNodes es)
  | [], _ => .some .nil
  | e :: es, h => by
    by_cases hstar : ∃ span inner, e = .starred span inner
    · obtain ⟨span, inner, rfl⟩ := hstar
      have hinner : Traced T inner := h.1
      rw [elementNodes]
      exact (exprNode_grown Role.element inner hinner).bind fun n hn =>
        (elementNodes_grown es h.2).bind fun ns hns => .some (.cons (hn.withStar _) hns)
    · rw [elementNodes]
      · exact (exprNode_grown Role.element e h.1).bind fun n hn =>
          (elementNodes_grown es h.2).bind fun ns hns => .some (.cons hn hns)
      · exact fun span inner h => hstar ⟨span, inner, h⟩

theorem itemNodes_grown :
    (es : List Expr) → TracedAll T es → Yields (AllGrown T) (itemNodes es)
  | [], _ => .some .nil
  | e :: es, h => by
    by_cases hstar : ∃ span inner, e = .starred span inner
    · obtain ⟨span, inner, rfl⟩ := hstar
      have hinner : Traced T inner := h.1
      rw [itemNodes]
      exact (exprNode_grown Role.element inner hinner).bind fun n hn =>
        (itemNodes_grown es h.2).bind fun ns hns => .some (.cons hn hns)
    · rw [itemNodes]
      · exact (exprNode_grown Role.element e h.1).bind fun n hn =>
          (itemNodes_grown es h.2).bind fun ns hns => .some (.cons hn hns)
      · exact fun span inner h => hstar ⟨span, inner, h⟩

theorem argumentNodes_grown :
    (as : List Argument) → TracedArguments T as → Yields (AllGrown T) (argumentNodes as)
  | [], _ => .some .nil
  | .positional stars value :: as, h => by
    rw [argumentNodes]
    exact (exprNode_grown Role.arg value h.1).bind fun n hn =>
      (argumentNodes_grown as h.2).bind fun ns hns => .some (.cons (hn.withStar _) hns)
  | .keyword span nameSpan name value :: as, h => by
    rw [argumentNodes]
    refine (exprNode_grown Role.value value h.2.1).bind fun n hn =>
      (argumentNodes_grown as h.2.2).bind fun ns hns => .some (.cons ?_ hns)
    exact grown_of_plain rfl (.cons hn .nil)

theorem parameterNodes_grown (role : String) :
    (ps : List Parameter) → TracedParameters T ps → Yields (AllGrown T) (parameterNodes role ps)
  | [], _ => .some .nil
  | .mk span stars name hint fallback :: ps, h => by
    rw [parameterNodes]
    refine (optionNodes_grown Role.annotation_ hint h.1).bind fun h' hh =>
      (optionNodes_grown Role.default fallback h.2.1).bind fun f hf =>
      (parameterNodes_grown role ps h.2.2).bind fun ns hns => .some (.cons ?_ hns)
    exact grown_of_plain rfl (.append hh hf)

end

theorem baseNodes_grown :
    (as : List Argument) → TracedArguments T as → Yields (AllGrown T) (baseNodes as)
  | [], _ => .some .nil
  | .positional stars value :: as, h => by
    rw [baseNodes]
    split
    · exact baseNodes_grown as h.2
    · exact (exprNode_grown Role.arg value h.1).bind fun n hn =>
        (baseNodes_grown as h.2).bind fun ns hns => .some (.cons hn hns)
  | .keyword _ _ _ _ :: as, h => by
    rw [baseNodes]
    exact baseNodes_grown as h.2.2

theorem classKeywordNodes_grown :
    (as : List Argument) → TracedArguments T as → Yields (AllGrown T) (classKeywordNodes as)
  | [], _ => .some .nil
  | .positional stars value :: as, h => by
    rw [classKeywordNodes]
    split
    · exact (exprNode_grown Role.arg value h.1).bind fun n hn =>
        (classKeywordNodes_grown as h.2).bind fun ns hns => .some (.cons hn hns)
    · exact classKeywordNodes_grown as h.2
  | .keyword _ nameSpan name value :: as, h => by
    rw [classKeywordNodes]
    exact (exprNode_grown Role.arg (.name nameSpan name) h.1).bind fun n hn =>
      (exprNode_grown Role.arg value h.2.1).bind fun v hv =>
      (classKeywordNodes_grown as h.2.2).bind fun ns hns => .some (.cons hn (.cons hv hns))

theorem typeParameterNodes_grown :
    (ps : List TypeParameter) → (∀ p ∈ ps, TracedTypeParameter T p) →
      Yields (AllGrown T) (typeParameterNodes ps)
  | [], _ => .some .nil
  | p :: ps, h => by
    obtain ⟨⟨hname, hbound, hfallback⟩, hps⟩ := List.forall_mem_cons.mp h
    rw [typeParameterNodes]
    refine (exprNode_grown Role.child (.name p.span p.name) hname).bind fun n hn =>
      (optionNodes_grown Role.child p.bound hbound).bind fun b hb =>
      (optionNodes_grown Role.child p.fallback hfallback).bind fun f hf =>
      (typeParameterNodes_grown ps hps).bind fun ns hns => .some ?_
    exact .append (.append (.cons hn hb) hf) hns

/-! ## Statements -/

theorem blockNode_grown {role tag : String} {span : Span} {children : List Node}
    (h : AllGrown T children) : (blockNode role tag span children).Grown T :=
  grown_of_plain rfl h

theorem branchNode_grown {role tag : String} {span : Span} {children : List Node}
    (h : AllGrown T children) : (branchNode role tag span children).Grown T :=
  grown_of_plain rfl h

mutual

theorem stmtNode_grown (role : String) :
    (s : Stmt) → TracedStmt T s → Yields (Grown T) (stmtNode role s)
  | .expression span value, h => by
    rw [stmtNode]
    refine (exprNode_grown Role.expr value h).bind fun v hv => .some ?_
    exact grown_of_plain rfl (.cons hv .nil)
  | .assign span targets value, h => by
    rw [stmtNode]
    refine (exprNodes_grown Role.target targets h.1).bind fun ts hts =>
      (exprNode_grown Role.value value h.2).bind fun v hv => .some ?_
    exact grown_of_plain rfl (.append hts (.cons hv .nil))
  | .annotated span target hint value, h => by
    rw [stmtNode]
    refine (exprNode_grown Role.target target h.1).bind fun t ht =>
      (exprNode_grown Role.annotation_ hint h.2.1).bind fun a ha =>
      (optionNodes_grown Role.value value h.2.2).bind fun v hv => .some ?_
    exact grown_of_plain rfl (.cons ht (.cons ha hv))
  | .augmented span target value, h => by
    rw [stmtNode]
    refine (exprNode_grown Role.target target h.1).bind fun t ht =>
      (exprNode_grown Role.value value h.2).bind fun v hv => .some ?_
    exact grown_of_plain rfl (.cons ht (.cons hv .nil))
  | .return span value, h => by
    rw [stmtNode]
    refine (optionNodes_grown Role.value value h).bind fun v hv => .some ?_
    exact grown_of_plain rfl hv
  | .simple span kind operands, h => by
    rw [stmtNode]
    exact (exprNodes_grown Role.child operands h).bind fun os hos => .some (otherNode_grown hos)
  | .typeAlias span name parameters value, h => by
    rw [stmtNode]
    exact (exprNode_grown Role.child name h.1).bind fun n hn =>
      (typeParameterNodes_grown parameters h.2.1).bind fun ps hps =>
      (exprNode_grown Role.child value h.2.2).bind fun v hv =>
        .some (otherNode_grown (.append (.cons hn hps) (.cons hv .nil)))
  | .function span decorators name _ parameters result body, h => by
    rw [stmtNode]
    refine (exprNodes_grown Role.decorator decorators h.1).bind fun ds hds =>
      (parameterNodes_grown Role.param parameters h.2.1).bind fun ps hps =>
      (optionNodes_grown Role.annotation_ result h.2.2.1).bind fun r hr =>
      (bodyNode_grown Role.body body h.2.2.2).bind fun b hb => .some ?_
    exact grown_of_plain rfl
      (.append (.append (.append hds hps) hr) (.cons hb .nil))
  | .class span decorators name _ arguments body, h => by
    rw [stmtNode]
    refine (exprNodes_grown Role.decorator decorators h.1).bind fun ds hds =>
      (baseNodes_grown arguments h.2.1).bind fun bs hbs =>
      (classKeywordNodes_grown arguments h.2.1).bind fun ks hks =>
      (bodyNode_grown Role.body body h.2.2).bind fun b hb => .some ?_
    exact grown_of_plain rfl
      (.append (.append (.append hds hbs) hks) (.cons hb .nil))
  | .if span test body orelse, h => by
    rw [stmtNode]
    exact (exprNode_grown Role.test test h.1).bind fun t ht =>
      (bodyNode_grown Role.body body h.2.1).bind fun b hb =>
      (orelseNodes_grown Role.orelse "Else" orelse h.2.2).bind fun o ho =>
        .some (branchNode_grown (.cons ht (.cons hb ho)))
  | .for span target iterable body orelse, h => by
    rw [stmtNode]
    exact (exprNode_grown Role.iter iterable h.2.1).bind fun i hi =>
      (exprNode_grown Role.target target h.1).bind fun t ht =>
      (bodyNode_grown Role.body body h.2.2.1).bind fun b hb =>
      (orelseNodes_grown Role.orelse "Else" orelse h.2.2.2).bind fun o ho =>
        .some (branchNode_grown (.cons hi (.cons ht (.cons hb ho))))
  | .while span test body orelse, h => by
    rw [stmtNode]
    exact (exprNode_grown Role.test test h.1).bind fun t ht =>
      (bodyNode_grown Role.body body h.2.1).bind fun b hb =>
      (orelseNodes_grown Role.orelse "Else" orelse h.2.2).bind fun o ho =>
        .some (branchNode_grown (.cons ht (.cons hb ho)))
  | .try span body handlers orelse final, h => by
    rw [stmtNode]
    exact (bodyNode_grown Role.body body h.1).bind fun b hb =>
      (handlerNodes_grown handlers h.2.1).bind fun hs hhs =>
      (orelseNodes_grown Role.orelse "Else" orelse h.2.2.1).bind fun o ho =>
      (orelseNodes_grown Role.finally_ "Finally" final h.2.2.2).bind fun f hf =>
        .some (branchNode_grown (.append (.append (.cons hb hhs) ho) hf))
  | .match span subject cases, h => by
    rw [stmtNode]
    exact (exprNode_grown Role.test subject h.1).bind fun s hs =>
      (caseNodes_grown cases h.2).bind fun cs hcs => .some (branchNode_grown (.cons hs hcs))
  | .with span items (.mk _ _ body), h => by
    rw [stmtNode]
    exact (exprNodes_grown Role.child items h.1).bind fun is his =>
      (stmtNodes_grown Role.child body h.2).bind fun b hb =>
        .some (otherNode_grown (.append his hb))

theorem stmtNodes_grown (role : String) :
    (ss : List Stmt) → TracedStmts T ss → Yields (AllGrown T) (stmtNodes role ss)
  | [], _ => .some .nil
  | s :: ss, h => by
    rw [stmtNodes]
    exact (stmtNode_grown role s h.1).bind fun n hn =>
      (stmtNodes_grown role ss h.2).bind fun ns hns => .some (.cons hn hns)

theorem bodyNode_grown (role : String) :
    (b : Block) → TracedBlock T b → Yields (Grown T) (bodyNode role b)
  | .mk span kind body, h => by
    rw [bodyNode]
    exact (stmtNodes_grown Role.body body h).bind fun b hb => .some (blockNode_grown hb)

theorem orelseNodes_grown (role tag : String) :
    (o : Orelse) → TracedOrelse T o → Yields (AllGrown T) (orelseNodes role tag o)
  | .none, _ => by
    rw [orelseNodes]
    exact .some .nil
  | .chained next, h => by
    rw [orelseNodes]
    exact (stmtNode_grown role next h).bind fun n hn => .some (.cons hn .nil)
  | .clause span body, h => by
    rw [orelseNodes]
    exact (stmtNodes_grown Role.body body h).bind fun b hb =>
      .some (.cons (blockNode_grown hb) .nil)

theorem handlerNodes_grown :
    (hs : List Handler) → TracedHandlers T hs → Yields (AllGrown T) (handlerNodes hs)
  | [], _ => .some .nil
  | .mk span type body :: hs, h => by
    rw [handlerNodes]
    exact (optionNodes_grown Role.test type h.1).bind fun t ht =>
      (bodyNode_grown Role.body body h.2.1).bind fun b hb =>
      (handlerNodes_grown hs h.2.2).bind fun ns hns =>
        .some (.cons (blockNode_grown (.append ht (.cons hb .nil))) hns)

theorem caseNodes_grown :
    (cs : List Case) → TracedCases T cs → Yields (AllGrown T) (caseNodes cs)
  | [], _ => .some .nil
  | .mk span guard body :: cs, h => by
    rw [caseNodes]
    exact (optionNodes_grown Role.test guard h.1).bind fun g hg =>
      (bodyNode_grown Role.body body h.2.1).bind fun b hb =>
      (caseNodes_grown cs h.2.2).bind fun ns hns =>
        .some (.cons (blockNode_grown (.append hg (.cons hb .nil))) hns)

end

/-- The calls and literals of a script are made of expressions that can be traced to its tokens. -/
theorem source_grown {code : String} {source : Source} {root : Node}
    (hparse : parse code = some source) (hroot : source.node = some root) :
    ∃ lexed, lex code = some lexed ∧ root.Grown lexed.tokens := by
  obtain ⟨lexed, hlexed, hparse⟩ := Option.bind_eq_some_iff.mp hparse
  obtain ⟨body, hbody, hparse⟩ := Option.bind_eq_some_iff.mp hparse
  cases hparse
  obtain ⟨nodes, hnodes, hroot⟩ := Option.bind_eq_some_iff.mp hroot
  cases hroot
  refine ⟨lexed, hlexed, grown_of_plain rfl ?_⟩
  exact stmtNodes_grown Role.body body (tracedStmts_iff.mpr (parseTokens_traced hbody)) nodes hnodes

/-! ## Calls and texts -/

/-- An expression without the parentheses around it. -/
def Expr.core : Expr → Expr
  | .parenthesized _ inner => inner.core
  | e => e

theorem exprNode_core (role : String) (e : Expr) : exprNode role e.core = exprNode role e := by
  cases e with
  | parenthesized _ inner => rw [Expr.core, exprNode, exprNode_core role inner]
  | _ => rfl

theorem Traced.core (e : Expr) (h : Traced T e) : Traced T e.core := by
  cases e with
  | parenthesized _ inner => exact Traced.core inner h
  | _ => exact h

/-- The kinds of node that an expression can become. -/
def Expr.kinds : Expr → List NodeKind
  | .name .. => [.name]
  | .constant .. | .number .. | .string .. => [.literal]
  | .concatenation .. => [.literal, .other]
  | .attribute .. => [.attribute]
  | .call .. => [.call]
  | .comparison .. => [.compare]
  | .sequence .. => [.sequence]
  | .parenthesized _ inner => inner.kinds
  | .subscript .. => [.subscript]
  | .slice .. | .starred .. | .lambda .. | .operation .. => [.other]

theorem exprNode_kind (role : String) (e : Expr) :
    Yields (fun n => n.kind ∈ e.kinds) (exprNode role e) := by
  cases e with
  | name | constant =>
    rw [exprNode]
    exact .some List.mem_cons_self
  | call | subscript | comparison | lambda =>
    rw [exprNode]
    exact .bind_any fun _ => .bind_any fun _ => .some List.mem_cons_self
  | concatenation span pieces =>
    rw [exprNode]
    refine .bind_any fun value => ?_
    cases value with
    | some value => exact .some List.mem_cons_self
    | none => exact .some (List.mem_cons_of_mem _ List.mem_cons_self)
  | parenthesized extent inner =>
    rw [exprNode]
    exact exprNode_kind role inner
  | _ =>
    rw [exprNode]
    exact .bind_any fun _ => .some List.mem_cons_self

/-- The core of an expression has no parentheses around it. -/
theorem Expr.core_ne (extent : Span) (inner e : Expr) : e.core ≠ .parenthesized extent inner := by
  cases e with
  | parenthesized _ e => exact core_ne extent inner e
  | _ => simp [Expr.core]

/-- A node is made of an expression without parentheses around it. -/
theorem stems_core {n : Node} (h : n.Stems T) :
    ∃ e, (∀ extent inner, e ≠ .parenthesized extent inner) ∧ n.kind ∈ e.kinds ∧ Traced T e ∧ n.MadeOf e := by
  obtain ⟨e, htraced, role, made, hmade, heq⟩ := h
  rw [← exprNode_core] at hmade
  refine ⟨e.core, fun extent inner => Expr.core_ne extent inner e, ?_, htraced.core, role, made, hmade, heq⟩
  rw [heq]
  exact exprNode_kind role e.core made hmade

/-- A call in the tree was written as one. -/
theorem call_of_stems {n : Node} (h : n.Stems T) (hkind : n.kind = .call) :
    ∃ span callee arguments, Traced T (.call span callee arguments) ∧ n.MadeOf (.call span callee arguments) := by
  obtain ⟨e, hcore, hkinds, htraced, hmade⟩ := stems_core h
  rw [hkind] at hkinds
  cases e with
  | call span callee arguments => exact ⟨span, callee, arguments, htraced, hmade⟩
  | parenthesized extent inner => exact absurd rfl (hcore extent inner)
  | _ => simp [Expr.kinds] at hkinds

theorem decimalValue?_ne_text (cs : List Char) (s : String) : decimalValue? cs ≠ some (.text s) := by
  intro h
  unfold decimalValue? at h
  split at h
  · simp [decimalValue?.imaginary] at h
  · simp [decimalValue?.imaginary] at h
  · split at h
    · split at h
      · cases h
      · simp [Value.int] at h
    · simp [Value.float] at h

theorem numberValue?_ne_text (text s : String) : numberValue? text ≠ some (.text s) := by
  intro h
  unfold numberValue? at h
  split at h
  · split at h
    · simp [Value.int] at h
    · split at h
      · simp [Value.int] at h
      · split at h
        · simp [Value.int] at h
        · exact decimalValue?_ne_text _ s h
  · exact decimalValue?_ne_text _ s h

/-- Strings in a row have a value if the first and the others have, and the two can be joined. -/
theorem piecesValue?_cons {a : Expr} {es : List Expr} {v : Value} (hes : es ≠ [])
    (h : piecesValue? (a :: es) = some (some v)) :
    isFormatted a = false ∧ ∃ x y, pieceValue? a = some x ∧ piecesValue? es = some (some y) ∧
      joinValues x y = some v := by
  cases es with
  | nil => exact absurd rfl hes
  | cons b bs =>
    cases bs with
    | nil =>
      rw [piecesValue?] at h
      split at h
      next => cases h
      next hplain =>
        obtain ⟨ha, hb⟩ : isFormatted a = false ∧ isFormatted b = false := by simpa using hplain
        obtain ⟨x, hx, h⟩ := Option.bind_eq_some_iff.mp h
        obtain ⟨y, hy, h⟩ := Option.bind_eq_some_iff.mp h
        exact ⟨ha, x, y, hx, by simp [piecesValue?, hb, hy], Option.some.inj h⟩
    | cons c cs =>
      rw [piecesValue?.eq_4 _ _ (by simp) (by simp)] at h
      split at h
      next => cases h
      next hplain =>
        obtain ⟨x, hx, h⟩ := Option.bind_eq_some_iff.mp h
        obtain ⟨y, hy, h⟩ := Option.bind_eq_some_iff.mp h
        obtain ⟨y, rfl, hjoin⟩ := Option.bind_eq_some_iff.mp (Option.some.inj h)
        exact ⟨by simpa using hplain, x, y, hx, hy, hjoin⟩

theorem plain_of_isFormatted {e : Expr} (h : isFormatted e = false) :
    ∃ s text, e = .string s text := by
  cases e with
  | string s text => exact ⟨s, text, rfl⟩
  | _ => cases h

/-- Strings in a row that are a text are plain, and texts. -/
theorem piecesValue?_text {es : List Expr} {s : String} (h : piecesValue? es = some (some (.text s))) :
    (∀ e ∈ es, ∃ s text, e = .string s text) ∧
      ∃ parts : List String, es.map pieceValue? = parts.map (fun part => some (.text part)) ∧
        s.toList = parts.flatMap String.toList := by
  induction es generalizing s with
  | nil => cases h
  | cons a es ih =>
    by_cases hes : es = []
    · subst hes
      rw [piecesValue?] at h
      split at h
      next => cases h
      next hplain =>
        obtain ⟨v, hv, heq⟩ := Option.map_eq_some_iff.mp h
        cases heq
        refine ⟨List.forall_mem_singleton.mpr (plain_of_isFormatted (by simpa using hplain)), [s], ?_⟩
        simp [hv]
    · obtain ⟨hplain, x, y, hx, hy, hjoin⟩ := piecesValue?_cons hes h
      obtain ⟨p, q, rfl, rfl, rfl⟩ : ∃ p q, x = .text p ∧ y = .text q ∧ s = p ++ q := by
        unfold joinValues at hjoin
        split at hjoin <;> simp_all
      obtain ⟨hplains, parts, hparts, hq⟩ := ih hy
      refine ⟨List.forall_mem_cons.mpr ⟨plain_of_isFormatted hplain, hplains⟩, p :: parts, ?_⟩
      simp [hx, hparts, hq]

/-- A text in the tree was written as one string, or as several in a row. -/
theorem text_of_stems {n : Node} (h : n.Stems T) (hkind : n.kind = .literal) {s : String}
    (hliteral : n.literal = some (.text s)) :
    ∃ (us : List Token) (parts : List String), us ≠ [] ∧ us <:+: T ∧ (∀ t ∈ us, t.kind = .string) ∧
      us.map (fun t => stringValue? t.text) = parts.map (fun part => some (.text part)) ∧
      s.toList = parts.flatMap String.toList := by
  obtain ⟨e, hcore, hkinds, htraced, role, made, hmade, heq⟩ := stems_core h
  have hmadeliteral : made.literal = some (.text s) := by
    rw [heq] at hliteral
    exact hliteral
  rw [hkind] at hkinds
  cases e with
  | string span text =>
    rw [exprNode] at hmade
    obtain ⟨value, hvalue, hmade⟩ := Option.bind_eq_some_iff.mp hmade
    cases hmade
    obtain ⟨before, after, hT⟩ := List.append_of_mem htraced
    cases hmadeliteral
    refine ⟨[⟨.string, text, span⟩], [s], List.cons_ne_nil _ _, ⟨before, after, ?_⟩, ?_, ?_, ?_⟩
    · rw [hT, List.append_assoc, List.singleton_append]
    · exact List.forall_mem_singleton.mpr rfl
    · simp [hvalue]
    · simp
  | concatenation span pieces =>
    rw [exprNode] at hmade
    obtain ⟨value, hvalue, hmade⟩ := Option.bind_eq_some_iff.mp hmade
    cases value with
    | none =>
      cases hmade
      cases hmadeliteral
    | some value =>
      cases hmade
      cases hmadeliteral
      obtain ⟨hplain, parts, hparts, hs⟩ := piecesValue?_text hvalue
      obtain ⟨us, hus, hstrings, rfl⟩ := htraced.1 hplain
      refine ⟨us, parts, ?_, hus, hstrings, ?_, hs⟩
      · rintro rfl
        cases hvalue
      · rw [← hparts, List.map_map]
        rfl
  | number span text =>
    rw [exprNode] at hmade
    obtain ⟨value, hvalue, hmade⟩ := Option.bind_eq_some_iff.mp hmade
    cases hmade
    cases hmadeliteral
    exact absurd hvalue (numberValue?_ne_text text s)
  | constant span value =>
    rw [exprNode] at hmade
    cases hmade
    cases value <;> cases hmadeliteral
  | parenthesized extent inner => exact absurd rfl (hcore extent inner)
  | _ => simp [Expr.kinds] at hkinds

end Script

end Framewise
