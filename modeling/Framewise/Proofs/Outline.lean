import Framewise.Node.Kind
import Framewise.Script.Grammar.Statement
import Mathlib.Data.List.Nodup
import Mathlib.Data.Prod.Lex
import Mathlib.Order.MinMax
import Mathlib.Tactic.Order

/-! # Outlines

  The outline of a script lists the pieces of its syntax with their spans. A piece
  is marked with the kind of its node if it is an attribute, a call, a subscript or
  a comparison: these are the landmarks, which rules look for. No node is made of
  what stands in strings in a row, nor of the type parameters of a function or
  class; the pieces in there are hidden.

  Whether the pieces of an outline stand in their place is said by two positions.
  All of them lie between the two, and no two landmarks have the same span. Outlines
  that lie one behind the other, or one inside a further landmark, lie in place
  together: with these two facts the places of a whole script follow from the places
  of its tokens.

  Main definitions:
  - `Pos`: a line and a column, in the order of the text.
  - `Expr.outline`, `Stmt.outline`: the pieces of an expression or statement.
  - `Located`: the pieces of an outline stand in their place.

  Main results: `Located.append` and `Located.enclose`.
-/

namespace Framewise

/-! ## Positions -/

/-- A line and a column, in the order of the text. -/
abbrev Pos := Int ×ₗ Int

namespace Span

/-- Where a span begins. -/
def start (s : Span) : Pos := toLex (s.startLine, s.startColumn)

/-- Where a span ends. -/
def stop (s : Span) : Pos := toLex (s.endLine, s.endColumn)

theorem posLE_iff (l c l' c' : Int) :
    posLE l c l' c' = true ↔ (toLex (l, c) : Pos) ≤ toLex (l', c') := by
  simp [posLE, Prod.Lex.toLex_le_toLex]

theorem start_covering (a b : Span) : (a.covering b).start = min a.start b.start := by
  unfold covering start
  by_cases h : posLE a.startLine a.startColumn b.startLine b.startColumn = true
  · simp only [h, if_true]
    exact (min_eq_left ((posLE_iff ..).mp h)).symm
  · simp only [h, if_false, Bool.false_eq_true]
    exact (min_eq_right (le_of_not_ge (mt (posLE_iff ..).mpr h))).symm

theorem stop_covering (a b : Span) : (a.covering b).stop = max a.stop b.stop := by
  unfold covering stop
  by_cases h : posLE b.endLine b.endColumn a.endLine a.endColumn = true
  · simp only [h, if_true]
    exact (max_eq_left ((posLE_iff ..).mp h)).symm
  · simp only [h, if_false, Bool.false_eq_true]
    exact (max_eq_right (le_of_not_ge (mt (posLE_iff ..).mpr h))).symm

/-- A span that lies between two positions and whose ends are as wanted. -/
structure Within (V : Pos → Prop) (lo hi : Pos) (s : Span) : Prop where
  start_valid : V s.start
  stop_valid : V s.stop
  lo_le : lo ≤ s.start
  start_le : s.start ≤ s.stop
  le_hi : s.stop ≤ hi

end Span

namespace Span.Within

variable {V : Pos → Prop} {lo lo' mid mid' hi hi' : Pos} {s t : Span}

theorem mono (h : s.Within V lo hi) (hlo : lo' ≤ lo) (hhi : hi ≤ hi') : s.Within V lo' hi' where
  start_valid := h.start_valid
  stop_valid := h.stop_valid
  lo_le := hlo.trans h.lo_le
  start_le := h.start_le
  le_hi := h.le_hi.trans hhi

theorem lo_le_hi (h : s.Within V lo hi) : lo ≤ hi :=
  h.lo_le.trans (h.start_le.trans h.le_hi)

/-- From the start of a span to the end of one behind it. -/
theorem spanning (hs : s.Within V lo mid) (ht : t.Within V mid' hi) (h : mid ≤ mid') :
    (Script.spanning s t).Within V lo hi where
  start_valid := hs.start_valid
  stop_valid := ht.stop_valid
  lo_le := hs.lo_le
  start_le := hs.start_le.trans (hs.le_hi.trans (h.trans (ht.lo_le.trans ht.start_le)))
  le_hi := ht.le_hi

/-- The smallest span that encloses two. -/
theorem covering (hs : s.Within V lo hi) (ht : t.Within V lo hi) :
    (s.covering t).Within V lo hi where
  start_valid := by
    rw [start_covering]
    rcases min_choice s.start t.start with h | h <;> rw [h]
    exacts [hs.start_valid, ht.start_valid]
  stop_valid := by
    rw [stop_covering]
    rcases max_choice s.stop t.stop with h | h <;> rw [h]
    exacts [hs.stop_valid, ht.stop_valid]
  lo_le := by
    rw [start_covering]
    exact le_min hs.lo_le ht.lo_le
  start_le := by
    rw [start_covering, stop_covering]
    exact (min_le_left _ _).trans (hs.start_le.trans (le_max_left _ _))
  le_hi := by
    rw [stop_covering]
    exact max_le hs.le_hi ht.le_hi

/-- The empty span where one begins. -/
theorem spanBefore (h : s.Within V lo hi) : (Script.spanBefore s).Within V lo hi where
  start_valid := h.start_valid
  stop_valid := h.start_valid
  lo_le := h.lo_le
  start_le := le_rfl
  le_hi := h.start_le.trans h.le_hi

end Span.Within

/-! ## Pieces of syntax -/

namespace Script

/-- A piece of syntax in its place. -/
structure Mark where
  /-- The kind of its node, if it is a landmark. -/
  kind : Option NodeKind
  /-- Where it stands. -/
  span : Span
  /-- True within what no node is made of. -/
  hidden : Bool := false
  deriving DecidableEq, Repr

namespace Mark

/-- A piece that is no landmark. -/
def plain (span : Span) : Mark := ⟨none, span, false⟩

/-- A piece that is one. -/
def landmark (kind : NodeKind) (span : Span) : Mark := ⟨some kind, span, false⟩

/-- A piece within what no node is made of. -/
def hide (m : Mark) : Mark := { m with hidden := true }

/-- True for a landmark. -/
def isLandmark (m : Mark) : Bool := m.kind.isSome

@[simp] theorem span_hide (m : Mark) : m.hide.span = m.span := rfl

@[simp] theorem isLandmark_hide (m : Mark) : m.hide.isLandmark = m.isLandmark := rfl

end Mark

/-- The span of an item of a subscript, without a star in front of it. -/
def itemSpan : Expr → Span
  | .starred _ inner => inner.span
  | e => e.span

/-- The span of the index of a subscript, from its first item to its last. -/
def indexSpan (items : List Expr) : Span :=
  let first := (items.head?.map itemSpan).getD ⟨0, 0, 0, 0⟩
  let last := (items.getLast?.map itemSpan).getD first
  first.covering last

mutual

/-- The pieces of an expression; parentheses and the index of a subscript are pieces too. -/
def Expr.outline : Expr → List Mark
  | .name span _ => [.plain span]
  | .constant span _ => [.plain span]
  | .number span _ => [.plain span]
  | .string span _ => [.plain span]
  | .concatenation span pieces => .plain span :: (outlines pieces).map Mark.hide
  | .attribute span receiver _ => .landmark .attribute span :: receiver.outline
  | .call span callee arguments =>
    .landmark .call span :: (callee.outline ++ argumentOutlines arguments)
  | .subscript span receiver items =>
    .landmark .subscript span :: (receiver.outline ++ .plain (indexSpan items) :: outlines items)
  | .slice span bounds => .plain span :: outlines bounds
  | .comparison span first _ operands =>
    .landmark .compare span :: (first.outline ++ outlines operands)
  | .sequence span _ elements => .plain span :: outlines elements
  | .starred span inner => .plain span :: inner.outline
  | .lambda span parameters body => .plain span :: (parameterOutlines parameters ++ body.outline)
  | .operation span _ operands => .plain span :: outlines operands
  | .parenthesized extent inner => .plain extent :: inner.outline

/-- The pieces of several expressions. -/
def outlines : List Expr → List Mark
  | [] => []
  | e :: es => e.outline ++ outlines es

/-- The pieces of an expression that may be absent. -/
def optionOutline : Option Expr → List Mark
  | none => []
  | some e => e.outline

/-- The pieces of arguments. -/
def argumentOutlines : List Argument → List Mark
  | [] => []
  | .positional _ value :: as => value.outline ++ argumentOutlines as
  | .keyword span nameSpan _ value :: as =>
    .plain span :: .plain nameSpan :: (value.outline ++ argumentOutlines as)

/-- The pieces of parameters. -/
def parameterOutlines : List Parameter → List Mark
  | [] => []
  | .mk span _ _ hint fallback :: ps =>
    .plain span :: (optionOutline hint ++ optionOutline fallback ++ parameterOutlines ps)

end

/-- The pieces of a type parameter. -/
def TypeParameter.outline (p : TypeParameter) : List Mark :=
  .plain p.span :: (optionOutline p.bound ++ optionOutline p.fallback)

/-- The pieces of type parameters. -/
def typeParameterOutlines (ps : List TypeParameter) : List Mark :=
  ps.flatMap TypeParameter.outline

mutual

/-- The pieces of a statement. -/
def Stmt.outline : Stmt → List Mark
  | .expression span value => .plain span :: value.outline
  | .assign span targets value => .plain span :: (outlines targets ++ value.outline)
  | .annotated span target hint value =>
    .plain span :: (target.outline ++ hint.outline ++ optionOutline value)
  | .augmented span target value => .plain span :: (target.outline ++ value.outline)
  | .return span value => .plain span :: optionOutline value
  | .simple span _ operands => .plain span :: outlines operands
  | .typeAlias span name parameters value =>
    .plain span :: (name.outline ++ typeParameterOutlines parameters ++ value.outline)
  | .function span decorators _ types parameters result body =>
    .plain span :: (outlines decorators ++ (typeParameterOutlines types).map Mark.hide ++
      parameterOutlines parameters ++ optionOutline result ++ body.outline)
  | .class span decorators _ types arguments body =>
    .plain span :: (outlines decorators ++ (typeParameterOutlines types).map Mark.hide ++
      argumentOutlines arguments ++ body.outline)
  | .if span test body orelse => .plain span :: (test.outline ++ body.outline ++ orelse.outline)
  | .for span target iterable body orelse =>
    .plain span :: (target.outline ++ iterable.outline ++ body.outline ++ orelse.outline)
  | .while span test body orelse => .plain span :: (test.outline ++ body.outline ++ orelse.outline)
  | .try span body handlers orelse final =>
    .plain span :: (body.outline ++ handlerOutlines handlers ++ orelse.outline ++ final.outline)
  | .match span subject cases => .plain span :: (subject.outline ++ caseOutlines cases)
  | .with span items body => .plain span :: (outlines items ++ body.outline)

/-- The pieces of several statements. -/
def stmtOutlines : List Stmt → List Mark
  | [] => []
  | s :: ss => s.outline ++ stmtOutlines ss

/-- The pieces of a body. -/
def Block.outline : Block → List Mark
  | .mk span _ body => .plain span :: stmtOutlines body

/-- The pieces of what follows a body. -/
def Orelse.outline : Orelse → List Mark
  | .none => []
  | .chained next => next.outline
  | .clause span body => .plain span :: stmtOutlines body

/-- The pieces of handlers. -/
def handlerOutlines : List Handler → List Mark
  | [] => []
  | .mk span type body :: hs =>
    .plain span :: (optionOutline type ++ body.outline ++ handlerOutlines hs)

/-- The pieces of cases. -/
def caseOutlines : List Case → List Mark
  | [] => []
  | .mk span guard body :: cs =>
    .plain span :: (optionOutline guard ++ body.outline ++ caseOutlines cs)

end

/-- The pieces of a script. -/
def Source.outline (s : Source) : List Mark := stmtOutlines s.body

/-- The extent of an expression is the span of one of its pieces. -/
theorem Expr.extent_mem (e : Expr) : ∃ m ∈ e.outline, m.span = e.extent := by
  cases e <;> exact ⟨_, List.mem_cons_self, rfl⟩

/-- So is its span without parentheses. -/
theorem Expr.span_mem : (e : Expr) → ∃ m ∈ e.outline, m.span = e.span
  | .parenthesized extent inner => by
    obtain ⟨m, hm, heq⟩ := inner.span_mem
    exact ⟨m, List.mem_cons_of_mem _ hm, heq⟩
  | .name .. | .constant .. | .number .. | .string .. | .concatenation .. | .attribute .. | .call ..
  | .subscript .. | .slice .. | .comparison .. | .sequence .. | .starred .. | .lambda ..
  | .operation .. => ⟨_, List.mem_cons_self, rfl⟩

/-- The span of a statement is the span of one of its pieces. -/
theorem Stmt.span_mem (s : Stmt) : ∃ m ∈ s.outline, m.span = s.span := by
  cases s <;> exact ⟨_, List.mem_cons_self, rfl⟩

/-! ## Landmarks -/

/-- The spans of the landmarks of an outline. -/
def landmarkSpans (marks : List Mark) : List Span := (marks.filter Mark.isLandmark).map Mark.span

@[simp] theorem landmarkSpans_landmark (kind : NodeKind) (span : Span) (marks : List Mark) :
    landmarkSpans (.landmark kind span :: marks) = span :: landmarkSpans marks := rfl

@[simp] theorem landmarkSpans_append (ms ns : List Mark) :
    landmarkSpans (ms ++ ns) = landmarkSpans ms ++ landmarkSpans ns := by
  simp [landmarkSpans]

@[simp] theorem landmarkSpans_hide (marks : List Mark) :
    landmarkSpans (marks.map Mark.hide) = landmarkSpans marks := by
  simp [landmarkSpans, List.filter_map, Function.comp_def]

theorem exists_of_mem_landmarkSpans {marks : List Mark} {s : Span} (h : s ∈ landmarkSpans marks) :
    ∃ m ∈ marks, m.span = s := by
  obtain ⟨m, hm, rfl⟩ := List.mem_map.mp h
  exact ⟨m, (List.mem_filter.mp hm).1, rfl⟩

/-! ## Pieces in their place -/

variable {V : Pos → Prop} {lo lo' mid mid' hi hi' : Pos} {ms ns : List Mark}

/-- The pieces of an outline lie between two positions, and no two landmarks coincide. -/
structure Located (V : Pos → Prop) (lo hi : Pos) (marks : List Mark) : Prop where
  le : lo ≤ hi
  within : ∀ m ∈ marks, m.span.Within V lo hi
  strict : ∀ s ∈ landmarkSpans marks, s.start < s.stop
  distinct : (landmarkSpans marks).Nodup

namespace Located

theorem nil (h : lo ≤ hi) : Located V lo hi [] := ⟨h, nofun, nofun, List.nodup_nil⟩

theorem mono (h : Located V lo hi ms) (hlo : lo' ≤ lo) (hhi : hi ≤ hi') :
    Located V lo' hi' ms where
  le := hlo.trans (h.le.trans hhi)
  within := fun m hm => (h.within m hm).mono hlo hhi
  strict := h.strict
  distinct := h.distinct

/-- Seen from an earlier position. -/
theorem after (h : Located V lo hi ms) (hlo : lo' ≤ lo) : Located V lo' hi ms := h.mono hlo le_rfl

/-- Seen from a later position. -/
theorem before (h : Located V lo hi ms) (hhi : hi ≤ hi') : Located V lo hi' ms := h.mono le_rfl hhi

theorem plain {span : Span} (hspan : span.Within V lo hi) (h : Located V lo hi ms) :
    Located V lo hi (.plain span :: ms) where
  le := h.le
  within := List.forall_mem_cons.mpr ⟨hspan, h.within⟩
  strict := h.strict
  distinct := h.distinct

theorem of_plain {span : Span} (h : Located V lo hi (.plain span :: ms)) : Located V lo hi ms where
  le := h.le
  within := fun m hm => h.within m (List.mem_cons_of_mem _ hm)
  strict := h.strict
  distinct := h.distinct

theorem hide (h : Located V lo hi ms) : Located V lo hi (ms.map Mark.hide) where
  le := h.le
  within := by
    intro _ hmem
    obtain ⟨m, hm, rfl⟩ := List.mem_map.mp hmem
    exact h.within m hm
  strict := by simpa using h.strict
  distinct := by simpa using h.distinct

theorem span_within (h : Located V lo hi ms) {s : Span} (hs : s ∈ landmarkSpans ms) :
    s.Within V lo hi := by
  obtain ⟨m, hm, rfl⟩ := exists_of_mem_landmarkSpans hs
  exact h.within m hm

/-- Outlines that stand one behind the other. -/
theorem append (hm : Located V lo mid ms) (hn : Located V mid hi ns) :
    Located V lo hi (ms ++ ns) where
  le := hm.le.trans hn.le
  within := List.forall_mem_append.mpr
    ⟨(hm.before hn.le).within, (hn.after hm.le).within⟩
  strict := by
    rw [landmarkSpans_append]
    exact List.forall_mem_append.mpr ⟨hm.strict, hn.strict⟩
  distinct := by
    rw [landmarkSpans_append]
    refine List.nodup_append.mpr ⟨hm.distinct, hn.distinct, ?_⟩
    -- a span on both sides would be empty
    rintro s hs t ht rfl
    have hstop := (hm.span_within hs).le_hi
    have hstart := (hn.span_within ht).lo_le
    have hlt := hm.strict s hs
    order

/-- A landmark that begins with one outline and ends behind it; the other outline lies within it
    and does not begin with it. -/
theorem enclose {span : Span} (kind : NodeKind) (hm : Located V lo mid ms)
    (hn : Located V mid' hi ns) (hspan : span.Within V lo hi) (hmid : mid ≤ mid')
    (hstart : span.start ≤ mid) (hleft : mid < span.stop) (hright : span.start < mid') :
    Located V lo hi (.landmark kind span :: (ms ++ ns)) := by
  have hboth : Located V lo hi (ms ++ ns) := hm.append (hn.after hmid)
  refine ⟨hboth.le, List.forall_mem_cons.mpr ⟨hspan, hboth.within⟩, ?_, ?_⟩
  · rw [landmarkSpans_landmark]
    exact List.forall_mem_cons.mpr ⟨hstart.trans_lt hleft, hboth.strict⟩
  · rw [landmarkSpans_landmark]
    refine List.nodup_cons.mpr ⟨fun hmem => ?_, hboth.distinct⟩
    rw [landmarkSpans_append] at hmem
    rcases List.mem_append.mp hmem with hs | hs
    · exact absurd (hm.span_within hs).le_hi hleft.not_ge
    · exact absurd (hn.span_within hs).lo_le hright.not_ge

end Located

/-- An expression in its place. -/
def Expr.Lies (V : Pos → Prop) (lo hi : Pos) (e : Expr) : Prop := Located V lo hi e.outline

/-- A statement in its place. -/
def Stmt.Lies (V : Pos → Prop) (lo hi : Pos) (s : Stmt) : Prop := Located V lo hi s.outline

theorem Expr.Lies.extent {e : Expr} (h : e.Lies V lo hi) : e.extent.Within V lo hi := by
  obtain ⟨m, hm, heq⟩ := e.extent_mem
  exact heq ▸ h.within m hm

theorem Expr.Lies.span {e : Expr} (h : e.Lies V lo hi) : e.span.Within V lo hi := by
  obtain ⟨m, hm, heq⟩ := e.span_mem
  exact heq ▸ h.within m hm

theorem Stmt.Lies.span {s : Stmt} (h : s.Lies V lo hi) : s.span.Within V lo hi := by
  obtain ⟨m, hm, heq⟩ := s.span_mem
  exact heq ▸ h.within m hm

/-! ## Pieces one after the other -/

/-- The members of a list stand one behind the other, each in its place. -/
def Chain {α : Type} (Q : Pos → Pos → α → Prop) : (lo hi : Pos) → List α → Prop
  | lo, hi, [] => lo ≤ hi
  | lo, hi, a :: as => ∃ start stop, lo ≤ start ∧ start ≤ stop ∧ Q start stop a ∧ Chain Q stop hi as

namespace Chain

variable {α β : Type} {Q : Pos → Pos → α → Prop} {R : Pos → Pos → β → Prop} {a : α} {as bs : List α}

theorem nil (h : lo ≤ hi) : Chain Q lo hi [] := h

theorem cons (hle : lo ≤ mid) (ha : Q lo mid a) (has : Chain Q mid hi as) :
    Chain Q lo hi (a :: as) := ⟨lo, mid, le_rfl, hle, ha, has⟩

theorem single (hle : lo ≤ hi) (ha : Q lo hi a) : Chain Q lo hi [a] := .cons hle ha (.nil le_rfl)

theorem le (h : Chain Q lo hi as) : lo ≤ hi := by
  induction as generalizing lo with
  | nil => exact h
  | cons a as ih =>
    obtain ⟨start, stop, hlo, hle, -, has⟩ := h
    exact hlo.trans (hle.trans (ih has))

/-- Seen from an earlier position. -/
theorem after (h : Chain Q lo hi as) (hlo : lo' ≤ lo) : Chain Q lo' hi as := by
  cases as with
  | nil => exact hlo.trans h
  | cons a as =>
    obtain ⟨start, stop, hstart, hle, ha, has⟩ := h
    exact ⟨start, stop, hlo.trans hstart, hle, ha, has⟩

theorem append (has : Chain Q lo mid as) (hbs : Chain Q mid hi bs) :
    Chain Q lo hi (as ++ bs) := by
  induction as generalizing lo with
  | nil => exact hbs.after has
  | cons a as ih =>
    obtain ⟨start, stop, hstart, hle, ha, has⟩ := has
    exact ⟨start, stop, hstart, hle, ha, ih has⟩

/-- Seen from a later position. -/
theorem before (h : Chain Q lo hi as) (hhi : hi ≤ hi') : Chain Q lo hi' as := by
  rw [← List.append_nil as]
  exact h.append (.nil hhi)

theorem map {f : α → β} (hf : ∀ lo hi a, Q lo hi a → R lo hi (f a)) (h : Chain Q lo hi as) :
    Chain R lo hi (as.map f) := by
  induction as generalizing lo with
  | nil => exact h
  | cons a as ih =>
    obtain ⟨start, stop, hstart, hle, ha, has⟩ := h
    exact ⟨start, stop, hstart, hle, hf start stop a ha, ih has⟩

/-- Chains that stand one behind the other form a chain. -/
theorem flatten {ass : List (List α)} (h : Chain (Chain Q) lo hi ass) :
    Chain Q lo hi ass.flatten := by
  induction ass generalizing lo with
  | nil => exact h
  | cons as ass ih =>
    obtain ⟨start, stop, hstart, -, has, hass⟩ := h
    exact (has.after hstart).append (ih hass)

theorem mem (h : Chain Q lo hi as) (ha : a ∈ as) :
    ∃ start stop, lo ≤ start ∧ Q start stop a ∧ stop ≤ hi := by
  induction as generalizing lo with
  | nil => cases ha
  | cons b as ih =>
    obtain ⟨start, stop, hstart, hle, hb, has⟩ := h
    rcases List.mem_cons.mp ha with rfl | ha
    · exact ⟨start, stop, hstart, hb, has.le⟩
    · obtain ⟨start', stop', hstart', ha, hstop'⟩ := ih has ha
      exact ⟨start', stop', hstart.trans (hle.trans hstart'), ha, hstop'⟩

section Spans

variable {f : α → Span} {s : Span}

/-- From a span to the last of those behind it, or to its own end. -/
theorem spanning_last (hf : ∀ lo hi a, Q lo hi a → (f a).Within V lo hi) (hs : s.Within V lo mid)
    (h : Chain Q mid hi as) : (spanning s ((as.getLast?.map f).getD s)).Within V lo hi := by
  cases hlast : as.getLast? with
  | none =>
    have hself : (spanning s s).Within V lo mid := ⟨hs.1, hs.2, hs.3, hs.4, hs.5⟩
    exact hself.mono le_rfl h.le
  | some last =>
    obtain ⟨start, stop, hstart, hq, hstop⟩ := h.mem (List.mem_of_getLast? hlast)
    have hin := hf start stop last hq
    exact (hs.spanning hin hstart).mono le_rfl hstop

/-- The last of the spans behind one, or that one. -/
theorem last_within (hf : ∀ lo hi a, Q lo hi a → (f a).Within V lo hi) (hs : s.Within V lo mid)
    (h : Chain Q mid hi as) : ((as.getLast?.map f).getD s).Within V lo hi := by
  cases hlast : as.getLast? with
  | none => exact hs.mono le_rfl h.le
  | some last =>
    obtain ⟨start, stop, hstart, hq, hstop⟩ := h.mem (List.mem_of_getLast? hlast)
    exact (hf start stop last hq).mono (hs.lo_le_hi.trans hstart) hstop

end Spans

/-- The outline of a list is located if it is put together from those of the members. -/
theorem located {f : List α → List Mark} (hnil : f [] = [])
    (hcons : ∀ a as, f (a :: as) = f [a] ++ f as)
    (hq : ∀ lo hi a, Q lo hi a → Located V lo hi (f [a])) (h : Chain Q lo hi as) :
    Located V lo hi (f as) := by
  induction as generalizing lo with
  | nil =>
    rw [hnil]
    exact .nil h
  | cons a as ih =>
    obtain ⟨start, stop, hstart, -, ha, has⟩ := h
    rw [hcons]
    exact ((hq start stop a ha).after hstart).append (ih has)

end Chain

end Script

end Framewise
