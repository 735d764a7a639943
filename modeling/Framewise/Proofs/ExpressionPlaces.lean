import Framewise.Proofs.Reading

/-! # Places of expressions

  The grammar of expressions keeps places: from tokens in order, every parser of
  expressions makes expressions whose pieces lie where the tokens lie that it took.
  There is one lemma for each parser of the grammar, in the order of the grammar;
  what is nested is an assumption until `nested` ties the knot.

  Main definition: `Nested.Reads`, what is assumed of the parsers of nested expressions.

  Main result: `nested_reads`.
-/

namespace Framewise.Script

open Parse

variable {V : Pos → Prop} {lo mid mid' hi : Pos}

/-! ## Expressions from their parts -/

theorem outlines_single (e : Expr) : outlines [e] = e.outline := by
  rw [outlines, outlines, List.append_nil]

theorem Chain.exprs {es : List Expr} (h : Chain (Expr.Lies V) lo hi es) :
    Located V lo hi (outlines es) :=
  h.located rfl (fun e es => by rw [outlines, outlines_single])
    fun lo hi e he => (outlines_single e).symm ▸ he

/-- An expression that may be absent, in its place. -/
structure OptionLies (V : Pos → Prop) (lo hi : Pos) (e : Option Expr) : Prop where
  le : lo ≤ hi
  lies : ∀ a ∈ e, a.Lies V lo hi

theorem OptionLies.none (h : lo ≤ hi) : OptionLies V lo hi none := ⟨h, nofun⟩

theorem OptionLies.some {e : Expr} (h : e.Lies V lo hi) : OptionLies V lo hi (some e) := by
  refine ⟨Located.le h, ?_⟩
  rintro _ ⟨⟩
  exact h

theorem OptionLies.after {lo' : Pos} {e : Option Expr} (h : OptionLies V lo hi e) (hlo : lo' ≤ lo) :
    OptionLies V lo' hi e :=
  ⟨hlo.trans h.le, fun a ha => Located.after (h.lies a ha) hlo⟩

theorem OptionLies.chain {e : Option Expr} (h : OptionLies V lo hi e) :
    Chain (Expr.Lies V) lo hi e.toList := by
  cases e with
  | none => exact .nil h.le
  | some e => exact .single h.le (h.lies e rfl)

theorem OptionLies.located {e : Option Expr} (h : OptionLies V lo hi e) :
    Located V lo hi (optionOutline e) := by
  cases e with
  | none => exact .nil h.le
  | some e => exact h.lies e rfl

/-- From a span to the end of an expression behind it, if there is one. -/
theorem OptionLies.spanning {s : Span} {e : Option Expr} (h : OptionLies V mid hi e)
    (hs : s.Within V lo mid) : (spanning s ((e.map Expr.extent).getD s)).Within V lo hi := by
  have hlast := Chain.spanning_last (fun _ _ _ h => Expr.Lies.extent h) hs h.chain
  cases e <;> exact hlast

theorem lastExtent_cons (s : Span) (e : Expr) (es : List Expr) :
    lastExtent s (e :: es) = lastExtent e.extent es := by
  unfold lastExtent
  cases hlast : es.getLast? with
  | none =>
    rw [List.getLast?_eq_none_iff] at hlast
    subst hlast
    rfl
  | some last => simp [List.getLast?_cons, hlast]

namespace Expr.Lies

variable {e : Expr} {es : List Expr} {span : Span}

theorem mono {lo' hi' : Pos} (h : e.Lies V lo hi) (hlo : lo' ≤ lo) (hhi : hi ≤ hi') :
    e.Lies V lo' hi' := Located.mono h hlo hhi

theorem after {lo' : Pos} (h : e.Lies V lo hi) (hlo : lo' ≤ lo) : e.Lies V lo' hi :=
  Located.after h hlo

theorem le (h : e.Lies V lo hi) : lo ≤ hi := Located.le h

theorem chain (h : e.Lies V lo hi) : Chain (Expr.Lies V) lo hi [e] := .single h.le h

theorem leaf (h : span.Within V lo hi) : Located V lo hi [.plain span] :=
  .plain h (.nil h.lo_le_hi)

/-- An expression of which only its span and its operands matter. -/
theorem node (hspan : span.Within V lo hi) (h : Chain (Expr.Lies V) lo hi es) :
    Located V lo hi (.plain span :: outlines es) := .plain hspan h.exprs

theorem starred (hspan : span.Within V lo hi) (h : e.Lies V lo hi) :
    (Expr.starred span e).Lies V lo hi := .plain hspan h

theorem parenthesized (hspan : span.Within V lo hi) (h : e.Lies V lo hi) :
    (Expr.parenthesized span e).Lies V lo hi := .plain hspan h

theorem concatenation (hspan : span.Within V lo hi) (h : Chain (Expr.Lies V) lo hi es) :
    (Expr.concatenation span es).Lies V lo hi := .plain hspan h.exprs.hide

/-- From the start of an expression to a token behind it. -/
theorem extent_token {t : Token} (h : e.Lies V lo mid) (ht : t.Lies V mid' hi) (hle : mid ≤ mid') :
    (spanning e.extent t.span).Within V lo hi := h.extent.spanning ht.within hle

/-- A landmark that begins with an expression and ends with a token behind it; what stands between
    the two comes behind a token of its own. -/
theorem enclosed {ms : List Mark} {mid'' : Pos} {t : Token} (kind : NodeKind) (h : e.Lies V lo mid)
    (hgap : mid < mid') (hms : Located V mid' mid'' ms) (ht : t.Lies V mid'' hi) :
    Located V lo hi (.landmark kind (spanning e.extent t.span) :: (e.outline ++ ms)) := by
  have hspan := h.extent_token ht (hgap.le.trans hms.le)
  have hstart : e.extent.start ≤ mid := h.extent.start_le.trans h.extent.le_hi
  have hstop : mid < t.span.stop :=
    hgap.trans_le (hms.le.trans (ht.within.lo_le.trans ht.within.start_le))
  exact .enclose kind h (hms.before ht.lt.le) hspan hgap.le hstart hstop (hstart.trans_lt hgap)

theorem attributed {t : Token} (name : String) (h : e.Lies V lo mid) (hgap : mid < mid')
    (ht : t.Lies V mid' hi) : (Expr.attribute (spanning e.extent t.span) e name).Lies V lo hi := by
  have henclosed := h.enclosed .attribute hgap (.nil le_rfl) ht
  rwa [List.append_nil] at henclosed

theorem compared {signs : List String} (h : e.Lies V lo mid) (hgap : mid < mid')
    (hes : Chain (Expr.Lies V) mid' hi es) (hne : es ≠ []) :
    (Expr.comparison (spanning e.extent (lastExtent e.extent es)) e signs es).Lies V lo hi := by
  have hstart : e.extent.start ≤ mid := h.extent.start_le.trans h.extent.le_hi
  have hspan : (spanning e.extent (lastExtent e.extent es)).Within V lo hi :=
    Chain.spanning_last (fun _ _ _ h => extent h) h.extent (hes.after hgap.le)
  have hstop : mid < (lastExtent e.extent es).stop := by
    obtain ⟨last, hlast⟩ := List.getLast?_isSome.mpr hne |> Option.isSome_iff_exists.mp
    obtain ⟨start, stop, hle, hin, -⟩ := hes.mem (List.mem_of_getLast? hlast)
    have hlt : mid < last.extent.stop :=
      hgap.trans_le (hle.trans (hin.extent.lo_le.trans hin.extent.start_le))
    simpa [lastExtent, hlast] using hlt
  exact .enclose .compare h hes.exprs hspan hgap.le hstart hstop (hstart.trans_lt hgap)

end Expr.Lies

/-- An argument in its place. -/
def Argument.Lies (V : Pos → Prop) (lo hi : Pos) (a : Argument) : Prop :=
  Located V lo hi (argumentOutlines [a])

namespace Argument.Lies

variable {e : Expr} {stars : Stars}

theorem positional (h : e.Lies V lo hi) : (Argument.positional stars e).Lies V lo hi := by
  unfold Lies
  rw [argumentOutlines, argumentOutlines, List.append_nil]
  exact h

theorem value (h : (Argument.positional stars e).Lies V lo hi) : e.Lies V lo hi := by
  unfold Lies at h
  rw [argumentOutlines, argumentOutlines, List.append_nil] at h
  exact h

theorem keyword {name : Token} (hname : name.Lies V lo mid) (h : e.Lies V mid hi) :
    (Argument.keyword (spanning name.span e.extent) name.span name.text e).Lies V lo hi := by
  unfold Lies
  rw [argumentOutlines, argumentOutlines, List.append_nil]
  have hspan := hname.within.spanning h.extent le_rfl
  exact .plain hspan (.plain (hname.within.mono le_rfl h.le) (h.after hname.lt.le))

end Argument.Lies

theorem Chain.arguments {as : List Argument} (h : Chain (Argument.Lies V) lo hi as) :
    Located V lo hi (argumentOutlines as) := by
  refine h.located rfl (fun a as => ?_) fun _ _ _ ha => ha
  cases a <;> simp [argumentOutlines]

/-- A parameter in its place. -/
def Parameter.Lies (V : Pos → Prop) (lo hi : Pos) (p : Parameter) : Prop :=
  Located V lo hi (parameterOutlines [p])

theorem Parameter.Lies.mk {span : Span} {stars : Stars} {name : String}
    {hint fallback : Option Expr} (hspan : span.Within V lo mid)
    (hhint : OptionLies V mid mid' hint) (hfallback : OptionLies V mid' hi fallback) :
    (Parameter.mk span stars name hint fallback).Lies V lo hi := by
  unfold Lies
  rw [parameterOutlines, parameterOutlines, List.append_nil]
  have hparts := hhint.located.append hfallback.located
  exact .plain (hspan.mono le_rfl hparts.le) (hparts.after hspan.lo_le_hi)

theorem Chain.parameters {ps : List Parameter} (h : Chain (Parameter.Lies V) lo hi ps) :
    Located V lo hi (parameterOutlines ps) := by
  refine h.located rfl (fun p ps => ?_) fun _ _ _ hp => hp
  cases p
  simp [parameterOutlines]

/-! ## Optional parts -/

theorem reads_some {p : Parse Expr} (h : Reads V lo p (Expr.Lies V lo)) :
    Reads V lo (some <$> p) (OptionLies V lo) := h.map fun _ _ _ he => .some he

theorem reads_option {p : Parse Expr} (h : Reads V lo p (Expr.Lies V lo)) :
    Reads V lo (attempt p) (OptionLies V lo) := h.attempt.mono fun _ _ hle he => ⟨hle, he⟩

/-- The last bracket of several expressions, and what it closes. -/
theorem reads_closing {opening : Token} {es : List Expr} (text : String) (make : Span → Expr)
    (hmake : ∀ span, (make span).outline = .plain span :: outlines es)
    (hopening : opening.Lies V lo mid) (hes : Chain (Expr.Lies V) mid mid' es) :
    Reads V mid' (operator text >>= fun closing =>
      pure (make (spanning opening.span closing.span))) (Expr.Lies V lo) := by
  refine (reads_operator text mid').bind fun hi closing hhi hclosing => .pure ?_
  unfold Expr.Lies
  rw [hmake]
  exact Expr.Lies.node (hopening.within.spanning hclosing.within hes.le)
    ((hes.after hopening.lt.le).before hhi)

/-! ## Assumptions on what is nested -/

/-- A parser of expressions that keeps places. -/
def ReadsExpr (V : Pos → Prop) (p : Parse Expr) : Prop := ∀ lo, Reads V lo p (Expr.Lies V lo)

/-- A parser of several expressions that keeps places. -/
def ReadsExprs (V : Pos → Prop) (p : Parse (List Expr)) : Prop :=
  ∀ lo, Reads V lo p (Chain (Expr.Lies V) lo)

/-- The parsers of what is nested keep places. -/
structure Nested.KeepsPlaces (V : Pos → Prop) (n : Nested) : Prop where
  expression : ReadsExpr V n.expression
  disjunction : ReadsExpr V n.disjunction
  inversion : ReadsExpr V n.inversion
  bitwiseOr : ReadsExpr V n.bitwiseOr
  factor : ReadsExpr V n.factor
  primary : ReadsExpr V n.primary
  replacement : ReadsExprs V n.replacement

section Grammar

theorem looks_seesKeyword : Looks seesKeyword := by
  intro ts a rest heq
  unfold seesKeyword at heq
  split at heq <;> (cases heq; rfl)

variable {n : Nested} (hn : n.KeepsPlaces V)
include hn

/-! ## Lists of expressions -/

theorem reads_namedExpression : ReadsExpr V (namedExpression n) := by
  intro lo ts e rest hts heq
  unfold namedExpression at heq
  split at heq
  next name walrus ts' =>
    by_cases hwalrus : (name.kind = .word && !keywords.contains name.text &&
        walrus.isOperator ":=") = true
    · -- a name that is bound here
      rw [if_pos hwalrus] at heq
      obtain ⟨⟨value, rest'⟩, hvalue, heq⟩ := Option.map_eq_some_iff.mp heq
      cases heq
      have hword : name.kind = .word := by simp_all
      have hoperator : walrus.kind = .operator := by simp_all [Token.isOperator]
      obtain ⟨hname, hts⟩ := hts.placed (name.isPlaced_of_word hword)
      obtain ⟨hwal, hts⟩ := hts.placed (walrus.isPlaced_of_operator hoperator)
      obtain ⟨hi, hhi, hrest, hv⟩ := hn.expression _ ts' value rest hts hvalue
      have hnamed : (Expr.name name.span name.text).Lies V lo name.span.stop :=
        .leaf hname.within
      have hvalue := hv.after hwal.lt.le
      refine ⟨hi, hname.lt.le.trans (hwal.lt.le.trans hhi), hrest, ?_⟩
      exact .node (hname.within.spanning hvalue.extent le_rfl)
        (.cons hnamed.le hnamed hvalue.chain)
    · rw [if_neg hwalrus] at heq
      exact hn.expression lo _ e rest hts heq
  next => exact hn.expression lo _ e rest hts heq

omit hn in
theorem reads_starredBy {inner : Parse Expr} (h : ReadsExpr V inner) :
    ReadsExpr V (starredBy inner) := by
  intro lo
  refine (reads_operator "*" lo).bind fun mid star hmid hstar => ?_
  refine (h mid).bind fun hi e hhi he => .pure ?_
  exact .starred (hstar.within.spanning he.extent le_rfl) (he.after hmid)

theorem reads_starExpression : ReadsExpr V (starExpression n) := fun lo =>
  .sees_bind fun _ => .ite (fun _ => reads_starredBy hn.bitwiseOr lo) fun _ => hn.expression lo

theorem reads_starNamedExpression : ReadsExpr V (starNamedExpression n) := fun lo =>
  .sees_bind fun _ =>
    .ite (fun _ => reads_starredBy hn.bitwiseOr lo) fun _ => reads_namedExpression hn lo

omit hn in
theorem tupleOf_lies {es : List Expr} {comma : Option Token}
    (h : Series V (Expr.Lies V) lo hi es comma) : (tupleOf es comma).Lies V lo hi := by
  obtain ⟨hne, mid, hmid, hes, hcomma⟩ := h
  cases es with
  | nil => exact absurd rfl hne
  | cons e es =>
    obtain ⟨start, stop, hstart, hle, he, hrest⟩ := hes
    have hlast : (spanning e.extent (lastExtent e.extent es)).Within V lo mid :=
      (Chain.spanning_last (fun _ _ _ h => Expr.Lies.extent h) he.extent hrest).mono hstart le_rfl
    have hall : Chain (Expr.Lies V) lo hi (e :: es) :=
      Chain.before ⟨start, stop, hstart, hle, he, hrest⟩ hmid
    cases comma with
    | some t =>
      -- a comma at the end belongs to the tuple
      have hspan : (spanning e.extent t.span).Within V lo hi :=
        (he.after hstart).extent_token (hcomma t rfl) hrest.le
      have htuple : tupleOf (e :: es) (some t) =
          .sequence (spanning e.extent t.span) .tuple (e :: es) := by cases es <;> rfl
      rw [htuple]
      exact .node hspan hall
    | none =>
      cases es with
      | nil => exact he.mono hstart (hrest.le.trans hmid)
      | cons e' es =>
        have hspan : (spanning e.extent (lastExtent e.extent (e :: e' :: es))).Within V lo hi := by
          rw [lastExtent_cons]
          exact hlast.mono le_rfl hmid
        exact .node hspan hall

theorem reads_starExpressions : ReadsExpr V (starExpressions n) := by
  intro lo
  refine (reads_commaList (reads_starExpression hn) lo).bind fun hi items _ hitems => ?_
  exact .pure (tupleOf_lies hitems)

theorem reads_yieldExpression : ReadsExpr V (yieldExpression n) := by
  intro lo
  refine (reads_word "yield" lo).bind fun mid keyword hmid hkeyword => ?_
  have hdone : ∀ hi value, OptionLies V mid hi value →
      (Expr.operation (spanning keyword.span ((value.map Expr.extent).getD keyword.span)) .yield
        value.toList).Lies V lo hi := fun hi value hvalue =>
    .node (hvalue.spanning hkeyword.within) (hvalue.chain.after hmid)
  refine .sees_bind fun _ => .ite (fun _ => ?_) fun _ => ?_
  · refine (reads_word "from" mid).bind fun mid' _ hmid' _ => ?_
    refine (reads_some (hn.expression mid')).bind fun hi value _ hvalue => ?_
    exact .pure (hdone hi value (hvalue.after hmid'))
  · refine (reads_option (reads_starExpressions hn mid)).bind fun hi value hhi hvalue => ?_
    exact .pure (hdone hi value hvalue)

theorem reads_yieldOrExpressions : ReadsExpr V (yieldOrExpressions n) := fun lo =>
  .sees_bind fun _ =>
    .ite (fun _ => reads_yieldExpression hn lo) fun _ => reads_starExpressions hn lo

/-! ## Comprehensions -/

theorem reads_starTarget : ReadsExpr V (starTarget n) := by
  intro lo
  refine .sees_bind fun _ => .ite (fun _ => ?_) fun _ => ?_
  · refine (reads_starredBy hn.primary lo).bind fun hi e _ he => ?_
    exact .require_bind fun _ => .pure he
  · refine (hn.primary lo).bind fun hi e _ he => ?_
    exact .require_bind fun _ => .pure he

theorem reads_starTargets : ReadsExpr V (starTargets n) := by
  intro lo
  refine (reads_commaList (reads_starTarget hn) lo).bind fun hi items _ hitems => ?_
  exact .pure (tupleOf_lies hitems)

theorem reads_comprehensionClause : ReadsExprs V (comprehensionClause n) := by
  intro lo
  refine ((passes_satisfy _).attempt lo).bind fun _ _ hasync _ => ?_
  refine (reads_word "for" _).bind fun _ _ hfor _ => ?_
  refine (reads_starTargets hn _).bind fun mid target htarget target_lies => ?_
  refine (reads_word "in" _).bind fun _ _ hin _ => ?_
  refine (hn.disjunction _).bind fun _ iterable _ iterable_lies => ?_
  refine (reads_many_behind (passes_satisfy _) hn.disjunction _).bind fun hi cs _ hcs => ?_
  refine .pure (Chain.after ?_ (hasync.trans hfor))
  exact .cons htarget target_lies (.cons (hin.trans iterable_lies.le)
    (iterable_lies.after hin) hcs)

theorem reads_comprehensionClauses : ReadsExprs V (comprehensionClauses n) := fun lo =>
  (reads_many1 (reads_comprehensionClause hn) lo).map fun _ _ _ h => h.1.flatten

theorem reads_generatorOf {element : Expr} (helement : element.Lies V lo mid) :
    Reads V mid (generatorOf n element) (Expr.Lies V lo) := by
  refine (reads_comprehensionClauses hn mid).bind fun hi clauses _ hclauses => .pure ?_
  have hspan := Chain.spanning_last (fun _ _ _ h => Expr.Lies.extent h) helement.extent hclauses
  exact .node hspan (.cons helement.le helement hclauses)

/-! ## Brackets -/

theorem reads_parentheses : ReadsExpr V (parentheses n) := by
  intro lo
  refine (reads_operator "(" lo).bind fun mid opening hmid hopening => ?_
  have hwrap : ∀ mid' inner, inner.Lies V mid mid' → Reads V mid'
      (operator ")" >>= fun closing =>
        pure (.parenthesized (spanning opening.span closing.span) inner)) (Expr.Lies V lo) := by
    intro mid' inner hinner
    refine (reads_operator ")" mid').bind fun hi closing hhi hclosing => .pure ?_
    exact .parenthesized (hopening.within.spanning hclosing.within hinner.le) (hinner.mono hmid hhi)
  refine .sees_bind fun _ => .ite (fun _ => ?_) fun _ => .sees_bind fun _ => .ite (fun _ => ?_)
    fun _ => ?_
  · -- the empty tuple stands right before the closing parenthesis
    refine (reads_operator ")" mid).bind fun hi closing hhi hclosing => .pure ?_
    refine .parenthesized (hopening.within.spanning hclosing.within le_rfl) ?_
    exact .node (hclosing.within.spanBefore.mono hmid le_rfl) (.nil (hmid.trans hhi))
  · exact (reads_yieldExpression hn mid).bind fun mid' e _ he => hwrap mid' e he
  · refine (reads_starNamedExpression hn mid).bind fun _ first _ hfirst => ?_
    refine .sees_bind fun _ => .ite (fun _ => .require_bind fun _ => ?_) fun _ => ?_
    · -- a generator
      exact (reads_generatorOf hn hfirst).bind fun mid' e _ he => hwrap mid' e he
    · -- one expression, or a tuple
      refine (reads_many_behind (passes_satisfy _) (reads_starNamedExpression hn) _).bind
        fun stop others _ hothers => ?_
      refine (reads_comma stop).bind fun mid' comma hmid' hcomma => .require_bind fun _ => ?_
      refine hwrap mid' _ (tupleOf_lies ⟨nofun, stop, hmid', ?_, hcomma⟩)
      exact .cons hfirst.le hfirst hothers

theorem reads_squareBrackets : ReadsExpr V (squareBrackets n) := by
  intro lo
  refine (reads_operator "[" lo).bind fun mid opening hmid hopening => ?_
  refine .sees_bind fun _ => .ite (fun _ => ?_) fun _ => ?_
  · exact reads_closing "]" (.sequence · .list []) (fun _ => rfl) hopening (.nil le_rfl)
  · refine (reads_starNamedExpression hn mid).bind fun _ first _ hfirst => ?_
    refine .sees_bind fun _ => .ite (fun _ => .require_bind fun _ => ?_) fun _ => ?_
    · -- a comprehension
      refine (reads_comprehensionClauses hn _).bind fun _ clauses _ hclauses => ?_
      exact reads_closing "]" (.operation · .listComprehension (first :: clauses)) (fun _ => rfl)
        hopening (.cons hfirst.le hfirst hclauses)
    · -- a list of elements
      refine (reads_many_behind (passes_satisfy _) (reads_starNamedExpression hn) _).bind
        fun _ others _ hothers => ?_
      refine (reads_comma _).bind fun mid' _ hcomma _ => ?_
      have helements := (Chain.cons hfirst.le hfirst hothers).before hcomma
      exact reads_closing "]" (.sequence · .list (first :: others)) (fun _ => rfl) hopening
        helements

theorem reads_keyValue : ReadsExprs V (keyValue n) := by
  intro lo
  refine (hn.expression lo).bind fun _ key _ hkey => ?_
  refine (reads_operator ":" _).bind fun _ _ hcolon _ => ?_
  refine (hn.expression _).bind fun hi value _ hvalue => .pure ?_
  exact .cons hkey.le hkey (hvalue.after hcolon).chain

theorem reads_dictEntry : ReadsExprs V (dictEntry n) := by
  intro lo
  refine .sees_bind fun _ => .ite (fun _ => ?_) fun _ => reads_keyValue hn lo
  refine (reads_operator "**" lo).bind fun _ _ hstars _ => ?_
  refine (hn.bitwiseOr _).bind fun hi e _ he => .pure ?_
  exact (he.after hstars).chain

theorem reads_dictRest {opening : Token} {first : List Expr} (hopening : opening.Lies V lo mid)
    (hfirst : Chain (Expr.Lies V) mid mid' first) :
    Reads V mid' (dictRest n opening first) (Expr.Lies V lo) := by
  refine (reads_many_behind (passes_satisfy _) (reads_dictEntry hn) mid').bind
    fun _ others _ hothers => ?_
  refine (reads_comma _).bind fun _ _ hcomma _ => ?_
  exact reads_closing "\x7d" (.operation · .dict (first ++ others.flatten)) (fun _ => rfl) hopening
    ((hfirst.append hothers.flatten).before hcomma)

theorem reads_setRest {opening : Token} {first : Expr} (hopening : opening.Lies V lo mid)
    (hfirst : first.Lies V mid mid') :
    Reads V mid' (setRest n opening first) (Expr.Lies V lo) := by
  refine (reads_many_behind (passes_satisfy _) (reads_starNamedExpression hn) mid').bind
    fun _ others _ hothers => ?_
  refine (reads_comma _).bind fun _ _ hcomma _ => ?_
  exact reads_closing "\x7d" (.sequence · .set (first :: others)) (fun _ => rfl) hopening
    ((Chain.cons hfirst.le hfirst hothers).before hcomma)

theorem reads_braceComprehension {opening : Token} (kind : OperationKind) {first : List Expr}
    (hopening : opening.Lies V lo mid) (hfirst : Chain (Expr.Lies V) mid mid' first) :
    Reads V mid' (braceComprehension n opening kind first) (Expr.Lies V lo) := by
  refine (reads_comprehensionClauses hn mid').bind fun _ clauses _ hclauses => ?_
  exact reads_closing "\x7d" (.operation · kind (first ++ clauses)) (fun _ => rfl) hopening
    (hfirst.append hclauses)

theorem reads_braces : ReadsExpr V (braces n) := by
  intro lo
  refine (reads_operator "\x7b" lo).bind fun mid opening hmid hopening => ?_
  refine .sees_bind fun _ => .ite (fun _ => ?_) fun _ => .sees_bind fun _ => .ite (fun _ => ?_)
    fun _ => ?_
  · -- nothing in them
    exact reads_closing "\x7d" (.operation · .dict []) (fun _ => rfl) hopening (.nil le_rfl)
  · -- another dict is unpacked
    exact (reads_dictEntry hn mid).bind fun _ first _ hfirst => reads_dictRest hn hopening hfirst
  · refine (reads_starNamedExpression hn mid).bind fun _ first _ hfirst => ?_
    refine .sees_bind fun _ => .ite (fun _ => .require_bind fun _ => ?_) fun _ => ?_
    · -- a colon shows that the first expression is a key
      refine (reads_operator ":" _).bind fun _ _ hcolon _ => ?_
      refine (hn.expression _).bind fun _ value _ hvalue => ?_
      have hpair := Chain.cons hfirst.le hfirst (hvalue.after hcolon).chain
      exact .sees_bind fun _ => .ite (fun _ => reads_braceComprehension hn _ hopening hpair)
        fun _ => reads_dictRest hn hopening hpair
    · refine .sees_bind fun _ => .ite (fun _ => .require_bind fun _ => ?_) fun _ => ?_
      · -- a set, by comprehension
        exact reads_braceComprehension hn _ hopening hfirst.chain
      · -- a set, element by element
        exact reads_setRest hn hopening hfirst

/-! ## Strings -/

omit hn in
/-- Parts of a formatted string: stretches of text, which give nothing, and replacements. -/
theorem reads_formatParts {p : Parse (List Expr)} (hp : ReadsExprs V p) (lo : Pos) :
    Reads V lo (many (do
      if ← sees fun t => t.kind = .formatText then
        let _ ← ofKind .formatText
        return []
      else p)) fun hi parts => Chain (Expr.Lies V) lo hi parts.flatten := by
  refine (reads_many (fun lo => ?_) lo).mono fun _ _ _ h => h.flatten
  refine .sees_bind fun _ => .ite (fun _ => ?_) fun _ => hp lo
  exact (passes_satisfy _ lo).bind fun _ _ hle _ => .pure (.nil hle)

theorem reads_replacement : ReadsExprs V (replacement n) := by
  intro lo
  refine (reads_operator "\x7b" lo).bind fun _ _ hopening _ => ?_
  refine (reads_yieldOrExpressions hn _).bind fun mid e _ he => ?_
  have hdone : ∀ stop format, Chain (Expr.Lies V) mid stop format → Reads V stop
      (operator "\x7d" >>= fun _ => pure (e :: format)) (Chain (Expr.Lies V) lo) := by
    intro stop format hformat
    refine (reads_operator "\x7d" stop).bind fun _ _ hclosing _ => .pure ?_
    exact ((Chain.cons he.le he hformat).after hopening).before hclosing
  refine ((passes_satisfy _).attempt mid).bind fun _ _ hequals _ => ?_
  refine .sees_bind fun _ =>
    .optional_bind (passes_satisfy _) (passes_satisfy _) fun _ hconversion => ?_
  refine .sees_bind fun _ => .ite (fun _ => ?_) fun _ => ?_
  · -- what stands in the format is read like the string itself
    refine (reads_operator ":" _).bind fun _ _ hcolon _ => ?_
    refine ((reads_formatParts hn.replacement _).map fun _ _ _ h => h).bind
      fun stop format _ hformat => ?_
    exact hdone stop format (hformat.after (hequals.trans (hconversion.trans hcolon)))
  · exact hdone _ [] (.nil (hequals.trans hconversion))

/-- A single string has no parentheses around it. -/
theorem reads_formattedString (lo : Pos) :
    Reads V lo (formattedString n) fun hi e => e.Lies V lo hi ∧ e.extent = e.span := by
  refine (reads_ofKind rfl lo).bind fun mid opening _ hopening => ?_
  refine (reads_formatParts (reads_replacement hn) mid).bind fun mid' parts _ hparts => ?_
  refine (reads_ofKind rfl mid').bind fun hi closing hhi hclosing => .pure ⟨?_, rfl⟩
  exact .node (hopening.within.spanning hclosing.within hparts.le)
    ((hparts.after hopening.lt.le).before hhi)

theorem reads_stringPiece (lo : Pos) :
    Reads V lo (stringPiece n) fun hi e => e.Lies V lo hi ∧ e.extent = e.span := by
  refine .sees_bind fun _ => .ite (fun _ => ?_) fun _ => reads_formattedString hn lo
  exact (reads_ofKind rfl lo).bind fun hi t _ ht => .pure ⟨.leaf ht.within, rfl⟩

theorem reads_strings : ReadsExpr V (strings n) := by
  intro lo
  refine (reads_stringPiece hn lo).bind fun mid first _ hfirst => ?_
  obtain ⟨hfirst, hextent⟩ := hfirst
  have hpiece : ReadsExpr V (stringPiece n) := fun lo =>
    (reads_stringPiece hn lo).mono fun _ _ _ h => h.1
  refine (reads_many hpiece mid).bind fun hi others _ hothers => ?_
  refine .ite (fun hempty => .pure (hfirst.mono le_rfl hothers.le)) fun _ => .pure ?_
  have hspan := Chain.spanning_last (fun _ _ _ h => Expr.Lies.extent h) hfirst.extent hothers
  rw [hextent] at hspan
  exact .concatenation hspan (.cons hfirst.le hfirst hothers)

/-! ## Atoms -/

omit hn in
/-- A word as an atom is read only where a word comes next. -/
theorem wordAtom_lies {t : Token} {ts rest : List Token} {e : Expr} (hword : t.kind = .word)
    (hts : Ordered V lo (t :: ts)) (heq : wordAtom (t :: ts) = some (e, rest)) :
    ∃ hi, lo ≤ hi ∧ Ordered V hi rest ∧ e.Lies V lo hi := by
  obtain ⟨ht, hrest⟩ := hts.placed (t.isPlaced_of_word hword)
  refine ⟨t.span.stop, ht.lt.le, ?_⟩
  have hleaf : Located V lo t.span.stop [.plain t.span] := Expr.Lies.leaf ht.within
  rw [wordAtom] at heq
  split at heq
  · cases heq
    exact ⟨hrest, hleaf⟩
  · split at heq
    · cases heq
    · cases heq
      exact ⟨hrest, hleaf⟩

theorem reads_operatorAtom : ReadsExpr V (operatorAtom n) := by
  intro lo
  refine .peek_bind fun t => ?_
  cases t with
  | none => exact .failure
  | some t =>
    refine .ite (fun _ => reads_parentheses hn lo) fun _ => .ite
      (fun _ => reads_squareBrackets hn lo) fun _ => .ite (fun _ => reads_braces hn lo) fun _ => ?_
    refine (reads_operator "..." lo).bind fun hi dots hhi hdots => .pure ?_
    exact .node hdots.within (.nil hhi)

theorem reads_atom : ReadsExpr V (atom n) := by
  intro lo ts e rest hts heq
  cases ts with
  | nil => cases heq
  | cons t ts =>
    have hnumber : Reads V lo (ofKind .number >>= fun t => pure (.number t.span t.text))
        (Expr.Lies V lo) :=
      (reads_ofKind rfl lo).bind fun hi t _ ht => .pure (.leaf ht.within)
    -- the kind of the next token decides
    rw [atom, peek_bind_cons, Option.map_some] at heq
    cases hkind : t.kind <;> rw [hkind] at heq
    case word => exact wordAtom_lies hkind hts heq
    case number => exact hnumber _ e rest hts heq
    case string => exact reads_strings hn lo _ e rest hts heq
    case formatOpen => exact reads_strings hn lo _ e rest hts heq
    case operator => exact reads_operatorAtom hn lo _ e rest hts heq
    all_goals cases heq

/-! ## Calls and subscripts -/

theorem reads_argument (stage : ArgumentStage) (lo : Pos) :
    Reads V lo (argument n stage) fun hi a => a.1.Lies V lo hi := by
  refine .sees_bind fun _ => .ite (fun _ => ?_) fun _ => .sees_bind fun _ => .ite (fun _ => ?_)
    fun _ => ?_
  · refine (reads_operator "**" lo).bind fun _ _ hstars _ => ?_
    exact (hn.expression _).bind fun hi e _ he => .pure (.positional (he.after hstars))
  · refine .require_bind fun _ => (reads_operator "*" lo).bind fun _ _ hstar _ => ?_
    exact (hn.expression _).bind fun hi e _ he => .pure (.positional (he.after hstar))
  · refine .look_bind looks_seesKeyword fun _ => .ite (fun _ => ?_) fun _ => ?_
    · -- by keyword
      refine reads_identifier lo |>.bind fun _ name _ hname => ?_
      refine (reads_operator "=" _).bind fun _ _ hequals _ => ?_
      refine (hn.expression _).bind fun hi value _ hvalue => .pure ?_
      exact .keyword hname (hvalue.after hequals)
    · -- by position
      refine .require_bind fun _ => ?_
      exact (reads_namedExpression hn lo).bind fun hi e _ he => .pure (.positional he)

theorem reads_argumentsFrom (fuel : Nat) (stage : ArgumentStage) (lo : Pos) :
    Reads V lo (argumentsFrom n fuel stage) (Chain (Argument.Lies V) lo) := by
  induction fuel generalizing stage lo with
  | zero => exact .failure
  | succ fuel ih =>
    refine .sees_bind fun _ => .ite (fun _ => .pure (.nil le_rfl)) fun _ => ?_
    refine (reads_argument hn stage lo).bind fun _ a hmid ha => ?_
    refine .sees_bind fun _ => .ite (fun _ => ?_) fun _ => .pure (.single hmid ha)
    refine (reads_operator "," _).bind fun _ _ hcomma _ => ?_
    exact (ih a.2 _).bind fun hi as _ has => .pure (.cons hmid ha (has.after hcomma))

theorem reads_soleGenerator {first : Argument} (hfirst : first.Lies V lo mid) :
    Reads V mid (soleGenerator n first) fun hi a => ∀ g ∈ a, g.Lies V lo hi := by
  unfold soleGenerator
  split
  next e =>
    have he : e.Lies V lo mid := Argument.Lies.value hfirst
    refine .sees_bind fun _ => .ite (fun _ => ?_) fun _ => .pure nofun
    refine (reads_generatorOf hn he).bind fun hi e _ he => .pure ?_
    rintro _ ⟨⟩
    exact .positional he
  next => exact .pure nofun

/-- The arguments of a call stand behind its opening parenthesis. -/
theorem reads_arguments (lo : Pos) : Reads V lo (arguments n) fun hi as =>
    ∃ start stop, lo < start ∧ Chain (Argument.Lies V) start stop as.1 ∧ as.2.Lies V stop hi := by
  refine (reads_operator "(" lo).bind fun start _ hstart hopening => .get_bind fun ts => ?_
  have hclose : ∀ as stop, Chain (Argument.Lies V) start stop as → Reads V stop
      (operator ")" >>= fun closing => pure (as, closing)) fun hi as =>
      ∃ start stop, lo < start ∧ Chain (Argument.Lies V) start stop as.1 ∧ as.2.Lies V stop hi :=
    fun as stop has => (reads_operator ")" stop).bind fun hi closing _ hclosing =>
      .pure ⟨start, stop, hopening.lt, has, hclosing⟩
  refine .sees_bind fun _ => .ite (fun _ => hclose [] start (.nil le_rfl)) fun _ => ?_
  refine (reads_argument hn _ start).bind fun mid first hmid hfirst => ?_
  refine (reads_soleGenerator hn hfirst).bind fun mid' sole hmid' hsole => ?_
  cases sole with
  | some generator => exact hclose _ mid' (.single (hmid.trans hmid') (hsole generator rfl))
  | none =>
    refine .sees_bind fun _ => .ite (fun _ => ?_) fun _ => ?_
    · refine (reads_operator "," mid').bind fun _ _ hcomma _ => ?_
      refine (reads_argumentsFrom hn _ _ _).bind fun stop others _ hothers => ?_
      exact hclose _ stop (.cons hmid hfirst (hothers.after (hmid'.trans hcomma)))
    · exact hclose _ mid' (.cons hmid hfirst (.nil hmid'))

omit hn in
/-- A slice ends with its last bound, or where the operator behind it begins. -/
theorem reads_sliceSpan {start : Span} {bound : Option Expr} (hstart : start.Within V lo mid)
    (hbound : OptionLies V mid mid' bound) :
    Reads V mid' (sliceSpan start bound) (Span.Within V lo) := by
  cases bound with
  | some e => exact .pure (hstart.spanning (hbound.lies e rfl).extent le_rfl)
  | none =>
    intro ts s rest hts heq
    cases ts with
    | nil => cases heq
    | cons t ts =>
      rw [sliceSpan, peek_bind_cons] at heq
      obtain ⟨_, ts', hrequire, heq⟩ := bind_eq_some heq
      obtain ⟨hoperator, rfl⟩ := require_eq_some hrequire
      cases heq
      have hplaced := t.isPlaced_of_operator (of_decide_eq_true hoperator)
      obtain ⟨ht, -⟩ := hts.placed hplaced
      refine ⟨t.span.start, ht.within.lo_le, hts.from_head hplaced, ?_⟩
      have hbefore : (spanBefore t.span).Within V mid t.span.start :=
        ⟨ht.within.1, ht.within.1, hbound.le.trans ht.within.lo_le, le_rfl, le_rfl⟩
      exact hstart.spanning hbefore le_rfl

theorem reads_sliceFrom {lower : Option Expr} (hlower : OptionLies V lo mid lower) :
    Reads V mid (sliceFrom n lower) (Expr.Lies V lo) := by
  refine (reads_operator ":" mid).bind fun mid₁ colon hcolon colon_lies => ?_
  have hstart : ((lower.map Expr.extent).getD colon.span).Within V lo mid₁ := by
    cases lower with
    | none => exact colon_lies.within.mono hlower.le le_rfl
    | some e => exact (hlower.lies e rfl).extent.mono le_rfl hcolon
  refine (reads_option (hn.expression mid₁)).bind fun mid₂ upper _ hupper => ?_
  have hbounds := hlower.chain.append (hupper.chain.after hcolon)
  refine .sees_bind fun _ => .ite (fun _ => ?_) fun _ => ?_
  · -- with a step, which is the last bound
    refine (reads_operator ":" mid₂).bind fun mid₃ _ hcolon' _ => ?_
    refine (reads_option (hn.expression mid₃)).bind fun mid₄ step _ hstep => ?_
    have hstep' := hstep.after (hupper.le.trans hcolon')
    refine (reads_sliceSpan hstart hstep').bind fun hi span hhi hspan => .pure ?_
    exact .node hspan ((hbounds.append (hstep.chain.after hcolon')).before hhi)
  · -- without one, the upper bound is the last
    refine (reads_sliceSpan hstart hupper).bind fun hi span hhi hspan => .pure ?_
    exact .node hspan (hbounds.before hhi)

theorem reads_subscriptItem : ReadsExpr V (subscriptItem n) := by
  intro lo
  refine .sees_bind fun _ => .ite (fun _ => reads_sliceFrom hn (.none le_rfl)) fun _ =>
    .sees_bind fun _ => .ite (fun _ => reads_starredBy hn.expression lo) fun _ => ?_
  refine (reads_namedExpression hn lo).bind fun mid e _ he => .sees_bind fun _ => ?_
  exact .ite (fun _ => reads_sliceFrom hn (.some he)) fun _ => .pure he

omit hn in
/-- The index of a subscript lies where its items lie. -/
theorem indexSpan_within {es : List Expr} (h : Chain (Expr.Lies V) lo hi es) (hne : es ≠ []) :
    (indexSpan es).Within V lo hi := by
  have hitem : ∀ e ∈ es, (itemSpan e).Within V lo hi := by
    intro e he
    obtain ⟨start, stop, hstart, hlies, hstop⟩ := h.mem he
    have hlies := hlies.mono hstart hstop
    unfold itemSpan
    split
    · exact Expr.Lies.span (Located.of_plain hlies)
    · exact hlies.span
  obtain ⟨first, rest, rfl⟩ := List.exists_cons_of_ne_nil hne
  obtain ⟨last, hlast⟩ := Option.isSome_iff_exists.mp (List.getLast?_isSome.mpr hne)
  have hcovering := (hitem first List.mem_cons_self).covering
    (hitem last (List.mem_of_getLast? hlast))
  simpa [indexSpan, hlast] using hcovering

/-- The items of a subscript stand behind its opening bracket. -/
theorem reads_subscriptItems (lo : Pos) : Reads V lo (subscriptItems n) fun hi items =>
    ∃ start stop, lo < start ∧
      Located V start stop (.plain (indexSpan items.1) :: outlines items.1) ∧
      items.2.Lies V stop hi := by
  refine (reads_operator "[" lo).bind fun start _ _ hopening => ?_
  refine (reads_commaList (reads_subscriptItem hn) start).bind fun stop items _ hitems => ?_
  obtain ⟨hne, mid, hmid, hchain, -⟩ := hitems
  have hchain := hchain.before hmid
  refine (reads_operator "]" stop).bind fun hi closing _ hclosing => .pure ?_
  exact ⟨start, stop, hopening.lt, .plain (indexSpan_within hchain hne) hchain.exprs, hclosing⟩

theorem reads_trailer {e : Expr} (he : e.Lies V lo mid) :
    Reads V mid (trailer n e) (Expr.Lies V lo) := by
  refine .sees_bind fun _ => .ite (fun _ => ?_) fun _ => .sees_bind fun _ => .ite (fun _ => ?_)
    fun _ => ?_
  · -- an attribute ends with its name
    refine (reads_operator "." mid).bind fun mid' _ _ hdot => ?_
    refine (reads_identifier mid').bind fun hi name _ hname => .pure ?_
    exact he.attributed _ hdot.lt hname
  · -- a call ends with its closing parenthesis
    refine (reads_arguments hn mid).bind fun hi as _ has => .pure ?_
    obtain ⟨start, stop, hgap, hchain, hclosing⟩ := has
    exact he.enclosed .call hgap hchain.arguments hclosing
  · -- a subscript ends with its closing bracket
    refine (reads_subscriptItems hn mid).bind fun hi items _ hitems => .pure ?_
    obtain ⟨start, stop, hgap, hindex, hclosing⟩ := hitems
    exact he.enclosed .subscript hgap hindex hclosing

theorem reads_trailers (fuel : Nat) {e : Expr} (he : e.Lies V lo mid) :
    Reads V mid (trailers n fuel e) (Expr.Lies V lo) := by
  induction fuel generalizing e mid with
  | zero => exact .pure he
  | succ fuel ih =>
    -- what has been read so far is the receiver of the next trailer
    refine (reads_trailer hn he).attempt.bind fun mid' longer hmid' hlonger => ?_
    cases longer with
    | some e' => exact ih (hlonger e' rfl)
    | none => exact .pure (he.mono le_rfl hmid')

theorem reads_primary : ReadsExpr V (primary n) := fun lo =>
  (reads_atom hn lo).bind fun _ _ _ he => .get_bind fun ts => reads_trailers hn ts.length he

/-! ## Operators -/

omit hn in
theorem binaryOf_lies (kind : OperationKind) {left right : Expr} (hleft : left.Lies V lo mid)
    (hright : right.Lies V mid' hi) (hmid : mid ≤ mid') :
    (binaryOf kind left right).Lies V lo hi :=
  .node (hleft.extent.spanning hright.extent hmid)
    (.cons hleft.le hleft (hright.after hmid).chain)

omit hn in
theorem foldl_binaryOf_lies (kind : OperationKind) {first : Expr} {others : List Expr}
    (hfirst : first.Lies V lo mid) (hothers : Chain (Expr.Lies V) mid hi others) :
    (others.foldl (binaryOf kind) first).Lies V lo hi := by
  induction others generalizing first mid with
  | nil => exact hfirst.mono le_rfl hothers
  | cons e others ih =>
    obtain ⟨start, stop, hstart, -, he, hrest⟩ := hothers
    exact ih (binaryOf_lies kind hfirst he hstart) hrest

omit hn in
theorem reads_leftGrouped (kind : OperationKind) {sign : Parse Token} {operand : Parse Expr}
    (hsign : Passes V sign) (h : ReadsExpr V operand) :
    ReadsExpr V (leftGrouped kind sign operand) := by
  intro lo
  refine (h lo).bind fun mid first _ hfirst => ?_
  refine (reads_many_behind hsign h mid).bind fun hi others _ hothers => .pure ?_
  exact foldl_binaryOf_lies kind hfirst hothers

theorem reads_awaited : ReadsExpr V (awaited n) := by
  intro lo
  refine .sees_bind fun _ => .ite (fun _ => ?_) fun _ => reads_primary hn lo
  refine (reads_word "await" lo).bind fun mid keyword hmid hkeyword => ?_
  refine (reads_primary hn mid).bind fun hi e _ he => .pure ?_
  exact .node (hkeyword.within.spanning he.extent le_rfl) (he.after hmid).chain

theorem reads_power : ReadsExpr V (power n) := by
  intro lo
  refine (reads_awaited hn lo).bind fun mid base _ hbase => ?_
  have hexponent : Reads V mid (operator "**" >>= fun _ => n.factor) (Expr.Lies V mid) :=
    (reads_operator "**" mid).bind fun mid' _ hmid' _ =>
      (hn.factor mid').mono fun _ _ _ he => he.after hmid'
  refine hexponent.attempt.bind fun hi exponent hhi hlies => ?_
  cases exponent with
  | some e => exact .pure (binaryOf_lies .binary hbase (hlies e rfl) le_rfl)
  | none => exact .pure (hbase.mono le_rfl hhi)

theorem reads_factor : ReadsExpr V (factor n) := by
  intro lo
  refine (reads_operatorIn _ lo).attempt.bind fun mid sign hmid hsign => ?_
  cases sign with
  | some sign =>
    refine (hn.factor mid).bind fun hi e _ he => .pure ?_
    exact .node ((hsign sign rfl).within.spanning he.extent le_rfl) (he.after hmid).chain
  | none => exact (reads_power hn mid).mono fun _ _ _ he => he.after hmid

theorem reads_bitwiseOr : ReadsExpr V (bitwiseOr n) := by
  have hterm : ReadsExpr V (term n) := reads_leftGrouped _ (passes_satisfy _) (reads_factor hn)
  have hsum : ReadsExpr V (sum n) := reads_leftGrouped _ (passes_satisfy _) hterm
  have hshift : ReadsExpr V (shift n) := reads_leftGrouped _ (passes_satisfy _) hsum
  have hand : ReadsExpr V (bitwiseAnd n) := reads_leftGrouped _ (passes_satisfy _) hshift
  have hxor : ReadsExpr V (bitwiseXor n) := reads_leftGrouped _ (passes_satisfy _) hand
  exact reads_leftGrouped _ (passes_satisfy _) hxor

omit hn in
theorem reads_comparisonOperator (lo : Pos) :
    Reads V lo comparisonOperator fun hi _ => lo < hi := by
  refine (reads_operatorIn _ lo).attempt.bind fun mid sign hmid hsign => ?_
  cases sign with
  | some sign => exact .pure (hsign sign rfl).lt
  | none =>
    have hword : ∀ text, Reads V mid (word text) fun hi _ => lo < hi := fun text =>
      (reads_word text mid).mono fun _ _ _ ht => hmid.trans_lt ht.lt
    refine .sees_bind fun _ => .ite (fun _ => ?_) fun _ => .sees_bind fun _ => .ite (fun _ => ?_)
      fun _ => ?_
    · exact (hword "in").bind fun _ _ _ hlt => .pure hlt
    · refine (hword "not").bind fun _ _ _ hlt => ?_
      exact (passes_satisfy _ _).bind fun _ _ hle _ => .pure (hlt.trans_le hle)
    · refine (hword "is").bind fun _ _ _ hlt => ?_
      refine ((passes_satisfy _).attempt _).bind fun _ negated hle _ => ?_
      cases negated <;> exact .pure (hlt.trans_le hle)

theorem reads_comparison : ReadsExpr V (comparison n) := by
  intro lo
  refine (reads_bitwiseOr hn lo).bind fun mid first _ hfirst => ?_
  have hother : ∀ lo, Reads V lo
      (comparisonOperator >>= fun sign => bitwiseOr n >>= fun e => pure (sign, e))
      fun hi other => ∃ start, lo < start ∧ other.2.Lies V start hi := fun lo =>
    (reads_comparisonOperator lo).bind fun start _ _ hlt =>
      (reads_bitwiseOr hn start).bind fun _ e _ he => .pure ⟨start, hlt, he⟩
  refine (reads_many hother mid).bind fun hi others _ hothers => ?_
  cases others with
  | nil => exact .pure (hfirst.mono le_rfl hothers)
  | cons other others =>
    -- the first operator stands between the first two operands
    obtain ⟨start, stop, hstart, -, ⟨start', hgap, hsecond⟩, hrest⟩ := hothers
    have hchain : Chain (Expr.Lies V) start' hi ((other :: others).map (·.2)) := by
      refine .cons hsecond.le hsecond (hrest.map fun lo hi p hp => ?_)
      obtain ⟨mid, hlt, hp⟩ := hp
      exact hp.after hlt.le
    exact .pure (hfirst.compared (hstart.trans_lt hgap) hchain nofun)

theorem reads_inversion : ReadsExpr V (inversion n) := by
  intro lo
  refine .sees_bind fun _ => .ite (fun _ => ?_) fun _ => reads_comparison hn lo
  refine (reads_word "not" lo).bind fun mid keyword hmid hkeyword => ?_
  refine (hn.inversion mid).bind fun hi e _ he => .pure ?_
  exact .node (hkeyword.within.spanning he.extent le_rfl) (he.after hmid).chain

theorem reads_disjunction : ReadsExpr V (disjunction n) := by
  have hand : ReadsExpr V (conjunction n) :=
    reads_leftGrouped _ (passes_satisfy _) (reads_inversion hn)
  exact reads_leftGrouped _ (passes_satisfy _) hand

/-! ## Parameters -/

omit hn in
theorem reads_typeHint (typed : Bool) {type : Parse Expr} (h : ReadsExpr V type) (lo : Pos) :
    Reads V lo (typeHint typed type) (OptionLies V lo) := by
  refine .sees_bind fun _ => .ite (fun _ => ?_) fun _ => .pure (.none le_rfl)
  refine (reads_operator ":" lo).bind fun mid _ hmid _ => ?_
  exact (reads_some (h mid)).mono fun _ _ _ he => he.after hmid

theorem reads_plainParameter (typed : Bool) (stage : ParameterStage) (lo : Pos) :
    Reads V lo (plainParameter n typed stage) fun hi ps => Chain (Parameter.Lies V) lo hi ps.1 := by
  refine (reads_identifier lo).bind fun mid name hmid hname => ?_
  refine (reads_typeHint typed hn.expression mid).bind fun mid' hint _ hhint => ?_
  have hdone : ∀ hi fallback, OptionLies V mid' hi fallback → Reads V hi
      (require (fallback.isSome || !stage.defaulted || stage.starred) >>= fun _ =>
        pure ([Parameter.mk name.span .none name.text hint fallback],
          { stage with any := true, defaulted := stage.defaulted || fallback.isSome }))
      fun hi ps => Chain (Parameter.Lies V) lo hi ps.1 := by
    intro hi fallback hfallback
    refine .require_bind fun _ => .pure ?_
    exact .single (hmid.trans (hhint.le.trans hfallback.le)) (.mk hname.within hhint hfallback)
  refine .sees_bind fun _ => .ite (fun _ => ?_) fun _ => hdone mid' none (.none le_rfl)
  refine (reads_operator "=" mid').bind fun _ _ hequals _ => ?_
  refine (reads_some (hn.expression _)).bind fun hi fallback _ hfallback => ?_
  exact hdone hi fallback (hfallback.after hequals)

theorem reads_starParameter (typed : Bool) (stage : ParameterStage) (lo : Pos) :
    Reads V lo (starParameter n typed stage) fun hi ps => Chain (Parameter.Lies V) lo hi ps.1 := by
  refine .require_bind fun _ => (reads_operator "*" lo).bind fun mid star hmid hstar => ?_
  refine .sees_bind fun _ => .ite (fun _ => ?_) fun _ => ?_
  · -- a bare star, which only parts the parameters
    refine (reads_operator "," mid).bind fun _ _ hcomma _ => ?_
    refine (reads_plainParameter hn typed _ _).bind fun hi ps _ hps => .pure ?_
    exact hps.after (hmid.trans hcomma)
  · -- a star with a name
    refine (reads_identifier mid).bind fun mid' name _ hname => ?_
    refine (reads_typeHint typed (reads_starExpression hn) mid').bind fun hi hint _ hhint => ?_
    have hspan := hstar.within.spanning hname.within le_rfl
    exact .pure (.single (hspan.lo_le_hi.trans hhint.le) (.mk hspan hhint (.none le_rfl)))

omit hn in
theorem reads_slash (stage : ParameterStage) (lo : Pos) :
    Reads V lo (slash stage) fun hi ps => Chain (Parameter.Lies V) lo hi ps.1 :=
  .require_bind fun _ => (reads_operator "/" lo).bind fun _ _ hle _ => .pure (.nil hle)

theorem reads_parametersFrom (typed : Bool) (closing : String) (fuel : Nat) (stage : ParameterStage)
    (lo : Pos) :
    Reads V lo (parametersFrom n typed closing fuel stage) (Chain (Parameter.Lies V) lo) := by
  induction fuel generalizing stage lo with
  | zero => exact .failure
  | succ fuel ih =>
    refine .sees_bind fun _ => .ite (fun _ => .pure (.nil le_rfl)) fun _ => .sees_bind fun _ =>
      .ite (fun _ => ?_) fun _ => ?_
    · -- two stars: nothing comes after this parameter
      refine (reads_operator "**" lo).bind fun mid stars _ hstars => ?_
      refine (reads_identifier mid).bind fun mid' name _ hname => ?_
      refine (reads_typeHint typed hn.expression mid').bind fun _ hint _ hhint => ?_
      refine (reads_comma _).bind fun hi _ hcomma _ => .sees_bind fun _ => .require_bind fun _ => ?_
      have hspan := hstars.within.spanning hname.within le_rfl
      have hall := hspan.lo_le_hi.trans (hhint.le.trans hcomma)
      exact .pure (.single hall (.mk hspan hhint (.none hcomma)))
    · -- the parameters that come next, whatever they are, and then the rest
      have hrest : ∀ mid (ps : List Parameter × ParameterStage),
          Chain (Parameter.Lies V) lo mid ps.1 → Reads V mid
          (seesOperator "," >>= fun b => if b = true then
              operator "," >>= fun _ => parametersFrom n typed closing fuel ps.2 >>= fun qs =>
                pure (ps.1 ++ qs)
            else seesOperator closing >>= fun b => require b >>= fun _ => pure ps.1)
          (Chain (Parameter.Lies V) lo) := by
        intro mid ps hps
        refine .sees_bind fun _ => .ite (fun _ => ?_) fun _ =>
          .sees_bind fun _ => .require_bind fun _ => .pure hps
        refine (reads_operator "," mid).bind fun _ _ hcomma _ => ?_
        exact (ih ps.2 _).bind fun hi qs _ hqs => .pure (hps.append (hqs.after hcomma))
      refine .sees_bind fun _ => .sees_bind fun _ => .ite (fun _ => ?_) fun _ =>
        .ite (fun _ => ?_) fun _ => ?_
      · exact (reads_starParameter hn typed stage lo).bind fun mid ps _ hps => hrest mid ps hps
      · exact (reads_slash stage lo).bind fun mid ps _ hps => hrest mid ps hps
      · exact (reads_plainParameter hn typed stage lo).bind fun mid ps _ hps => hrest mid ps hps

theorem reads_parameters (typed : Bool) (closing : String) (lo : Pos) :
    Reads V lo (parameters n typed closing) (Chain (Parameter.Lies V) lo) :=
  .get_bind fun ts => reads_parametersFrom hn typed closing (ts.length + 1) {} lo

/-! ## Whole expressions -/

theorem reads_lambda : ReadsExpr V (lambda n) := by
  intro lo
  refine (reads_word "lambda" lo).bind fun mid keyword hmid hkeyword => ?_
  refine (reads_parameters hn false ":" mid).bind fun mid' ps _ hps => ?_
  refine (reads_operator ":" mid').bind fun _ _ hcolon _ => ?_
  refine (hn.expression _).bind fun hi body _ hbody => .pure ?_
  have hbody := hbody.after hcolon
  exact .plain (hkeyword.within.spanning hbody.extent hps.le)
    ((hps.parameters.after hmid).append hbody)

theorem reads_expression : ReadsExpr V (expression n) := by
  intro lo
  refine .sees_bind fun _ => .ite (fun _ => reads_lambda hn lo) fun _ => ?_
  refine (reads_disjunction hn lo).bind fun mid e _ he => ?_
  have hchoice : Reads V mid (word "if" >>= fun _ => disjunction n >>= fun test =>
      word "else" >>= fun _ => n.expression >>= fun alternative => pure (test, alternative))
      fun hi choice => ∃ mid', choice.1.Lies V mid mid' ∧ choice.2.Lies V mid' hi := by
    refine (reads_word "if" mid).bind fun _ _ hif _ => ?_
    refine (reads_disjunction hn _).bind fun mid' test _ htest => ?_
    refine (reads_word "else" mid').bind fun _ _ helse _ => ?_
    refine (hn.expression _).bind fun hi alternative _ halternative => .pure ?_
    exact ⟨mid', htest.after hif, halternative.after helse⟩
  refine hchoice.attempt.bind fun hi choice hhi hlies => ?_
  cases choice with
  | some choice =>
    obtain ⟨mid', htest, halternative⟩ := hlies choice rfl
    refine .pure (.node (he.extent.spanning halternative.extent htest.le) ?_)
    exact .cons he.le he (.cons htest.le htest halternative.chain)
  | none => exact .pure (he.mono le_rfl hhi)

end Grammar

/-- Expressions nested at most a number of levels deep keep places. -/
theorem nested_keepsPlaces (depth : Nat) : (nested depth).KeepsPlaces V := by
  induction depth with
  | zero => exact ⟨fun _ => .failure, fun _ => .failure, fun _ => .failure, fun _ => .failure,
      fun _ => .failure, fun _ => .failure, fun _ => .failure⟩
  | succ depth ih =>
    exact ⟨reads_expression ih, reads_disjunction ih, reads_inversion ih, reads_bitwiseOr ih,
      reads_factor ih, reads_primary ih, reads_replacement ih⟩

end Framewise.Script
