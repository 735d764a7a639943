import Framewise.Proofs.TracedSyntax
import Framewise.Proofs.ExpressionPlaces

/-! # Expressions and the tokens they were read from

  The leaves of an expression are tokens of the script, by induction on how deep the
  expressions in it are nested. Only strings in a row need more than that: here the
  parser takes one string after the other, and nothing between them.

  Main definition: `Nested.Traces`, the assumption on what is nested.

  Main result: `nested_traces`.
-/

namespace Framewise.Script

open Parse

/-- The parsers of what is nested give traced expressions. -/
structure Nested.Traces (T : List Token) (n : Nested) : Prop where
  expression : Finds T n.expression (Traced T)
  disjunction : Finds T n.disjunction (Traced T)
  inversion : Finds T n.inversion (Traced T)
  bitwiseOr : Finds T n.bitwiseOr (Traced T)
  factor : Finds T n.factor (Traced T)
  primary : Finds T n.primary (Traced T)
  replacement : Finds T n.replacement fun es => ∀ e ∈ es, Traced T e

variable {T : List Token}

/-! ## Parts that may be absent -/

/-- An expression behind a token, if the token comes next. -/
theorem finds_behind {w : Token → Bool} {b : Bool} {p : Parse Expr} (hp : Finds T p (Traced T)) :
    Finds T (if b = true then satisfy w >>= fun _ => some <$> p else pure none)
      (TracedOption T) :=
  .ite (.token_bind fun _ => hp.map fun _ he => he) (.pure trivial)

/-- What follows such an expression. -/
theorem finds_behind_bind {β : Type} {w : Token → Bool} {b : Bool} {p : Parse Expr}
    {f : Option Expr → Parse β} {Q : β → Prop} (hp : Finds T p (Traced T))
    (hf : ∀ c, TracedOption T c → Finds T (f c) Q) :
    Finds T (if b = true then satisfy w >>= fun _ => (some <$> p) >>= f else pure none >>= f) Q :=
  .ite (.token_bind fun _ => .bind (hp.map fun _ he => he) hf)
    (.bind (.pure (show TracedOption T none from trivial)) hf)

/-- Expressions that follow one another, each behind a token. -/
theorem finds_many_behind {w : Token → Bool} {p : Parse Expr} (hp : Finds T p (Traced T)) :
    Finds T (many (satisfy w >>= fun _ => p)) fun es => ∀ e ∈ es, Traced T e :=
  .many (.token_bind fun _ => hp)

/-- The last bracket of several expressions, and what it closes. -/
theorem finds_closing {w : Token → Bool} {make : Token → Expr} (h : ∀ t, Traced T (make t)) :
    Finds T (satisfy w >>= fun t => pure (make t)) (Traced T) :=
  .token_bind fun t => .pure (h t)

section Grammar

variable {n : Nested} (hn : n.Traces T)
include hn

/-! ## Lists of expressions -/

theorem finds_namedExpression : Finds T (namedExpression n) (Traced T) := by
  intro ts e rest hts heq
  unfold namedExpression at heq
  split at heq
  next name walrus ts' =>
    split at heq
    next hwalrus =>
      obtain ⟨⟨value, rest'⟩, hvalue, heq⟩ := Option.map_eq_some_iff.mp heq
      cases heq
      have hts' : ts' <:+ T := (List.suffix_cons walrus ts').trans ((List.suffix_cons name _).trans hts)
      obtain ⟨hrest, hvalue⟩ := hn.expression ts' value rest hts' hvalue
      have hkind : name.kind = .word := by simp_all
      have hname : Named T name.span name.text := by
        rw [Named, ← hkind]
        exact hts.subset List.mem_cons_self
      exact ⟨hrest, hname, hvalue, trivial⟩
    next => exact hn.expression _ e rest hts heq
  next => exact hn.expression _ e rest hts heq

omit hn in
theorem finds_starredBy {inner : Parse Expr} (h : Finds T inner (Traced T)) :
    Finds T (starredBy inner) (Traced T) := .token_bind fun _ => h.bind fun _ he => .pure he

theorem finds_starExpression : Finds T (starExpression n) (Traced T) :=
  .sees_bind fun _ => .ite (finds_starredBy hn.bitwiseOr) hn.expression

theorem finds_starNamedExpression : Finds T (starNamedExpression n) (Traced T) :=
  .sees_bind fun _ => .ite (finds_starredBy hn.bitwiseOr) (finds_namedExpression hn)

theorem finds_starExpressions : Finds T (starExpressions n) (Traced T) :=
  (finds_starExpression hn).commaList.bind fun _ hes => .pure (traced_tupleOf hes)

theorem finds_yieldExpression : Finds T (yieldExpression n) (Traced T) := by
  refine .token_bind fun keyword => .sees_bind fun _ => ?_
  have hdone : ∀ value : Option Expr, (∀ e ∈ value, Traced T e) → Finds T (pure (.operation
      (spanning keyword.span ((value.map Expr.extent).getD keyword.span)) .yield value.toList))
      (Traced T) := fun _ h => .pure (tracedAll_iff.mpr (tracedOption_iff.mpr h).toList)
  exact .ite (.token_bind fun _ => hn.expression.some.bind hdone)
    ((finds_starExpressions hn).attempt.bind hdone)

theorem finds_yieldOrExpressions : Finds T (yieldOrExpressions n) (Traced T) :=
  .sees_bind fun _ => .ite (finds_yieldExpression hn) (finds_starExpressions hn)

/-! ## Comprehensions -/

theorem finds_starTarget : Finds T (starTarget n) (Traced T) := by
  have hdone : ∀ e, Traced T e → Finds T (require (isTarget e) >>= fun _ => pure e) (Traced T) :=
    fun _ he => .require_bind (.pure he)
  exact .sees_bind fun _ => .ite ((finds_starredBy hn.primary).bind hdone) (hn.primary.bind hdone)

theorem finds_starTargets : Finds T (starTargets n) (Traced T) :=
  (finds_starTarget hn).commaList.bind fun _ hes => .pure (traced_tupleOf hes)

theorem finds_comprehensionClauses :
    Finds T (comprehensionClauses n) fun es => ∀ e ∈ es, Traced T e := by
  have hclause : Finds T (comprehensionClause n) fun es => ∀ e ∈ es, Traced T e := by
    refine Finds.satisfy.attempt.bind fun _ _ => .token_bind fun _ => ?_
    refine (finds_starTargets hn).bind fun _ htarget => .token_bind fun _ => ?_
    refine hn.disjunction.bind fun _ hiterable => ?_
    refine (finds_many_behind hn.disjunction).bind fun _ hconditions => .pure ?_
    exact List.forall_mem_cons.mpr ⟨htarget, List.forall_mem_cons.mpr ⟨hiterable, hconditions⟩⟩
  exact hclause.many1.map fun _ h => traced_flatten h

theorem finds_generatorOf {element : Expr} (helement : Traced T element) :
    Finds T (generatorOf n element) (Traced T) :=
  (finds_comprehensionClauses hn).bind fun _ hclauses =>
    .pure (tracedAll_iff.mpr (List.forall_mem_cons.mpr ⟨helement, hclauses⟩))

/-! ## Brackets -/

theorem finds_parentheses : Finds T (parentheses n) (Traced T) := by
  refine .token_bind fun opening => ?_
  have hwrap : ∀ inner, Traced T inner → Finds T (operator ")" >>= fun closing =>
      pure (.parenthesized (spanning opening.span closing.span) inner)) (Traced T) :=
    fun inner hinner => finds_closing fun _ => hinner
  refine .sees_bind fun _ => .ite (finds_closing fun _ => trivial) <| .sees_bind fun _ =>
    .ite ((finds_yieldExpression hn).bind hwrap) ?_
  refine (finds_starNamedExpression hn).bind fun _ hfirst => .sees_bind fun _ =>
    .ite (.require_bind ((finds_generatorOf hn hfirst).bind hwrap)) ?_
  refine (finds_many_behind (finds_starNamedExpression hn)).bind fun _ hothers =>
    Finds.satisfy.attempt.bind fun _ _ => .require_bind (hwrap _ (traced_tupleOf ?_))
  exact List.forall_mem_cons.mpr ⟨hfirst, hothers⟩

theorem finds_squareBrackets : Finds T (squareBrackets n) (Traced T) := by
  refine .token_bind fun _ => .sees_bind fun _ => .ite (finds_closing fun _ => trivial) ?_
  refine (finds_starNamedExpression hn).bind fun _ hfirst => .sees_bind fun _ =>
    .ite (.require_bind ?_) ?_
  · refine (finds_comprehensionClauses hn).bind fun _ hclauses => finds_closing fun _ => ?_
    exact tracedAll_iff.mpr (List.forall_mem_cons.mpr ⟨hfirst, hclauses⟩)
  · refine (finds_many_behind (finds_starNamedExpression hn)).bind fun _ hothers =>
      Finds.satisfy.attempt.bind fun _ _ => finds_closing fun _ => ?_
    exact tracedAll_iff.mpr (List.forall_mem_cons.mpr ⟨hfirst, hothers⟩)

theorem finds_dictEntry : Finds T (dictEntry n) fun es => ∀ e ∈ es, Traced T e := by
  refine .sees_bind fun _ => .ite (.token_bind fun _ => ?_) ?_
  · exact hn.bitwiseOr.bind fun _ he => .pure (List.forall_mem_singleton.mpr he)
  · exact hn.expression.bind fun _ hkey => .token_bind fun _ => hn.expression.bind fun _ hvalue =>
      .pure (List.forall_mem_cons.mpr ⟨hkey, List.forall_mem_singleton.mpr hvalue⟩)

theorem finds_braces : Finds T (braces n) (Traced T) := by
  refine .token_bind fun opening => ?_
  have hdict : ∀ first : List Expr, (∀ e ∈ first, Traced T e) →
      Finds T (dictRest n opening first) (Traced T) := fun _ hfirst =>
    (Finds.many (.token_bind fun _ => finds_dictEntry hn)).bind fun _ hothers =>
      Finds.satisfy.attempt.bind fun _ _ => finds_closing fun _ =>
        tracedAll_iff.mpr (List.forall_mem_append.mpr ⟨hfirst, traced_flatten hothers⟩)
  have hset : ∀ first, Traced T first → Finds T (setRest n opening first) (Traced T) :=
    fun _ hfirst => (finds_many_behind (finds_starNamedExpression hn)).bind fun _ hothers =>
      Finds.satisfy.attempt.bind fun _ _ => finds_closing fun _ =>
        tracedAll_iff.mpr (List.forall_mem_cons.mpr ⟨hfirst, hothers⟩)
  have hcomprehension : ∀ kind (first : List Expr), (∀ e ∈ first, Traced T e) →
      Finds T (braceComprehension n opening kind first) (Traced T) := fun _ _ hfirst =>
    (finds_comprehensionClauses hn).bind fun _ hclauses => finds_closing fun _ =>
      tracedAll_iff.mpr (List.forall_mem_append.mpr ⟨hfirst, hclauses⟩)
  refine .sees_bind fun _ => .ite (finds_closing fun _ => trivial) <| .sees_bind fun _ =>
    .ite ((finds_dictEntry hn).bind hdict) ?_
  refine (finds_starNamedExpression hn).bind fun _ hfirst => .sees_bind fun _ =>
    .ite (.require_bind (.token_bind fun _ => hn.expression.bind fun _ hvalue => ?_)) ?_
  · have hpair := List.forall_mem_cons.mpr ⟨hfirst, List.forall_mem_singleton.mpr hvalue⟩
    exact .sees_bind fun _ => .ite (hcomprehension _ _ hpair) (hdict _ hpair)
  · exact .sees_bind fun _ => .ite
      (.require_bind (hcomprehension _ _ (List.forall_mem_singleton.mpr hfirst))) (hset _ hfirst)

/-! ## Strings -/

omit hn in
theorem finds_formatParts {p : Parse (List Expr)} (hp : Finds T p fun es => ∀ e ∈ es, Traced T e) :
    Finds T (many (do
      if ← sees fun t => t.kind = .formatText then
        let _ ← ofKind .formatText
        return []
      else p)) fun parts => ∀ e ∈ parts.flatten, Traced T e := by
  refine .mono (.many (.sees_bind fun _ => .ite (.token_bind fun _ => .pure ?_) hp))
    fun _ h => traced_flatten h
  exact fun _ h => absurd h List.not_mem_nil

theorem finds_replacement : Finds T (replacement n) fun es => ∀ e ∈ es, Traced T e := by
  refine .token_bind fun _ => (finds_yieldOrExpressions hn).bind fun e he =>
    Finds.satisfy.attempt.bind fun _ _ => .sees_bind fun _ => ?_
  have hdone : ∀ format : List Expr, (∀ e ∈ format, Traced T e) → Finds T
      (operator "\x7d" >>= fun _ => pure (e :: format)) fun es => ∀ e ∈ es, Traced T e :=
    fun _ hformat => .token_bind fun _ => .pure (List.forall_mem_cons.mpr ⟨he, hformat⟩)
  have hformat : Finds T (seesOperator ":" >>= fun b =>
      if b = true then operator ":" >>= fun _ => (List.flatten <$> many (do
        if ← sees fun t => t.kind = .formatText then
          let _ ← ofKind .formatText
          return []
        else n.replacement)) >>= fun format =>
          operator "\x7d" >>= fun _ => pure (e :: format)
      else pure [] >>= fun format => operator "\x7d" >>= fun _ => pure (e :: format))
      fun es => ∀ e ∈ es, Traced T e := by
    refine .sees_bind fun _ => .ite (.token_bind fun _ => ?_) (hdone [] fun _ h => absurd h List.not_mem_nil)
    exact ((finds_formatParts hn.replacement).map fun _ h => h).bind hdone
  exact .ite (.token_bind fun _ => .token_bind fun _ => hformat) hformat

theorem finds_stringPiece : Finds T (stringPiece n) (Traced T) := by
  refine .sees_bind fun _ => .ite (Finds.ofKind.bind fun _ ht => .pure ht) ?_
  exact .token_bind fun _ => (finds_formatParts (finds_replacement hn)).bind fun _ hparts =>
    finds_closing fun _ => tracedAll_iff.mpr hparts

omit hn in
/-- A plain string is a single token. -/
theorem stringPiece_plain {ts rest : List Token} {s : Span} {text : String}
    (h : stringPiece n ts = some (.string s text, rest)) : ts = ⟨.string, text, s⟩ :: rest := by
  obtain ⟨b, ts', hsees, hpiece⟩ := bind_eq_some h
  cases hsees
  clear h
  split at hpiece
  · obtain ⟨t, ts'', hkind, hpiece⟩ := bind_eq_some hpiece
    cases hpiece
    obtain ⟨rfl, ht⟩ := satisfy_eq_some hkind
    rw [← of_decide_eq_true ht]
  · obtain ⟨_, _, _, hpiece⟩ := bind_eq_some hpiece
    obtain ⟨_, _, _, hpiece⟩ := bind_eq_some hpiece
    obtain ⟨_, _, _, hpiece⟩ := bind_eq_some hpiece
    cases hpiece

omit hn in
/-- Plain strings in a row are tokens in a row. -/
theorem manyUpTo_plain {fuel : Nat} {ts rest : List Token} {es : List Expr}
    (h : manyUpTo (stringPiece n) fuel ts = some (es, rest))
    (hplain : ∀ e ∈ es, ∃ s text, e = .string s text) :
    ∃ us, ts = us ++ rest ∧ (∀ t ∈ us, t.kind = .string) ∧
      es = us.map fun t => Expr.string t.span t.text := by
  induction fuel generalizing ts es with
  | zero =>
    cases h
    exact ⟨[], rfl, fun _ h => absurd h List.not_mem_nil, rfl⟩
  | succ fuel ih =>
    unfold manyUpTo at h
    cases hpiece : stringPiece n ts with
    | none =>
      rw [hpiece] at h
      cases h
      exact ⟨[], rfl, fun _ h => absurd h List.not_mem_nil, rfl⟩
    | some result =>
      obtain ⟨e, mid⟩ := result
      rw [hpiece] at h
      obtain ⟨⟨es, rest⟩, hmany, hcons⟩ := Option.map_eq_some_iff.mp h
      cases hcons
      obtain ⟨⟨s, text, rfl⟩, hmore⟩ := List.forall_mem_cons.mp hplain
      obtain ⟨us, rfl, hus, rfl⟩ := ih hmany hmore
      refine ⟨⟨.string, text, s⟩ :: us, stringPiece_plain hpiece, ?_, rfl⟩
      exact List.forall_mem_cons.mpr ⟨rfl, hus⟩

theorem finds_strings : Finds T (strings n) (Traced T) := by
  intro ts e rest hts heq
  obtain ⟨first, ts₁, hfirst, heq⟩ := bind_eq_some heq
  obtain ⟨others, ts₂, hothers, heq⟩ := bind_eq_some heq
  obtain ⟨hts₁, htraced⟩ := finds_stringPiece hn ts first ts₁ hts hfirst
  obtain ⟨hts₂, hall⟩ := (finds_stringPiece hn).many ts₁ others ts₂ hts₁ hothers
  split at heq
  · cases heq
    exact ⟨hts₂, htraced⟩
  · cases heq
    refine ⟨hts₂, fun hplain => ?_, tracedAll_iff.mpr (List.forall_mem_cons.mpr ⟨htraced, hall⟩)⟩
    obtain ⟨⟨s, text, rfl⟩, hmore⟩ := List.forall_mem_cons.mp hplain
    obtain ⟨us, rfl, hus, rfl⟩ := manyUpTo_plain hothers hmore
    obtain rfl := stringPiece_plain hfirst
    refine ⟨⟨.string, text, s⟩ :: us, ?_, List.forall_mem_cons.mpr ⟨rfl, hus⟩, rfl⟩
    exact (List.prefix_append _ rest).isInfix.trans hts.isInfix

/-! ## Atoms -/

omit hn in
/-- A word as an atom is read only where a word comes next. -/
theorem wordAtom_traced {t : Token} {ts rest : List Token} {e : Expr} (hword : t.kind = .word)
    (hts : t :: ts <:+ T) (heq : wordAtom (t :: ts) = some (e, rest)) : rest <:+ T ∧ Traced T e := by
  have hrest : ts <:+ T := (List.suffix_cons t ts).trans hts
  rw [wordAtom] at heq
  split at heq
  · cases heq
    exact ⟨hrest, trivial⟩
  · split at heq
    · cases heq
    · cases heq
      refine ⟨hrest, ?_⟩
      rw [Traced, Named, ← hword]
      exact hts.subset List.mem_cons_self

theorem finds_operatorAtom : Finds T (operatorAtom n) (Traced T) := by
  refine .peek_bind fun t => ?_
  cases t with
  | none => exact .failure
  | some t =>
    exact .ite (finds_parentheses hn) (.ite (finds_squareBrackets hn) (.ite (finds_braces hn)
      (finds_closing fun _ => trivial)))

theorem finds_atom : Finds T (atom n) (Traced T) := by
  intro ts e rest hts heq
  cases ts with
  | nil => cases heq
  | cons t ts =>
    have hnumber : Finds T (ofKind .number >>= fun t => pure (.number t.span t.text)) (Traced T) :=
      Finds.ofKind.bind fun _ ht => .pure ht
    -- the kind of the next token decides
    rw [atom, peek_bind_cons, Option.map_some] at heq
    cases hkind : t.kind <;> rw [hkind] at heq
    case word => exact wordAtom_traced hkind hts heq
    case number => exact hnumber _ e rest hts heq
    case string => exact finds_strings hn _ e rest hts heq
    case formatOpen => exact finds_strings hn _ e rest hts heq
    case operator => exact finds_operatorAtom hn _ e rest hts heq
    all_goals cases heq

/-! ## Calls and subscripts -/

theorem finds_argument (stage : ArgumentStage) :
    Finds T (argument n stage) fun a => TracedArguments T [a.1] ∧
      ∀ as, a.2.admitsAll as = true → stage.admitsAll (a.1 :: as) = true := by
  refine .sees_bind fun _ => .ite (.token_bind fun _ => ?_) <| .sees_bind fun _ =>
    .ite (.required fun hstage => .token_bind fun _ => ?_) <| .look_bind looks_seesKeyword fun _ => .ite ?_ ?_
  · exact hn.expression.bind fun _ he => .pure ⟨⟨he, trivial⟩, fun _ h => h⟩
  · exact hn.expression.bind fun _ he =>
      .pure ⟨⟨he, trivial⟩, fun _ h => Bool.and_eq_true_iff.mpr ⟨hstage, h⟩⟩
  · exact Finds.identifier.bind fun _ hname => .token_bind fun _ => hn.expression.bind
      fun _ hvalue => .pure ⟨⟨hname, hvalue, trivial⟩, fun _ h => h⟩
  · refine .required fun hstage => (finds_namedExpression hn).bind fun _ he => .pure ⟨⟨he, trivial⟩, fun _ h => ?_⟩
    rw [of_decide_eq_true hstage]
    exact h

theorem finds_argumentsFrom (fuel : Nat) (stage : ArgumentStage) :
    Finds T (argumentsFrom n fuel stage) fun as => TracedArguments T as ∧ stage.admitsAll as = true := by
  induction fuel generalizing stage with
  | zero => exact .failure
  | succ fuel ih =>
    refine .sees_bind fun _ => .ite (.pure ⟨trivial, rfl⟩) ((finds_argument hn stage).bind fun a ha =>
      .sees_bind fun _ => .ite (.token_bind fun _ => ?_) (.pure ⟨ha.1, ha.2 [] rfl⟩))
    exact (ih a.2).bind fun _ has => .pure ⟨ha.1.cons has.1, ha.2 _ has.2⟩

theorem finds_arguments : Finds T (arguments n) fun as =>
    TracedArguments T as.1 ∧ ArgumentStage.positional.admitsAll as.1 = true := by
  have hclose : ∀ as, TracedArguments T as ∧ ArgumentStage.positional.admitsAll as = true →
      Finds T (operator ")" >>= fun closing => pure (as, closing))
        fun as => TracedArguments T as.1 ∧ ArgumentStage.positional.admitsAll as.1 = true :=
    fun _ has => .token_bind fun _ => .pure has
  have hsole : ∀ a, TracedArguments T [a] → Finds T (soleGenerator n a)
      fun g => ∀ a ∈ g, TracedArguments T [a] ∧ ArgumentStage.positional.admitsAll [a] = true := by
    intro a ha
    unfold soleGenerator
    split
    · refine .sees_bind fun _ => .ite ?_ (.pure fun _ h => absurd h (Option.not_mem_none _))
      exact (finds_generatorOf hn ha.1).bind fun _ he => .pure (by simpa using ⟨⟨he, trivial⟩, rfl⟩)
    · exact .pure fun _ h => absurd h (Option.not_mem_none _)
  refine .token_bind fun _ => .get_bind fun ts => .sees_bind fun _ => .ite (hclose [] ⟨trivial, rfl⟩) ?_
  refine (finds_argument hn _).bind fun first hfirst => (hsole first.1 hfirst.1).bind fun sole hsole => ?_
  cases sole with
  | some generator => exact hclose _ (hsole generator rfl)
  | none =>
    refine .sees_bind fun _ => .ite (.token_bind fun _ => ?_) (hclose _ ⟨hfirst.1, hfirst.2 [] rfl⟩)
    exact (finds_argumentsFrom hn _ _).bind fun _ has => hclose _ ⟨hfirst.1.cons has.1, hfirst.2 _ has.2⟩

omit hn in
theorem finds_sliceSpan {start : Span} {bound : Option Expr} :
    Finds T (sliceSpan start bound) fun _ => True := by
  unfold sliceSpan
  split
  · exact .pure trivial
  · refine .peek_bind fun t => ?_
    cases t with
    | none => exact .failure
    | some t => exact .require_bind (.pure trivial)

theorem finds_sliceFrom {lower : Option Expr} (hlower : TracedOption T lower) :
    Finds T (sliceFrom n lower) (Traced T) := by
  refine .token_bind fun _ => hn.expression.attempt.bind fun upper hupper => ?_
  have hbounds := List.forall_mem_append.mpr ⟨hlower.toList, (tracedOption_iff.mpr hupper).toList⟩
  refine .sees_bind fun _ => .ite (.token_bind fun _ => ?_) ?_
  · refine hn.expression.attempt.bind fun step hstep => finds_sliceSpan.bind fun _ _ => .pure ?_
    have hstep := (tracedOption_iff.mpr hstep).toList
    exact tracedAll_iff.mpr (List.forall_mem_append.mpr ⟨hbounds, hstep⟩)
  · exact finds_sliceSpan.bind fun _ _ => .pure (tracedAll_iff.mpr hbounds)

theorem finds_subscriptItem : Finds T (subscriptItem n) (Traced T) := by
  refine .sees_bind fun _ => .ite (finds_sliceFrom hn trivial) <| .sees_bind fun _ =>
    .ite (finds_starredBy hn.expression) ?_
  exact (finds_namedExpression hn).bind fun _ he => .sees_bind fun _ =>
    .ite (finds_sliceFrom hn he) (.pure he)

theorem finds_trailer {e : Expr} (he : Traced T e) : Finds T (trailer n e) (Traced T) := by
  refine .sees_bind fun _ => .ite ?_ (.sees_bind fun _ => .ite ?_ ?_)
  · exact .token_bind fun _ => .token_bind fun _ => .pure he
  · exact (finds_arguments hn).bind fun _ has => .pure ⟨he, has⟩
  · have hitems : Finds T (subscriptItems n) fun items => ∀ e ∈ items.1, Traced T e :=
      .token_bind fun _ => (finds_subscriptItem hn).commaList.bind fun _ hitems =>
        .token_bind fun _ => .pure hitems
    exact hitems.bind fun _ hitems => .pure ⟨he, tracedAll_iff.mpr hitems⟩

theorem finds_trailers (fuel : Nat) {e : Expr} (he : Traced T e) :
    Finds T (trailers n fuel e) (Traced T) := by
  induction fuel generalizing e with
  | zero => exact .pure he
  | succ fuel ih =>
    refine (finds_trailer hn he).attempt.bind fun longer hlonger => ?_
    cases longer with
    | some e' => exact ih (hlonger e' rfl)
    | none => exact .pure he

theorem finds_primary : Finds T (primary n) (Traced T) :=
  (finds_atom hn).bind fun _ he => .get_bind fun _ => finds_trailers hn _ he

/-! ## Operators -/

omit hn in
theorem traced_binaryOf (kind : OperationKind) {left right : Expr} (hleft : Traced T left)
    (hright : Traced T right) : Traced T (binaryOf kind left right) := ⟨hleft, hright, trivial⟩

omit hn in
theorem finds_leftGrouped (kind : OperationKind) {w : Token → Bool} {operand : Parse Expr}
    (h : Finds T operand (Traced T)) :
    Finds T (leftGrouped kind (satisfy w) operand) (Traced T) := by
  refine h.bind fun first hfirst => (finds_many_behind h).bind fun others hothers => .pure ?_
  induction others generalizing first with
  | nil => exact hfirst
  | cons e others ih =>
    obtain ⟨he, hothers⟩ := List.forall_mem_cons.mp hothers
    exact ih _ (traced_binaryOf kind hfirst he) hothers

theorem finds_factor : Finds T (factor n) (Traced T) := by
  have hawaited : Finds T (awaited n) (Traced T) :=
    .sees_bind fun _ => .ite (.token_bind fun _ => (finds_primary hn).bind
      fun _ he => .pure ⟨he, trivial⟩) (finds_primary hn)
  have hpower : Finds T (power n) (Traced T) := by
    have hexponent : Finds T (operator "**" >>= fun _ => n.factor) (Traced T) :=
      .token_bind fun _ => hn.factor
    refine hawaited.bind fun base hbase => hexponent.attempt.bind fun exponent hexponent => ?_
    cases exponent with
    | some e => exact .pure (traced_binaryOf .binary hbase (hexponent e rfl))
    | none => exact .pure hbase
  refine Finds.satisfy.attempt.bind fun sign _ => ?_
  cases sign with
  | some sign => exact hn.factor.bind fun _ he => .pure ⟨he, trivial⟩
  | none => exact hpower

theorem finds_bitwiseOr : Finds T (bitwiseOr n) (Traced T) := by
  have hterm : Finds T (term n) (Traced T) := finds_leftGrouped _ (finds_factor hn)
  have hsum : Finds T (sum n) (Traced T) := finds_leftGrouped _ hterm
  have hshift : Finds T (shift n) (Traced T) := finds_leftGrouped _ hsum
  have hand : Finds T (bitwiseAnd n) (Traced T) := finds_leftGrouped _ hshift
  have hxor : Finds T (bitwiseXor n) (Traced T) := finds_leftGrouped _ hand
  exact finds_leftGrouped _ hxor

omit hn in
theorem finds_comparisonOperator : Finds T comparisonOperator fun _ => True := by
  refine Finds.satisfy.attempt.bind fun sign _ => ?_
  cases sign with
  | some sign => exact .pure trivial
  | none =>
    refine .sees_bind fun _ => .ite (.token_bind fun _ => .pure trivial) <| .sees_bind fun _ =>
      .ite (.token_bind fun _ => .token_bind fun _ => .pure trivial) (.token_bind fun _ => ?_)
    refine Finds.satisfy.attempt.bind fun negated _ => ?_
    cases negated <;> exact .pure trivial

theorem finds_comparison : Finds T (comparison n) (Traced T) := by
  have hother : Finds T (comparisonOperator >>= fun sign => bitwiseOr n >>= fun e => pure (sign, e))
      fun other => Traced T other.2 :=
    finds_comparisonOperator.bind fun _ _ => (finds_bitwiseOr hn).bind fun _ he => .pure he
  refine (finds_bitwiseOr hn).bind fun _ hfirst => hother.many.bind fun others hothers =>
    .ite (.pure hfirst) (.pure ⟨hfirst, tracedAll_iff.mpr fun e he => ?_⟩)
  obtain ⟨other, hother, rfl⟩ := List.mem_map.mp he
  exact hothers other hother

theorem finds_inversion : Finds T (inversion n) (Traced T) :=
  .sees_bind fun _ => .ite (.token_bind fun _ => hn.inversion.bind fun _ he => .pure ⟨he, trivial⟩)
    (finds_comparison hn)

theorem finds_disjunction : Finds T (disjunction n) (Traced T) := by
  have hand : Finds T (conjunction n) (Traced T) := finds_leftGrouped _ (finds_inversion hn)
  exact finds_leftGrouped _ hand

/-! ## Parameters -/

omit hn in
theorem finds_typeHint {p : Parse Expr} (typed : Bool) (hp : Finds T p (Traced T)) :
    Finds T (typeHint typed p) (TracedOption T) := .sees_bind fun _ => finds_behind hp

theorem finds_plainParameter (typed : Bool) (stage : ParameterStage) :
    Finds T (plainParameter n typed stage) fun ps => TracedParameters T ps.1 :=
  .token_bind fun _ => (finds_typeHint typed hn.expression).bind fun _ hhint =>
    .sees_bind fun _ => finds_behind_bind hn.expression fun _ hfallback =>
      .require_bind (.pure ⟨hhint, hfallback, trivial⟩)

theorem finds_starParameter (typed : Bool) (stage : ParameterStage) :
    Finds T (starParameter n typed stage) fun ps => TracedParameters T ps.1 := by
  refine .require_bind (.token_bind fun _ => .sees_bind fun _ => .ite (.token_bind fun _ => ?_)
    (.token_bind fun _ => ?_))
  · exact (finds_plainParameter hn typed _).bind fun _ hps => .pure hps
  · exact (finds_typeHint typed (finds_starExpression hn)).bind fun _ hhint =>
      .pure ⟨hhint, trivial, trivial⟩

theorem finds_parametersFrom (typed : Bool) (closing : String) (fuel : Nat) (stage : ParameterStage) :
    Finds T (parametersFrom n typed closing fuel stage) (TracedParameters T) := by
  induction fuel generalizing stage with
  | zero => exact .failure
  | succ fuel ih =>
    have hrest : ∀ ps : List Parameter × ParameterStage, TracedParameters T ps.1 → Finds T
        (seesOperator "," >>= fun b => if b = true then
            operator "," >>= fun _ => parametersFrom n typed closing fuel ps.2 >>= fun qs =>
              pure (ps.1 ++ qs)
          else seesOperator closing >>= fun b => require b >>= fun _ => pure ps.1)
        (TracedParameters T) := fun ps hps =>
      .sees_bind fun _ => .ite (.token_bind fun _ => (ih ps.2).bind fun _ hqs =>
        .pure (tracedParameters_append.mpr ⟨hps, hqs⟩)) (.sees_bind fun _ => .require_bind (.pure hps))
    refine .sees_bind fun _ => .ite (.pure trivial) <| .sees_bind fun _ =>
      .ite (.token_bind fun _ => .token_bind fun _ => ?_) ?_
    · exact (finds_typeHint typed hn.expression).bind fun _ hhint => Finds.satisfy.attempt.bind
        fun _ _ => .sees_bind fun _ => .require_bind (.pure ⟨hhint, trivial, trivial⟩)
    · refine .sees_bind fun _ => .sees_bind fun _ => .ite ?_ (.ite ?_ ?_)
      · exact (finds_starParameter hn typed stage).bind hrest
      · have hslash : Finds T (slash stage) fun ps => TracedParameters T ps.1 :=
          .require_bind (.token_bind fun _ => .pure trivial)
        exact hslash.bind hrest
      · exact (finds_plainParameter hn typed stage).bind hrest

theorem finds_parameters (typed : Bool) (closing : String) :
    Finds T (parameters n typed closing) (TracedParameters T) :=
  .get_bind fun _ => finds_parametersFrom hn typed closing _ _

/-! ## Whole expressions -/

theorem finds_expression : Finds T (expression n) (Traced T) := by
  have hlambda : Finds T (lambda n) (Traced T) :=
    .token_bind fun _ => (finds_parameters hn false ":").bind fun _ hps => .token_bind fun _ =>
      hn.expression.bind fun _ hbody => .pure ⟨hps, hbody⟩
  have hchoice : Finds T (word "if" >>= fun _ => disjunction n >>= fun test =>
      word "else" >>= fun _ => n.expression >>= fun alternative => pure (test, alternative))
      fun choice => Traced T choice.1 ∧ Traced T choice.2 :=
    .token_bind fun _ => (finds_disjunction hn).bind fun _ htest => .token_bind fun _ =>
      hn.expression.bind fun _ halternative => .pure ⟨htest, halternative⟩
  refine .sees_bind fun _ => .ite hlambda ((finds_disjunction hn).bind fun e he =>
    hchoice.attempt.bind fun choice hparts => ?_)
  cases choice with
  | some choice =>
    obtain ⟨htest, halternative⟩ := hparts choice rfl
    exact .pure ⟨he, htest, halternative, trivial⟩
  | none => exact .pure he

end Grammar

/-- Expressions nested at most a number of levels deep can be traced. -/
theorem nested_traces (depth : Nat) : (nested depth).Traces T := by
  induction depth with
  | zero => exact ⟨.failure, .failure, .failure, .failure, .failure, .failure, .failure⟩
  | succ depth ih =>
    exact ⟨finds_expression ih, finds_disjunction ih, finds_inversion ih, finds_bitwiseOr ih,
      finds_factor ih, finds_primary ih, finds_replacement ih⟩

end Framewise.Script
