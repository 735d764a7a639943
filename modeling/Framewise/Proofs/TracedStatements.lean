import Framewise.Proofs.TracedExpressions
import Framewise.Proofs.StatementPlaces

/-! # Statements and the tokens they were read from

  Every expression in a statement can be traced to the tokens of the script, as the
  parsers of statements give what the parsers of expressions give them.

  Main definition: `TracedStmt`, a statement all of whose expressions are traced.

  Main result: `parseTokens_traced`.
-/

namespace Framewise.Script

open Parse

/-! ## Patterns -/

/-- A parser of which it only matters that it goes on within the script. -/
abbrev Stays {α : Type} (T : List Token) (p : Parse α) : Prop := Finds T p fun _ => True

section Patterns

variable {T : List Token} {n : Nested} (hn : n.Traces T) {pattern : Parse Unit}
  (hpattern : Stays T pattern)

theorem stays_numberPattern : Stays T numberPattern := by
  have hsigned : Stays T signedNumber :=
    Finds.satisfy.attempt.skip.bind fun _ _ => .token_bind fun _ => .pure trivial
  refine hsigned.bind fun first _ => Finds.satisfy.attempt.bind fun sign _ => ?_
  cases sign with
  | some _ => exact .token_bind fun _ => .require
  | none => exact .pure trivial

theorem stays_dottedPattern : Stays T dottedPattern := by
  have hpart : Stays T (operator "." >>= fun _ => identifier) :=
    .token_bind fun _ => Finds.satisfy.mono fun _ _ => trivial
  exact Finds.skip_token.bind fun _ _ => hpart.many.bind fun _ _ => .pure trivial

theorem stays_captureName : Stays T captureName :=
  .token_bind fun _ => .require_bind (.sees_bind fun _ => .require)

include hn in
theorem stays_keyPattern : Stays T (keyPattern n) := by
  refine .peek_bind fun t => ?_
  split
  · exact (finds_strings hn).skip
  · exact (finds_strings hn).skip
  · refine .peek_bind fun _ => .ite .skip_token ?_
    exact stays_dottedPattern.bind fun _ _ => .require
  · exact stays_numberPattern

include hpattern

theorem stays_elementPatterns : Stays T (elementPatterns pattern) := by
  have helement : Stays T (elementPattern pattern) :=
    .sees_bind fun _ => .ite (Finds.skip_token.bind fun _ _ => .skip_token) hpattern
  exact helement.commaList.bind fun _ _ => .pure trivial

theorem stays_parenthesisPattern : Stays T (parenthesisPattern pattern) :=
  Finds.skip_token.bind fun _ _ => .sees_bind fun _ => .ite .skip_token <|
    .sees_bind fun _ => (stays_elementPatterns hpattern).bind fun _ _ => .require_bind .skip_token

theorem stays_bracketPattern : Stays T (bracketPattern pattern) :=
  Finds.skip_token.bind fun _ _ => .sees_bind fun _ => .ite .skip_token <|
    (stays_elementPatterns hpattern).skip.bind fun _ _ => .skip_token

theorem stays_classArguments (fuel : Nat) (keyword : Bool) :
    Stays T (classArguments pattern fuel keyword) := by
  induction fuel generalizing keyword with
  | zero => exact .failure
  | succ fuel ih =>
    refine .sees_bind fun _ => .ite (.pure trivial) (.look_bind looks_seesKeyword fun named => ?_)
    have hrest : Stays T (pattern >>= fun _ => seesOperator "," >>= fun b =>
        if b = true then
          skip (operator ",") >>= fun _ => classArguments pattern fuel (keyword || named)
        else pure ()) :=
      hpattern.bind fun _ _ => .sees_bind fun _ =>
        .ite (Finds.skip_token.bind fun _ _ => ih _) (.pure trivial)
    refine .require_bind (.ite ?_ hrest)
    exact Finds.skip_token.bind fun _ _ => Finds.skip_token.bind fun _ _ => hrest

theorem stays_wordPattern : Stays T (wordPattern pattern) := by
  refine .peek_bind fun _ => .ite .skip_token (stays_dottedPattern.skip.bind fun _ _ =>
    .sees_bind fun _ => .ite ?_ (.sees_bind fun _ => .require))
  exact Finds.skip_token.bind fun _ _ => .get_bind fun _ =>
    (stays_classArguments hpattern _ _).bind fun _ _ => .skip_token

include hn in
theorem stays_mappingPattern : Stays T (mappingPattern n pattern) := by
  have hentry : Stays T (entryPattern n pattern) :=
    (stays_keyPattern hn).bind fun _ _ => Finds.skip_token.bind fun _ _ => hpattern
  have hrest : Stays T restPattern := Finds.skip_token.bind fun _ _ => stays_captureName
  have hclose : Stays T (skip (attempt (operator ",")) >>= fun _ => skip (operator "\x7d")) :=
    Finds.satisfy.attempt.skip.bind fun _ _ => .skip_token
  refine Finds.skip_token.bind fun _ _ => .sees_bind fun _ => .ite .skip_token <|
    .sees_bind fun _ => .ite (hrest.bind fun _ _ => hclose) ?_
  have hentries : Stays T (skip (operator ",") >>= fun _ => entryPattern n pattern) :=
    Finds.skip_token.bind fun _ _ => hentry
  have hlast : Stays T (skip (operator ",") >>= fun _ => restPattern) :=
    Finds.skip_token.bind fun _ _ => hrest
  exact hentry.skip.bind fun _ _ => hentries.many.skip.bind fun _ _ =>
    hlast.attempt.skip.bind fun _ _ => hclose

include hn in
theorem stays_closedPattern : Stays T (closedPattern n pattern) := by
  refine .peek_bind fun t => ?_
  split
  · exact .failure
  · split
    · exact stays_wordPattern hpattern
    · exact (finds_strings hn).skip
    · exact (finds_strings hn).skip
    · exact .ite (stays_parenthesisPattern hpattern) (.ite (stays_bracketPattern hpattern)
        (.ite (stays_mappingPattern hn hpattern) stays_numberPattern))
    · exact stays_numberPattern

include hn in
theorem stays_anyPattern : Stays T (anyPattern n pattern) := by
  have hnext : Stays T (skip (operator "|") >>= fun _ => closedPattern n pattern) :=
    Finds.skip_token.bind fun _ _ => stays_closedPattern hn hpattern
  refine (stays_closedPattern hn hpattern).bind fun _ _ => hnext.many.skip.bind fun _ _ =>
    .sees_bind fun _ => .ite ?_ (.pure trivial)
  exact Finds.skip_token.bind fun _ _ => stays_captureName

omit hpattern

include hn in
theorem stays_casePatterns : Stays T (casePatterns n) := by
  have hpattern : ∀ depth, Stays T (patternUpTo n depth) := by
    intro depth
    induction depth with
    | zero => exact .failure
    | succ depth ih => exact stays_anyPattern hn ih
  exact .get_bind fun _ => .sees_bind fun _ => (stays_elementPatterns (hpattern _)).bind
    fun _ _ => .require

end Patterns

/-! ## Statements -/

mutual

/-- A statement all of whose expressions were read from the tokens of a script. -/
def TracedStmt (T : List Token) : Stmt → Prop
  | .expression _ value => Traced T value
  | .assign _ targets value => TracedAll T targets ∧ Traced T value
  | .annotated _ target hint value => Traced T target ∧ Traced T hint ∧ TracedOption T value
  | .augmented _ target value => Traced T target ∧ Traced T value
  | .return _ value => TracedOption T value
  | .simple _ _ operands => TracedAll T operands
  | .typeAlias _ name parameters value =>
    Traced T name ∧
      (∀ p ∈ parameters, Named T p.span p.name ∧ TracedOption T p.bound ∧ TracedOption T p.fallback) ∧
      Traced T value
  | .function _ decorators _ _ parameters result body =>
    TracedAll T decorators ∧ TracedParameters T parameters ∧ TracedOption T result ∧
      TracedBlock T body
  | .class _ decorators _ _ arguments body =>
    TracedAll T decorators ∧ TracedArguments T arguments ∧ TracedBlock T body
  | .if _ test body orelse => Traced T test ∧ TracedBlock T body ∧ TracedOrelse T orelse
  | .for _ target iterable body orelse =>
    Traced T target ∧ Traced T iterable ∧ TracedBlock T body ∧ TracedOrelse T orelse
  | .while _ test body orelse => Traced T test ∧ TracedBlock T body ∧ TracedOrelse T orelse
  | .try _ body handlers orelse final =>
    TracedBlock T body ∧ TracedHandlers T handlers ∧ TracedOrelse T orelse ∧ TracedOrelse T final
  | .match _ subject cases => Traced T subject ∧ TracedCases T cases
  | .with _ items body => TracedAll T items ∧ TracedBlock T body

/-- `TracedStmt` for each of several statements. -/
def TracedStmts (T : List Token) : List Stmt → Prop
  | [] => True
  | s :: ss => TracedStmt T s ∧ TracedStmts T ss

/-- `TracedStmt` for the statements of a body. -/
def TracedBlock (T : List Token) : Block → Prop
  | .mk _ _ body => TracedStmts T body

/-- `TracedStmt` for the statements of what follows a body. -/
def TracedOrelse (T : List Token) : Orelse → Prop
  | .none => True
  | .chained next => TracedStmt T next
  | .clause _ body => TracedStmts T body

/-- `TracedStmt` for the statements of handlers. -/
def TracedHandlers (T : List Token) : List Handler → Prop
  | [] => True
  | .mk _ type body :: hs => TracedOption T type ∧ TracedBlock T body ∧ TracedHandlers T hs

/-- `TracedStmt` for the statements of cases. -/
def TracedCases (T : List Token) : List Case → Prop
  | [] => True
  | .mk _ guard body :: cs => TracedOption T guard ∧ TracedBlock T body ∧ TracedCases T cs

end

theorem tracedStmts_iff {T : List Token} {ss : List Stmt} :
    TracedStmts T ss ↔ ∀ s ∈ ss, TracedStmt T s := by
  induction ss with
  | nil => simp [TracedStmts]
  | cons s ss ih => rw [TracedStmts, ih, List.forall_mem_cons]

/-! ## Simple statements -/

section Simple

variable {T : List Token} {n : Nested} (hn : n.Traces T)

theorem finds_dottedName : Finds T dottedName (Traced T) := by
  refine Finds.identifier.bind fun first hfirst =>
    (Finds.many (.token_bind fun _ => Finds.identifier)).bind fun parts _ => .pure ?_
  have hdotted : ∀ e, Traced T e → Traced T
      (parts.foldl (fun e part => .attribute (spanning first.span part.span) e part.text) e) := by
    clear * -
    induction parts with
    | nil => exact fun _ he => he
    | cons part parts ih => exact fun _ he => ih _ he
  exact hdotted _ hfirst

theorem finds_aliasName : Finds T aliasName fun es => ∀ e ∈ es, Traced T e := by
  refine .sees_bind fun _ => .ite (.token_bind fun _ => ?_) (.pure (by simp))
  exact Finds.identifier.bind fun _ hname => .pure (List.forall_mem_singleton.mpr hname)

/-- Operands behind a keyword. -/
theorem traced_keywordStatement {kind : SimpleKind} {keyword : Token} {es : List Expr}
    (h : ∀ e ∈ es, Traced T e) : TracedStmt T (keywordStatement kind keyword es) :=
  tracedAll_iff.mpr h

theorem finds_importStatement : Finds T importStatement (TracedStmt T) := by
  have hitem : Finds T importStatement.dottedItem fun es => ∀ e ∈ es, Traced T e :=
    finds_dottedName.bind fun _ hname => finds_aliasName.bind fun _ halias =>
      .pure (List.forall_mem_cons.mpr ⟨hname, halias⟩)
  refine .token_bind fun _ => hitem.bind fun _ hfirst =>
    (Finds.many (.token_bind fun _ => hitem)).bind fun _ hothers => .pure ?_
  exact traced_keywordStatement (List.forall_mem_append.mpr ⟨hfirst, traced_flatten hothers⟩)

theorem finds_importedNames : Finds T importedNames fun r => ∀ e ∈ r.1, Traced T e := by
  have hname : Finds T importedName fun es => ∀ e ∈ es, Traced T e :=
    Finds.identifier.bind fun _ hname => finds_aliasName.bind fun _ halias =>
      .pure (List.forall_mem_cons.mpr ⟨hname, halias⟩)
  refine .sees_bind fun _ => .ite (.token_bind fun _ => .pure (by simp)) <|
    .sees_bind fun _ => .ite (.token_bind fun _ => ?_) ?_
  · exact hname.commaList.bind fun _ hnames => .token_bind fun _ => .pure (traced_flatten hnames)
  · refine hname.bind fun _ hfirst => (Finds.many (.token_bind fun _ => hname)).bind
      fun _ hothers => .pure ?_
    exact List.forall_mem_append.mpr ⟨hfirst, traced_flatten hothers⟩

theorem finds_importFromStatement : Finds T importFromStatement (TracedStmt T) := by
  refine .token_bind fun keyword => (Finds.many .satisfy).bind fun dots _ => ?_
  have hrest : ∀ module : Option Expr, (∀ e ∈ module, Traced T e) →
      Finds T (word "import" >>= fun _ => importedNames >>= fun r =>
        pure (.simple (spanning keyword.span r.2) .importFrom (module.toList ++ r.1))) (TracedStmt T) := by
    intro module hmodule
    refine .token_bind fun _ => finds_importedNames.bind fun _ hnames => .pure ?_
    refine tracedAll_iff.mpr (List.forall_mem_append.mpr ⟨?_, hnames⟩)
    exact fun e he => hmodule e (Option.mem_toList.mp he)
  refine .ite ?_ ?_
  · exact (finds_dottedName.map (g := some) (Q := fun c => ∀ e ∈ c, Traced T e)
      fun _ he => by simpa using he).bind hrest
  · exact finds_dottedName.attempt.bind hrest

theorem finds_declaration (kind : SimpleKind) (text : String) :
    Finds T (declaration kind text) (TracedStmt T) := by
  refine .token_bind fun _ => Finds.identifier.bind fun _ hfirst =>
    (Finds.many (.token_bind fun _ => Finds.identifier)).bind fun others hothers => .pure ?_
  have hnames : ∀ t ∈ _ :: others, Named T t.span t.text := List.forall_mem_cons.mpr ⟨hfirst, hothers⟩
  refine traced_keywordStatement fun e he => ?_
  obtain ⟨t, ht, rfl⟩ := List.mem_map.mp he
  exact hnames t ht

theorem finds_fallbackOf {p : Parse Expr} (hp : Finds T p (Traced T)) :
    Finds T (fallbackOf p) (TracedOption T) := .sees_bind fun _ => finds_behind hp

include hn

theorem finds_deleteStatement : Finds T (deleteStatement n) (TracedStmt T) :=
  .token_bind fun _ => (finds_starExpressions hn).bind fun _ he => .require_bind <|
    .sees_bind fun _ => .require_bind (.pure (traced_keywordStatement (by simpa using he)))

theorem finds_assertStatement : Finds T (assertStatement n) (TracedStmt T) := by
  refine .token_bind fun _ => hn.expression.bind fun test htest => .sees_bind fun _ =>
    finds_behind_bind hn.expression fun message hmessage => .pure ?_
  refine traced_keywordStatement (List.forall_mem_cons.mpr ⟨htest, fun e he => ?_⟩)
  exact tracedOption_iff.mp hmessage e (Option.mem_toList.mp he)

theorem finds_raiseStatement : Finds T (raiseStatement n) (TracedStmt T) := by
  refine .token_bind fun _ => hn.expression.attempt.bind fun e he => ?_
  cases e with
  | none => exact .pure (traced_keywordStatement (by simp))
  | some e =>
    refine .sees_bind fun _ => finds_behind_bind hn.expression fun cause hcause => .pure ?_
    refine traced_keywordStatement (List.forall_mem_cons.mpr ⟨he e rfl, fun c hc => ?_⟩)
    exact tracedOption_iff.mp hcause c (Option.mem_toList.mp hc)

theorem finds_returnStatement : Finds T (returnStatement n) (TracedStmt T) :=
  .token_bind fun _ => (finds_starExpressions hn).attempt.bind fun _ he =>
    .pure (tracedOption_iff.mpr he)

/-- A type parameter whose parts are traced. -/
def TracedTypeParameter (T : List Token) (p : TypeParameter) : Prop :=
  Named T p.span p.name ∧ TracedOption T p.bound ∧ TracedOption T p.fallback

theorem finds_typeParameter : Finds T (typeParameter n) (TracedTypeParameter T) := by
  refine .sees_bind fun _ => .ite (.token_bind fun _ => ?_) <|
    .sees_bind fun _ => .ite (.token_bind fun _ => ?_) ?_
  · exact Finds.identifier.bind fun _ hname => (finds_fallbackOf (finds_starExpression hn)).bind
      fun _ hfallback => .pure ⟨hname, trivial, hfallback⟩
  · exact Finds.identifier.bind fun _ hname => (finds_fallbackOf hn.expression).bind
      fun _ hfallback => .pure ⟨hname, trivial, hfallback⟩
  · exact Finds.identifier.bind fun _ hname => (finds_typeHint true hn.expression).bind
      fun _ hbound => (finds_fallbackOf hn.expression).bind
        fun _ hfallback => .pure ⟨hname, hbound, hfallback⟩

theorem finds_typeParameters :
    Finds T (typeParameters n) fun ps => ∀ p ∈ ps, TracedTypeParameter T p :=
  .sees_bind fun _ => .ite (.token_bind fun _ => (finds_typeParameter hn).commaList.bind
    fun _ hps => .token_bind fun _ => .pure hps) (.pure (by simp))

theorem finds_typeAliasStatement : Finds T (typeAliasStatement n) (TracedStmt T) :=
  .token_bind fun _ => Finds.identifier.bind fun _ hname => (finds_typeParameters hn).bind
    fun _ hps => .token_bind fun _ => hn.expression.bind fun _ hvalue =>
      .pure ⟨hname, hps, hvalue⟩

theorem finds_assignRest (start : Span) (fuel : Nat) {targets : List Expr}
    (htargets : ∀ e ∈ targets, Traced T e) :
    Finds T (assignRest n start fuel targets) (TracedStmt T) := by
  induction fuel generalizing targets with
  | zero => exact .failure
  | succ fuel ih =>
    refine .token_bind fun _ => (finds_yieldOrExpressions hn).bind fun value hvalue =>
      .sees_bind fun _ => .ite (.require_bind (ih ?_)) (.pure ⟨tracedAll_iff.mpr htargets, hvalue⟩)
    exact List.forall_mem_append.mpr ⟨htargets, by simpa using hvalue⟩

theorem finds_expressionStatement : Finds T (expressionStatement n) (TracedStmt T) := by
  refine (finds_starExpressions hn).bind fun e he => .sees_bind fun _ => .ite (.require_bind ?_) <|
    .sees_bind fun _ => .ite (.require_bind ?_) ?_
  · refine .token_bind fun _ => hn.expression.bind fun hint hhint => .sees_bind fun _ =>
      .ite (.token_bind fun _ => ?_) (.pure ⟨he, hhint, trivial⟩)
    exact (finds_yieldOrExpressions hn).bind fun _ hvalue => .pure ⟨he, hhint, hvalue⟩
  · exact .get_bind fun _ => finds_assignRest hn _ _ (by simpa using he)
  · refine Finds.satisfy.attempt.bind fun sign _ => ?_
    cases sign with
    | some _ => exact .require_bind ((finds_yieldOrExpressions hn).bind fun _ hvalue => .pure ⟨he, hvalue⟩)
    | none => exact .pure he

theorem finds_simpleStatement : Finds T (simpleStatement n) (TracedStmt T) := by
  refine .peek_bind fun t => ?_
  cases t with
  | none => exact .failure
  | some t =>
    refine .ite (finds_expressionStatement hn) ?_
    split
    · exact finds_returnStatement hn
    · exact finds_importStatement
    · exact finds_importFromStatement
    · exact finds_raiseStatement hn
    · exact .token_bind fun _ => .pure trivial
    · exact .token_bind fun _ => .pure trivial
    · exact .token_bind fun _ => .pure trivial
    · exact finds_deleteStatement hn
    · exact finds_assertStatement hn
    · exact finds_declaration _ _
    · exact finds_declaration _ _
    · exact (finds_yieldExpression hn).bind fun _ he => .pure he
    · exact .look_bind looks_seesTypeAlias fun _ => .ite (finds_typeAliasStatement hn)
        (finds_expressionStatement hn)

theorem finds_simpleStatements :
    Finds T (simpleStatements n) fun ss => ∀ s ∈ ss, TracedStmt T s := by
  refine (finds_simpleStatement hn).bind fun _ hfirst =>
    (Finds.many (.token_bind fun _ => (finds_simpleStatement hn))).bind fun _ hothers =>
      Finds.satisfy.attempt.bind fun _ _ => .token_bind fun _ => .pure ?_
  exact List.forall_mem_cons.mpr ⟨hfirst, hothers⟩

end Simple

/-! ## Compound statements -/

section Compound

variable {T : List Token} {n : Nested} (hn : n.Traces T) {statement : Parse (List Stmt)}
  (hstatement : Finds T statement fun ss => ∀ s ∈ ss, TracedStmt T s)

include hn hstatement

theorem finds_block : Finds T (block n statement) (TracedBlock T) := by
  refine .sees_bind fun _ => .ite (.token_bind fun _ => .token_bind fun _ => ?_) ?_
  · refine hstatement.many1.bind fun bodies hbodies => .token_bind fun _ => .pure ?_
    refine tracedStmts_iff.mpr fun s hs => ?_
    obtain ⟨ss, hss, hs⟩ := List.mem_flatten.mp hs
    exact hbodies ss hss s hs
  · exact (finds_simpleStatements hn).bind fun _ hbody => .pure (tracedStmts_iff.mpr hbody)

theorem finds_colonBlock : Finds T (colonBlock n statement) (TracedBlock T) :=
  .token_bind fun _ => finds_block hn hstatement

theorem finds_clause (text : String) :
    Finds T (clause n statement text) (TracedOrelse T) := by
  refine .sees_bind fun _ => .ite (.token_bind fun _ => ?_) (.pure trivial)
  refine (finds_colonBlock hn hstatement).bind fun body hbody => .pure ?_
  cases body
  exact hbody

theorem finds_ifStatement (text : String) (fuel : Nat) :
    Finds T (ifStatement n statement text fuel) (TracedStmt T) := by
  induction fuel generalizing text with
  | zero => exact .failure
  | succ fuel ih =>
    have hchained : Finds T (Orelse.chained <$> ifStatement n statement "elif" fuel)
        (TracedOrelse T) := (ih "elif").map fun _ hs => hs
    exact .token_bind fun _ => (finds_namedExpression hn).bind fun _ htest =>
      (finds_colonBlock hn hstatement).bind fun _ hbody => .sees_bind fun _ => .ite
        (hchained.bind fun _ horelse => .pure ⟨htest, hbody, horelse⟩)
        ((finds_clause hn hstatement "else").bind fun _ horelse => .pure ⟨htest, hbody, horelse⟩)

theorem finds_whileStatement : Finds T (whileStatement n statement) (TracedStmt T) :=
  .token_bind fun _ => (finds_namedExpression hn).bind fun _ htest =>
    (finds_colonBlock hn hstatement).bind fun _ hbody => (finds_clause hn hstatement "else").bind
      fun _ horelse => .pure ⟨htest, hbody, horelse⟩

theorem finds_forStatement (start : Span) :
    Finds T (forStatement n statement start) (TracedStmt T) := by
  have htargets : Finds T (starTargets n) (Traced T) :=
    finds_starTargets hn
  exact .token_bind fun _ => htargets.bind fun _ htarget => .token_bind fun _ =>
    (finds_starExpressions hn).bind fun _ hiterable => (finds_colonBlock hn hstatement).bind
      fun _ hbody => (finds_clause hn hstatement "else").bind
        fun _ horelse => .pure ⟨htarget, hiterable, hbody, horelse⟩

theorem finds_handler (grouped : Bool) : Finds T (handler n statement grouped)
    fun h => TracedHandlers T [h] := by
  refine .token_bind fun keyword => .sees_bind fun _ => ?_
  have hrest : ∀ type : Option Expr, TracedOption T type → Finds T (do
      if type.isSome && (← seesWord "as") then
        let _ ← word "as"
        let _ ← identifier
      let body ← colonBlock n statement
      return Handler.mk (spanning keyword.span body.span) type body)
      fun h => TracedHandlers T [h] := by
    intro type htype
    have hbody : Finds T (colonBlock n statement >>= fun body =>
        pure (Handler.mk (spanning keyword.span body.span) type body))
        fun h => TracedHandlers T [h] :=
      (finds_colonBlock hn hstatement).bind fun _ hbody => .pure ⟨htype, hbody, trivial⟩
    exact .sees_bind fun _ => .ite (.token_bind fun _ => .token_bind fun _ => hbody) hbody
  have hsome : Finds T (some <$> n.expression) (TracedOption T) :=
    hn.expression.map fun _ he => he
  exact .ite (.token_bind fun _ => hsome.bind hrest)
    (.ite (hrest none trivial) (hsome.bind hrest))

omit hn hstatement in
theorem tracedHandlers_iff {hs : List Handler} :
    TracedHandlers T hs ↔ ∀ h ∈ hs, TracedHandlers T [h] := by
  induction hs with
  | nil => simp [TracedHandlers]
  | cons h hs ih =>
    cases h
    simp [TracedHandlers, ih, and_assoc]

theorem finds_tryStatement : Finds T (tryStatement n statement) (TracedStmt T) := by
  refine .token_bind fun _ => (finds_colonBlock hn hstatement).bind fun _ hbody =>
    .sees_bind fun _ => .ite ?_ (.look_bind looks_seesGroupedHandler fun grouped => ?_)
  · exact (finds_clause hn hstatement "finally").bind fun _ hfinal =>
      .pure ⟨hbody, trivial, trivial, hfinal⟩
  · exact (finds_handler hn hstatement grouped).many1.bind fun _ hhandlers =>
      (finds_clause hn hstatement "else").bind fun _ horelse =>
        (finds_clause hn hstatement "finally").bind fun _ hfinal =>
          .pure ⟨hbody, tracedHandlers_iff.mpr hhandlers, horelse, hfinal⟩

omit hstatement in
theorem finds_withItem : Finds T (withItem n) fun es => ∀ e ∈ es, Traced T e := by
  refine hn.expression.bind fun e he => ?_
  have htarget : Finds T (do
      let _ ← word "as"
      let target ← starTarget n
      require (← sees fun t => t.isOperator "," || t.isOperator ")" || t.isOperator ":")
      return target) (Traced T) :=
    .token_bind fun _ => (finds_starTarget hn).bind fun _ htarget =>
      .sees_bind fun _ => .require_bind (.pure htarget)
  refine htarget.attempt.bind fun target htarget => ?_
  cases target with
  | some target => exact .pure (by simpa using ⟨he, htarget target rfl⟩)
  | none => exact .pure (by simpa using he)

omit hstatement in
theorem finds_withItemsInParentheses :
    Finds T (withItemsInParentheses n) fun es => ∀ e ∈ es, Traced T e :=
  .token_bind fun _ => (finds_withItem hn).commaList.bind fun _ hitems => .token_bind fun _ =>
    .sees_bind fun _ => .require_bind (.pure (traced_flatten hitems))

omit hstatement in
theorem finds_withItems : Finds T (withItems n) fun es => ∀ e ∈ es, Traced T e :=
  (finds_withItem hn).bind fun _ hfirst => (Finds.many (.token_bind fun _ => (finds_withItem hn))).bind
    fun _ hothers => .pure (List.forall_mem_append.mpr ⟨hfirst, traced_flatten hothers⟩)

theorem finds_withStatement (start : Span) :
    Finds T (withStatement n statement start) (TracedStmt T) := by
  have hrest : ∀ items : List Expr, (∀ e ∈ items, Traced T e) →
      Finds T (colonBlock n statement >>= fun body =>
        pure (.with (spanning start body.span) items body)) (TracedStmt T) := fun items hitems =>
    (finds_colonBlock hn hstatement).bind fun _ hbody => .pure ⟨tracedAll_iff.mpr hitems, hbody⟩
  refine .token_bind fun _ => (finds_withItemsInParentheses hn).attempt.bind fun items hitems => ?_
  cases items with
  | some items => exact hrest items (hitems items rfl)
  | none => exact (finds_withItems hn).bind hrest

theorem finds_functionStatement {decorators : List Expr} (start : Span)
    (hdecorators : ∀ e ∈ decorators, Traced T e) :
    Finds T (functionStatement n statement decorators start) (TracedStmt T) := by
  have hps : Finds T (parameters n true ")") (TracedParameters T) :=
    finds_parameters hn true ")"
  refine .token_bind fun _ => .token_bind fun _ => (finds_typeParameters hn).bind fun _ _ =>
    .token_bind fun _ => hps.bind fun _ hps => .token_bind fun _ => .sees_bind fun _ =>
      finds_behind_bind hn.expression fun _ hresult => ?_
  exact (finds_colonBlock hn hstatement).bind fun _ hbody =>
    .pure ⟨tracedAll_iff.mpr hdecorators, hps, hresult, hbody⟩

theorem finds_classStatement {decorators : List Expr} (hdecorators : ∀ e ∈ decorators, Traced T e) :
    Finds T (classStatement n statement decorators) (TracedStmt T) := by
  have harguments : ∀ fuel stage, Finds T (argumentsFrom n fuel stage)
      (TracedArguments T) := fun fuel stage =>
    (finds_argumentsFrom hn fuel stage).mono fun _ h => h.1
  have hrest : ∀ (span : Span) (name : String) (types : List TypeParameter) (as : List Argument),
      TracedArguments T as → Finds T (colonBlock n statement >>= fun body =>
        pure (.class (spanning span body.span) decorators name types as body)) (TracedStmt T) :=
    fun _ _ _ _ has => (finds_colonBlock hn hstatement).bind fun _ hbody =>
      .pure ⟨tracedAll_iff.mpr hdecorators, has, hbody⟩
  exact .token_bind fun _ => .token_bind fun _ => (finds_typeParameters hn).bind fun _ _ =>
    .sees_bind fun _ => .ite (.token_bind fun _ => .get_bind fun _ => (harguments _ _).bind
      fun as has => .token_bind fun _ => hrest _ _ _ as has) (hrest _ _ _ [] trivial)

theorem finds_asyncStatement : Finds T (asyncStatement n statement) (TracedStmt T) :=
  .token_bind fun _ => .sees_bind fun _ => .ite
    (finds_functionStatement hn hstatement _ fun _ h => absurd h List.not_mem_nil) <|
    .sees_bind fun _ => .ite (finds_forStatement hn hstatement _) (finds_withStatement hn hstatement _)

theorem finds_decoratedStatement :
    Finds T (decoratedStatement n statement) (TracedStmt T) := by
  have hdecorator : Finds T (decorator n) (Traced T) :=
    .token_bind fun _ => (finds_namedExpression hn).bind fun _ he => .token_bind fun _ => .pure he
  refine hdecorator.many1.bind fun _ hdecorators => .sees_bind fun _ => .ite
    (finds_classStatement hn hstatement hdecorators) (.peek_bind fun _ => ?_)
  exact Finds.satisfy.attempt.bind fun _ _ => finds_functionStatement hn hstatement _ hdecorators

theorem finds_matchCase : Finds T (matchCase n statement) fun c => TracedCases T [c] := by
  refine .token_bind fun _ => (stays_casePatterns hn).bind fun _ _ => .sees_bind fun _ =>
    finds_behind_bind (finds_namedExpression hn) fun _ hguard => ?_
  exact (finds_colonBlock hn hstatement).bind fun _ hbody => .pure ⟨hguard, hbody, trivial⟩

omit hn hstatement in
theorem tracedCases_iff {cs : List Case} : TracedCases T cs ↔ ∀ c ∈ cs, TracedCases T [c] := by
  induction cs with
  | nil => simp [TracedCases]
  | cons c cs ih =>
    cases c
    simp [TracedCases, ih, and_assoc]

theorem finds_matchStatement : Finds T (matchStatement n statement) (TracedStmt T) := by
  have hsubject : Finds T (starNamedExpression n) (Traced T) :=
    finds_starNamedExpression hn
  refine .token_bind fun _ => hsubject.commaList.bind fun _ hsubjects => .require_bind <|
    .token_bind fun _ => .token_bind fun _ => .token_bind fun _ =>
      (finds_matchCase hn hstatement).many1.bind fun _ hcases => .token_bind fun _ => .pure ?_
  exact ⟨traced_tupleOf hsubjects, tracedCases_iff.mpr hcases⟩

theorem finds_anyStatement :
    Finds T (anyStatement n statement) fun ss => ∀ s ∈ ss, TracedStmt T s := by
  have hone : ∀ {p : Parse Stmt}, Finds T p (TracedStmt T) →
      Finds T (List.singleton <$> p) fun ss => ∀ s ∈ ss, TracedStmt T s :=
    fun hp => hp.map fun _ hs => by simpa [List.singleton] using hs
  have hmatch : Finds T (matchOrSimple n statement) fun ss => ∀ s ∈ ss, TracedStmt T s := by
    refine (finds_matchStatement hn hstatement).attempt.bind fun s hs => ?_
    cases s with
    | some s => exact .pure (by simpa using hs s rfl)
    | none => exact finds_simpleStatements hn
  have hnone : ∀ e ∈ ([] : List Expr), Traced T e := fun _ h => absurd h List.not_mem_nil
  refine .get_bind fun ts => ?_
  cases ts.head? with
  | none => exact .failure
  | some t =>
    refine .ite (hone (finds_decoratedStatement hn hstatement)) (.ite (finds_simpleStatements hn) ?_)
    split
    · exact hone (finds_functionStatement hn hstatement _ hnone)
    · exact hone (finds_classStatement hn hstatement hnone)
    · exact hone (finds_asyncStatement hn hstatement)
    · exact hone (finds_ifStatement hn hstatement _ _)
    · exact hone (finds_whileStatement hn hstatement)
    · exact hone (finds_forStatement hn hstatement _)
    · exact hone (finds_tryStatement hn hstatement)
    · exact hone (finds_withStatement hn hstatement _)
    · exact hmatch
    · exact finds_simpleStatements hn

end Compound

/-! ## Scripts -/

/-- Every expression of a script can be traced to its tokens. -/
theorem parseTokens_traced {tokens : List Token} {body : List Stmt}
    (h : parseTokens tokens = some body) : ∀ s ∈ body, TracedStmt tokens s := by
  have hstatement : ∀ n depth, Finds tokens (statementUpTo (nested n) depth)
      fun ss => ∀ s ∈ ss, TracedStmt tokens s := by
    intro n depth
    have hn : (nested n).Traces tokens := nested_traces n
    induction depth with
    | zero => exact .failure
    | succ depth ih => exact finds_anyStatement hn ih
  simp only [parseTokens] at h
  split at h
  next bodies heq =>
    cases h
    obtain ⟨-, hbodies⟩ := (hstatement _ _).many tokens bodies [] List.suffix_rfl heq
    intro s hs
    obtain ⟨ss, hss, hs⟩ := List.mem_flatten.mp hs
    exact hbodies ss hss s hs
  next => cases h

end Framewise.Script
