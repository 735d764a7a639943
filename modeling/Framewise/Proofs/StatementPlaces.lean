import Framewise.Proofs.ExpressionPlaces

/-! # Places of statements

  The grammar of statements keeps places too. Patterns are not kept, so of their
  parsers it matters only that they take tokens from the front. A body consists of
  at least one statement; that is what gives it a place.

  Main result: `parseTokens_located`, the pieces of a script lie where its tokens lie.
-/

namespace Framewise.Script

open Parse

variable {V : Pos → Prop} {lo mid mid' hi : Pos}

/-! ## Patterns -/

theorem Passes.skip {α : Type} {p : Parse α} (hp : Passes V p) : Passes V (skip p) :=
  hp.bind fun _ => .pure ()

theorem passes_signedNumber : Passes V signedNumber :=
  .bind (.skip (passes_satisfy _).attempt) fun _ => .bind (passes_satisfy _) fun _ => .pure _

theorem passes_numberPattern : Passes V numberPattern := by
  refine .bind passes_signedNumber fun first => .bind (passes_satisfy _).attempt fun sign => ?_
  cases sign with
  | some _ => exact .bind (passes_satisfy _) fun _ => .require _
  | none => exact .pure ()

theorem passes_dottedPattern : Passes V dottedPattern :=
  .bind (.skip (passes_satisfy _)) fun _ =>
    .bind (.many (.bind (passes_satisfy _) fun _ => passes_satisfy _)) fun _ => .pure _

theorem passes_captureName : Passes V captureName :=
  .bind (passes_satisfy _) fun _ => .bind (.require _) fun _ => .sees_bind fun _ => .require _

section Patterns

variable {n : Nested} (hn : n.KeepsPlaces V) {pattern : Parse Unit} (hpattern : Passes V pattern)

theorem passes_strings (hn : n.KeepsPlaces V) : Passes V (strings n) := fun lo =>
  (reads_strings hn lo).mono fun _ _ _ _ => trivial

theorem passes_starPattern : Passes V starPattern :=
  .bind (.skip (passes_satisfy _)) fun _ => .skip (passes_satisfy _)

include hpattern

theorem passes_elementPatterns : Passes V (elementPatterns pattern) := by
  have helement : Passes V (elementPattern pattern) :=
    .sees_bind fun _ => .ite passes_starPattern hpattern
  exact .bind helement.commaList fun _ => .pure _

theorem passes_parenthesisPattern : Passes V (parenthesisPattern pattern) := by
  refine .bind (.skip (passes_satisfy _)) fun _ => .sees_bind fun _ => .ite ?_ ?_
  · exact .skip (passes_satisfy _)
  · refine .sees_bind fun _ => .bind (passes_elementPatterns hpattern) fun _ => ?_
    exact .bind (.require _) fun _ => .skip (passes_satisfy _)

theorem passes_bracketPattern : Passes V (bracketPattern pattern) := by
  refine .bind (.skip (passes_satisfy _)) fun _ => .sees_bind fun _ => .ite ?_ ?_
  · exact .skip (passes_satisfy _)
  · exact .bind (.skip (passes_elementPatterns hpattern)) fun _ => .skip (passes_satisfy _)

theorem passes_classArguments (fuel : Nat) (keyword : Bool) :
    Passes V (classArguments pattern fuel keyword) := by
  induction fuel generalizing keyword with
  | zero => exact .failure
  | succ fuel ih =>
    refine .sees_bind fun _ => .ite (.pure ()) ?_
    refine .bind (.look looks_seesKeyword) fun named => .bind (.require _) fun _ => ?_
    have hrest : Passes V (pattern >>= fun _ => seesOperator "," >>= fun b =>
        if b = true then
          skip (operator ",") >>= fun _ => classArguments pattern fuel (keyword || named)
        else pure ()) :=
      .bind hpattern fun _ => .sees_bind fun _ =>
        .ite (.bind (.skip (passes_satisfy _)) fun _ => ih _) (.pure ())
    refine .ite ?_ hrest
    exact .bind (.skip (passes_satisfy _)) fun _ => .bind (.skip (passes_satisfy _)) fun _ => hrest

theorem passes_wordPattern : Passes V (wordPattern pattern) := by
  refine .bind (.look (looks_fun _)) fun _ => .ite (.skip (passes_satisfy _)) ?_
  refine .bind (.skip passes_dottedPattern) fun _ => .sees_bind fun _ => .ite ?_ ?_
  · refine .bind (.skip (passes_satisfy _)) fun _ => .bind (.look (looks_fun _)) fun _ => ?_
    exact .bind (passes_classArguments hpattern _ _) fun _ => .skip (passes_satisfy _)
  · exact .sees_bind fun _ => .require _

omit hpattern
include hn

theorem passes_keyPattern : Passes V (keyPattern n) := by
  refine .bind (.look (looks_fun _)) fun t => ?_
  split
  · exact .skip (passes_strings hn)
  · exact .skip (passes_strings hn)
  · refine .bind (.look (looks_fun _)) fun _ => .ite (.skip (passes_satisfy _)) ?_
    exact .bind passes_dottedPattern fun _ => .require _
  · exact passes_numberPattern

include hpattern

theorem passes_mappingPattern : Passes V (mappingPattern n pattern) := by
  have hentry : Passes V (entryPattern n pattern) :=
    .bind (passes_keyPattern hn) fun _ => .bind (.skip (passes_satisfy _)) fun _ => hpattern
  have hrest : Passes V restPattern := .bind (.skip (passes_satisfy _)) fun _ => passes_captureName
  have hclose : Passes V (skip (attempt (operator ",")) >>= fun _ => skip (operator "\x7d")) :=
    .bind (.skip (passes_satisfy _).attempt) fun _ => .skip (passes_satisfy _)
  refine .bind (.skip (passes_satisfy _)) fun _ => .sees_bind fun _ => .ite ?_ ?_
  · exact .skip (passes_satisfy _)
  · refine .sees_bind fun _ => .ite (.bind hrest fun _ => hclose) ?_
    refine .bind (.skip hentry) fun _ => .bind (.skip (.many ?_)) fun _ =>
      .bind (.skip (.attempt ?_)) fun _ => hclose
    · exact .bind (.skip (passes_satisfy _)) fun _ => hentry
    · exact .bind (.skip (passes_satisfy _)) fun _ => hrest

theorem passes_closedPattern : Passes V (closedPattern n pattern) := by
  refine .bind (.look (looks_fun _)) fun t => ?_
  split
  · exact .failure
  · split
    · exact passes_wordPattern hpattern
    · exact .skip (passes_strings hn)
    · exact .skip (passes_strings hn)
    · exact .ite (passes_parenthesisPattern hpattern) (.ite (passes_bracketPattern hpattern)
        (.ite (passes_mappingPattern hn hpattern) passes_numberPattern))
    · exact passes_numberPattern

theorem passes_anyPattern : Passes V (anyPattern n pattern) := by
  refine .bind (passes_closedPattern hn hpattern) fun _ => .bind (.skip (.many ?_)) fun _ =>
    .sees_bind fun _ => .ite ?_ (.pure ())
  · exact .bind (.skip (passes_satisfy _)) fun _ => passes_closedPattern hn hpattern
  · exact .bind (.skip (passes_satisfy _)) fun _ => passes_captureName

omit hpattern

theorem passes_patternUpTo (depth : Nat) : Passes V (patternUpTo n depth) := by
  induction depth with
  | zero => exact .failure
  | succ depth ih => exact passes_anyPattern hn ih

theorem passes_casePatterns : Passes V (casePatterns n) := by
  refine .bind (.look (looks_fun _)) fun ts => .sees_bind fun _ => ?_
  exact .bind (passes_elementPatterns (passes_patternUpTo hn _)) fun _ => .require _

end Patterns

/-! ## Statements from their parts -/

/-- A place from which a statement can begin. -/
structure Begins (V : Pos → Prop) (lo mid : Pos) (s : Span) : Prop where
  valid : V s.start
  lo_le : lo ≤ s.start
  le_mid : s.start ≤ mid

theorem Token.Lies.begins {t : Token} (h : t.Lies V lo mid) : Begins V lo mid t.span :=
  ⟨h.within.1, h.within.3, h.within.4.trans h.within.5⟩

theorem Begins.before {s : Span} (h : Begins V lo mid s) (hle : mid ≤ mid') : Begins V lo mid' s :=
  ⟨h.valid, h.lo_le, h.le_mid.trans hle⟩

theorem Begins.spanning {s t : Span} (h : Begins V lo mid s) (ht : t.Within V mid hi) :
    (spanning s t).Within V lo hi :=
  ⟨h.valid, ht.2, h.lo_le, h.le_mid.trans (ht.3.trans ht.4), ht.5⟩

theorem Begins.le {s : Span} (h : Begins V lo mid s) : lo ≤ mid := h.lo_le.trans h.le_mid

/-- A parser of statements that keeps places. -/
def ReadsStmt (V : Pos → Prop) (p : Parse Stmt) : Prop := ∀ lo, Reads V lo p (Stmt.Lies V lo)

/-- A parser of at least one statement that keeps places. -/
def ReadsStmts (V : Pos → Prop) (p : Parse (List Stmt)) : Prop :=
  ∀ lo, Reads V lo p fun hi ss => Chain (Stmt.Lies V) lo hi ss ∧ ss ≠ []

theorem Chain.stmts {ss : List Stmt} (h : Chain (Stmt.Lies V) lo hi ss) :
    Located V lo hi (stmtOutlines ss) := by
  have hsingle : ∀ s, stmtOutlines [s] = s.outline := fun s => by
    rw [stmtOutlines, stmtOutlines, List.append_nil]
  refine h.located rfl (fun s ss => by rw [stmtOutlines, hsingle]) fun lo hi s hs => ?_
  rw [hsingle]
  exact hs

/-- A type parameter in its place. -/
def TypeParameter.Lies (V : Pos → Prop) (lo hi : Pos) (p : TypeParameter) : Prop :=
  Located V lo hi p.outline

theorem TypeParameter.Lies.mk {p : TypeParameter} (hspan : p.span.Within V lo mid)
    (hbound : OptionLies V mid mid' p.bound) (hfallback : OptionLies V mid' hi p.fallback) :
    p.Lies V lo hi := by
  have hparts := hbound.located.append hfallback.located
  exact .plain (hspan.mono le_rfl hparts.le) (hparts.after hspan.lo_le_hi)

theorem Chain.typeParameters {ps : List TypeParameter}
    (h : Chain (TypeParameter.Lies V) lo hi ps) : Located V lo hi (typeParameterOutlines ps) := by
  have hsingle : ∀ p, typeParameterOutlines [p] = p.outline := fun p => by
    simp [typeParameterOutlines]
  refine h.located rfl (fun p ps => by simp [typeParameterOutlines]) fun lo hi p hp => ?_
  rw [hsingle]
  exact hp

theorem Expr.Lies.begins {e : Expr} (h : e.Lies V lo mid) : Begins V lo mid e.extent :=
  ⟨h.extent.1, h.extent.3, h.extent.4.trans h.extent.5⟩

/-! ## Simple statements -/

theorem keywordStatement_lies (kind : SimpleKind) {keyword : Token} {es : List Expr}
    (hkeyword : keyword.Lies V lo mid) (hes : Chain (Expr.Lies V) mid hi es) :
    (keywordStatement kind keyword es).Lies V lo hi := by
  have hspan := Chain.spanning_last (fun _ _ _ h => Expr.Lies.extent h) hkeyword.within hes
  exact .plain hspan (hes.after hkeyword.lt.le).exprs

/-- The names of a dotted name begin where it begins. -/
theorem foldl_attribute_lies {first : Token} {parts : List Token} {e : Expr}
    (he : e.Lies V lo mid) (hstart : ∀ s, spanning e.extent s = spanning first.span s)
    (hparts : Chain (fun lo hi t => ∃ start, lo < start ∧ Token.Lies V start hi t) mid hi parts) :
    (parts.foldl (fun e part => .attribute (spanning first.span part.span) e part.text) e).Lies
      V lo hi := by
  induction parts generalizing e mid with
  | nil => exact he.mono le_rfl hparts
  | cons part parts ih =>
    obtain ⟨start, stop, hle, -, ⟨dot, hdot, hpart⟩, hrest⟩ := hparts
    have hnext := he.attributed part.text (hle.trans_lt hdot) hpart
    rw [hstart] at hnext
    exact ih hnext (fun s => rfl) hrest

theorem reads_dottedName : ReadsExpr V dottedName := by
  intro lo
  refine (reads_identifier lo).bind fun mid first _ hfirst => ?_
  have hpart : ∀ lo, Reads V lo (operator "." >>= fun _ => identifier)
      fun hi t => ∃ start, lo < start ∧ Token.Lies V start hi t := fun lo =>
    (reads_operator "." lo).bind fun start _ _ hdot =>
      (reads_identifier start).mono fun _ _ _ ht => ⟨start, hdot.lt, ht⟩
  refine (reads_many hpart mid).bind fun hi parts _ hparts => .pure ?_
  have hname : (Expr.name first.span first.text).Lies V lo mid := .leaf hfirst.within
  exact foldl_attribute_lies hname (fun s => rfl) hparts

theorem reads_aliasName : ReadsExprs V aliasName := by
  intro lo
  refine .sees_bind fun _ => .ite (fun _ => ?_) fun _ => .pure (.nil le_rfl)
  refine (reads_word "as" lo).bind fun mid _ hmid _ => ?_
  refine (reads_identifier mid).bind fun hi name _ hname => .pure ?_
  have hlies : (Expr.name name.span name.text).Lies V mid hi := .leaf hname.within
  exact hlies.chain.after hmid

theorem reads_importStatement : ReadsStmt V importStatement := by
  intro lo
  have hitem : ReadsExprs V importStatement.dottedItem := fun lo =>
    (reads_dottedName lo).bind fun mid name _ hname =>
      (reads_aliasName mid).bind fun hi as _ has => .pure (.cons hname.le hname has)
  refine (reads_word "import" lo).bind fun mid keyword _ hkeyword => ?_
  refine (hitem mid).bind fun _ first _ hfirst => ?_
  refine (reads_many_behind (passes_satisfy _) hitem _).bind fun hi others _ hothers => .pure ?_
  exact keywordStatement_lies _ hkeyword (hfirst.append hothers.flatten)

theorem reads_importedName (lo : Pos) :
    Reads V lo importedName fun hi es => Chain (Expr.Lies V) lo hi es ∧ es ≠ [] := by
  refine (reads_identifier lo).bind fun mid name hmid hname => ?_
  have hlies : (Expr.name name.span name.text).Lies V lo mid := .leaf hname.within
  exact (reads_aliasName mid).bind fun hi as _ has => .pure ⟨.cons hmid hlies has, nofun⟩

theorem reads_importedNames (lo : Pos) : Reads V lo importedNames fun hi names =>
    Chain (Expr.Lies V) lo hi names.1 ∧ names.2.Within V lo hi := by
  have hname : ReadsExprs V importedName := fun lo =>
    (reads_importedName lo).mono fun _ _ _ h => h.1
  refine .sees_bind fun _ => .ite (fun _ => ?_) fun _ => .sees_bind fun _ => .ite (fun _ => ?_)
    fun _ => ?_
  · -- everything; the star is the only piece
    refine (reads_operator "*" lo).bind fun hi star hhi hstar => ?_
    exact .pure ⟨.nil hhi, hstar.within⟩
  · -- names in parentheses, up to the closing one
    refine (reads_operator "(" lo).bind fun mid _ hmid _ => ?_
    refine (reads_commaList hname mid).bind fun mid' names hmid' hnames => ?_
    obtain ⟨-, stop, hstop, hchain, -⟩ := hnames
    refine (reads_operator ")" mid').bind fun hi closing hhi hclosing => .pure ⟨?_, ?_⟩
    · exact (hchain.flatten.after hmid).before (hstop.trans hhi)
    · exact hclosing.within.mono (hmid.trans hmid') le_rfl
  · -- names without parentheses, up to the last
    refine (reads_importedName lo).bind fun mid first _ hfirst => ?_
    refine (reads_many_behind (passes_satisfy _) hname mid).bind fun hi others _ hothers => ?_
    obtain ⟨hfirst, hne⟩ := hfirst
    have hall := hfirst.append hothers.flatten
    refine .pure ⟨hall, ?_⟩
    obtain ⟨e, es, rfl⟩ := List.exists_cons_of_ne_nil hne
    obtain ⟨start, stop, hstart, -, he, hrest⟩ := hall
    change (lastExtent ⟨0, 0, 0, 0⟩ (e :: (es ++ others.flatten))).Within V lo hi
    rw [lastExtent_cons]
    exact (Chain.last_within (fun _ _ _ h => Expr.Lies.extent h) he.extent hrest).mono hstart le_rfl

theorem reads_importFromStatement : ReadsStmt V importFromStatement := by
  intro lo
  refine (reads_word "from" lo).bind fun start keyword _ hkeyword => ?_
  refine ((passes_satisfy _).many start).bind fun mid dots hdots _ => ?_
  have hdone : ∀ mid' module, OptionLies V start mid' module → Reads V mid'
      (word "import" >>= fun _ => importedNames >>= fun names => pure (.simple
        (spanning keyword.span names.2) .importFrom (module.toList ++ names.1)))
      (Stmt.Lies V lo) := by
    intro mid' module hmodule
    refine (reads_word "import" mid').bind fun _ _ himport _ => ?_
    refine (reads_importedNames _).bind fun hi names _ hnames => .pure ?_
    obtain ⟨hnames, hstop⟩ := hnames
    have hoperands := hmodule.chain.append (hnames.after himport)
    exact .plain (hkeyword.within.spanning hstop (hmodule.le.trans himport))
      (hoperands.after hkeyword.lt.le).exprs
  refine .ite (fun _ => ?_) fun _ => ?_
  · -- without dots there is a module
    refine (reads_some (reads_dottedName mid)).bind fun mid' module _ hmodule => ?_
    exact hdone mid' module (hmodule.after hdots)
  · -- behind dots there may be none
    refine (reads_option (reads_dottedName mid)).bind fun mid' module _ hmodule => ?_
    exact hdone mid' module (hmodule.after hdots)

theorem reads_declaration (kind : SimpleKind) (text : String) :
    ReadsStmt V (declaration kind text) := by
  intro lo
  refine (reads_word text lo).bind fun mid keyword _ hkeyword => ?_
  refine (reads_identifier mid).bind fun _ first hfirst first_lies => ?_
  refine (reads_many_behind (passes_satisfy _) reads_identifier _).bind
    fun hi others _ hothers => .pure ?_
  refine keywordStatement_lies kind hkeyword (Chain.map (fun _ _ t ht => ?_)
    (.cons hfirst first_lies hothers))
  exact Expr.Lies.leaf (Token.Lies.within ht)

theorem reads_bareStatement (kind : SimpleKind) (text : String) :
    ReadsStmt V (bareStatement kind text) := fun lo =>
  (reads_word text lo).bind fun _ _ _ hkeyword => .pure (Expr.Lies.leaf hkeyword.within)

section Simple

variable {n : Nested} (hn : n.KeepsPlaces V)
include hn

theorem reads_deleteStatement : ReadsStmt V (deleteStatement n) := by
  intro lo
  refine (reads_word "del" lo).bind fun mid keyword _ hkeyword => ?_
  refine (reads_starExpressions hn mid).bind fun hi target _ htarget => ?_
  refine .require_bind fun _ => .sees_bind fun _ => .require_bind fun _ => .pure ?_
  exact keywordStatement_lies .delete hkeyword htarget.chain

theorem reads_assertStatement : ReadsStmt V (assertStatement n) := by
  intro lo
  refine (reads_word "assert" lo).bind fun mid keyword _ hkeyword => ?_
  refine (hn.expression mid).bind fun mid' test _ htest => ?_
  have hdone : ∀ hi message, OptionLies V mid' hi message →
      (keywordStatement .assert keyword (test :: message.toList)).Lies V lo hi :=
    fun hi message hmessage =>
      keywordStatement_lies .assert hkeyword (.cons htest.le htest hmessage.chain)
  refine .sees_bind fun _ => .ite (fun _ => ?_) fun _ => .pure (hdone mid' none (.none le_rfl))
  refine (reads_operator "," mid').bind fun _ _ hcomma _ => ?_
  refine (reads_some (hn.expression _)).bind fun hi message _ hmessage => ?_
  exact .pure (hdone hi message (hmessage.after hcomma))

theorem reads_raiseStatement : ReadsStmt V (raiseStatement n) := by
  intro lo
  refine (reads_word "raise" lo).bind fun mid keyword _ hkeyword => ?_
  refine (reads_option (hn.expression mid)).bind fun mid' raised hmid' hraised => ?_
  cases raised with
  | none => exact .pure (keywordStatement_lies .raise hkeyword (.nil hmid'))
  | some e =>
    have he := hraised.lies e rfl
    have hdone : ∀ hi cause, OptionLies V mid' hi cause →
        (keywordStatement .raise keyword (e :: cause.toList)).Lies V lo hi :=
      fun hi cause hcause =>
        keywordStatement_lies .raise hkeyword (.cons he.le he hcause.chain)
    refine .sees_bind fun _ => .ite (fun _ => ?_) fun _ => .pure (hdone mid' none (.none le_rfl))
    refine (reads_word "from" mid').bind fun _ _ hfrom _ => ?_
    refine (reads_some (hn.expression _)).bind fun hi cause _ hcause => ?_
    exact .pure (hdone hi cause (hcause.after hfrom))

theorem reads_returnStatement : ReadsStmt V (returnStatement n) := by
  intro lo
  refine (reads_word "return" lo).bind fun mid keyword hmid hkeyword => ?_
  refine (reads_option (reads_starExpressions hn mid)).bind fun hi value _ hvalue => .pure ?_
  exact .plain (hvalue.spanning hkeyword.within) (hvalue.located.after hmid)

omit hn in
theorem reads_fallbackOf {p : Parse Expr} (h : ReadsExpr V p) (lo : Pos) :
    Reads V lo (fallbackOf p) (OptionLies V lo) := by
  refine .sees_bind fun _ => .ite (fun _ => ?_) fun _ => .pure (.none le_rfl)
  refine (reads_operator "=" lo).bind fun mid _ hmid _ => ?_
  exact (reads_some (h mid)).mono fun _ _ _ he => he.after hmid

theorem reads_typeParameter (lo : Pos) :
    Reads V lo (typeParameter n) (TypeParameter.Lies V lo) := by
  refine .sees_bind fun _ => .ite (fun _ => ?_) fun _ => .sees_bind fun _ => .ite (fun _ => ?_)
    fun _ => ?_
  · refine (reads_operator "*" lo).bind fun mid _ hmid _ => ?_
    refine (reads_identifier mid).bind fun mid' name _ hname => ?_
    refine (reads_fallbackOf (reads_starExpression hn) mid').bind fun hi e _ he => .pure ?_
    exact .mk (hname.within.mono hmid le_rfl) (.none le_rfl) he
  · refine (reads_operator "**" lo).bind fun mid _ hmid _ => ?_
    refine (reads_identifier mid).bind fun mid' name _ hname => ?_
    refine (reads_fallbackOf hn.expression mid').bind fun hi e _ he => .pure ?_
    exact .mk (hname.within.mono hmid le_rfl) (.none le_rfl) he
  · refine (reads_identifier lo).bind fun mid name _ hname => ?_
    refine (reads_typeHint true hn.expression mid).bind fun mid' bound _ hbound => ?_
    refine (reads_fallbackOf hn.expression mid').bind fun hi e _ he => .pure ?_
    exact .mk hname.within hbound he

theorem reads_typeParameters (lo : Pos) :
    Reads V lo (typeParameters n) (Chain (TypeParameter.Lies V) lo) := by
  refine .sees_bind fun _ => .ite (fun _ => ?_) fun _ => .pure (.nil le_rfl)
  refine (reads_operator "[" lo).bind fun mid _ hmid _ => ?_
  refine (reads_commaList (reads_typeParameter hn) mid).bind fun mid' ps _ hps => ?_
  obtain ⟨-, stop, hstop, hchain, -⟩ := hps
  refine (reads_operator "]" mid').bind fun hi _ hhi _ => .pure ?_
  exact (hchain.after hmid).before (hstop.trans hhi)

theorem reads_typeAliasStatement : ReadsStmt V (typeAliasStatement n) := by
  intro lo
  refine (reads_word "type" lo).bind fun start keyword _ hkeyword => ?_
  refine (reads_identifier start).bind fun mid name hmid hname => ?_
  refine (reads_typeParameters hn mid).bind fun mid' ps hmid' hps => ?_
  refine (reads_operator "=" mid').bind fun _ _ hequals _ => ?_
  refine (hn.expression _).bind fun hi value _ hvalue => .pure ?_
  have hvalue := hvalue.after hequals
  have hname : (Expr.name name.span name.text).Lies V start mid := .leaf hname.within
  have hparts := (Located.append hname hps.typeParameters).append hvalue
  exact .plain (hkeyword.within.spanning hvalue.extent (hmid.trans hmid'))
    (hparts.after hkeyword.lt.le)

theorem reads_assignRest (fuel : Nat) {start : Span} {targets : List Expr}
    (hstart : Begins V lo mid start) (htargets : Chain (Expr.Lies V) lo mid targets) :
    Reads V mid (assignRest n start fuel targets) (Stmt.Lies V lo) := by
  induction fuel generalizing mid targets with
  | zero => exact .failure
  | succ fuel ih =>
    refine (reads_operator "=" mid).bind fun _ _ hequals _ => ?_
    refine (reads_yieldOrExpressions hn _).bind fun hi value _ hvalue => ?_
    have hvalue := hvalue.after hequals
    refine .sees_bind fun _ => .ite (fun _ => .require_bind fun _ => ?_) fun _ => .pure ?_
    · -- what was read as the value is one more target
      exact ih (hstart.before hvalue.le) (htargets.append hvalue.chain)
    · -- it is the value
      exact .plain (hstart.spanning hvalue.extent) (htargets.exprs.append hvalue)

theorem reads_expressionStatement : ReadsStmt V (expressionStatement n) := by
  intro lo
  refine (reads_starExpressions hn lo).bind fun mid e _ he => ?_
  refine .sees_bind fun _ => .ite (fun _ => .require_bind fun _ => ?_) fun _ =>
    .sees_bind fun _ => .ite (fun _ => .require_bind fun _ => ?_) fun _ => ?_
  · -- an annotation, perhaps with a value
    refine (reads_operator ":" mid).bind fun _ _ hcolon _ => ?_
    refine (hn.expression _).bind fun mid' hint _ hhint => ?_
    have hhint := hhint.after hcolon
    refine .sees_bind fun _ => .ite (fun _ => ?_) fun _ => .pure ?_
    · refine (reads_operator "=" mid').bind fun _ _ hequals _ => ?_
      refine (reads_yieldOrExpressions hn _).bind fun hi value _ hvalue => .pure ?_
      have hvalue := hvalue.after hequals
      exact .plain (he.extent.spanning hvalue.extent hhint.le) ((he.append hhint).append hvalue)
    · exact .plain (he.extent.spanning hhint.extent le_rfl)
        ((Located.append he hhint).append (.nil le_rfl))
  · exact .get_bind fun ts => reads_assignRest hn ts.length he.begins he.chain
  · -- an operator with a value, or the expression alone
    refine (reads_operatorIn _ mid).attempt.bind fun mid' sign hmid' _ => ?_
    cases sign with
    | some _ =>
      refine .require_bind fun _ => ?_
      refine (reads_yieldOrExpressions hn mid').bind fun hi value _ hvalue => .pure ?_
      have hvalue := hvalue.after hmid'
      exact .plain (he.extent.spanning hvalue.extent le_rfl) (Located.append he hvalue)
    | none =>
      have he := he.mono le_rfl hmid'
      exact .pure (.plain he.extent he)

omit hn in
theorem looks_seesTypeAlias : Looks seesTypeAlias := by
  intro ts a rest heq
  unfold seesTypeAlias at heq
  split at heq <;> (cases heq; rfl)

theorem reads_simpleStatement : ReadsStmt V (simpleStatement n) := by
  intro lo
  refine .peek_bind fun t => ?_
  cases t with
  | none => exact .failure
  | some t =>
    refine .ite (fun _ => reads_expressionStatement hn lo) fun _ => ?_
    split
    · exact reads_returnStatement hn lo
    · exact reads_importStatement lo
    · exact reads_importFromStatement lo
    · exact reads_raiseStatement hn lo
    · exact reads_bareStatement _ _ lo
    · exact reads_bareStatement _ _ lo
    · exact reads_bareStatement _ _ lo
    · exact reads_deleteStatement hn lo
    · exact reads_assertStatement hn lo
    · exact reads_declaration _ _ lo
    · exact reads_declaration _ _ lo
    · refine (reads_yieldExpression hn lo).bind fun hi e _ he => .pure ?_
      exact .plain he.extent he
    · exact .look_bind looks_seesTypeAlias fun _ => .ite
        (fun _ => reads_typeAliasStatement hn lo) fun _ => reads_expressionStatement hn lo

theorem reads_simpleStatements : ReadsStmts V (simpleStatements n) := by
  intro lo
  refine (reads_simpleStatement hn lo).bind fun _ first hfirst first_lies => ?_
  refine (reads_many_behind (passes_satisfy _) (reads_simpleStatement hn) _).bind
    fun _ others _ hothers => ?_
  refine ((passes_satisfy _).attempt _).bind fun _ _ hsemicolon _ => ?_
  refine (passes_satisfy _ _).bind fun _ _ hnewline _ => .pure ⟨?_, nofun⟩
  exact (Chain.cons hfirst first_lies hothers).before (hsemicolon.trans hnewline)

end Simple

/-! ## Bodies -/

theorem statementsSpan_within {ss : List Stmt} (h : Chain (Stmt.Lies V) lo hi ss) (hne : ss ≠ []) :
    (statementsSpan ss).Within V lo hi := by
  obtain ⟨s, ss, rfl⟩ := List.exists_cons_of_ne_nil hne
  obtain ⟨start, stop, hstart, -, hs, hrest⟩ := h
  have hspan := Chain.spanning_last (fun _ _ _ h => Stmt.Lies.span h) hs.span hrest
  have heq : statementsSpan (s :: ss) =
      spanning s.span ((ss.getLast?.map Stmt.span).getD s.span) := by
    cases hlast : ss.getLast? <;> simp [statementsSpan, List.getLast?_cons, hlast]
  rw [heq]
  exact hspan.mono hstart le_rfl

/-- A body in its place. -/
def Block.Lies (V : Pos → Prop) (lo hi : Pos) (b : Block) : Prop := Located V lo hi b.outline

theorem Block.Lies.span {b : Block} (h : b.Lies V lo hi) : b.span.Within V lo hi := by
  cases b
  exact h.within _ List.mem_cons_self

theorem Block.Lies.statements {b : Block} (h : b.Lies V lo hi) :
    Located V lo hi (stmtOutlines b.statements) := by
  cases b
  exact Located.of_plain h

theorem Block.Lies.of_chain {ss : List Stmt} (kind : BlockKind) (h : Chain (Stmt.Lies V) lo hi ss)
    (hne : ss ≠ []) : (Block.mk (statementsSpan ss) kind ss).Lies V lo hi :=
  .plain (statementsSpan_within h hne) h.stmts

/-- What follows a body, in its place. -/
def Orelse.Lies (V : Pos → Prop) (lo hi : Pos) (o : Orelse) : Prop := Located V lo hi o.outline

/-- A statement ends with what follows its body, or with the body. -/
theorem Orelse.Lies.stop {o : Orelse} {s : Span} (h : o.Lies V mid hi) (hs : s.Within V lo mid) :
    ((o.span?).getD s).Within V lo hi := by
  cases o with
  | none => exact hs.mono le_rfl h.le
  | chained next => exact (Stmt.Lies.span h).mono hs.lo_le_hi le_rfl
  | clause span body => exact (h.within _ List.mem_cons_self).mono hs.lo_le_hi le_rfl

/-- A handler in its place. -/
def Handler.Lies (V : Pos → Prop) (lo hi : Pos) (h : Handler) : Prop :=
  Located V lo hi (handlerOutlines [h])

theorem Handler.Lies.span {h : Handler} (hlies : h.Lies V lo hi) : h.span.Within V lo hi := by
  cases h
  exact hlies.within _ List.mem_cons_self

theorem Chain.handlers {hs : List Handler} (h : Chain (Handler.Lies V) lo hi hs) :
    Located V lo hi (handlerOutlines hs) := by
  refine h.located rfl (fun h hs => ?_) fun _ _ _ hh => hh
  cases h
  simp [handlerOutlines]

/-- A case in its place. -/
def Case.Lies (V : Pos → Prop) (lo hi : Pos) (c : Case) : Prop := Located V lo hi (caseOutlines [c])

theorem Case.Lies.span {c : Case} (h : c.Lies V lo hi) : c.span.Within V lo hi := by
  cases c
  exact h.within _ List.mem_cons_self

theorem Chain.cases {cs : List Case} (h : Chain (Case.Lies V) lo hi cs) :
    Located V lo hi (caseOutlines cs) := by
  refine h.located rfl (fun c cs => ?_) fun _ _ _ hc => hc
  cases c
  simp [caseOutlines]

/-! ## Compound statements -/

section Compound

variable {n : Nested} (hn : n.KeepsPlaces V) {statement : Parse (List Stmt)}
  (hstatement : ReadsStmts V statement)
include hn hstatement

theorem reads_block (lo : Pos) : Reads V lo (block n statement) (Block.Lies V lo) := by
  refine .sees_bind fun _ => .ite (fun _ => ?_) fun _ => ?_
  · -- indented on lines of its own
    refine (passes_satisfy _ lo).bind fun _ _ hnewline _ => ?_
    refine (passes_satisfy _ _).bind fun mid _ hindent _ => ?_
    refine (reads_many1 hstatement mid).bind fun mid' bodies _ hbodies => ?_
    obtain ⟨hbodies, hne⟩ := hbodies
    have hchain : Chain (Stmt.Lies V) mid mid' bodies.flatten :=
      Chain.flatten (by simpa using hbodies.map (f := id) fun _ _ _ h => h.1)
    have hflat : bodies.flatten ≠ [] := by
      obtain ⟨ss, bodies, rfl⟩ := List.exists_cons_of_ne_nil hne
      obtain ⟨-, -, -, -, ⟨-, hss⟩, -⟩ := hbodies
      simp [hss]
    refine (passes_satisfy _ mid').bind fun hi _ hdedent _ => .pure ?_
    exact .of_chain _ ((hchain.after (hnewline.trans hindent)).before hdedent) hflat
  · -- on the same line
    exact (reads_simpleStatements hn lo).bind fun _ _ _ h => .pure (.of_chain _ h.1 h.2)

theorem reads_colonBlock (lo : Pos) : Reads V lo (colonBlock n statement) (Block.Lies V lo) :=
  (reads_operator ":" lo).bind fun mid _ hmid _ =>
    (reads_block hn hstatement mid).mono fun _ _ _ h => h.after hmid

theorem reads_clause (text : String) (lo : Pos) :
    Reads V lo (clause n statement text) (Orelse.Lies V lo) := by
  refine .sees_bind fun _ => .ite (fun _ => ?_) fun _ => .pure (.nil le_rfl)
  refine (reads_word text lo).bind fun mid keyword hmid hkeyword => ?_
  refine (reads_colonBlock hn hstatement mid).bind fun hi body _ hbody => .pure ?_
  exact .plain (hkeyword.within.spanning hbody.span le_rfl) (hbody.statements.after hmid)

theorem reads_ifStatement (text : String) (fuel : Nat) :
    ReadsStmt V (ifStatement n statement text fuel) := by
  induction fuel generalizing text with
  | zero => exact fun lo => .failure
  | succ fuel ih =>
    intro lo
    refine (reads_word text lo).bind fun mid keyword hmid hkeyword => ?_
    refine (reads_namedExpression hn mid).bind fun mid₁ test htest test_lies => ?_
    refine (reads_colonBlock hn hstatement mid₁).bind fun mid₂ body _ hbody => ?_
    have hdone : ∀ hi orelse, orelse.Lies V mid₂ hi → (Stmt.if
        (spanning keyword.span (stopOf body.span [orelse])) test body orelse).Lies V lo hi := by
      intro hi orelse horelse
      have hparts := (Located.append test_lies hbody).append horelse
      exact .plain (hkeyword.within.spanning (horelse.stop hbody.span) htest)
        (hparts.after hmid)
    have hchained : Reads V mid₂ (Orelse.chained <$> ifStatement n statement "elif" fuel)
        (Orelse.Lies V mid₂) := (ih "elif" mid₂).map fun _ _ _ h => h
    refine .sees_bind fun _ => .ite (fun _ => ?_) fun _ => ?_
    · exact hchained.bind fun hi orelse _ horelse => .pure (hdone hi orelse horelse)
    · exact (reads_clause hn hstatement "else" mid₂).bind fun hi orelse _ horelse =>
        .pure (hdone hi orelse horelse)

theorem reads_whileStatement : ReadsStmt V (whileStatement n statement) := by
  intro lo
  refine (reads_word "while" lo).bind fun mid keyword hmid hkeyword => ?_
  refine (reads_namedExpression hn mid).bind fun mid₁ test htest test_lies => ?_
  refine (reads_colonBlock hn hstatement mid₁).bind fun mid₂ body _ hbody => ?_
  refine (reads_clause hn hstatement "else" mid₂).bind fun hi orelse _ horelse => .pure ?_
  have hparts := (Located.append test_lies hbody).append horelse
  exact .plain (hkeyword.within.spanning (horelse.stop hbody.span) htest) (hparts.after hmid)

theorem reads_forStatement {start : Span} (hstart : Begins V lo mid start) :
    Reads V mid (forStatement n statement start) (Stmt.Lies V lo) := by
  refine (reads_word "for" mid).bind fun mid₁ _ hfor _ => ?_
  refine (reads_starTargets hn mid₁).bind fun mid₂ target _ htarget => ?_
  refine (reads_word "in" mid₂).bind fun mid₃ _ hin _ => ?_
  refine (reads_starExpressions hn mid₃).bind fun mid₄ iterable _ hiterable => ?_
  refine (reads_colonBlock hn hstatement mid₄).bind fun mid₅ body _ hbody => ?_
  refine (reads_clause hn hstatement "else" mid₅).bind fun hi orelse _ horelse => .pure ?_
  have hloop := Located.append htarget (hiterable.after hin)
  have hparts := ((hloop.append hbody).append horelse).after (hstart.le.trans hfor)
  have hspan := (hstart.before (hfor.trans hloop.le)).spanning (horelse.stop hbody.span)
  exact .plain hspan hparts

theorem reads_handler (grouped : Bool) (lo : Pos) :
    Reads V lo (handler n statement grouped) (Handler.Lies V lo) := by
  refine (reads_word "except" lo).bind fun mid keyword hmid hkeyword => .sees_bind fun _ => ?_
  -- the name of the error is not kept
  have hrest : ∀ mid₁ type, OptionLies V mid mid₁ type → Reads V mid₁ (do
      if type.isSome && (← seesWord "as") then
        let _ ← word "as"
        let _ ← identifier
      let body ← colonBlock n statement
      return .mk (spanning keyword.span body.span) type body) (Handler.Lies V lo) := by
    intro mid₁ type htype
    refine .sees_bind fun _ =>
      .optional_bind (passes_satisfy _) (passes_satisfy _) fun mid₂ hle => ?_
    refine (reads_colonBlock hn hstatement mid₂).bind fun hi body _ hbody => .pure ?_
    unfold Handler.Lies
    rw [handlerOutlines, handlerOutlines, List.append_nil]
    have hspan := hkeyword.within.spanning hbody.span (htype.le.trans hle)
    exact .plain hspan ((htype.located.append (hbody.after hle)).after hmid)
  refine .ite (fun _ => ?_) fun _ => .ite (fun _ => ?_) fun _ => ?_
  · refine (reads_operator "*" mid).bind fun _ _ hstar _ => ?_
    refine (reads_some (hn.expression _)).bind fun mid₁ type _ htype => ?_
    exact hrest mid₁ type (htype.after hstar)
  · exact hrest mid none (.none le_rfl)
  · exact (reads_some (hn.expression mid)).bind fun mid₁ type _ htype => hrest mid₁ type htype

omit hn hstatement in
theorem looks_seesGroupedHandler : Looks seesGroupedHandler := by
  intro ts a rest heq
  unfold seesGroupedHandler at heq
  split at heq <;> (cases heq; rfl)

theorem reads_tryStatement : ReadsStmt V (tryStatement n statement) := by
  intro lo
  refine (reads_word "try" lo).bind fun mid keyword hmid hkeyword => ?_
  refine (reads_colonBlock hn hstatement mid).bind fun mid₁ body _ hbody => ?_
  refine .sees_bind fun _ => .ite (fun _ => ?_) fun _ => ?_
  · -- no handlers, so the close must be there
    refine (reads_clause hn hstatement "finally" mid₁).bind fun hi final _ hfinal => .pure ?_
    have hparts : Located V mid hi (body.outline ++ [] ++ [] ++ final.outline) := by
      simpa using Located.append hbody hfinal
    exact .plain (hkeyword.within.spanning (hfinal.stop hbody.span) le_rfl) (hparts.after hmid)
  · -- the first handler decides whether all are grouped
    refine .look_bind looks_seesGroupedHandler fun grouped => ?_
    refine (reads_many1 (reads_handler hn hstatement grouped) mid₁).bind
      fun mid₂ handlers _ hhandlers => ?_
    refine (reads_clause hn hstatement "else" mid₂).bind fun mid₃ orelse _ horelse => ?_
    refine (reads_clause hn hstatement "finally" mid₃).bind fun hi final _ hfinal => .pure ?_
    have hparts := (Located.append hbody hhandlers.1.handlers).append horelse |>.append hfinal
    have hlast := Chain.last_within (fun _ _ _ h => Handler.Lies.span h) hbody.span hhandlers.1
    have hstop := hfinal.stop (horelse.stop hlast)
    exact .plain (hkeyword.within.spanning hstop le_rfl) (hparts.after hmid)

omit hstatement

theorem reads_withItem : ReadsExprs V (withItem n) := by
  intro lo
  refine (hn.expression lo).bind fun mid e _ he => ?_
  have htarget : Reads V mid (do
      let _ ← word "as"
      let target ← starTarget n
      require (← sees fun t => t.isOperator "," || t.isOperator ")" || t.isOperator ":")
      return target) (Expr.Lies V mid) := by
    refine (reads_word "as" mid).bind fun _ _ has _ => ?_
    refine (reads_starTarget hn _).bind fun hi target _ htarget => ?_
    exact .sees_bind fun _ => .require_bind fun _ => .pure (htarget.after has)
  refine htarget.attempt.bind fun hi target hhi hlies => ?_
  cases target with
  | some target => exact .pure (.cons he.le he (hlies target rfl).chain)
  | none => exact .pure (he.mono le_rfl hhi).chain

theorem reads_withItemsInParentheses : ReadsExprs V (withItemsInParentheses n) := by
  intro lo
  refine (reads_operator "(" lo).bind fun mid _ hmid _ => ?_
  refine (reads_commaList (reads_withItem hn) mid).bind fun mid' items _ hitems => ?_
  obtain ⟨-, stop, hstop, hchain, -⟩ := hitems
  refine (reads_operator ")" mid').bind fun hi _ hhi _ => .sees_bind fun _ =>
    .require_bind fun _ => .pure ?_
  exact (hchain.flatten.after hmid).before (hstop.trans hhi)

theorem reads_withItems : ReadsExprs V (withItems n) := by
  intro lo
  refine (reads_withItem hn lo).bind fun mid first _ hfirst => ?_
  refine (reads_many_behind (passes_satisfy _) (reads_withItem hn) mid).bind
    fun hi others _ hothers => .pure ?_
  exact hfirst.append hothers.flatten

include hstatement

theorem reads_withStatement {start : Span} (hstart : Begins V lo mid start) :
    Reads V mid (withStatement n statement start) (Stmt.Lies V lo) := by
  refine (reads_word "with" mid).bind fun mid₁ _ hwith _ => ?_
  have hrest : ∀ mid₂ items, Chain (Expr.Lies V) mid₁ mid₂ items → Reads V mid₂
      (colonBlock n statement >>= fun body => pure (.with (spanning start body.span) items body))
      (Stmt.Lies V lo) := by
    intro mid₂ items hitems
    refine (reads_colonBlock hn hstatement mid₂).bind fun hi body _ hbody => .pure ?_
    have hspan := (hstart.before (hwith.trans hitems.le)).spanning hbody.span
    exact .plain hspan ((hitems.exprs.append hbody).after (hstart.le.trans hwith))
  refine (reads_withItemsInParentheses hn mid₁).attempt.bind fun mid₂ items hmid₂ hitems => ?_
  cases items with
  | some items => exact hrest mid₂ items (hitems items rfl)
  | none =>
    refine (reads_withItems hn mid₂).bind fun mid₃ items _ hitems => ?_
    exact hrest mid₃ items (hitems.after hmid₂)

theorem reads_functionStatement {decorators : List Expr} {start : Span}
    (hdecorators : Chain (Expr.Lies V) lo mid decorators) (hstart : Begins V lo mid start) :
    Reads V mid (functionStatement n statement decorators start) (Stmt.Lies V lo) := by
  refine (reads_word "def" mid).bind fun _ _ hdef _ => ?_
  refine (reads_identifier _).bind fun mid₁ name hname _ => ?_
  refine (reads_typeParameters hn mid₁).bind fun mid₂ types _ htypes => ?_
  refine (reads_operator "(" mid₂).bind fun mid₃ _ hopening _ => ?_
  refine (reads_parameters hn true ")" mid₃).bind fun mid₄ ps _ hps => ?_
  refine (reads_operator ")" mid₄).bind fun mid₅ _ hclosing _ => ?_
  have hhead : Located V lo mid₅ (outlines decorators ++
      (typeParameterOutlines types).map Mark.hide ++ parameterOutlines ps) := by
    have htypes := htypes.typeParameters.hide.after (hdef.trans hname)
    exact ((hdecorators.exprs.append htypes).append (hps.parameters.after hopening)).before hclosing
  have hbegin : Begins V lo mid₅ start := hstart.before (hdef.trans (hname.trans (htypes.le.trans
    (hopening.trans (hps.le.trans hclosing)))))
  have hrest : ∀ mid₆ result, OptionLies V mid₅ mid₆ result → Reads V mid₆
      (colonBlock n statement >>= fun body =>
        pure (.function (spanning start body.span) decorators name.text types ps result body))
      (Stmt.Lies V lo) := by
    intro mid₆ result hresult
    refine (reads_colonBlock hn hstatement mid₆).bind fun hi body _ hbody => .pure ?_
    exact .plain ((hbegin.before hresult.le).spanning hbody.span)
      ((hhead.append hresult.located).append hbody)
  refine .sees_bind fun _ => .ite (fun _ => ?_) fun _ => hrest mid₅ none (.none le_rfl)
  refine (reads_operator "->" mid₅).bind fun _ _ harrow _ => ?_
  refine (reads_some (hn.expression _)).bind fun mid₆ result _ hresult => ?_
  exact hrest mid₆ result (hresult.after harrow)

theorem reads_classStatement {decorators : List Expr}
    (hdecorators : Chain (Expr.Lies V) lo mid decorators) :
    Reads V mid (classStatement n statement decorators) (Stmt.Lies V lo) := by
  refine (reads_word "class" mid).bind fun start keyword hclass hkeyword => ?_
  refine (reads_identifier start).bind fun mid₁ name hname _ => ?_
  refine (reads_typeParameters hn mid₁).bind fun mid₂ types _ htypes => ?_
  have hhead : Located V lo mid₂ (outlines decorators ++
      (typeParameterOutlines types).map Mark.hide) :=
    hdecorators.exprs.append (htypes.typeParameters.hide.after (hclass.trans hname))
  have hbegin : Begins V lo mid₂ keyword.span := by
    have hkeyword := (hkeyword.mono hdecorators.le le_rfl).begins
    exact hkeyword.before (hname.trans htypes.le)
  have hrest : ∀ mid₃ mid₄ as, mid₃ ≤ mid₄ → Chain (Argument.Lies V) mid₂ mid₃ as → Reads V mid₄
      (colonBlock n statement >>= fun body =>
        pure (.class (spanning keyword.span body.span) decorators name.text types as body))
      (Stmt.Lies V lo) := by
    intro mid₃ mid₄ as hle has
    refine (reads_colonBlock hn hstatement mid₄).bind fun hi body _ hbody => .pure ?_
    exact .plain ((hbegin.before (has.le.trans hle)).spanning hbody.span)
      ((hhead.append (has.arguments.before hle)).append hbody)
  refine .sees_bind fun _ => .ite (fun _ => ?_) fun _ => hrest mid₂ mid₂ [] le_rfl (.nil le_rfl)
  refine (reads_operator "(" mid₂).bind fun _ _ hopening _ => .get_bind fun ts => ?_
  refine (reads_argumentsFrom hn _ _ _).bind fun mid₃ as _ has => ?_
  refine (reads_operator ")" mid₃).bind fun mid₄ _ hclosing _ => ?_
  exact hrest mid₃ mid₄ as hclosing (has.after hopening)

theorem reads_asyncStatement : ReadsStmt V (asyncStatement n statement) := by
  intro lo
  refine (reads_word "async" lo).bind fun mid keyword hmid hkeyword => ?_
  refine .sees_bind fun _ => .ite (fun _ => ?_) fun _ => .sees_bind fun _ => .ite (fun _ => ?_)
    fun _ => ?_
  · exact reads_functionStatement hn hstatement (.nil hmid) hkeyword.begins
  · exact reads_forStatement hn hstatement hkeyword.begins
  · exact reads_withStatement hn hstatement hkeyword.begins

omit hstatement in
theorem reads_decorator : ReadsExpr V (decorator n) := by
  intro lo
  refine (reads_operator "@" lo).bind fun mid _ hmid _ => ?_
  refine (reads_namedExpression hn mid).bind fun mid' e _ he => ?_
  exact (passes_satisfy _ mid').bind fun hi _ hnewline _ => .pure (he.mono hmid hnewline)

omit hn hstatement in
/-- A decorated function begins with a word, which has a place. -/
theorem functionStatement_head {decorators : List Expr} {start : Span} {ts rest : List Token}
    {s : Stmt} (heq : (attempt (word "async") >>= fun _ =>
      functionStatement n statement decorators start) ts = some (s, rest)) :
    ∃ t ts', ts = t :: ts' ∧ t.kind = .word := by
  obtain ⟨async, ts', hasync, hfunction⟩ := bind_eq_some heq
  obtain ⟨_, _, hdef, -⟩ := bind_eq_some hfunction
  obtain ⟨rfl, hword⟩ := satisfy_eq_some hdef
  unfold attempt at hasync
  cases htaken : word "async" ts with
  | none =>
    rw [htaken] at hasync
    cases hasync
    exact ⟨_, _, rfl, by simp_all [Token.isWord]⟩
  | some taken =>
    obtain ⟨rfl, hword⟩ := satisfy_eq_some htaken
    exact ⟨_, _, rfl, by simp_all [Token.isWord]⟩

theorem reads_decoratedStatement : ReadsStmt V (decoratedStatement n statement) := by
  intro lo
  refine (reads_many1 (reads_decorator hn) lo).bind fun mid decorators _ hdecorators => ?_
  refine .sees_bind fun _ => .ite
    (fun _ => reads_classStatement hn hstatement hdecorators.1) fun _ => ?_
  intro ts s rest hts heq
  obtain ⟨t, ts, rfl, hword⟩ := functionStatement_head heq
  have hplaced := t.isPlaced_of_word hword
  obtain ⟨ht, -⟩ := hts.placed hplaced
  have hle := ht.within.lo_le
  -- the tokens that are left begin with the function
  have hfunction : Reads V t.span.start (attempt (word "async") >>= fun _ =>
      functionStatement n statement decorators t.span) (Stmt.Lies V lo) := by
    refine ((passes_satisfy _).attempt _).bind fun mid' _ hasync _ => ?_
    have hbegin : Begins V lo mid' t.span := ⟨ht.within.1, hdecorators.1.le.trans hle, hasync⟩
    exact reads_functionStatement hn hstatement (hdecorators.1.before (hle.trans hasync)) hbegin
  obtain ⟨hi, hhi, hrest, hs⟩ := hfunction _ s rest (hts.from_head hplaced) heq
  exact ⟨hi, hle.trans hhi, hrest, hs⟩

theorem reads_matchCase (lo : Pos) : Reads V lo (matchCase n statement) (Case.Lies V lo) := by
  refine (reads_word "case" lo).bind fun _ keyword _ hkeyword => ?_
  refine (passes_casePatterns hn _).bind fun mid _ hpatterns _ => ?_
  have hrest : ∀ mid' guard, OptionLies V mid mid' guard → Reads V mid'
      (colonBlock n statement >>= fun body =>
        pure (.mk (spanning keyword.span body.span) guard body)) (Case.Lies V lo) := by
    intro mid' guard hguard
    refine (reads_colonBlock hn hstatement mid').bind fun hi body _ hbody => .pure ?_
    unfold Case.Lies
    rw [caseOutlines, caseOutlines, List.append_nil]
    have hspan := hkeyword.within.spanning hbody.span (hpatterns.trans hguard.le)
    exact .plain hspan ((hguard.located.append hbody).after (hkeyword.lt.le.trans hpatterns))
  refine .sees_bind fun _ => .ite (fun _ => ?_) fun _ => hrest mid none (.none le_rfl)
  refine (reads_word "if" mid).bind fun _ _ hif _ => ?_
  refine (reads_some (reads_namedExpression hn _)).bind fun mid' guard _ hguard => ?_
  exact hrest mid' guard (hguard.after hif)

theorem reads_matchStatement : ReadsStmt V (matchStatement n statement) := by
  intro lo
  refine (reads_word "match" lo).bind fun mid keyword hmid hkeyword => ?_
  refine (reads_commaList (reads_starNamedExpression hn) mid).bind
    fun mid₁ subjects _ hsubjects => .require_bind fun _ => ?_
  refine (reads_operator ":" mid₁).bind fun _ _ hcolon _ => ?_
  refine (passes_satisfy _ _).bind fun _ _ hnewline _ => ?_
  refine (passes_satisfy _ _).bind fun mid₂ _ hindent _ => ?_
  refine (reads_many1 (reads_matchCase hn hstatement) mid₂).bind fun mid₃ cases _ hcases => ?_
  refine (passes_satisfy _ mid₃).bind fun hi _ hdedent _ => .pure ?_
  have hsubject := tupleOf_lies hsubjects
  have hcases := (hcases.1.after (hcolon.trans (hnewline.trans hindent))).before hdedent
  have hspan := Chain.spanning_last (fun _ _ _ h => Case.Lies.span h) hkeyword.within
    (hcases.after hsubject.le)
  exact .plain hspan ((Located.append hsubject hcases.cases).after hmid)

theorem reads_matchOrSimple : ReadsStmts V (matchOrSimple n statement) := by
  intro lo
  refine (reads_matchStatement hn hstatement lo).attempt.bind fun hi s hhi hs => ?_
  cases s with
  | some s => exact .pure ⟨.single hhi (hs s rfl), nofun⟩
  | none => exact (reads_simpleStatements hn hi).mono fun _ _ _ h => ⟨h.1.after hhi, h.2⟩

omit hn hstatement in
theorem reads_one {p : Parse Stmt} (h : Reads V mid p (Stmt.Lies V lo)) :
    Reads V mid (List.singleton <$> p) fun hi ss => Chain (Stmt.Lies V) lo hi ss ∧ ss ≠ [] :=
  h.map fun _ _ _ hs => ⟨.single (Located.le hs) hs, nofun⟩

theorem reads_anyStatement : ReadsStmts V (anyStatement n statement) := by
  intro lo ts ss rest hts heq
  cases ts with
  | nil => cases heq
  | cons t ts =>
    rw [anyStatement, get_bind_eq, List.head?_cons] at heq
    by_cases hat : t.isOperator "@" = true
    · -- a decorator
      simp only [if_pos hat] at heq
      exact reads_one (reads_decoratedStatement hn hstatement lo) _ ss rest hts heq
    simp only [if_neg hat] at heq
    by_cases hword : (t.kind != .word) = true
    · -- a word decides
      simp only [if_pos hword] at heq
      exact reads_simpleStatements hn lo _ ss rest hts heq
    simp only [if_neg hword] at heq
    -- the tokens begin with this word, so the statement can be read from there on
    have hplaced := t.isPlaced_of_word (by simpa using hword)
    obtain ⟨ht, -⟩ := hts.placed hplaced
    have hbegin : Begins V t.span.start t.span.start t.span := ⟨ht.within.1, le_rfl, le_rfl⟩
    have hfinish : ∀ {p : Parse (List Stmt)}, (Reads V t.span.start p fun hi ss =>
        Chain (Stmt.Lies V) t.span.start hi ss ∧ ss ≠ []) → p (t :: ts) = some (ss, rest) →
        ∃ hi, lo ≤ hi ∧ Ordered V hi rest ∧ Chain (Stmt.Lies V) lo hi ss ∧ ss ≠ [] := by
      intro p hp heq
      obtain ⟨hi, hhi, hrest, hss, hne⟩ := hp _ ss rest (hts.from_head hplaced) heq
      have hle := ht.within.lo_le
      exact ⟨hi, hle.trans hhi, hrest, hss.after hle, hne⟩
    refine hfinish ?_ heq
    split
    · exact reads_one (reads_functionStatement hn hstatement (.nil le_rfl) hbegin)
    · exact reads_one (reads_classStatement hn hstatement (.nil le_rfl))
    · exact reads_one (reads_asyncStatement hn hstatement _)
    · exact reads_one (reads_ifStatement hn hstatement _ _ _)
    · exact reads_one (reads_whileStatement hn hstatement _)
    · exact reads_one (reads_forStatement hn hstatement hbegin)
    · exact reads_one (reads_tryStatement hn hstatement _)
    · exact reads_one (reads_withStatement hn hstatement hbegin)
    · exact reads_matchOrSimple hn hstatement _
    · exact reads_simpleStatements hn _

end Compound

theorem reads_statementUpTo {n : Nested} (hn : n.KeepsPlaces V) (depth : Nat) :
    ReadsStmts V (statementUpTo n depth) := by
  induction depth with
  | zero => exact fun lo => .failure
  | succ depth ih => exact reads_anyStatement hn ih

/-! ## Scripts -/

/-- The pieces of a script lie where its tokens lie. -/
theorem parseTokens_located {tokens : List Token} {body : List Stmt} (htokens : Ordered V lo tokens)
    (h : parseTokens tokens = some body) : ∃ hi, Located V lo hi (stmtOutlines body) := by
  simp only [parseTokens] at h
  split at h
  next bodies heq =>
    cases h
    have hstatement :
        ReadsStmts V (statementUpTo (nested (tokens.length + 1)) (tokens.length + 1)) :=
      reads_statementUpTo (nested_keepsPlaces _) _
    obtain ⟨hi, -, -, hbodies⟩ := reads_many hstatement lo tokens bodies [] htokens heq
    have hchain : Chain (Chain (Stmt.Lies V)) lo hi bodies := by
      simpa using hbodies.map (f := id) fun _ _ _ h => h.1
    exact ⟨hi, hchain.flatten.stmts⟩
  next => cases h

end Framewise.Script
