import Framewise.Proofs.Endings
import Framewise.Proofs.TracedStatements
import Framewise.Script.Tree

/-! # Reading an assignment

  A primary that no operator follows is read as a whole expression: every level of
  the grammar looks for an operator of its own behind it, finds none and hands the
  primary on. From this a line with one primary on each side of an equals sign is
  read as an assignment with one target.

  Main results: `expression_of_primary`, `parseTokens_assignment`, `parse_assignment`.
-/

namespace Framewise.Script

open Parse

/-! ## Primaries as expressions -/

/-- True for a token that begins an expression with neither a sign nor a keyword. -/
def Token.leads (t : Token) : Bool :=
  t.kind = .string || t.kind = .number ||
    (t.kind = .word && (!keywords.contains t.text || (constantOf? t.text).isSome)) ||
    (t.kind = .operator && ["(", "[", "\x7b"].contains t.text)

/-- True for a sign in front of an expression. -/
def Token.isSign (t : Token) : Bool := t.kind = .operator && ["+", "-", "~"].contains t.text

/-- True for a token that begins an expression with no keyword. -/
def Token.begins (t : Token) : Bool := t.leads || t.isSign

theorem Token.begins_of_leads {t : Token} (h : t.leads = true) : t.begins = true := by
  rw [Token.begins, h]
  rfl

theorem Token.leads_of_word {t : Token} (hkind : t.kind = .word)
    (htext : keywords.contains t.text = false) : t.leads = true := by
  rw [Token.leads, hkind, htext]
  rfl

theorem isWord_of_begins {t : Token} (h : t.begins = true) {text : String}
    (htext : keywords.contains text = true) (hconstant : constantOf? text = none) :
    t.isWord text = false := by
  by_contra hword
  obtain ⟨hkind, rfl⟩ := t.eq_of_isWord (by simpa using hword)
  rw [Token.begins, Token.leads, Token.isSign, hkind, htext, hconstant] at h
  cases h

theorem isOperator_of_begins {t : Token} (h : t.begins = true) {text : String}
    (htext : ["(", "[", "\x7b", "+", "-", "~"].contains text = false) : t.isOperator text = false := by
  by_contra hop
  obtain ⟨hkind, rfl⟩ := t.eq_of_isOperator (by simpa using hop)
  simp [Token.begins, Token.leads, Token.isSign, hkind] at h htext
  grind

theorem operatorIn_of_leads {t : Token} (h : t.leads = true) (ts : List Token) :
    operatorIn ["+", "-", "~"] (t :: ts) = none := by
  refine if_neg ?_
  simp only [Bool.and_eq_true, decide_eq_true_eq, List.contains_iff_mem, not_and]
  intro hkind hmem
  simp [Token.leads, hkind] at h hmem
  grind

section Levels

variable {n : Nested} {t : Token} {ts rest : List Token} {e : Expr}

theorem leftGrouped_of_operand {kind : OperationKind} {sign : Parse Token} {operand : Parse Expr}
    (h : operand ts = some (e, rest)) (hsign : sign rest = none) :
    leftGrouped kind sign operand ts = some (e, rest) := by
  unfold leftGrouped
  rw [bind_of_some h, bind_of_some (many_of_none (bind_eq_none hsign))]
  rfl

theorem awaited_of_primary (ht : t.leads = true) : awaited n (t :: ts) = primary n (t :: ts) := by
  unfold awaited
  rw [seesWord_cons, isWord_of_begins (Token.begins_of_leads ht) (by decide) (by decide)]
  rfl

theorem factor_of_primary (ht : t.leads = true) (hrest : Ends 11 rest)
    (h : primary n (t :: ts) = some (e, rest)) : factor n (t :: ts) = some (e, rest) := by
  have hpower : power n (t :: ts) = some (e, rest) := by
    unfold power
    rw [bind_of_some ((awaited_of_primary ht).trans h),
      attempt_bind_of_none (bind_eq_none (hrest.operator_eq_none (by decide)))]
    rfl
  unfold factor
  rw [attempt_bind_of_none (operatorIn_of_leads ht ts)]
  exact hpower

theorem bitwiseOr_of_factor (hrest : Ends 5 rest) (h : factor n ts = some (e, rest)) :
    bitwiseOr n ts = some (e, rest) := by
  have hterm : term n ts = some (e, rest) :=
    leftGrouped_of_operand h (hrest.operatorIn_eq_none (by decide))
  have hsum : sum n ts = some (e, rest) :=
    leftGrouped_of_operand hterm (hrest.operatorIn_eq_none (by decide))
  have hshift : shift n ts = some (e, rest) :=
    leftGrouped_of_operand hsum (hrest.operatorIn_eq_none (by decide))
  have hand : bitwiseAnd n ts = some (e, rest) :=
    leftGrouped_of_operand hshift (hrest.operator_eq_none (by decide))
  have hxor : bitwiseXor n ts = some (e, rest) :=
    leftGrouped_of_operand hand (hrest.operator_eq_none (by decide))
  exact leftGrouped_of_operand hxor (hrest.operator_eq_none (by decide))

theorem comparison_of_bitwiseOr (hrest : Ends 4 rest) (h : bitwiseOr n ts = some (e, rest)) :
    comparison n ts = some (e, rest) := by
  unfold comparison
  rw [bind_of_some h, bind_of_some (many_of_none (bind_eq_none hrest.comparisonOperator_eq_none))]
  rfl

/-- A comparison that nothing continues is an expression. -/
theorem expression_of_comparison (ht : t.begins = true) (hrest : Ends 1 rest)
    (h : comparison n (t :: ts) = some (e, rest)) : expression n (t :: ts) = some (e, rest) := by
  have hinversion : inversion n (t :: ts) = some (e, rest) := by
    unfold inversion
    rw [seesWord_cons, isWord_of_begins ht (by decide) (by decide)]
    exact h
  have hconjunction : conjunction n (t :: ts) = some (e, rest) :=
    leftGrouped_of_operand hinversion (hrest.word_eq_none (by decide))
  have hdisjunction : disjunction n (t :: ts) = some (e, rest) :=
    leftGrouped_of_operand hconjunction (hrest.word_eq_none (by decide))
  unfold expression
  rw [seesWord_cons, isWord_of_begins ht (by decide) (by decide)]
  show (disjunction n >>= _) (t :: ts) = _
  rw [bind_of_some hdisjunction, attempt_bind_of_none (bind_eq_none (hrest.word_eq_none (by decide)))]
  rfl

/-- A primary that nothing continues is an expression. -/
theorem expression_of_primary (ht : t.leads = true) (hrest : Ends 1 rest)
    (h : primary n (t :: ts) = some (e, rest)) : expression n (t :: ts) = some (e, rest) :=
  expression_of_comparison (Token.begins_of_leads ht) hrest
    (comparison_of_bitwiseOr (hrest.mono (by decide))
      (bitwiseOr_of_factor (hrest.mono (by decide)) (factor_of_primary ht (hrest.mono (by decide)) h)))

end Levels

/-! ## Names and attributes -/

section Primaries

variable {n : Nested} {t name : Token} {ts mid : List Token} {e e' : Expr}

theorem primary_of_atom (h : atom n ts = some (e, mid)) :
    primary n ts = trailers n mid.length e mid := bind_of_some h

theorem trailers_of_trailer (h : trailer n e ts = some (e', mid)) (k : Nat) :
    trailers n (k + 1) e ts = trailers n k e' mid := by
  rw [trailers]
  exact attempt_bind_of_some h

theorem atom_of_name (hkind : t.kind = .word) (htext : keywords.contains t.text = false) :
    atom n (t :: ts) = some (.name t.span t.text, ts) := by
  have hconstant : constantOf? t.text = none := by
    have hne : ∀ text, keywords.contains text = true → ¬t.text = text := by
      rintro text hkeyword rfl
      rw [htext] at hkeyword
      cases hkeyword
    unfold constantOf?
    rw [if_neg (hne _ (by decide)), if_neg (hne _ (by decide)), if_neg (hne _ (by decide))]
  have hatom : atom n (t :: ts) = wordAtom (t :: ts) := by
    unfold atom
    rw [peek_bind_cons]
    dsimp only [Option.map_some]
    rw [hkind]
  rw [hatom, wordAtom, hconstant]
  exact if_neg (by simpa using htext)

/-- A string that no other string follows. -/
theorem atom_of_string (hkind : t.kind = .string) (hts : Ends 14 ts) :
    atom n (t :: ts) = some (.string t.span t.text, ts) := by
  have hpiece : stringPiece n (t :: ts) = some (.string t.span t.text, ts) := by
    have hsees : (sees fun t => t.kind = .string) (t :: ts) = some (true, t :: ts) := by
      simp [sees, hkind]
    have htake : ofKind .string (t :: ts) = some (t, ts) :=
      satisfy_of_true (by simp [hkind])
    unfold stringPiece
    rw [bind_of_some hsees, if_pos rfl, bind_of_some htake]
    rfl
  have hatom : atom n (t :: ts) = strings n (t :: ts) := by
    unfold atom
    rw [peek_bind_cons]
    dsimp only [Option.map_some]
    rw [hkind]
  rw [hatom]
  unfold strings
  rw [bind_of_some hpiece, bind_of_some (many_of_none (hts.stringPiece_eq_none n))]
  rfl

theorem trailer_attribute (hdot : t.isOperator "." = true) (hkind : name.kind = .word)
    (htext : keywords.contains name.text = false) :
    trailer n e (t :: name :: ts) =
      some (.attribute (spanning e.extent name.span) e name.text, ts) := by
  have hname : identifier (name :: ts) = some (name, ts) := by
    refine satisfy_of_true ?_
    rw [hkind, htext]
    rfl
  unfold trailer
  rw [seesOperator_cons, hdot, if_pos rfl]
  exact (bind_of_some (satisfy_of_true hdot)).trans (bind_of_some hname)

end Primaries

/-! ## Assignments -/

section Assignment

variable {d : Nat} {t : Token} {ts rest : List Token} {e : Expr}

theorem starExpressions_of_primary (ht : t.leads = true) (hrest : Ends 1 rest)
    (hcomma : operator "," rest = none) (h : primary (nested d) (t :: ts) = some (e, rest)) :
    starExpressions (nested (d + 1)) (t :: ts) = some (e, rest) := by
  have hone : starExpression (nested (d + 1)) (t :: ts) = some (e, rest) := by
    unfold starExpression
    rw [seesOperator_cons, isOperator_of_begins (Token.begins_of_leads ht) (by decide)]
    exact expression_of_primary ht hrest h
  have hlist : commaList (starExpression (nested (d + 1))) (t :: ts) = some (([e], none), rest) := by
    unfold commaList
    rw [bind_of_some hone, bind_of_some (many_of_none (bind_eq_none hcomma)),
      attempt_bind_of_none hcomma]
    rfl
  unfold starExpressions
  rw [bind_of_some hlist]
  rfl

theorem yieldOrExpressions_of_primary (ht : t.leads = true) (hrest : Ends 1 rest)
    (hcomma : operator "," rest = none) (h : primary (nested d) (t :: ts) = some (e, rest)) :
    yieldOrExpressions (nested (d + 1)) (t :: ts) = some (e, rest) := by
  unfold yieldOrExpressions
  rw [seesWord_cons, isWord_of_begins (Token.begins_of_leads ht) (by decide) (by decide)]
  exact starExpressions_of_primary ht hrest hcomma h

/-- A match has an indented body. -/
theorem matchStatement_eq_none {statement : Parse (List Stmt)} {T : List Token}
    (hT : ∀ s ∈ T, s.kind ≠ .indent) : matchStatement (nested d) statement T = none := by
  have hsubject : Finds T (starNamedExpression (nested d)) (Traced T) :=
    finds_starNamedExpression (nested_traces d)
  have hindent : ∀ {f : Token → Parse Stmt}, Finds T (ofKind .indent >>= f) fun _ => False := by
    intro f ts s rest hts heq
    obtain ⟨indent, mid, htake, -⟩ := bind_eq_some heq
    obtain ⟨rfl, hkind⟩ := satisfy_eq_some htake
    exact absurd (of_decide_eq_true hkind) (hT indent (hts.subset List.mem_cons_self))
  have hfinds : Finds T (matchStatement (nested d) statement) fun _ => False :=
    .token_bind fun _ => hsubject.commaList.bind fun _ _ => .require_bind <|
      .token_bind fun _ => .token_bind fun _ => hindent
  cases hmatch : matchStatement (nested d) statement T with
  | none => rfl
  | some r => exact absurd (hfinds T r.1 r.2 List.suffix_rfl hmatch).2 id

variable {target value : Expr} {equals v last : Token} {us vs : List Token}

/-- A line with one primary on each side of an equals sign. -/
structure AssignmentLine (d : Nat) (t equals v last : Token) (us vs : List Token)
    (target value : Expr) : Prop where
  named : t.kind = .word ∧ keywords.contains t.text = false
  second : ∀ s ∈ (us ++ [equals]).head?, s.kind ≠ .word
  sign : equals.isOperator "=" = true
  leads : v.leads = true
  ends : last.kind = .newline
  unindented : ∀ s ∈ us ++ v :: vs, s.kind ≠ .indent
  isTarget : isTarget target = true
  readTarget : primary (nested d) (t :: (us ++ equals :: v :: (vs ++ [last]))) =
    some (target, equals :: v :: (vs ++ [last]))
  readValue : primary (nested d) (v :: (vs ++ [last])) = some (value, [last])

namespace AssignmentLine

variable (h : AssignmentLine d t equals v last us vs target value)
include h

theorem expressionStatement : expressionStatement (nested (d + 1))
    (t :: (us ++ equals :: v :: (vs ++ [last]))) =
      some (.assign (spanning target.extent value.extent) [target] value, [last]) := by
  obtain ⟨hkind, hsign⟩ := equals.eq_of_isOperator h.sign
  have ht : t.leads = true := t.leads_of_word h.named.1 h.named.2
  have hcolon : equals.isOperator ":" = false := by simp [Token.isOperator, hkind, hsign]
  have hfirst : Ends 1 (equals :: v :: (vs ++ [last])) := by
    rintro _ ⟨⟩
    simp [Token.reach, hkind, hsign, operatorReach]
  have hlast : Ends 1 [last] := by
    rintro _ ⟨⟩
    simp [Token.reach, h.ends]
  have hended : ∀ text, last.isOperator text = false := fun text => by
    simp [Token.isOperator, h.ends]
  have htarget : starExpressions (nested (d + 1)) (t :: (us ++ equals :: v :: (vs ++ [last]))) =
      some (target, equals :: v :: (vs ++ [last])) := by
    refine starExpressions_of_primary ht hfirst (if_neg ?_) h.readTarget
    simp [Token.isOperator, hkind, hsign]
  have hvalue : yieldOrExpressions (nested (d + 1)) (v :: (vs ++ [last])) = some (value, [last]) :=
    yieldOrExpressions_of_primary h.leads hlast (if_neg (by simp [hended])) h.readValue
  have hrest : assignRest (nested (d + 1)) target.extent (equals :: v :: (vs ++ [last])).length [target]
      (equals :: v :: (vs ++ [last])) =
        some (.assign (spanning target.extent value.extent) [target] value, [last]) := by
    rw [List.length_cons, assignRest]
    refine (bind_of_some (satisfy_of_true h.sign)).trans ((bind_of_some hvalue).trans ?_)
    rw [seesOperator_cons, hended]
    rfl
  unfold Script.expressionStatement
  rw [bind_of_some htarget, seesOperator_cons, hcolon, if_neg Bool.false_ne_true, seesOperator_cons, h.sign, if_pos rfl,
    h.isTarget]
  exact hrest

theorem simpleStatements : simpleStatements (nested (d + 1))
    (t :: (us ++ equals :: v :: (vs ++ [last]))) =
      some ([.assign (spanning target.extent value.extent) [target] value], []) := by
  have hnone : operator ";" [last] = none := if_neg (by simp [Token.isOperator, h.ends])
  have hend : ofKind .newline [last] = some (last, []) := satisfy_of_true (by simp [h.ends])
  have hfirst : simpleStatement (nested (d + 1)) (t :: (us ++ equals :: v :: (vs ++ [last]))) =
      some (.assign (spanning target.extent value.extent) [target] value, [last]) := by
    have halias : seesTypeAlias (t :: (us ++ equals :: v :: (vs ++ [last]))) =
        some (false, t :: (us ++ equals :: v :: (vs ++ [last]))) := by
      have hsecond := h.second
      cases us with
      | nil =>
        have hword : ¬equals.kind = .word := hsecond equals rfl
        simp [seesTypeAlias, hword]
      | cons u us =>
        have hword : ¬u.kind = .word := hsecond u rfl
        simp [seesTypeAlias, hword]
    unfold simpleStatement
    rw [peek_bind_cons]
    dsimp only
    rw [if_neg (by simp [h.named.1])]
    -- no keyword comes first
    refine (congrFun (g := seesTypeAlias >>= fun b => if b = true then
      typeAliasStatement (nested (d + 1)) else Script.expressionStatement (nested (d + 1))) ?_ _).trans
      ((bind_of_some halias).trans h.expressionStatement)
    have hkeyword := h.named.2
    split
    iterate 12
      next heq =>
        rw [heq] at hkeyword
        cases hkeyword
    rfl
  unfold Script.simpleStatements
  rw [bind_of_some hfirst, bind_of_some (many_of_none (bind_eq_none hnone)), attempt_bind_of_none hnone,
    bind_of_some hend]
  rfl

theorem anyStatement (statement : Parse (List Stmt)) : anyStatement (nested (d + 1)) statement
    (t :: (us ++ equals :: v :: (vs ++ [last]))) =
      some ([.assign (spanning target.extent value.extent) [target] value], []) := by
  have hmatch : matchOrSimple (nested (d + 1)) statement (t :: (us ++ equals :: v :: (vs ++ [last]))) =
      some ([.assign (spanning target.extent value.extent) [target] value], []) := by
    refine (attempt_bind_of_none (matchStatement_eq_none fun s hs => ?_)).trans h.simpleStatements
    have hequals := (equals.eq_of_isOperator h.sign).1
    have hall := h.unindented
    simp only [List.mem_cons, List.mem_append, List.not_mem_nil, or_false] at hs hall
    rcases hs with rfl | hs | rfl | rfl | hs | rfl
    · simp [h.named.1]
    · exact hall s (.inl hs)
    · simp [hequals]
    · exact hall s (.inr (.inl rfl))
    · exact hall s (.inr (.inr hs))
    · simp [h.ends]
  unfold Script.anyStatement
  rw [get_bind_eq]
  dsimp only [List.head?_cons]
  rw [if_neg (by simp [Token.isOperator, h.named.1]), if_neg (by simp [h.named.1])]
  by_cases htext : t.text = "match"
  · refine (congrFun (g := matchOrSimple (nested (d + 1)) statement) ?_ _).trans hmatch
    rw [htext]
    rfl
  · refine (congrFun (g := Script.simpleStatements (nested (d + 1))) ?_ _).trans h.simpleStatements
    have hkeyword := h.named.2
    split
    iterate 8
      next heq =>
        rw [heq] at hkeyword
        cases hkeyword
    next heq => exact absurd heq htext
    rfl

end AssignmentLine

/-- A line with one primary on each side of an equals sign is an assignment with one target. -/
theorem parseTokens_assignment {d : Nat} (h : AssignmentLine d t equals v last us vs target value)
    (hd : d = (t :: (us ++ equals :: v :: (vs ++ [last]))).length) :
    parseTokens (t :: (us ++ equals :: v :: (vs ++ [last]))) =
      some [.assign (spanning target.extent value.extent) [target] value] := by
  have hone := h.anyStatement (statementUpTo (nested (d + 1)) d)
  have hmany : many (statementUpTo (nested (d + 1)) (d + 1)) (t :: (us ++ equals :: v :: (vs ++ [last]))) =
      some ([[.assign (spanning target.extent value.extent) [target] value]], []) :=
    many_once hone rfl
  unfold parseTokens
  rw [← hd]
  dsimp only
  rw [hmany]
  rfl

theorem parse_of_tokens {code : String} {lexed : Lexed} {stmts : List Stmt} (hlex : lex code = some lexed)
    (hread : parseTokens lexed.tokens = some stmts) :
    parse code = some ⟨stmts, lineAfter (glyphsOf code), lexed.comments⟩ := by
  unfold parse
  rw [hlex]
  show (parseTokens lexed.tokens).bind _ = _
  rw [hread]
  rfl

/-- The tree of a script that is a single assignment. -/
theorem parse_assignment {code : String} {lexed : Lexed} {span : Span} {n w : Node}
    (hlex : lex code = some lexed)
    (hread : parseTokens lexed.tokens = some [.assign span [target] value])
    (hn : exprNode Role.target target = some n) (hw : exprNode Role.value value = some w) :
    ∃ source root, parse code = some source ∧ source.node = some root ∧
      root.children = [{ kind := .assignment, span := span, role := Role.body, tag := "Assign",
                         children := [n, w] }] := by
  have hbody : stmtNodes Role.body [.assign span [target] value] =
      some [{ kind := .assignment, span := span, role := Role.body, tag := "Assign",
              children := [n, w] }] := by
    simp [stmtNodes, stmtNode, exprNodes, hn, hw]
  refine ⟨_, { kind := .module, span := ⟨1, 1, lineAfter (glyphsOf code), 1⟩, tag := "Module",
               children := _ }, parse_of_tokens hlex hread, ?_, rfl⟩
  unfold Source.node
  rw [hbody]
  rfl

end Assignment

end Framewise.Script
