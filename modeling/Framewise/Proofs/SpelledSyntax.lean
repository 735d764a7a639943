import Framewise.Proofs.BareSyntax
import Framewise.Proofs.PlainAssignments

/-! # Syntax and its spelling

  How expressions are spelled in tokens, as a grammar: names, constants, numbers and strings;
  attributes, calls and subscripts; lists, tuples and dictionaries; signs, operators on two
  operands and comparisons. A spelling leaves no choice to the parser: whatever follows, as
  long as it does not go on with the expression, the tokens are read as this expression again.

  Spans of the syntax do not matter here. Comprehensions, lambdas, formatted strings, slices
  and what binds weaker than a comparison have no spelling.

  Main definitions:
  - `Spelled`: the tokens that a phrase is spelled with.
  - `Phrase.Reread`: tokens that are read as a phrase.

  Main result: `Spelled.reread`.
-/

namespace Framewise.Script

open Parse

/-! ## Spellings -/

namespace Argument

/-- The value of an argument. -/
def value : Argument → Expr
  | .positional _ value => value
  | .keyword _ _ _ value => value

/-- True unless the argument is given by a keyword that is no name. -/
def isNamed : Argument → Bool
  | .positional _ _ => true
  | .keyword _ _ name _ => !keywords.contains name

end Argument

/-- A word without a place. -/
def Token.word (text : String) : Token := ⟨.word, text, nowhere⟩

/-- An operator or bracket without a place. -/
def Token.sign (text : String) : Token := ⟨.operator, text, nowhere⟩

/-- What stands in front of the value of an argument. -/
def Argument.front : Argument → List Token
  | .positional .none _ => []
  | .positional .one _ => [.sign "*"]
  | .positional .two _ => [.sign "**"]
  | .keyword _ _ name _ => [.word name, .sign "="]

/-- The operators of a level, the strongest first. -/
def signsAt : Nat → List String
  | 0 => ["*", "/", "//", "%", "@"]
  | 1 => ["+", "-"]
  | 2 => ["<<", ">>"]
  | 3 => ["&"]
  | 4 => ["^"]
  | 5 => ["|"]
  | _ => []

/-- The operators of comparisons with their spellings. -/
def comparisonSpellings : List (String × List Token) :=
  [("==", [.sign "=="]), ("!=", [.sign "!="]), ("<=", [.sign "<="]), ("<", [.sign "<"]),
    (">=", [.sign ">="]), (">", [.sign ">"]), ("in", [.word "in"]),
    ("not in", [.word "not", .word "in"]), ("is", [.word "is"]),
    ("is not", [.word "is", .word "not"])]

/-- A comma, if one is wanted. -/
def commaIf (comma : Bool) : List Token := if comma then [.sign ","] else []

/-- What can be spelled. -/
inductive Phrase where
  /-- An atom with attributes, calls and subscripts. -/
  | primary (e : Expr)
  /-- Operands of a level, which is 0 for what stands behind signs. -/
  | grouped (level : Nat) (e : Expr)
  /-- An expression. -/
  | expression (e : Expr)
  /-- Expressions, each behind a comma. -/
  | elements (es : List Expr)
  /-- Keys and values, each pair behind a comma. -/
  | entries (es : List Expr)
  /-- Operands of a comparison, each behind its operator. -/
  | comparands (signs : List String) (es : List Expr)
  /-- Arguments from a stage on, each behind a comma. -/
  | arguments (stage : ArgumentStage) (as : List Argument)

/-- The tokens that a phrase is spelled with. -/
inductive Spelled : Phrase → List Token → Prop
  | name {s : Span} {id : String} (h : keywords.contains id = false) :
    Spelled (.primary (.name s id)) [.word id]
  | constant {s : Span} {c : Constant} {text : String} (h : constantOf? text = some c) :
    Spelled (.primary (.constant s c)) [.word text]
  | number {s : Span} {text : String} : Spelled (.primary (.number s text)) [⟨.number, text, nowhere⟩]
  | string {s : Span} {text : String} : Spelled (.primary (.string s text)) [⟨.string, text, nowhere⟩]
  | group {s : Span} {e : Expr} {us : List Token} (h : Spelled (.expression e) us) :
    Spelled (.primary (.parenthesized s e)) (.sign "(" :: (us ++ [.sign ")"]))
  | emptyTuple {s r : Span} :
    Spelled (.primary (.parenthesized s (.sequence r .tuple []))) [.sign "(", .sign ")"]
  | tuple {s r : Span} {e : Expr} {es : List Expr} {us vs : List Token} {comma : Bool}
    (h : Spelled (.expression e) us) (hs : Spelled (.elements es) vs) (hcomma : es ≠ [] ∨ comma = true) :
    Spelled (.primary (.parenthesized s (.sequence r .tuple (e :: es))))
      (.sign "(" :: (us ++ (vs ++ (commaIf comma ++ [.sign ")"]))))
  | emptyList {s : Span} : Spelled (.primary (.sequence s .list [])) [.sign "[", .sign "]"]
  | list {s : Span} {e : Expr} {es : List Expr} {us vs : List Token} {comma : Bool}
    (h : Spelled (.expression e) us) (hs : Spelled (.elements es) vs) :
    Spelled (.primary (.sequence s .list (e :: es)))
      (.sign "[" :: (us ++ (vs ++ (commaIf comma ++ [.sign "]"]))))
  | emptyDict {s : Span} : Spelled (.primary (.operation s .dict [])) [.sign "\x7b", .sign "\x7d"]
  | dict {s : Span} {k v : Expr} {es : List Expr} {us vs ws : List Token}
    (hk : Spelled (.expression k) us) (hv : Spelled (.expression v) vs) (hs : Spelled (.entries es) ws) :
    Spelled (.primary (.operation s .dict (k :: v :: es)))
      (.sign "\x7b" :: (us ++ .sign ":" :: (vs ++ (ws ++ [.sign "\x7d"]))))
  | attribute {s : Span} {e : Expr} {id : String} {us : List Token} (h : Spelled (.primary e) us)
    (hid : keywords.contains id = false) :
    Spelled (.primary (.attribute s e id)) (us ++ [.sign ".", .word id])
  | emptyCall {s : Span} {e : Expr} {us : List Token} (h : Spelled (.primary e) us) :
    Spelled (.primary (.call s e [])) (us ++ [.sign "(", .sign ")"])
  | call {s : Span} {e : Expr} {a : Argument} {as : List Argument} {us vs ws : List Token}
    (h : Spelled (.primary e) us) (hnamed : a.isNamed = true)
    (ha : Spelled (.expression a.value) vs)
    (has : Spelled (.arguments (ArgumentStage.positional.after a) as) ws) :
    Spelled (.primary (.call s e (a :: as)))
      (us ++ .sign "(" :: (a.front ++ (vs ++ (ws ++ [.sign ")"]))))
  | subscript {s : Span} {e i : Expr} {is : List Expr} {us vs ws : List Token}
    (h : Spelled (.primary e) us) (hi : Spelled (.expression i) vs) (his : Spelled (.elements is) ws) :
    Spelled (.primary (.subscript s e (i :: is))) (us ++ .sign "[" :: (vs ++ (ws ++ [.sign "]"])))
  | factor {e : Expr} {us : List Token} (h : Spelled (.primary e) us) : Spelled (.grouped 0 e) us
  | unary {s : Span} {e : Expr} {text : String} {us : List Token} (htext : text ∈ ["+", "-", "~"])
    (h : Spelled (.grouped 0 e) us) : Spelled (.grouped 0 (.operation s .unary [e])) (.sign text :: us)
  | power {s : Span} {a b : Expr} {us vs : List Token} (ha : Spelled (.primary a) us)
    (hb : Spelled (.grouped 0 b) vs) :
    Spelled (.grouped 0 (.operation s .binary [a, b])) (us ++ .sign "**" :: vs)
  | weaker {i : Nat} {e : Expr} {us : List Token} (h : Spelled (.grouped i e) us) :
    Spelled (.grouped (i + 1) e) us
  | binary {i : Nat} {s : Span} {a b : Expr} {text : String} {us vs : List Token}
    (htext : text ∈ signsAt i) (ha : Spelled (.grouped (i + 1) a) us) (hb : Spelled (.grouped i b) vs) :
    Spelled (.grouped (i + 1) (.operation s .binary [a, b])) (us ++ .sign text :: vs)
  | operand {e : Expr} {us : List Token} (h : Spelled (.grouped 6 e) us) : Spelled (.expression e) us
  | comparison {s : Span} {e c : Expr} {text : String} {signs : List String} {es : List Expr}
    {us vs : List Token} (h : Spelled (.grouped 6 e) us)
    (hs : Spelled (.comparands (text :: signs) (c :: es)) vs) :
    Spelled (.expression (.comparison s e (text :: signs) (c :: es))) (us ++ vs)
  | noElements : Spelled (.elements []) []
  | elements {e : Expr} {es : List Expr} {us vs : List Token} (h : Spelled (.expression e) us)
    (hs : Spelled (.elements es) vs) : Spelled (.elements (e :: es)) (.sign "," :: (us ++ vs))
  | noEntries : Spelled (.entries []) []
  | entries {k v : Expr} {es : List Expr} {us vs ws : List Token} (hk : Spelled (.expression k) us)
    (hv : Spelled (.expression v) vs) (hs : Spelled (.entries es) ws) :
    Spelled (.entries (k :: v :: es)) (.sign "," :: (us ++ .sign ":" :: (vs ++ ws)))
  | noComparands : Spelled (.comparands [] []) []
  | comparands {text : String} {ts : List Token} {signs : List String} {e : Expr} {es : List Expr}
    {us vs : List Token} (htext : (text, ts) ∈ comparisonSpellings) (h : Spelled (.grouped 6 e) us)
    (hs : Spelled (.comparands signs es) vs) :
    Spelled (.comparands (text :: signs) (e :: es)) (ts ++ (us ++ vs))
  | noArguments {stage : ArgumentStage} : Spelled (.arguments stage []) []
  | arguments {stage : ArgumentStage} {a : Argument} {as : List Argument} {us vs : List Token}
    (hnamed : a.isNamed = true) (hadmits : stage.admits a = true) (h : Spelled (.expression a.value) us)
    (hs : Spelled (.arguments (stage.after a) as) vs) :
    Spelled (.arguments stage (a :: as)) (.sign "," :: (a.front ++ (us ++ vs)))

/-- A primary is an expression. -/
theorem Spelled.of_primary {e : Expr} {us : List Token} (h : Spelled (.primary e) us) :
    Spelled (.expression e) us :=
  .operand (.weaker (.weaker (.weaker (.weaker (.weaker (.weaker (.factor h)))))))

/-! ## Reading -/

/-- Parsers of the levels of operators on two operands. -/
def groupedAt (n : Nested) : Nat → Parse Expr
  | 0 => factor n
  | i + 1 => leftGrouped .binary (operatorIn (signsAt i)) (groupedAt n i)

/-- What a parser of a level still does after operands that it has grouped. -/
def resumeAt (n : Nested) : Nat → Nat → Expr → Parse Expr
  | 0, _, e => pure e
  | i + 1, fuel, e => do
    let others ← manyUpTo (do
      let _ ← operatorIn (signsAt i)
      groupedAt n i) fuel
    return others.foldl (binaryOf .binary) e

theorem operatorIn_singleton (text : String) : operatorIn [text] = operator text := by
  unfold operatorIn operator
  congr
  funext t
  simp [Token.isOperator]

theorem groupedAt_six (n : Nested) : groupedAt n 6 = bitwiseOr n := by
  simp only [groupedAt, signsAt, operatorIn_singleton]
  rfl

/-- What an argument list goes on with: arguments, each behind a comma. -/
def otherArguments (n : Nested) (fuel : Nat) (stage : ArgumentStage) : Parse (List Argument) := do
  if ← seesOperator "," then do
    let _ ← operator ","
    argumentsFrom n fuel stage
  else pure []

/-- An operator of a comparison and the operand behind it. -/
def comparand (n : Nested) : Parse (String × Expr) := do
  let sign ← comparisonOperator
  return (sign, ← bitwiseOr n)

/-- True for a token that ends an item between brackets. -/
def Token.closes (t : Token) : Bool :=
  t.kind = .operator && [",", ")", "]", "\x7d"].contains t.text

/-- What follows ends an item between brackets. -/
def Closes (ts : List Token) : Prop := ∀ t ∈ ts.head?, t.closes = true

/-- Nothing, or tokens that begin with a comma. -/
def Separated (ts : List Token) : Prop := ∀ t ∈ ts.head?, t.isOperator "," = true

/-- The first token begins an expression; what comes behind a word goes on with it. -/
def Leads (p : Token → Bool) (ts : List Token) : Prop :=
  ∃ t more, ts = t :: more ∧ p t = true ∧ (t.kind = .word → ∀ u ∈ more.head?, 4 ≤ u.reach)

/-- A parser that reads expressions where they end an item. -/
def ReadsItems (d : Nat) (p : Parse Expr) : Prop :=
  ∀ us rest e, Leads Token.begins us → Closes rest →
    expression (nested d) (us ++ rest) = some (e, rest) → p (us ++ rest) = some (e, rest)

/-- Tokens that are read as a phrase, up to spans and whatever follows that does not go on with
    it. Parsers of primaries and of operators on two operands are left where they look for more. -/
def Phrase.Reread : Phrase → List Token → Prop
  | .primary e, us => Leads Token.leads us ∧ ∀ d us' rest, Alike us us' → us.length ≤ d →
    Ends 14 rest → ∃ e' fuel, Alike e e' ∧ rest.length ≤ fuel ∧
      Script.primary (nested d) (us' ++ rest) = trailers (nested d) fuel e' rest
  | .grouped i e, us => Leads Token.begins us ∧ ∀ d us' rest, Alike us us' → us.length ≤ d →
    Ends (11 - (i - 1)) rest → ∃ e' fuel, Alike e e' ∧ rest.length ≤ fuel ∧
      groupedAt (nested d) i (us' ++ rest) = resumeAt (nested d) i fuel e' rest
  | .expression e, us => Leads Token.begins us ∧ ∀ d us' rest, Alike us us' → us.length ≤ d →
    Ends 1 rest → ∃ e', Alike e e' ∧ Script.expression (nested d) (us' ++ rest) = some (e', rest)
  | .elements es, us => Separated us ∧ ∀ d us' rest p fuel, Alike us us' → us.length ≤ d →
    ReadsItems d p → Closes rest → (operator "," >>= fun _ => p) rest = none → us.length ≤ fuel →
      ∃ es', Alike es es' ∧ manyUpTo (operator "," >>= fun _ => p) fuel (us' ++ rest) = some (es', rest)
  | .entries es, us => Separated us ∧ ∀ d us' rest fuel, Alike us us' → us.length ≤ d → Closes rest →
    operator "," rest = none → us.length ≤ fuel → ∃ ess : List (List Expr), Alike es ess.flatten ∧
      manyUpTo (operator "," >>= fun _ => dictEntry (nested (d + 1))) fuel (us' ++ rest) = some (ess, rest)
  | .comparands signs es, us => (∀ t ∈ us.head?, t.reach = 4) ∧ ∀ d us' rest fuel, Alike us us' →
    us.length ≤ d → Ends 4 rest → us.length ≤ fuel → ∃ pairs : List (String × Expr),
      pairs.map Prod.fst = signs ∧ Alike es (pairs.map Prod.snd) ∧
      manyUpTo (comparand (nested d)) fuel (us' ++ rest) = some (pairs, rest)
  | .arguments stage as, us => Separated us ∧ ∀ d us' c rest fuel, Alike us us' → us.length ≤ d →
    c.isOperator ")" = true → us.length ≤ fuel → ∃ as', Alike as as' ∧
      otherArguments (nested (d + 1)) fuel stage (us' ++ c :: rest) = some (as', c :: rest)

/-! ### What comes first and what comes next -/

section Heads

variable {d : Nat} {t t' : Token} {us us' ts rest : List Token} {e : Expr} {k : Nat}

theorem Alike.reach (h : Alike t t') : t.reach = t'.reach := by
  rw [Token.reach, Token.reach, h.kind, h.text]

theorem Alike.leads (h : Alike t t') : t.leads = t'.leads := by
  rw [Token.leads, Token.leads, h.kind, h.text]

theorem Alike.begins (h : Alike t t') : t.begins = t'.begins := by
  rw [Token.begins, Token.begins, h.leads, Token.isSign, Token.isSign, h.kind, h.text]

theorem Leads.alike {p : Token → Bool} (h : Leads p us) (hp : ∀ t t', Alike t t' → p t = p t')
    (halike : Alike us us') : Leads p us' := by
  obtain ⟨t, vs, rfl, ht, hnext⟩ := h
  obtain ⟨t', vs', rfl, htt, hvs⟩ := halike.cons_left
  refine ⟨t', vs', rfl, by rw [← hp t t' htt, ht], fun hkind u' hu' => ?_⟩
  obtain ⟨more, rfl⟩ := List.head?_eq_some_iff.mp hu'
  obtain ⟨u, more, rfl, huu, -⟩ := hvs.symm.cons_left
  rw [huu.reach]
  exact hnext (htt.kind.trans hkind) u rfl

theorem Leads.begins (h : Leads Token.leads us) : Leads Token.begins us := by
  obtain ⟨t, vs, rfl, ht, hnext⟩ := h
  exact ⟨t, vs, rfl, t.begins_of_leads ht, hnext⟩

/-- More tokens go on with an expression if they go on with its first token. -/
theorem Leads.append {p : Token → Bool} (h : Leads p us) (hts : ∀ t ∈ ts.head?, 4 ≤ t.reach) :
    Leads p (us ++ ts) := by
  obtain ⟨t, vs, rfl, ht, hnext⟩ := h
  refine ⟨t, vs ++ ts, rfl, ht, fun hkind u hu => ?_⟩
  cases vs with
  | nil => exact hts u hu
  | cons v vs => exact hnext hkind u hu

theorem Token.closes_cases (h : t.closes = true) : t.kind = .operator ∧
    (t.text = "," ∨ t.text = ")" ∨ t.text = "]" ∨ t.text = "\x7d") := by
  simpa [Token.closes] using h

theorem Closes.ends (h : Closes rest) (hk : 1 ≤ k) : Ends k rest := by
  intro t ht
  obtain ⟨hkind, htext⟩ := t.closes_cases (h t ht)
  refine lt_of_lt_of_le ?_ hk
  rw [Token.reach, hkind]
  rcases htext with htext | htext | htext | htext <;> rw [htext] <;> decide

theorem closes_of_isOperator {text : String} (h : t.isOperator text = true)
    (htext : [",", ")", "]", "\x7d"].contains text = true) : t.closes = true := by
  obtain ⟨hkind, rfl⟩ := t.eq_of_isOperator h
  rw [Token.closes, hkind, htext]
  rfl

theorem Separated.closes (h : Separated us) (halike : Alike us us') (hrest : Closes rest) :
    Closes (us' ++ rest) := by
  cases us' with
  | nil => exact hrest
  | cons u' us' =>
    obtain ⟨u, us, rfl, huu, -⟩ := halike.symm.cons_left
    rintro _ ⟨⟩
    exact closes_of_isOperator ((huu.isOperator ",").trans (h u rfl)) (by decide)

/-- Where an expression begins, no binding does. -/
theorem namedExpression_of_leads (h : Leads Token.begins us) (hrest : Ends 1 rest) :
    namedExpression (nested (d + 1)) (us ++ rest) = expression (nested d) (us ++ rest) := by
  obtain ⟨t, vs, rfl, ht, hnext⟩ := h
  rw [List.cons_append]
  cases hall : vs ++ rest with
  | nil => rfl
  | cons u more =>
    refine if_neg fun hbinds => ?_
    simp only [Bool.and_eq_true, decide_eq_true_eq] at hbinds
    have hreach : u.reach = 1 := reach_of_isOperator hbinds.2
    cases vs with
    | nil =>
      have hlow := hrest u (by rw [List.nil_append] at hall; rw [hall]; rfl)
      omega
    | cons v vs =>
      cases hall
      have hhigh := hnext hbinds.1.1 u rfl
      omega

/-- Where an expression ends an item, no keyword begins it. -/
theorem seesKeyword_of_leads (h : Leads Token.begins us) (hrest : Closes rest) :
    seesKeyword (us ++ rest) = some (false, us ++ rest) := by
  obtain ⟨t, vs, rfl, ht, hnext⟩ := h
  rw [List.cons_append]
  cases hall : vs ++ rest with
  | nil => rfl
  | cons u more =>
    have hnot : ¬(t.kind = .word ∧ u.isOperator "=" = true) := by
      rintro ⟨hkind, hequals⟩
      cases vs with
      | nil =>
        rw [List.nil_append] at hall
        obtain ⟨-, htext⟩ := u.closes_cases (hrest u (by rw [hall]; rfl))
        simp [(u.eq_of_isOperator hequals).2] at htext
      | cons v vs =>
        cases hall
        have hhigh := hnext hkind u rfl
        rw [reach_of_isOperator hequals] at hhigh
        exact absurd hhigh (by decide)
    have hfalse : (decide (t.kind = .word) && !keywords.contains t.text && u.isOperator "=") = false := by
      by_contra htrue
      simp only [Bool.not_eq_false, Bool.and_eq_true, decide_eq_true_eq] at htrue
      exact hnot ⟨htrue.1.1, htrue.2⟩
    show some (_, _) = _
    rw [hfalse]

theorem starNamedExpression_of_leads (h : Leads Token.begins us) (hrest : Ends 1 rest) :
    starNamedExpression (nested (d + 1)) (us ++ rest) = expression (nested d) (us ++ rest) := by
  rw [← namedExpression_of_leads h hrest]
  obtain ⟨t, vs, rfl, ht, -⟩ := h
  unfold starNamedExpression
  rw [List.cons_append, seesOperator_cons, isOperator_of_begins ht (by decide)]
  rfl

theorem readsItems_starNamedExpression : ReadsItems d (starNamedExpression (nested (d + 1))) :=
  fun _ _ _ hus hrest h => (starNamedExpression_of_leads hus (hrest.ends le_rfl)).trans h

theorem readsItems_subscriptItem : ReadsItems d (subscriptItem (nested (d + 1))) := by
  intro us rest e hus hrest h
  have hnamed := (namedExpression_of_leads hus (hrest.ends le_rfl)).trans h
  have hcolon : seesOperator ":" rest = some (false, rest) := by
    cases rest with
    | nil => rfl
    | cons c rest =>
      obtain ⟨-, htext⟩ := c.closes_cases (hrest c rfl)
      have hfalse : c.isOperator ":" = false := by
        rcases htext with htext | htext | htext | htext <;> simp [Token.isOperator, htext]
      show some (c.isOperator ":", _) = _
      rw [hfalse]
  obtain ⟨t, vs, rfl, ht, -⟩ := hus
  rw [List.cons_append] at hnamed ⊢
  unfold subscriptItem
  rw [seesOperator_cons, isOperator_of_begins ht (by decide), if_neg Bool.false_ne_true, seesOperator_cons,
    isOperator_of_begins ht (by decide), if_neg Bool.false_ne_true, bind_of_some hnamed]
  show (seesOperator ":" >>= fun b => if (!isBinding e && b) = true then _ else _) rest = _
  rw [bind_of_some hcolon, Bool.and_false, if_neg Bool.false_ne_true]
  rfl

/-- What ends an item begins no expression. -/
theorem expression_of_closes (n : Nested) (h : t.closes = true) : expression n (t :: ts) = none := by
  obtain ⟨hkind, htext⟩ := t.closes_cases h
  have hword : ∀ text, t.isWord text = false := fun text => by simp [Token.isWord, hkind]
  have hatom : atom n (t :: ts) = none := by
    unfold atom
    rw [peek_bind_cons]
    dsimp only [Option.map_some]
    rw [hkind]
    dsimp only
    unfold operatorAtom
    rw [peek_bind_cons]
    dsimp only
    have hdots : operator "..." (t :: ts) = none := by
      refine if_neg ?_
      rcases htext with htext | htext | htext | htext <;> simp [Token.isOperator, htext]
    rcases htext with htext | htext | htext | htext <;>
      rw [htext, if_neg (by decide), if_neg (by decide), if_neg (by decide), bind_eq_none hdots]
  have hpower : power n (t :: ts) = none := by
    have hawaited : awaited n (t :: ts) = none := by
      unfold awaited
      rw [seesWord_cons, hword]
      exact bind_eq_none hatom
    exact bind_eq_none hawaited
  have hfactor : factor n (t :: ts) = none := by
    have hsign : operatorIn ["+", "-", "~"] (t :: ts) = none := by
      refine if_neg ?_
      rcases htext with htext | htext | htext | htext <;> simp [htext]
    unfold factor
    rw [attempt_bind_of_none hsign]
    exact hpower
  have hbitwiseOr : bitwiseOr n (t :: ts) = none :=
    bind_eq_none (bind_eq_none (bind_eq_none (bind_eq_none (bind_eq_none (bind_eq_none hfactor)))))
  have hinversion : inversion n (t :: ts) = none := by
    unfold inversion
    rw [seesWord_cons, hword]
    exact bind_eq_none hbitwiseOr
  have hdisjunction : disjunction n (t :: ts) = none := bind_eq_none (bind_eq_none hinversion)
  unfold expression
  rw [seesWord_cons, hword]
  exact bind_eq_none hdisjunction

end Heads

/-! ### Levels -/

section Levels

variable {d i : Nat} {us us' rest : List Token} {e : Expr}

theorem operatorReach_signsAt {text : String} (h : text ∈ signsAt i) : operatorReach text = 10 - i := by
  rcases i with - | - | - | - | - | - | i <;> simp only [signsAt, List.mem_cons, List.not_mem_nil] at h
  all_goals grind [operatorReach]

theorem Phrase.Reread.primary (h : (Phrase.primary e).Reread us) (halike : Alike us us')
    (hd : us.length ≤ d) (hrest : Ends 13 rest) :
    ∃ e', Alike e e' ∧ Script.primary (nested d) (us' ++ rest) = some (e', rest) := by
  obtain ⟨e', fuel, he, -, hread⟩ := h.2 d us' rest halike hd (hrest.mono (by decide))
  exact ⟨e', he, hread.trans (trailers_stop _ _ _ hrest)⟩

theorem Phrase.Reread.grouped (h : (Phrase.grouped i e).Reread us) (halike : Alike us us')
    (hd : us.length ≤ d) (hrest : Ends (11 - i) rest) :
    ∃ e', Alike e e' ∧ groupedAt (nested d) i (us' ++ rest) = some (e', rest) := by
  obtain ⟨e', fuel, he, -, hread⟩ := h.2 d us' rest halike hd (hrest.mono (by omega))
  refine ⟨e', he, hread.trans ?_⟩
  cases i with
  | zero => rfl
  | succ i =>
    have hsign : operatorIn (signsAt i) rest = none :=
      hrest.operatorIn_eq_none fun s hs => by
        rw [operatorReach_signsAt hs]
        omega
    exact bind_of_some (manyUpTo_of_none (bind_eq_none hsign) fuel)

/-- Whatever is read without a trailer can be given trailers. -/
theorem reread_of_atom (hus : Leads Token.leads us)
    (h : ∀ d us' rest, Alike us us' → us.length ≤ d → Ends 14 rest →
      ∃ e', Alike e e' ∧ atom (nested d) (us' ++ rest) = some (e', rest)) :
    (Phrase.primary e).Reread us := by
  refine ⟨hus, fun d us' rest halike hd hrest => ?_⟩
  obtain ⟨e', he, hatom⟩ := h d us' rest halike hd hrest
  exact ⟨e', rest.length, he, le_rfl, primary_of_atom hatom⟩

/-- One more trailer. -/
theorem reread_of_trailer {f : Expr} {t : Token} {ts : List Token} (h : (Phrase.primary e).Reread us)
    (ht : t.reach = 13)
    (hread : ∀ d t' ts' rest e', Alike t t' → Alike ts ts' → ts.length < d → Alike e e' →
      ∃ f', Alike f f' ∧ trailer (nested d) e' (t' :: (ts' ++ rest)) = some (f', rest)) :
    (Phrase.primary f).Reread (us ++ t :: ts) := by
  refine ⟨h.1.append ?_, fun d all rest halike hd hrest => ?_⟩
  · rintro _ ⟨⟩
    omega
  obtain ⟨us', more, rfl, hus, hmore⟩ := halike.append_left
  obtain ⟨t', ts', rfl, htt, hts⟩ := hmore.cons_left
  rw [List.length_append, List.length_cons] at hd
  have hnext : Ends 14 (t' :: (ts' ++ rest)) := .cons (by rw [← htt.reach]; omega)
  obtain ⟨e', fuel, he, hfuel, heq⟩ := h.2 d us' _ hus (by omega) hnext
  obtain ⟨f', hf, htrailer⟩ := hread d t' ts' rest e' htt hts (by omega) he
  rw [List.length_cons, List.length_append] at hfuel
  obtain ⟨k, rfl⟩ : ∃ k, fuel = k + 1 := ⟨fuel - 1, by omega⟩
  refine ⟨f', k, hf, by omega, ?_⟩
  rw [List.append_assoc, List.cons_append, heq, trailers_of_trailer htrailer]

theorem reread_factor (h : (Phrase.primary e).Reread us) : (Phrase.grouped 0 e).Reread us := by
  refine ⟨h.1.begins, fun d us' rest halike hd hrest => ?_⟩
  obtain ⟨e', he, hread⟩ := h.primary halike hd (hrest.mono (by decide))
  obtain ⟨t, vs, rfl, ht, -⟩ := h.1.alike (fun _ _ => Alike.leads) halike
  exact ⟨e', rest.length, he, le_rfl, factor_of_primary ht hrest hread⟩

theorem reread_unary {s : Span} {text : String} (htext : text ∈ ["+", "-", "~"])
    (h : (Phrase.grouped 0 e).Reread us) :
    (Phrase.grouped 0 (.operation s .unary [e])).Reread (.sign text :: us) := by
  have hsign : (Token.sign text).isSign = true := by
    simpa [Token.isSign, Token.sign] using htext
  refine ⟨⟨_, us, rfl, ?_, fun hkind => by cases hkind⟩, fun d all rest halike hd hrest => ?_⟩
  · rw [Token.begins, hsign, Bool.or_true]
  obtain ⟨t', us', rfl, ht, hus⟩ := halike.cons_left
  rw [List.length_cons] at hd
  obtain ⟨d, rfl⟩ : ∃ k, d = k + 1 := ⟨d - 1, by omega⟩
  obtain ⟨e', he, hread⟩ := h.grouped (d := d) hus (by omega) hrest
  have htake : operatorIn ["+", "-", "~"] (t' :: (us' ++ rest)) = some (t', us' ++ rest) := by
    refine satisfy_of_true ?_
    rw [← ht.kind, ← ht.text]
    exact hsign
  refine ⟨.operation (spanning t'.span e'.extent) .unary [e'], rest.length, .operation .unary he.single,
    le_rfl, ?_⟩
  show factor (nested (d + 1)) (t' :: (us' ++ rest)) = _
  unfold factor
  rw [attempt_bind_of_some htake]
  exact bind_of_some hread

theorem reread_power {s : Span} {f : Expr} {vs : List Token} (ha : (Phrase.primary e).Reread us)
    (hb : (Phrase.grouped 0 f).Reread vs) :
    (Phrase.grouped 0 (.operation s .binary [e, f])).Reread (us ++ .sign "**" :: vs) := by
  refine ⟨ha.1.begins.append (by rintro _ ⟨⟩; decide), fun d all rest halike hd hrest => ?_⟩
  obtain ⟨us', more, rfl, hus, hmore⟩ := halike.append_left
  obtain ⟨t', vs', rfl, ht, hvs⟩ := hmore.cons_left
  rw [List.length_append, List.length_cons] at hd
  obtain ⟨d, rfl⟩ : ∃ k, d = k + 1 := ⟨d - 1, by omega⟩
  have hstars : t'.isOperator "**" = true := by
    rw [← ht.isOperator]
    rfl
  have hnext : Ends 13 (t' :: (vs' ++ rest)) := .cons (by rw [reach_of_isOperator hstars]; decide)
  obtain ⟨e', he, hbase⟩ := ha.primary (d := d + 1) hus (by omega) hnext
  obtain ⟨f', hf, hexponent⟩ := hb.grouped (d := d) hvs (by omega) hrest
  have hlead := ha.1.alike (fun _ _ => Alike.leads) hus
  refine ⟨binaryOf .binary e' f', rest.length, .operation .binary (.cons he hf.single), le_rfl, ?_⟩
  rw [List.append_assoc, List.cons_append]
  obtain ⟨t, us', rfl, hleads, -⟩ := hlead
  rw [List.cons_append] at hbase ⊢
  have hpower : power (nested (d + 1)) (t :: (us' ++ t' :: (vs' ++ rest))) =
      some (binaryOf .binary e' f', rest) := by
    have hstep : (operator "**" >>= fun _ => (nested (d + 1)).factor) (t' :: (vs' ++ rest)) =
        some (f', rest) := (bind_of_some (satisfy_of_true hstars)).trans hexponent
    unfold power
    rw [bind_of_some ((awaited_of_primary hleads).trans hbase), attempt_bind_of_some hstep]
    rfl
  show factor (nested (d + 1)) _ = _
  unfold factor
  rw [attempt_bind_of_none (operatorIn_of_leads hleads _)]
  exact hpower

theorem reread_weaker (h : (Phrase.grouped i e).Reread us) :
    (Phrase.grouped (i + 1) e).Reread us := by
  refine ⟨h.1, fun d us' rest halike hd hrest => ?_⟩
  obtain ⟨e', he, hread⟩ := h.grouped halike hd hrest
  exact ⟨e', rest.length, he, le_rfl, bind_of_some hread⟩

theorem reread_binary {s : Span} {f : Expr} {text : String} {vs : List Token} (htext : text ∈ signsAt i)
    (ha : (Phrase.grouped (i + 1) e).Reread us) (hb : (Phrase.grouped i f).Reread vs) :
    (Phrase.grouped (i + 1) (.operation s .binary [e, f])).Reread (us ++ .sign text :: vs) := by
  have hreach := operatorReach_signsAt htext
  have hi : i < 6 := by
    by_contra hi
    obtain ⟨k, rfl⟩ : ∃ k, i = k + 6 := ⟨i - 6, by omega⟩
    cases htext
  have hsign : (Token.sign text).reach = 10 - i := hreach
  refine ⟨ha.1.append (by rintro _ ⟨⟩; omega), fun d all rest halike hd hrest => ?_⟩
  obtain ⟨us', more, rfl, hus, hmore⟩ := halike.append_left
  obtain ⟨t', vs', rfl, ht, hvs⟩ := hmore.cons_left
  rw [List.length_append, List.length_cons] at hd
  obtain ⟨e', fuel, he, hfuel, heq⟩ := ha.2 d us' (t' :: (vs' ++ rest)) hus (by omega)
    (.cons (by rw [← ht.reach]; omega))
  obtain ⟨f', hf, hread⟩ := hb.grouped (d := d) hvs (by omega) hrest
  have htake : operatorIn (signsAt i) (t' :: (vs' ++ rest)) = some (t', vs' ++ rest) := by
    refine satisfy_of_true ?_
    rw [← ht.kind, ← ht.text]
    simpa [Token.sign] using htext
  rw [List.length_cons, List.length_append] at hfuel
  obtain ⟨k, rfl⟩ : ∃ k, fuel = k + 1 := ⟨fuel - 1, by omega⟩
  refine ⟨binaryOf .binary e' f', k, .operation .binary (.cons he hf.single), by omega, ?_⟩
  rw [List.append_assoc, List.cons_append, heq]
  have hone : (operatorIn (signsAt i) >>= fun _ => groupedAt (nested d) i) (t' :: (vs' ++ rest)) =
      some (f', rest) := (bind_of_some htake).trans hread
  show Option.bind (manyUpTo _ (k + 1) (t' :: (vs' ++ rest))) _ = Option.bind (manyUpTo _ k rest) _
  rw [manyUpTo]
  dsimp only
  rw [hone]
  show Option.bind (Option.map _ (manyUpTo _ k rest)) _ = _
  cases manyUpTo (operatorIn (signsAt i) >>= fun _ => groupedAt (nested d) i) k rest <;> rfl

theorem reread_operand (h : (Phrase.grouped 6 e).Reread us) : (Phrase.expression e).Reread us := by
  refine ⟨h.1, fun d us' rest halike hd hrest => ?_⟩
  obtain ⟨e', he, hread⟩ := h.grouped halike hd (hrest.mono (by decide))
  obtain ⟨t, vs, rfl, ht, -⟩ := h.1.alike (fun _ _ => Alike.begins) halike
  rw [groupedAt_six] at hread
  exact ⟨e', he, expression_of_comparison ht hrest
    (comparison_of_bitwiseOr (hrest.mono (by decide)) hread)⟩

end Levels

/-! ### Leaves, attributes and comparisons -/

section Leaves

variable {d : Nat} {s : Span} {us us' rest : List Token} {e : Expr}

theorem leads_single {t : Token} (h : t.leads = true) : Leads Token.leads [t] := by
  refine ⟨t, [], rfl, h, ?_⟩
  rintro - _ ⟨⟩

theorem atom_of_constant {n : Nested} {t : Token} {c : Constant} {ts : List Token} (hkind : t.kind = .word)
    (htext : constantOf? t.text = some c) : atom n (t :: ts) = some (.constant t.span c, ts) := by
  have hatom : atom n (t :: ts) = wordAtom (t :: ts) := by
    unfold atom
    rw [peek_bind_cons]
    dsimp only [Option.map_some]
    rw [hkind]
  rw [hatom, wordAtom, htext]

theorem atom_of_number {n : Nested} {t : Token} {ts : List Token} (hkind : t.kind = .number) :
    atom n (t :: ts) = some (.number t.span t.text, ts) := by
  have htake : ofKind .number (t :: ts) = some (t, ts) := satisfy_of_true (by simp [hkind])
  unfold atom
  rw [peek_bind_cons]
  dsimp only [Option.map_some]
  rw [hkind]
  exact bind_of_some htake

/-- A leaf is a single token. -/
theorem reread_leaf {t : Token} (ht : t.leads = true)
    (h : ∀ (n : Nested) (t' : Token) (rest : List Token), Alike t t' → Ends 14 rest →
      ∃ e', Alike e e' ∧ atom n (t' :: rest) = some (e', rest)) : (Phrase.primary e).Reread [t] := by
  refine reread_of_atom (leads_single ht) fun d us' rest halike _ hrest => ?_
  obtain ⟨t', vs', rfl, htt, hvs⟩ := halike.cons_left
  obtain rfl := Alike.nil_iff.mp hvs
  exact h (nested d) t' rest htt hrest

theorem reread_name {id : String} (h : keywords.contains id = false) :
    (Phrase.primary (.name s id)).Reread [.word id] := by
  refine reread_leaf (Token.leads_of_word rfl h) fun n t' rest ht _ => ?_
  obtain rfl : id = t'.text := ht.text
  exact ⟨_, .name _, atom_of_name ht.kind.symm h⟩

theorem reread_constant {c : Constant} {text : String} (h : constantOf? text = some c) :
    (Phrase.primary (.constant s c)).Reread [.word text] := by
  have hleads : (Token.word text).leads = true := by
    rw [Token.leads, show (Token.word text).text = text from rfl, h]
    simp [Token.word]
  refine reread_leaf hleads fun n t' rest ht _ => ?_
  obtain rfl : text = t'.text := ht.text
  exact ⟨_, .constant c, atom_of_constant ht.kind.symm h⟩

theorem reread_number {text : String} :
    (Phrase.primary (.number s text)).Reread [⟨.number, text, nowhere⟩] := by
  refine reread_leaf rfl fun n t' rest ht _ => ?_
  obtain rfl : text = t'.text := ht.text
  exact ⟨_, .number _, atom_of_number ht.kind.symm⟩

theorem reread_string {text : String} :
    (Phrase.primary (.string s text)).Reread [⟨.string, text, nowhere⟩] := by
  refine reread_leaf rfl fun n t' rest ht hrest => ?_
  obtain rfl : text = t'.text := ht.text
  exact ⟨_, .string _, atom_of_string ht.kind.symm hrest⟩

theorem reread_attribute {id : String} (h : (Phrase.primary e).Reread us)
    (hid : keywords.contains id = false) :
    (Phrase.primary (.attribute s e id)).Reread (us ++ [.sign ".", .word id]) := by
  refine reread_of_trailer h (by decide) fun d t' ts' rest e' ht hts _ he => ?_
  obtain ⟨name, ts', rfl, hname, hnil⟩ := hts.cons_left
  obtain rfl := Alike.nil_iff.mp hnil
  obtain rfl : id = name.text := hname.text
  refine ⟨_, .attributed he name.text, trailer_attribute ?_ hname.kind.symm hid⟩
  rw [← ht.isOperator]
  rfl

theorem Alike.single_token {t : Token} {ts : List Token} (h : Alike [t] ts) :
    ∃ s, ts = [⟨t.kind, t.text, s⟩] := by
  obtain ⟨⟨kind, text, s⟩, more, rfl, ht, hnil⟩ := h.cons_left
  obtain rfl := Alike.nil_iff.mp hnil
  obtain rfl := ht.kind
  obtain rfl := ht.text
  exact ⟨s, rfl⟩

/-- The spelling of an operator of a comparison is read as this operator. -/
theorem comparisonOperator_of_spelling {text : String} {ts ts' : List Token}
    (htext : (text, ts) ∈ comparisonSpellings) (halike : Alike ts ts') {t : Token}
    (ht : t.begins = true) : comparisonOperator (ts' ++ t :: rest) = some (text, t :: rest) := by
  have hnot : word "not" (t :: rest) = none :=
    if_neg (Bool.eq_false_iff.mp (isWord_of_begins ht (by decide) (by decide)))
  have hpair : ∀ {u v : Token}, Alike [u, v] ts' →
      ∃ s r, ts' = [⟨u.kind, u.text, s⟩, ⟨v.kind, v.text, r⟩] := by
    intro u v h
    obtain ⟨us, vs, rfl, hu, hv⟩ := Alike.append_left (show Alike ([u] ++ [v]) ts' from h)
    obtain ⟨s, rfl⟩ := hu.single_token
    obtain ⟨r, rfl⟩ := hv.single_token
    exact ⟨s, r, rfl⟩
  simp only [comparisonSpellings, List.mem_cons, List.not_mem_nil, or_false, Prod.mk.injEq] at htext
  rcases htext with ⟨rfl, rfl⟩ | ⟨rfl, rfl⟩ | ⟨rfl, rfl⟩ | ⟨rfl, rfl⟩ | ⟨rfl, rfl⟩ | ⟨rfl, rfl⟩ |
    ⟨rfl, rfl⟩ | ⟨rfl, rfl⟩ | ⟨rfl, rfl⟩ | ⟨rfl, rfl⟩
  iterate 7
    obtain ⟨s, rfl⟩ := halike.single_token
    rfl
  · obtain ⟨s, r, rfl⟩ := hpair halike
    rfl
  · -- a `not` behind this operator would be part of it
    obtain ⟨s, rfl⟩ := halike.single_token
    unfold comparisonOperator
    rw [List.singleton_append, attempt_bind_of_none rfl]
    dsimp only
    rw [seesWord_cons, if_neg (by simp [Token.isWord, Token.word]), seesWord_cons,
      if_neg (by simp [Token.isWord, Token.word]), bind_of_some (show word "is" _ = some (_, t :: rest) from rfl),
      attempt_bind_of_none hnot]
    rfl
  · obtain ⟨s, r, rfl⟩ := hpair halike
    rfl

theorem reread_noComparands : (Phrase.comparands [] []).Reread [] := by
  refine ⟨by rintro _ ⟨⟩, fun d us' rest fuel halike _ hrest _ => ⟨[], rfl, rfl, ?_⟩⟩
  obtain rfl := Alike.nil_iff.mp halike
  exact manyUpTo_of_none (bind_eq_none hrest.comparisonOperator_eq_none) fuel

/-- Operands of a comparison do not go on with what stands in front of them. -/
theorem Phrase.Reread.ends {signs : List String} {es : List Expr} (h : (Phrase.comparands signs es).Reread us)
    (halike : Alike us us') (hrest : Ends 4 rest) : Ends 5 (us' ++ rest) := by
  cases us' with
  | nil => exact hrest.mono (by decide)
  | cons u' us' =>
    obtain ⟨u, us, rfl, hu, -⟩ := halike.symm.cons_left
    exact .cons (by rw [← hu.symm.reach, h.1 u rfl]; decide)

theorem reread_comparands {text : String} {ts vs : List Token} {signs : List String} {es : List Expr}
    (htext : (text, ts) ∈ comparisonSpellings) (h : (Phrase.grouped 6 e).Reread us)
    (hs : (Phrase.comparands signs es).Reread vs) :
    (Phrase.comparands (text :: signs) (e :: es)).Reread (ts ++ (us ++ vs)) := by
  have hfirst : comparisonSpellings.all (fun p => p.2.head?.any fun t => t.reach = 4) = true := by decide
  have hhead := List.all_eq_true.mp hfirst _ htext
  obtain ⟨t, ts, rfl⟩ : ∃ t more, ts = t :: more := by
    cases ts with
    | nil => cases hhead
    | cons t ts => exact ⟨t, ts, rfl⟩
  refine ⟨?_, fun d all rest fuel halike hd hrest hfuel => ?_⟩
  · rintro _ ⟨⟩
    exact of_decide_eq_true hhead
  obtain ⟨ts', more, rfl, hts, hmore⟩ := halike.append_left
  obtain ⟨us', vs', rfl, hus, hvs⟩ := hmore.append_left
  simp only [List.length_append, List.length_cons] at hd hfuel
  obtain ⟨k, rfl⟩ : ∃ k, fuel = k + 1 := ⟨fuel - 1, by omega⟩
  have hnext := hs.ends hvs hrest
  obtain ⟨e', he, hread⟩ := h.grouped (d := d) hus (by omega) hnext
  obtain ⟨pairs, hsigns, hes, hmany⟩ := hs.2 d vs' rest k hvs (by omega) hrest (by omega)
  obtain ⟨u', us'', rfl, hu, -⟩ := h.1.alike (fun _ _ => Alike.begins) hus
  rw [groupedAt_six] at hread
  refine ⟨(text, e') :: pairs, by rw [List.map_cons, hsigns], .cons he hes, ?_⟩
  have hone : comparand (nested d) (ts' ++ (u' :: us'' ++ (vs' ++ rest))) = some ((text, e'), vs' ++ rest) := by
    have hsign : comparisonOperator (ts' ++ u' :: (us'' ++ (vs' ++ rest))) =
        some (text, u' :: (us'' ++ (vs' ++ rest))) := comparisonOperator_of_spelling htext hts hu
    exact (bind_of_some hsign).trans (bind_of_some hread)
  rw [List.append_assoc, List.append_assoc]
  exact manyUpTo_of_some hone hmany

theorem reread_comparison {c : Expr} {text : String} {signs : List String} {es : List Expr}
    {vs : List Token} (h : (Phrase.grouped 6 e).Reread us)
    (hs : (Phrase.comparands (text :: signs) (c :: es)).Reread vs) :
    (Phrase.expression (.comparison s e (text :: signs) (c :: es))).Reread (us ++ vs) := by
  refine ⟨h.1.append fun t ht => (hs.1 t ht).ge, fun d all rest halike hd hrest => ?_⟩
  obtain ⟨us', vs', rfl, hus, hvs⟩ := halike.append_left
  rw [List.length_append] at hd
  have hnext := hs.ends hvs (hrest.mono (by decide))
  obtain ⟨e', he, hread⟩ := h.grouped (d := d) hus (by omega) hnext
  have hlength : vs.length ≤ (vs' ++ rest).length := by
    rw [hvs.length, List.length_append]
    omega
  obtain ⟨pairs, hsigns, hes, hmany⟩ := hs.2 d vs' rest _ hvs (by omega) (hrest.mono (by decide)) hlength
  obtain ⟨t, us'', rfl, ht, -⟩ := h.1.alike (fun _ _ => Alike.begins) hus
  rw [groupedAt_six] at hread
  refine ⟨.comparison (spanning e'.extent (lastExtent e'.extent (pairs.map Prod.snd))) e'
    (pairs.map Prod.fst) (pairs.map Prod.snd), .comparison he hsigns.symm hes, ?_⟩
  rw [List.append_assoc, List.cons_append] at *
  refine expression_of_comparison ht hrest ?_
  have hsome : pairs.isEmpty = false := by
    cases pairs with
    | nil => cases hsigns
    | cons p pairs => rfl
  have hothers : many (comparand (nested d)) (vs' ++ rest) = some (pairs, rest) := hmany
  unfold comparison
  rw [bind_of_some hread]
  refine (bind_of_some hothers).trans ?_
  rw [hsome]
  rfl

end Leaves

end Framewise.Script
