import Framewise.Proofs.SpelledSyntax

/-! # Spelled syntax is read again

  The phrases between brackets: elements of lists and tuples, entries of dictionaries,
  arguments of calls and indices of subscripts. Each comes behind a comma and ends where the
  next comma or the closing bracket stands. With these, every spelling is read as what it
  spells.

  Main results: `Spelled.reread`, `parseTokens_spelled`.
-/

namespace Framewise.Script

open Parse

/-! ## Elements -/

section Elements

variable {d : Nat} {s r : Span} {t opening closing : Token} {us us' vs vs' cs ts rest : List Token}
  {e : Expr} {es : List Expr}

theorem reread_noElements : (Phrase.elements []).Reread [] := by
  refine ⟨by rintro _ ⟨⟩, fun d us' rest p fuel halike _ _ _ hstop _ => ⟨[], rfl, ?_⟩⟩
  obtain rfl := Alike.nil_iff.mp halike
  exact manyUpTo_of_none hstop fuel

theorem reread_elements (h : (Phrase.expression e).Reread us) (hs : (Phrase.elements es).Reread vs) :
    (Phrase.elements (e :: es)).Reread (.sign "," :: (us ++ vs)) := by
  refine ⟨by rintro _ ⟨⟩; rfl, fun d all rest p fuel halike hd hp hrest hstop hfuel => ?_⟩
  obtain ⟨c', more, rfl, hc, hmore⟩ := halike.cons_left
  obtain ⟨us', vs', rfl, hus, hvs⟩ := hmore.append_left
  simp only [List.length_append, List.length_cons] at hd hfuel
  obtain ⟨k, rfl⟩ : ∃ k, fuel = k + 1 := ⟨fuel - 1, by omega⟩
  have hnext := hs.1.closes hvs hrest
  obtain ⟨e', he, hread⟩ := h.2 d us' _ hus (by omega) (hnext.ends le_rfl)
  obtain ⟨es', hes, hmany⟩ := hs.2 d vs' rest p k hvs (by omega) hp hrest hstop (by omega)
  have hitem := hp us' _ e' (h.1.alike (fun _ _ => Alike.begins) hus) hnext hread
  refine ⟨e' :: es', .cons he hes, ?_⟩
  rw [List.cons_append, List.append_assoc]
  exact manyUpTo_of_some ((bind_of_some (operator_of_true ((hc.isOperator ",").symm.trans rfl))).trans hitem) hmany

theorem Closes.seesComprehension (h : Closes ts) : seesComprehension ts = some (false, ts) := by
  cases ts with
  | nil => rfl
  | cons t ts =>
    have hkind := (t.closes_cases (h t rfl)).1
    show some (t.isWord "for" || t.isWord "async", _) = _
    rw [Token.isWord, Token.isWord, hkind]
    rfl

theorem starNamedExpression_of_closes (h : t.closes = true) :
    starNamedExpression (nested (d + 1)) (t :: ts) = none := by
  obtain ⟨hkind, htext⟩ := t.closes_cases h
  have hnamed : namedExpression (nested (d + 1)) (t :: ts) = none := by
    cases ts with
    | nil => exact expression_of_closes _ h
    | cons u ts => exact (if_neg (by simp [hkind])).trans (expression_of_closes _ h)
  have hstar : t.isOperator "*" = false := by
    rcases htext with htext | htext | htext | htext <;> simp [Token.isOperator, htext]
  unfold starNamedExpression
  rw [seesOperator_cons, hstar]
  exact hnamed

/-- Items between brackets that are read one after the other, and perhaps a comma behind them. -/
structure ItemsRead (n : Nested) (ts : List Token) (first : Expr) (others : List Expr)
    (comma : Option Token) (closing : Token) (rest : List Token) : Prop where
  begins : ∃ t more, ts = t :: more ∧ t.begins = true
  reads : ∃ mid after, starNamedExpression n ts = some (first, mid) ∧ Closes mid ∧
    many (operator "," >>= fun _ => starNamedExpression n) mid = some (others, after) ∧
    attempt (operator ",") after = some (comma, closing :: rest)

namespace ItemsRead

variable {n : Nested} {first : Expr} {others : List Expr} {comma : Option Token}
  (h : ItemsRead n ts first others comma closing rest)
include h

theorem parentheses (hopening : opening.isOperator "(" = true) (hclosing : closing.isOperator ")" = true)
    (hstarred : (!first.isStarred || !others.isEmpty || comma.isSome) = true) :
    parentheses n (opening :: ts) = some (.parenthesized (spanning opening.span closing.span)
      (tupleOf (first :: others) comma), rest) := by
  obtain ⟨⟨t, more, rfl, ht⟩, mid, after, hfirst, hmid, hothers, hcomma⟩ := h
  unfold Script.parentheses
  rw [bind_of_some (operator_of_true hopening)]
  dsimp only
  rw [seesOperator_cons, isOperator_of_begins ht (by decide), if_neg Bool.false_ne_true, seesWord_cons,
    isWord_of_begins ht (by decide) (by decide), if_neg Bool.false_ne_true, bind_of_some hfirst,
    bind_of_some hmid.seesComprehension, if_neg Bool.false_ne_true, bind_of_some hothers, bind_of_some hcomma,
    hstarred, bind_of_some (show require true (closing :: rest) = some ((), closing :: rest) from rfl)]
  exact bind_of_some (operator_of_true hclosing)

theorem squareBrackets (hopening : opening.isOperator "[" = true)
    (hclosing : closing.isOperator "]" = true) :
    squareBrackets n (opening :: ts) =
      some (.sequence (spanning opening.span closing.span) .list (first :: others), rest) := by
  obtain ⟨⟨t, more, rfl, ht⟩, mid, after, hfirst, hmid, hothers, hcomma⟩ := h
  unfold Script.squareBrackets
  rw [bind_of_some (operator_of_true hopening), seesOperator_cons, isOperator_of_begins ht (by decide),
    if_neg Bool.false_ne_true, bind_of_some hfirst, bind_of_some hmid.seesComprehension,
    if_neg Bool.false_ne_true, bind_of_some hothers, bind_of_some hcomma]
  exact bind_of_some (operator_of_true hclosing)

end ItemsRead

/-! ## Brackets -/

theorem atom_of_bracket {n : Nested} {text : String} (h : t.isOperator text = true)
    (p : Parse Expr) (hp : text = "(" ∧ p = parentheses n ∨ text = "[" ∧ p = squareBrackets n ∨
      text = "\x7b" ∧ p = braces n) : atom n (t :: ts) = p (t :: ts) := by
  obtain ⟨hkind, htext⟩ := t.eq_of_isOperator h
  have hatom : atom n (t :: ts) = operatorAtom n (t :: ts) := by
    unfold atom
    rw [peek_bind_cons]
    dsimp only [Option.map_some]
    rw [hkind]
  rw [hatom]
  unfold operatorAtom
  rw [peek_bind_cons]
  dsimp only
  rcases hp with ⟨rfl, rfl⟩ | ⟨rfl, rfl⟩ | ⟨rfl, rfl⟩
  · rw [if_pos htext]
  · rw [if_neg (by rw [htext]; decide), if_pos htext]
  · rw [if_neg (by rw [htext]; decide), if_neg (by rw [htext]; decide), if_pos htext]

theorem Alike.sign {text : String} (h : Alike (Token.sign text) t) : t.isOperator text = true := by
  rw [← h.isOperator]
  simp [Token.isOperator, Token.sign]

theorem Alike.single_sign {text : String} (h : Alike [Token.sign text] ts) :
    ∃ t, ts = [t] ∧ t.isOperator text = true := by
  obtain ⟨t, more, rfl, ht, hnil⟩ := h.cons_left
  obtain rfl := Alike.nil_iff.mp hnil
  exact ⟨t, rfl, ht.sign⟩

/-- A closing bracket ends items. -/
theorem closing_ends {text : String} (rest : List Token) (h : t.isOperator text = true)
    (htext : [")", "]", "\x7d"].contains text = true) : Closes (t :: rest) ∧
      operator "," (t :: rest) = none ∧ attempt (operator ",") (t :: rest) = some (none, t :: rest) := by
  simp only [List.contains_iff_mem, List.mem_cons, List.not_mem_nil, or_false] at htext
  have hnone : operator "," (t :: rest) = none := by
    refine if_neg ?_
    rcases htext with rfl | rfl | rfl <;> simp [Token.isOperator, (t.eq_of_isOperator h).2]
  refine ⟨?_, hnone, by rw [attempt, hnone]⟩
  rintro _ ⟨⟩
  exact closes_of_isOperator h (by rcases htext with rfl | rfl | rfl <;> decide)

theorem Alike.length_le (h : Alike us us') (rest : List Token) : us.length ≤ (us' ++ rest).length := by
  rw [h.length, List.length_append]
  omega

/-- Whatever stands between brackets is an atom. -/
theorem reread_of_brackets {text : String} {p : Nested → Parse Expr}
    (hp : text = "(" ∧ p = parentheses ∨ text = "[" ∧ p = squareBrackets ∨ text = "\x7b" ∧ p = braces)
    (h : ∀ d opening vs' rest, opening.isOperator text = true → Alike vs vs' → vs.length ≤ d →
      ∃ e', Alike e e' ∧ p (nested (d + 1)) (opening :: (vs' ++ rest)) = some (e', rest)) :
    (Phrase.primary e).Reread (.sign text :: vs) := by
  have hleads : (Token.sign text).leads = true := by
    rcases hp with ⟨rfl, -⟩ | ⟨rfl, -⟩ | ⟨rfl, -⟩ <;> rfl
  refine reread_of_atom ⟨_, vs, rfl, hleads, fun hkind => by cases hkind⟩ fun d all rest halike hd _ => ?_
  obtain ⟨opening, vs', rfl, hopening, hvs⟩ := halike.cons_left
  rw [List.length_cons] at hd
  obtain ⟨d, rfl⟩ : ∃ k, d = k + 1 := ⟨d - 1, by omega⟩
  obtain ⟨e', he, hread⟩ := h d opening vs' rest hopening.sign hvs (by omega)
  refine ⟨e', he, (atom_of_bracket hopening.sign (p (nested (d + 1))) ?_).trans hread⟩
  rcases hp with ⟨rfl, rfl⟩ | ⟨rfl, rfl⟩ | ⟨rfl, rfl⟩ <;> simp

/-- The elements of a list or tuple are read up to the closing bracket. -/
theorem exists_itemsRead {comma : Bool} {text : String} (rest : List Token) (h : (Phrase.expression e).Reread us)
    (hs : (Phrase.elements es).Reread vs) (htext : [")", "]"].contains text = true)
    (halike : Alike (us ++ (vs ++ (commaIf comma ++ [.sign text]))) ts)
    (hd : (us ++ (vs ++ (commaIf comma ++ [Token.sign text]))).length ≤ d) :
    ∃ first others last closing, Alike e first ∧ Alike es others ∧ last.isSome = comma ∧
      closing.isOperator text = true ∧
      ItemsRead (nested (d + 1)) (ts ++ rest) first others last closing rest := by
  obtain ⟨us', more, rfl, hus, hmore⟩ := halike.append_left
  obtain ⟨vs', more, rfl, hvs, hmore⟩ := hmore.append_left
  obtain ⟨cs, more, rfl, hcs, hmore⟩ := hmore.append_left
  obtain ⟨closing, rfl, hclosing⟩ := hmore.single_sign
  simp only [List.length_append] at hd
  obtain ⟨hend, hnone, hlast⟩ := closing_ends rest hclosing (by
    simp only [List.contains_iff_mem, List.mem_cons, List.not_mem_nil, or_false] at htext ⊢
    rcases htext with rfl | rfl <;> simp)
  -- the comma behind the last item is no part of the items
  obtain ⟨last, hsome, hafter, hstop, hcomma⟩ : ∃ last : Option Token, last.isSome = comma ∧
      Closes (cs ++ closing :: rest) ∧
      (operator "," >>= fun _ => starNamedExpression (nested (d + 1))) (cs ++ closing :: rest) = none ∧
      attempt (operator ",") (cs ++ closing :: rest) = some (last, closing :: rest) := by
    cases comma with
    | false =>
      obtain rfl := Alike.nil_iff.mp hcs
      exact ⟨none, rfl, hend, bind_eq_none hnone, hlast⟩
    | true =>
      obtain ⟨c, rfl, hop⟩ := hcs.single_sign
      refine ⟨some c, rfl, ?_, ?_, ?_⟩
      · rintro _ ⟨⟩
        exact closes_of_isOperator hop (by decide)
      · exact (bind_of_some (operator_of_true hop)).trans (starNamedExpression_of_closes (hend closing rfl))
      · rw [List.singleton_append, attempt, operator_of_true hop]
  have hnext := hs.1.closes hvs hafter
  have hlead := h.1.alike (fun _ _ => Alike.begins) hus
  obtain ⟨first, hfirst, hread⟩ := h.2 d us' _ hus (by omega) (hnext.ends le_rfl)
  obtain ⟨others, hothers, hmany⟩ := hs.2 d vs' _ _ _ hvs (by omega) readsItems_starNamedExpression hafter
    hstop (hvs.length_le _)
  refine ⟨first, others, last, closing, hfirst, hothers, hsome, hclosing, ?_, ?_⟩
  · obtain ⟨t, more, rfl, ht, -⟩ := hlead
    exact ⟨t, _, rfl, ht⟩
  · simp only [List.append_assoc, List.singleton_append]
    exact ⟨_, _, (starNamedExpression_of_leads hlead (hnext.ends le_rfl)).trans hread, hnext, hmany, hcomma⟩

theorem reread_list {comma : Bool} (h : (Phrase.expression e).Reread us)
    (hs : (Phrase.elements es).Reread vs) :
    (Phrase.primary (.sequence s .list (e :: es))).Reread
      (.sign "[" :: (us ++ (vs ++ (commaIf comma ++ [.sign "]"])))) := by
  refine reread_of_brackets (.inr (.inl ⟨rfl, rfl⟩)) fun d opening ts rest hopening halike hd => ?_
  obtain ⟨first, others, last, closing, hfirst, hothers, -, hclosing, hitems⟩ :=
    exists_itemsRead rest h hs rfl halike hd
  exact ⟨_, .sequence .list (.cons hfirst hothers), hitems.squareBrackets hopening hclosing⟩

theorem reread_tuple {comma : Bool} (h : (Phrase.expression e).Reread us)
    (hs : (Phrase.elements es).Reread vs) (hcomma : es ≠ [] ∨ comma = true) :
    (Phrase.primary (.parenthesized s (.sequence r .tuple (e :: es)))).Reread
      (.sign "(" :: (us ++ (vs ++ (commaIf comma ++ [.sign ")"])))) := by
  refine reread_of_brackets (.inl ⟨rfl, rfl⟩) fun d opening ts rest hopening halike hd => ?_
  obtain ⟨first, others, last, closing, hfirst, hothers, hlast, hclosing, hitems⟩ :=
    exists_itemsRead rest h hs rfl halike hd
  have hmany : others ≠ [] ∨ last.isSome = true := by
    refine hcomma.imp (fun hne hnil => hne ?_) fun htrue => hlast.trans htrue
    rw [hnil] at hothers
    exact Alike.nil_iff.mp hothers.symm
  have hread := hitems.parentheses hopening hclosing (by
    rcases hmany with hne | hsome
    · simp [hne]
    · simp [hsome])
  have htuple : ∃ span, tupleOf (first :: others) last = .sequence span .tuple (first :: others) := by
    unfold tupleOf
    split
    next heq =>
      cases heq
      rcases hmany with hne | hsome
      · exact absurd rfl hne
      · cases hsome
    next => exact ⟨_, rfl⟩
  obtain ⟨span, htuple⟩ := htuple
  rw [htuple] at hread
  exact ⟨_, .parenthesized (.sequence .tuple (.cons hfirst hothers)), hread⟩

theorem reread_group (h : (Phrase.expression e).Reread us) (hstarred : e.isStarred = false) :
    (Phrase.primary (.parenthesized s e)).Reread (.sign "(" :: (us ++ [.sign ")"])) := by
  refine reread_of_brackets (.inl ⟨rfl, rfl⟩) fun d opening ts rest hopening halike hd => ?_
  have hitem : Alike (us ++ ([] ++ (commaIf false ++ [.sign ")"]))) ts := halike
  obtain ⟨first, others, last, closing, hfirst, hothers, hlast, hclosing, hitems⟩ :=
    exists_itemsRead rest h reread_noElements rfl hitem hd
  obtain rfl := Alike.nil_iff.mp hothers
  obtain rfl : last = none := Option.not_isSome_iff_eq_none.mp (by simp [hlast])
  have hread := hitems.parentheses hopening hclosing (by simp [← hfirst.isStarred, hstarred])
  exact ⟨_, .parenthesized hfirst, hread⟩

theorem reread_emptyTuple :
    (Phrase.primary (.parenthesized s (.sequence r .tuple []))).Reread [.sign "(", .sign ")"] := by
  refine reread_of_brackets (.inl ⟨rfl, rfl⟩) fun d opening ts rest hopening halike _ => ?_
  obtain ⟨closing, rfl⟩ := halike.single_token
  refine ⟨.parenthesized (spanning opening.span closing) (.sequence (spanBefore closing) .tuple []),
    .parenthesized (.sequence .tuple rfl), ?_⟩
  exact bind_of_some (operator_of_true hopening)

theorem reread_emptyList : (Phrase.primary (.sequence s .list [])).Reread [.sign "[", .sign "]"] := by
  refine reread_of_brackets (.inr (.inl ⟨rfl, rfl⟩)) fun d opening ts rest hopening halike _ => ?_
  obtain ⟨closing, rfl⟩ := halike.single_token
  exact ⟨.sequence (spanning opening.span closing) .list [], .sequence .list rfl,
    bind_of_some (operator_of_true hopening)⟩

theorem reread_emptyDict :
    (Phrase.primary (.operation s .dict [])).Reread [.sign "\x7b", .sign "\x7d"] := by
  refine reread_of_brackets (.inr (.inr ⟨rfl, rfl⟩)) fun d opening ts rest hopening halike _ => ?_
  obtain ⟨closing, rfl⟩ := halike.single_token
  exact ⟨.operation (spanning opening.span closing) .dict [], .operation .dict rfl,
    bind_of_some (operator_of_true hopening)⟩

end Elements

/-! ## Dictionaries -/

section Entries

variable {d : Nat} {s : Span} {colon : Token} {us us' vs vs' ws ts rest : List Token} {k v : Expr}
  {es : List Expr}

theorem ends_of_colon (h : colon.isOperator ":" = true) : Ends 1 (colon :: ts) :=
  .cons (by rw [reach_of_isOperator h]; decide)

theorem reread_noEntries : (Phrase.entries []).Reread [] := by
  refine ⟨by rintro _ ⟨⟩, fun d us' rest fuel halike _ _ hstop _ => ⟨[], rfl, ?_⟩⟩
  obtain rfl := Alike.nil_iff.mp halike
  exact manyUpTo_of_none (bind_eq_none hstop) fuel

theorem reread_entries (hk : (Phrase.expression k).Reread us) (hv : (Phrase.expression v).Reread vs)
    (hs : (Phrase.entries es).Reread ws) :
    (Phrase.entries (k :: v :: es)).Reread (.sign "," :: (us ++ .sign ":" :: (vs ++ ws))) := by
  refine ⟨by rintro _ ⟨⟩; rfl, fun d all rest fuel halike hd hrest hstop hfuel => ?_⟩
  obtain ⟨comma, more, rfl, hcomma, hmore⟩ := halike.cons_left
  obtain ⟨us', more, rfl, hus, hmore⟩ := hmore.append_left
  obtain ⟨colon, more, rfl, hcolon, hmore⟩ := hmore.cons_left
  obtain ⟨vs', ws', rfl, hvs, hws⟩ := hmore.append_left
  simp only [List.length_append, List.length_cons] at hd hfuel
  obtain ⟨j, rfl⟩ : ∃ j, fuel = j + 1 := ⟨fuel - 1, by omega⟩
  have hnext := hs.1.closes hws hrest
  obtain ⟨k', hkk, hkey⟩ := hk.2 d us' (colon :: (vs' ++ (ws' ++ rest))) hus (by omega)
    (ends_of_colon hcolon.sign)
  obtain ⟨v', hvv, hvalue⟩ := hv.2 d vs' (ws' ++ rest) hvs (by omega) (hnext.ends le_rfl)
  obtain ⟨ess, hes, hmany⟩ := hs.2 d ws' rest j hws (by omega) hrest hstop (by omega)
  have hpair : keyValue (nested (d + 1)) (us' ++ colon :: (vs' ++ (ws' ++ rest))) =
      some ([k', v'], ws' ++ rest) :=
    (bind_of_some hkey).trans ((bind_of_some (operator_of_true hcolon.sign)).trans (bind_of_some hvalue))
  have hentry : dictEntry (nested (d + 1)) (us' ++ colon :: (vs' ++ (ws' ++ rest))) =
      some ([k', v'], ws' ++ rest) := by
    obtain ⟨t, more, rfl, ht, -⟩ := hk.1.alike (fun _ _ => Alike.begins) hus
    rw [List.cons_append] at hpair ⊢
    unfold dictEntry
    rw [seesOperator_cons, isOperator_of_begins ht (by decide)]
    exact hpair
  refine ⟨[k', v'] :: ess, .cons hkk (.cons hvv hes), ?_⟩
  rw [List.cons_append, List.append_assoc, List.cons_append, List.append_assoc]
  exact manyUpTo_of_some ((bind_of_some (operator_of_true hcomma.sign)).trans hentry) hmany

theorem Alike.isBinding (h : Alike k v) : isBinding k = isBinding v := by
  have hbare : ∀ e : Expr, Script.isBinding e.bare = Script.isBinding e := by
    intro e
    cases e with
    | operation s kind es => cases kind <;> rfl
    | _ => rfl
  rw [← hbare k, ← hbare v]
  exact congrArg Script.isBinding h

theorem reread_dict (hk : (Phrase.expression k).Reread us) (hv : (Phrase.expression v).Reread vs)
    (hs : (Phrase.entries es).Reread ws) (hplain : (!k.isStarred && !isBinding k) = true) :
    (Phrase.primary (.operation s .dict (k :: v :: es))).Reread
      (.sign "\x7b" :: (us ++ .sign ":" :: (vs ++ (ws ++ [.sign "\x7d"])))) := by
  refine reread_of_brackets (.inr (.inr ⟨rfl, rfl⟩)) fun d opening all rest hopening halike hd => ?_
  obtain ⟨us', more, rfl, hus, hmore⟩ := halike.append_left
  obtain ⟨colon, more, rfl, hcolon, hmore⟩ := hmore.cons_left
  obtain ⟨vs', more, rfl, hvs, hmore⟩ := hmore.append_left
  obtain ⟨ws', more, rfl, hws, hmore⟩ := hmore.append_left
  obtain ⟨closing, rfl, hclosing⟩ := hmore.single_sign
  simp only [List.length_append, List.length_cons] at hd
  obtain ⟨hend, hstop, hlast⟩ := closing_ends rest hclosing (by decide)
  have hnext := hs.1.closes hws hend
  obtain ⟨k', hkk, hkey⟩ := hk.2 d us' (colon :: (vs' ++ (ws' ++ closing :: rest))) hus (by omega)
    (ends_of_colon hcolon.sign)
  obtain ⟨v', hvv, hvalue⟩ := hv.2 d vs' (ws' ++ closing :: rest) hvs (by omega) (hnext.ends le_rfl)
  obtain ⟨ess, hes, hmany⟩ := hs.2 d ws' _ _ hws (by omega) hend hstop (hws.length_le _)
  have hrest : dictRest (nested (d + 1)) opening [k', v'] (ws' ++ closing :: rest) =
      some (.operation (spanning opening.span closing.span) .dict ([k', v'] ++ ess.flatten), rest) := by
    have hothers : many (operator "," >>= fun _ => dictEntry (nested (d + 1))) (ws' ++ closing :: rest) =
        some (ess, closing :: rest) := hmany
    unfold dictRest
    rw [bind_of_some hothers, bind_of_some hlast]
    exact bind_of_some (operator_of_true hclosing)
  have hlead := hk.1.alike (fun _ _ => Alike.begins) hus
  have hfirst := (starNamedExpression_of_leads hlead (ends_of_colon hcolon.sign)).trans hkey
  obtain ⟨t, us', rfl, ht, -⟩ := hlead
  rw [hkk.isStarred, hkk.isBinding] at hplain
  refine ⟨.operation (spanning opening.span closing.span) .dict (k' :: v' :: ess.flatten),
    .operation .dict (.cons hkk (.cons hvv hes)), ?_⟩
  rw [List.append_assoc, List.cons_append, List.cons_append, List.append_assoc, List.append_assoc,
    List.singleton_append]
  rw [List.cons_append] at hfirst
  unfold braces
  rw [bind_of_some (operator_of_true hopening), seesOperator_cons, isOperator_of_begins ht (by decide),
    if_neg Bool.false_ne_true, seesOperator_cons, isOperator_of_begins ht (by decide),
    if_neg Bool.false_ne_true, bind_of_some hfirst, seesOperator_cons, hcolon.sign, if_pos rfl, hplain,
    bind_of_some (show require true (colon :: (vs' ++ (ws' ++ closing :: rest))) = some ((), _) from rfl),
    bind_of_some (operator_of_true hcolon.sign)]
  refine (bind_of_some hvalue).trans ?_
  rw [bind_of_some hnext.seesComprehension]
  exact hrest

end Entries

/-! ## Arguments -/

section Arguments

variable {n : Nested} {d fuel : Nat} {s : Span} {c : Token} {stage stage' : ArgumentStage}
  {us us' vs vs' ws fs ts rest after : List Token} {a a' : Argument} {as as' : List Argument} {e : Expr}

/-- What the stage does not admit, the parser does not read; what it admits, it reads. -/
theorem argument_of_reread (h : (Phrase.expression a.value).Reread us) (hnamed : a.isNamed = true)
    (hadmits : stage.admits a = true) (hfs : Alike a.front fs) (hus : Alike us us') (hd : us.length ≤ d)
    (hrest : Closes rest) :
    ∃ a', Alike a a' ∧
      argument (nested (d + 1)) stage (fs ++ (us' ++ rest)) = some ((a', stage.after a), rest) := by
  obtain ⟨e', he, hread⟩ := h.2 d us' rest hus hd (hrest.ends le_rfl)
  have hlead := h.1.alike (fun _ _ => Alike.begins) hus
  cases a with
  | positional stars e =>
    cases stars with
    | none =>
      obtain rfl := Alike.nil_iff.mp hfs
      obtain rfl : stage = .positional := by simpa [ArgumentStage.admits] using hadmits
      have hkeyword := seesKeyword_of_leads hlead hrest
      have hvalue := (namedExpression_of_leads hlead (hrest.ends le_rfl)).trans hread
      obtain ⟨t, more, rfl, ht, -⟩ := hlead
      refine ⟨.positional .none e', .positional .none he, ?_⟩
      rw [List.nil_append, List.cons_append] at *
      unfold argument
      rw [seesOperator_cons, isOperator_of_begins ht (by decide), if_neg Bool.false_ne_true,
        seesOperator_cons, isOperator_of_begins ht (by decide), if_neg Bool.false_ne_true,
        bind_of_some hkeyword, if_neg Bool.false_ne_true,
        bind_of_some (show require (decide (ArgumentStage.positional = .positional)) (t :: (more ++ rest)) =
          some ((), t :: (more ++ rest)) from rfl)]
      exact bind_of_some hvalue
    | one =>
      obtain ⟨star, rfl, hstar⟩ := hfs.single_sign
      have hdouble : star.isOperator "**" = false := by
        simp [Token.isOperator, (star.eq_of_isOperator hstar).2]
      have hstage : require (stage != .mapping) (star :: (us' ++ rest)) = some ((), star :: (us' ++ rest)) := by
        rw [show (stage != .mapping) = true from hadmits]
        rfl
      refine ⟨.positional .one e', .positional .one he, ?_⟩
      unfold argument
      rw [List.singleton_append, seesOperator_cons, hdouble, if_neg Bool.false_ne_true, seesOperator_cons,
        hstar, if_pos rfl, bind_of_some hstage, bind_of_some (operator_of_true hstar)]
      exact bind_of_some hread
    | two =>
      obtain ⟨star, rfl, hstar⟩ := hfs.single_sign
      refine ⟨.positional .two e', .positional .two he, ?_⟩
      unfold argument
      rw [List.singleton_append, seesOperator_cons, hstar, if_pos rfl, bind_of_some (operator_of_true hstar)]
      exact bind_of_some hread
  | keyword span nameSpan id e =>
    obtain ⟨name, more, rfl, hname, hmore⟩ := hfs.cons_left
    obtain ⟨equals, rfl, hequals⟩ := hmore.single_sign
    have hkind : name.kind = .word := hname.kind.symm
    obtain rfl : id = name.text := hname.text
    have hid : keywords.contains name.text = false := by simpa [Argument.isNamed] using hnamed
    have hsign : ∀ text, name.isOperator text = false := fun text => by simp [Token.isOperator, hkind]
    have hsees : seesKeyword (name :: equals :: (us' ++ rest)) =
        some (true, name :: equals :: (us' ++ rest)) := by
      show some (_, _) = _
      rw [hkind, hid, hequals]
      rfl
    have htake : identifier (name :: equals :: (us' ++ rest)) = some (name, equals :: (us' ++ rest)) :=
      satisfy_of_true (by rw [hkind, hid]; rfl)
    refine ⟨.keyword (spanning name.span e'.extent) name.span name.text e', .keyword _ he, ?_⟩
    unfold argument
    rw [List.cons_append, List.singleton_append, seesOperator_cons, hsign, if_neg Bool.false_ne_true,
      seesOperator_cons, hsign, if_neg Bool.false_ne_true, bind_of_some hsees, if_pos rfl,
      bind_of_some htake, bind_of_some (operator_of_true hequals)]
    exact bind_of_some hread

/-- No argument begins with a closing parenthesis. -/
theorem front_not_closing (rest : List Token) (h : Leads Token.begins us') (hfs : Alike a.front fs) :
    ∃ t more, fs ++ (us' ++ rest) = t :: more ∧ t.isOperator ")" = false := by
  obtain ⟨t, more, rfl, ht, -⟩ := h
  have hsign : ∀ {text : String} {u : Token}, Alike (Token.sign text) u → text ≠ ")" →
      u.isOperator ")" = false := by
    intro text u hu hne
    rw [← hu.isOperator]
    simp [Token.isOperator, Token.sign, hne]
  cases a with
  | positional stars e =>
    cases stars with
    | none =>
      obtain rfl := Alike.nil_iff.mp hfs
      exact ⟨t, _, rfl, isOperator_of_begins ht (by decide)⟩
    | one =>
      obtain ⟨star, fs, rfl, hstar, -⟩ := hfs.cons_left
      exact ⟨star, _, rfl, hsign hstar (by decide)⟩
    | two =>
      obtain ⟨star, fs, rfl, hstar, -⟩ := hfs.cons_left
      exact ⟨star, _, rfl, hsign hstar (by decide)⟩
  | keyword span nameSpan id e =>
    obtain ⟨name, fs, rfl, hname, -⟩ := hfs.cons_left
    exact ⟨name, _, rfl, by rw [← hname.isOperator]; rfl⟩

theorem otherArguments_bind {β : Type} (k : List Argument → Parse β) :
    (seesOperator "," >>= fun b => if b = true then operator "," >>= fun _ => argumentsFrom n fuel stage >>= k
      else pure [] >>= k) = otherArguments n fuel stage >>= k := by
  unfold otherArguments
  rw [bind_assoc]
  refine congrArg _ (funext fun b => ?_)
  split
  · rw [bind_assoc]
  · rfl

theorem argumentsFrom_of_argument (hopen : c.isOperator ")" = false)
    (ha : argument n stage (c :: ts) = some ((a, stage'), after))
    (has : otherArguments n fuel stage' after = some (as, rest)) :
    argumentsFrom n (fuel + 1) stage (c :: ts) = some (a :: as, rest) := by
  unfold argumentsFrom
  rw [seesOperator_cons, hopen, if_neg Bool.false_ne_true, bind_of_some ha]
  exact (congrFun (otherArguments_bind fun as => pure (a :: as)) after).trans (bind_of_some has)

theorem reread_noArguments : (Phrase.arguments stage []).Reread [] := by
  refine ⟨by rintro _ ⟨⟩, fun d us' c rest fuel halike _ hclosing _ => ⟨[], rfl, ?_⟩⟩
  obtain rfl := Alike.nil_iff.mp halike
  unfold otherArguments
  rw [List.nil_append, seesOperator_cons, if_neg (by
    simp [Token.isOperator, (c.eq_of_isOperator hclosing).2])]
  rfl

theorem reread_arguments (hnamed : a.isNamed = true) (hadmits : stage.admits a = true)
    (h : (Phrase.expression a.value).Reread us) (hs : (Phrase.arguments (stage.after a) as).Reread vs) :
    (Phrase.arguments stage (a :: as)).Reread (.sign "," :: (a.front ++ (us ++ vs))) := by
  refine ⟨by rintro _ ⟨⟩; rfl, fun d all c rest fuel halike hd hclosing hfuel => ?_⟩
  obtain ⟨comma, more, rfl, hcomma, hmore⟩ := halike.cons_left
  obtain ⟨fs, more, rfl, hfs, hmore⟩ := hmore.append_left
  obtain ⟨us', vs', rfl, hus, hvs⟩ := hmore.append_left
  simp only [List.length_append, List.length_cons] at hd hfuel
  obtain ⟨k, rfl⟩ : ∃ k, fuel = k + 1 := ⟨fuel - 1, by omega⟩
  have hnext := hs.1.closes hvs (closing_ends rest hclosing (by decide)).1
  obtain ⟨a', ha, hread⟩ := argument_of_reread (d := d) h hnamed hadmits hfs hus (by omega) hnext
  obtain ⟨as', has, hothers⟩ := hs.2 d vs' c rest k hvs (by omega) hclosing (by omega)
  obtain ⟨t, more, heq, ht⟩ :=
    front_not_closing (vs' ++ c :: rest) (h.1.alike (fun _ _ => Alike.begins) hus) hfs
  refine ⟨a' :: as', .cons ha has, ?_⟩
  unfold otherArguments
  rw [List.cons_append, List.append_assoc, List.append_assoc, seesOperator_cons, hcomma.sign, if_pos rfl,
    bind_of_some (operator_of_true hcomma.sign)]
  rw [heq] at hread ⊢
  exact argumentsFrom_of_argument ht hread hothers

theorem trailer_of_parenthesis (h : c.isOperator "(" = true) :
    trailer n e (c :: ts) = (arguments n >>= fun x =>
      pure (.call (spanning e.extent x.2.span) e x.1)) (c :: ts) := by
  have hdot : c.isOperator "." = false := by simp [Token.isOperator, (c.eq_of_isOperator h).2]
  unfold trailer
  rw [seesOperator_cons, hdot, if_neg Bool.false_ne_true, seesOperator_cons, h, if_pos rfl]

theorem reread_emptyCall (h : (Phrase.primary e).Reread us) :
    (Phrase.primary (.call s e [])).Reread (us ++ [.sign "(", .sign ")"]) := by
  refine reread_of_trailer h (by decide) fun d opening ts rest e' hopening hts _ he => ?_
  obtain ⟨closing, rfl⟩ := hts.single_token
  have hread : arguments (nested d) (opening :: ⟨.operator, ")", closing⟩ :: rest) =
      some (([], ⟨.operator, ")", closing⟩), rest) := bind_of_some (operator_of_true hopening.sign)
  exact ⟨.call (spanning e'.extent closing) e' [], .call he rfl,
    (trailer_of_parenthesis hopening.sign).trans (bind_of_some hread)⟩

theorem soleGenerator_eq_none (h : Closes ts) : soleGenerator n a ts = some (none, ts) := by
  cases a with
  | positional stars e =>
    cases stars with
    | none => exact bind_of_some h.seesComprehension
    | one => rfl
    | two => rfl
  | keyword span nameSpan id e => rfl

theorem arguments_of_argument {opening closing : Token} (hopening : opening.isOperator "(" = true)
    (hopen : c.isOperator ")" = false) (ha : argument n .positional (c :: ts) = some ((a, stage), after))
    (hafter : Closes after)
    (has : otherArguments n ((c :: ts).length + 1) stage after = some (as, closing :: rest))
    (hclosing : closing.isOperator ")" = true) :
    arguments n (opening :: c :: ts) = some ((a :: as, closing), rest) := by
  unfold arguments
  rw [bind_of_some (operator_of_true hopening),
    bind_of_some (show (get : Parse (List Token)) (c :: ts) = some (_, _) from rfl), seesOperator_cons,
    hopen, if_neg Bool.false_ne_true, bind_of_some ha]
  dsimp only
  rw [bind_of_some (soleGenerator_eq_none hafter)]
  refine (congrFun (otherArguments_bind fun as => operator ")" >>= fun last => pure (a :: as, last))
    after).trans ((bind_of_some has).trans ?_)
  exact bind_of_some (operator_of_true hclosing)

theorem reread_call (h : (Phrase.primary e).Reread us) (hnamed : a.isNamed = true)
    (ha : (Phrase.expression a.value).Reread vs)
    (has : (Phrase.arguments (ArgumentStage.positional.after a) as).Reread ws) :
    (Phrase.primary (.call s e (a :: as))).Reread
      (us ++ .sign "(" :: (a.front ++ (vs ++ (ws ++ [.sign ")"])))) := by
  refine reread_of_trailer h (by decide) fun d opening all rest e' hopening halike hd he => ?_
  obtain ⟨fs, more, rfl, hfs, hmore⟩ := halike.append_left
  obtain ⟨vs', more, rfl, hvs, hmore⟩ := hmore.append_left
  obtain ⟨ws', more, rfl, hws, hmore⟩ := hmore.append_left
  obtain ⟨closing, rfl, hclosing⟩ := hmore.single_sign
  simp only [List.length_append, List.length_cons, List.length_nil] at hd
  obtain ⟨d, rfl⟩ : ∃ k, d = k + 1 := ⟨d - 1, by omega⟩
  have hadmits : ArgumentStage.positional.admits a = true := by
    cases a with
    | positional stars e => cases stars <;> rfl
    | keyword span nameSpan id e => rfl
  have hnext := has.1.closes hws (closing_ends rest hclosing (by decide)).1
  obtain ⟨a', haa, hfirst⟩ := argument_of_reread (d := d) ha hnamed hadmits hfs hvs (by omega) hnext
  obtain ⟨t, more, heq, ht⟩ :=
    front_not_closing (ws' ++ closing :: rest) (ha.1.alike (fun _ _ => Alike.begins) hvs) hfs
  have hlength : ws.length ≤ (t :: more).length + 1 := by
    rw [← heq, List.length_append, List.length_append, hws.length, List.length_append]
    omega
  obtain ⟨as', hass, hothers⟩ := has.2 d ws' closing rest _ hws (by omega) hclosing hlength
  have hread : arguments (nested (d + 1)) (opening :: t :: more) = some ((a' :: as', closing), rest) := by
    rw [heq] at hfirst
    exact arguments_of_argument hopening.sign ht hfirst hnext hothers hclosing
  refine ⟨.call (spanning e'.extent closing.span) e' (a' :: as'), .call he (.cons haa hass), ?_⟩
  rw [List.append_assoc, List.append_assoc, List.append_assoc, List.singleton_append, heq,
    trailer_of_parenthesis hopening.sign]
  exact bind_of_some hread

end Arguments

/-! ## Subscripts -/

theorem reread_subscript {s : Span} {e i : Expr} {is : List Expr} {us vs ws : List Token}
    (h : (Phrase.primary e).Reread us) (hi : (Phrase.expression i).Reread vs)
    (his : (Phrase.elements is).Reread ws) :
    (Phrase.primary (.subscript s e (i :: is))).Reread
      (us ++ .sign "[" :: (vs ++ (ws ++ [.sign "]"]))) := by
  refine reread_of_trailer h (by decide) fun d opening all rest e' hopening halike hd he => ?_
  obtain ⟨vs', more, rfl, hvs, hmore⟩ := halike.append_left
  obtain ⟨ws', more, rfl, hws, hmore⟩ := hmore.append_left
  obtain ⟨closing, rfl, hclosing⟩ := hmore.single_sign
  simp only [List.length_append, List.length_cons, List.length_nil] at hd
  obtain ⟨d, rfl⟩ : ∃ k, d = k + 1 := ⟨d - 1, by omega⟩
  obtain ⟨hend, hcomma, hlast⟩ := closing_ends rest hclosing (by decide)
  have hnext := his.1.closes hws hend
  obtain ⟨i', hii, hread⟩ := hi.2 d vs' (ws' ++ closing :: rest) hvs (by omega) (hnext.ends le_rfl)
  obtain ⟨is', hiss, hmany⟩ := his.2 d ws' _ _ _ hws (by omega) readsItems_subscriptItem hend
    (bind_eq_none hcomma) (hws.length_le _)
  have hfirst := readsItems_subscriptItem vs' _ i' (hi.1.alike (fun _ _ => Alike.begins) hvs) hnext hread
  have hothers : many (operator "," >>= fun _ => subscriptItem (nested (d + 1)))
      (ws' ++ closing :: rest) = some (is', closing :: rest) := hmany
  have hitems : subscriptItems (nested (d + 1)) (opening :: (vs' ++ (ws' ++ closing :: rest))) =
      some ((i' :: is', closing), rest) := by
    have hlist : commaList (subscriptItem (nested (d + 1))) (vs' ++ (ws' ++ closing :: rest)) =
        some ((i' :: is', none), closing :: rest) := by
      unfold commaList
      rw [bind_of_some hfirst, bind_of_some hothers]
      exact bind_of_some hlast
    unfold subscriptItems
    rw [bind_of_some (operator_of_true hopening.sign), bind_of_some hlist]
    exact bind_of_some (operator_of_true hclosing)
  have hother : ∀ text, text ≠ "[" → opening.isOperator text = false := by
    intro text hne
    simp [Token.isOperator, (opening.eq_of_isOperator hopening.sign).2, hne.symm]
  refine ⟨.subscript (spanning e'.extent closing.span) e' (i' :: is'), .subscript he (.cons hii hiss), ?_⟩
  unfold trailer
  rw [List.append_assoc, List.append_assoc, List.singleton_append, seesOperator_cons,
    hother _ (by decide), if_neg Bool.false_ne_true, seesOperator_cons, hother _ (by decide),
    if_neg Bool.false_ne_true]
  exact bind_of_some hitems

/-! ## Every phrase -/

/-- True unless the phrase is a single starred expression or binding. -/
def Phrase.isPlain : Phrase → Bool
  | .primary e | .grouped _ e | .expression e => !e.isStarred && !isBinding e
  | _ => true

theorem Spelled.isPlain {p : Phrase} {us : List Token} (h : Spelled p us) : p.isPlain = true := by
  induction h with
  | factor _ ih => exact ih
  | weaker _ ih => exact ih
  | operand _ ih => exact ih
  | _ => rfl

/-- Spelled tokens are read as what they spell. -/
theorem Spelled.reread {p : Phrase} {us : List Token} (h : Spelled p us) : p.Reread us := by
  induction h with
  | name h => exact reread_name h
  | constant h => exact reread_constant h
  | number => exact reread_number
  | string => exact reread_string
  | group h ih =>
    have hplain := h.isPlain
    simp only [Phrase.isPlain, Bool.and_eq_true, Bool.not_eq_true'] at hplain
    exact reread_group ih hplain.1
  | emptyTuple => exact reread_emptyTuple
  | tuple _ _ hcomma ih ihs => exact reread_tuple ih ihs hcomma
  | emptyList => exact reread_emptyList
  | list _ _ ih ihs => exact reread_list ih ihs
  | emptyDict => exact reread_emptyDict
  | dict hk _ _ ihk ihv ihs => exact reread_dict ihk ihv ihs hk.isPlain
  | emptyCall _ ih => exact reread_emptyCall ih
  | call _ hnamed _ _ ih iha ihas => exact reread_call ih hnamed iha ihas
  | subscript _ _ _ ih ihi ihis => exact reread_subscript ih ihi ihis
  | factor _ ih => exact reread_factor ih
  | unary htext _ ih => exact reread_unary htext ih
  | power _ _ iha ihb => exact reread_power iha ihb
  | weaker _ ih => exact reread_weaker ih
  | binary htext _ _ iha ihb => exact reread_binary htext iha ihb
  | operand _ ih => exact reread_operand ih
  | comparison _ _ ih ihs => exact reread_comparison ih ihs
  | noElements => exact reread_noElements
  | elements _ _ ih ihs => exact reread_elements ih ihs
  | noEntries => exact reread_noEntries
  | entries _ _ _ ihk ihv ihs => exact reread_entries ihk ihv ihs
  | noComparands => exact reread_noComparands
  | comparands htext _ _ ih ihs => exact reread_comparands htext ih ihs
  | noArguments => exact reread_noArguments
  | arguments hnamed hadmits _ _ ih ihs => exact reread_arguments hnamed hadmits ih ihs
  | _ => exact reread_attribute ‹_› ‹_›

/-! ## Assignments -/

/-- One spelled primary in front of an equals sign and one behind it are an assignment. -/
theorem parseTokens_spelled {id : String} {us vs ts : List Token} {target value : Expr}
    (hus : Spelled (.primary target) (.word id :: us)) (hvs : Spelled (.primary value) vs)
    (hid : keywords.contains id = false) (hsecond : ∀ t ∈ us.head?, t.kind ≠ .word)
    (hkinds : ∀ t ∈ us ++ vs, t.kind ≠ .indent) (htarget : ∀ e, Alike target e → isTarget e = true)
    (h : Alike (.word id :: (us ++ .sign "=" :: (vs ++ [{ kind := .newline }]))) ts) :
    ∃ span target' value', parseTokens ts = some [.assign span [target'] value'] ∧
      Alike target target' ∧ Alike value value' := by
  obtain ⟨t, more, rfl, ht, hmore⟩ := h.cons_left
  obtain ⟨us', more, rfl, huu, hmore⟩ := hmore.append_left
  obtain ⟨equals, more, rfl, hequals, hmore⟩ := hmore.cons_left
  obtain ⟨vs', ends, rfl, hvv, hends⟩ := hmore.append_left
  obtain ⟨last, rfl⟩ := hends.single_token
  have hlast : Ends 13 [⟨.newline, "", last⟩] := .cons (by simp [Token.reach])
  have hnext : Ends 13 (equals :: (vs' ++ [⟨.newline, "", last⟩])) :=
    .cons (by rw [reach_of_isOperator hequals.sign]; decide)
  obtain ⟨target', htt, hfirst⟩ := hus.reread.primary
    (d := (t :: (us' ++ equals :: (vs' ++ [⟨.newline, "", last⟩]))).length) (.cons ht huu)
    (by simp [huu.length]) hnext
  obtain ⟨value', hvalue, hread⟩ := hvs.reread.primary
    (d := (t :: (us' ++ equals :: (vs' ++ [⟨.newline, "", last⟩]))).length) hvv
    (by simp [hvv.length]; omega) hlast
  -- tokens that are alike are of the same kind
  have hindent : ∀ u ∈ us' ++ vs', u.kind ≠ .indent := by
    intro u hu
    have hmem : u.bare ∈ (us ++ vs).map Token.bare := by
      rw [show (us ++ vs).map Token.bare = (us' ++ vs').map Token.bare from huu.append hvv]
      exact List.mem_map_of_mem hu
    obtain ⟨x, hx, heq⟩ := List.mem_map.mp hmem
    exact (congrArg Token.kind heq).symm ▸ hkinds x hx
  obtain ⟨v, vs', rfl, hleads, -⟩ := hvs.reread.1.alike (fun _ _ => Alike.leads) hvv
  have hline : AssignmentLine (t :: (us' ++ equals :: (v :: vs' ++ [⟨.newline, "", last⟩]))).length t equals v
      ⟨.newline, "", last⟩ us' vs' target' value' :=
    { named := ⟨ht.kind.symm, ht.text ▸ hid⟩
      second := by
        cases us' with
        | nil =>
          rintro _ ⟨⟩
          rw [← hequals.kind]
          decide
        | cons u us' =>
          obtain ⟨x, us, rfl, hx, -⟩ := huu.symm.cons_left
          rintro _ ⟨⟩
          rw [hx.kind]
          exact hsecond x rfl
      sign := hequals.sign
      leads := hleads
      ends := rfl
      unindented := hindent
      isTarget := htarget target' htt
      readTarget := hfirst
      readValue := hread }
  exact ⟨_, target', value', parseTokens_assignment hline rfl, htt, hvalue⟩

end Framewise.Script
