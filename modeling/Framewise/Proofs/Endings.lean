import Framewise.Proofs.Reading

/-! # Where expressions end

  A parser of expressions reads on as long as the next token continues what it has
  read. How far a token can continue an expression is a level, the strength of its
  operator: where only weaker tokens follow, the parsers of stronger operators stop.

  Main definitions:
  - `Token.reach`: the level up to which a token continues an expression.
  - `Ends`: what follows does not continue an expression of a level.
  - `Refuses`: a parser that fails in front of other tokens.

  Main results: `Ends.operator_eq_none`, `Ends.word_eq_none`, `trailers_stop`.
-/

namespace Framewise.Script

open Parse

/-! ## Parsers that read on -/

section Forward

variable {α β : Type} {p : Parse α} {f : α → Parse β} {ts mid : List Token} {a : α}

theorem bind_of_some (h : p ts = some (a, mid)) : (p >>= f) ts = f a mid := by
  show (p ts).bind _ = _
  rw [h]
  rfl

theorem bind_eq_none (h : p ts = none) : (p >>= f) ts = none := by
  refine Option.bind_eq_none_iff.mpr fun a ha => ?_
  rw [h] at ha
  cases ha

theorem attempt_bind_of_none {f : Option α → Parse β} (h : p ts = none) :
    (attempt p >>= f) ts = f none ts := by
  have hattempt : attempt p ts = some (none, ts) := by
    unfold attempt
    rw [h]
  show (attempt p ts).bind _ = _
  rw [hattempt]
  rfl

theorem attempt_bind_of_some {f : Option α → Parse β} (h : p ts = some (a, mid)) :
    (attempt p >>= f) ts = f (some a) mid := by
  have hattempt : attempt p ts = some (some a, mid) := by
    unfold attempt
    rw [h]
  show (attempt p ts).bind _ = _
  rw [hattempt]
  rfl

theorem manyUpTo_of_none (h : p ts = none) (k : Nat) : manyUpTo p k ts = some ([], ts) := by
  cases k with
  | zero => rfl
  | succ k =>
    unfold manyUpTo
    dsimp only
    rw [h]

theorem manyUpTo_of_some {as : List α} {rest : List Token} {k : Nat} (h : p ts = some (a, mid))
    (hmany : manyUpTo p k mid = some (as, rest)) : manyUpTo p (k + 1) ts = some (a :: as, rest) := by
  rw [manyUpTo]
  dsimp only
  rw [h]
  show Option.map _ (manyUpTo p k mid) = _
  rw [hmany]
  rfl

theorem many_of_none (h : p ts = none) : many p ts = some ([], ts) := manyUpTo_of_none h _

theorem many_once {t : Token} (h : p (t :: ts) = some (a, [])) (hnil : p [] = none) :
    many p (t :: ts) = some ([a], []) :=
  manyUpTo_of_some h (manyUpTo_of_none hnil _)

theorem seesOperator_cons {f : Bool → Parse β} (text : String) (t : Token) (ts : List Token) :
    (seesOperator text >>= f) (t :: ts) = f (t.isOperator text) (t :: ts) := rfl

theorem seesWord_cons {f : Bool → Parse β} (text : String) (t : Token) (ts : List Token) :
    (seesWord text >>= f) (t :: ts) = f (t.isWord text) (t :: ts) := rfl

theorem satisfy_of_true {w : Token → Bool} {t : Token} (h : w t = true) :
    satisfy w (t :: ts) = some (t, ts) := if_pos h

theorem operator_of_true {text : String} {t : Token} (h : t.isOperator text = true) :
    operator text (t :: ts) = some (t, ts) := if_pos h

end Forward

theorem Token.eq_of_isOperator {t : Token} {text : String} (h : t.isOperator text = true) :
    t.kind = .operator ∧ t.text = text := by
  simpa [Token.isOperator] using h

theorem Token.eq_of_isWord {t : Token} {text : String} (h : t.isWord text = true) :
    t.kind = .word ∧ t.text = text := by
  simpa [Token.isWord] using h

/-! ## Parsers that refuse -/

/-- A parser that fails where the next token is not one that could begin its result. -/
def Refuses {α : Type} (v : Token → Bool) (p : Parse α) : Prop :=
  ∀ ts, (∀ t ∈ ts.head?, v t = false) → p ts = none

namespace Refuses

variable {α β : Type} {v w : Token → Bool} {p : Parse α}

theorem bind {f : α → Parse β} (h : Refuses v p) : Refuses v (p >>= f) :=
  fun ts hts => bind_eq_none (h ts hts)

theorem sees_bind {f : Bool → Parse β} (hw : ∀ t, w t = true → v t = true)
    (h : Refuses v (f false)) : Refuses v (sees w >>= f) := by
  intro ts hts
  have hunseen : sees w ts = some (false, ts) := by
    cases ts with
    | nil => rfl
    | cons t ts =>
      have ht : ¬w t = true := fun hwt => by simp [hw t hwt] at hts
      simp [sees, ht]
  rw [bind_of_some hunseen]
  exact h ts hts

theorem satisfy (hw : ∀ t, w t = true → v t = true) : Refuses v (satisfy w) := by
  intro ts hts
  cases ts with
  | nil => rfl
  | cons t ts => exact if_neg fun hwt => by simp [hw t hwt] at hts

theorem attempt_bind {f : Option α → Parse β} (h : Refuses v p) (hf : Refuses v (f none)) :
    Refuses v (attempt p >>= f) := by
  intro ts hts
  rw [attempt_bind_of_none (h ts hts)]
  exact hf ts hts

theorem mono (h : Refuses v p) (hvw : ∀ t, w t = false → v t = false) : Refuses w p :=
  fun ts hts => h ts fun t ht => hvw t (hts t ht)

end Refuses

/-! ## Levels -/

/-- The level up to which an operator continues an expression in front of it. -/
def operatorReach (text : String) : Nat :=
  if [".", "(", "["].contains text then 13
  else if text = "**" then 12
  else if ["*", "/", "//", "%", "@"].contains text then 10
  else if ["+", "-"].contains text then 9
  else if ["<<", ">>"].contains text then 8
  else if text = "&" then 7
  else if text = "^" then 6
  else if text = "|" then 5
  else if ["==", "!=", "<=", "<", ">=", ">"].contains text then 4
  else if text = ":=" then 1
  else 0

/-- The level up to which a word continues an expression in front of it. -/
def wordReach (text : String) : Nat :=
  if ["in", "not", "is"].contains text then 4
  else if text = "and" then 3
  else if text = "or" then 2
  else if text = "if" then 1
  else 0

/-- The level up to which a token continues an expression in front of it. A string continues
    strings. -/
def Token.reach (t : Token) : Nat :=
  if t.kind = .string || t.kind = .formatOpen then 14
  else if t.kind = .operator then operatorReach t.text
  else if t.kind = .word then wordReach t.text
  else 0

/-- What follows does not continue an expression of a level. -/
def Ends (k : Nat) (ts : List Token) : Prop := ∀ t ∈ ts.head?, t.reach < k

section Ends

variable {k : Nat} {ts : List Token} {text : String}

theorem Ends.mono {j : Nat} (h : Ends j ts) (hjk : j ≤ k) : Ends k ts :=
  fun t ht => (h t ht).trans_le hjk

theorem Ends.cons {t : Token} (h : t.reach < k) : Ends k (t :: ts) := by
  rintro _ ⟨⟩
  exact h

theorem reach_of_isOperator {t : Token} (h : t.isOperator text = true) :
    t.reach = operatorReach text := by
  obtain ⟨hkind, rfl⟩ := t.eq_of_isOperator h
  simp [Token.reach, hkind]

theorem reach_of_isWord {t : Token} (h : t.isWord text = true) : t.reach = wordReach text := by
  obtain ⟨hkind, rfl⟩ := t.eq_of_isWord h
  simp [Token.reach, hkind]

theorem reach_of_operatorIn {t : Token} {texts : List String}
    (h : (t.kind = .operator && texts.contains t.text) = true) :
    ∃ s ∈ texts, t.reach = operatorReach s := by
  obtain ⟨hkind, hmem⟩ := Bool.and_eq_true_iff.mp h
  refine ⟨t.text, List.contains_iff_mem.mp hmem, ?_⟩
  simp [Token.reach, of_decide_eq_true hkind]

/-- Where an expression of a level ends, a parser fails that begins with a token of this level. -/
theorem Ends.refused {α : Type} {p : Parse α} {v : Token → Bool} (h : Ends k ts) (hp : Refuses v p)
    (hv : ∀ t, v t = true → k ≤ t.reach) : p ts = none := by
  refine hp ts fun t ht => ?_
  by_contra hvt
  have hlow := h t ht
  have hhigh := hv t (Bool.not_eq_false _ ▸ hvt)
  omega

theorem Ends.operator_eq_none (h : Ends k ts) (hreach : k ≤ operatorReach text) :
    operator text ts = none :=
  h.refused (.satisfy fun _ ht => ht) fun _ ht => (reach_of_isOperator ht).symm ▸ hreach

theorem Ends.operatorIn_eq_none {texts : List String} (h : Ends k ts)
    (hreach : ∀ s ∈ texts, k ≤ operatorReach s) : operatorIn texts ts = none := by
  refine h.refused (.satisfy fun _ ht => ht) fun t ht => ?_
  obtain ⟨s, hs, heq⟩ := reach_of_operatorIn ht
  exact heq.symm ▸ hreach s hs

theorem Ends.word_eq_none (h : Ends k ts) (hreach : k ≤ wordReach text) : word text ts = none :=
  h.refused (.satisfy fun _ ht => ht) fun _ ht => (reach_of_isWord ht).symm ▸ hreach

/-! ## Strings, trailers and comparisons -/

theorem Ends.stringPiece_eq_none (n : Nested) (h : Ends 14 ts) : stringPiece n ts = none := by
  have hrefuses : Refuses (fun t => t.kind = .string || t.kind = .formatOpen) (stringPiece n) := by
    refine .sees_bind (fun t ht => by simp [ht]) ?_
    exact (Refuses.satisfy fun t ht => by simp [ht]).bind
  refine h.refused hrefuses fun t ht => ?_
  rw [Token.reach, if_pos ht]

theorem trailers_stop (n : Nested) (fuel : Nat) (e : Expr) (h : Ends 13 ts) :
    trailers n fuel e ts = some (e, ts) := by
  have hrefuses : Refuses (fun t => t.isOperator "." || (t.isOperator "(" || t.isOperator "["))
      (trailer n e) := by
    refine .sees_bind (fun t ht => by simp [ht]) (.sees_bind (fun t ht => by simp [ht]) ?_)
    have hitems : Refuses (fun t => t.isOperator "[") (subscriptItems n) :=
      (Refuses.satisfy fun _ ht => ht).bind
    refine (hitems.mono fun t ht => ?_).bind
    exact (Bool.or_eq_false_iff.mp (Bool.or_eq_false_iff.mp ht).2).2
  have hnone : trailer n e ts = none := by
    refine h.refused hrefuses fun t ht => ?_
    simp only [Bool.or_eq_true] at ht
    obtain ht | ht | ht := ht <;> exact (reach_of_isOperator ht).symm ▸ by decide
  cases fuel with
  | zero => rfl
  | succ fuel =>
    unfold trailers
    rw [attempt_bind_of_none hnone]
    rfl

/-- True for a token that begins an operator of a comparison. -/
def Token.compares (t : Token) : Bool :=
  (t.kind = .operator && ["==", "!=", "<=", "<", ">=", ">"].contains t.text) ||
    (t.isWord "in" || (t.isWord "not" || t.isWord "is"))

theorem Token.reach_compares {t : Token} (h : t.compares = true) : t.reach = 4 := by
  obtain h | h := Bool.or_eq_true_iff.mp h
  · obtain ⟨s, hs, heq⟩ := reach_of_operatorIn h
    rw [heq]
    clear heq
    revert s
    decide
  · simp only [Bool.or_eq_true] at h
    obtain h | h | h := h <;> exact reach_of_isWord h

theorem Ends.comparisonOperator_eq_none (h : Ends 4 ts) : comparisonOperator ts = none := by
  have hrefuses : Refuses Token.compares comparisonOperator := by
    refine .attempt_bind (.satisfy fun t ht => ?_) (.sees_bind (fun t ht => ?_)
      (.sees_bind (fun t ht => ?_) (Refuses.bind (.satisfy fun t ht => ?_))))
    · exact Bool.or_eq_true_iff.mpr (.inl ht)
    · simp [Token.compares, ht]
    · simp [Token.compares, ht]
    · simp [Token.compares, ht]
  exact h.refused hrefuses fun t ht => (t.reach_compares ht).ge

end Ends

end Framewise.Script
