import Framewise.Proofs.Reading

/-! # Syntax and the tokens it was read from

  Whatever a parser reads, it reads from the tokens that are left of the script. So
  the names, the numbers and the strings of an expression are tokens of the script,
  and strings in a row are tokens in a row.

  Main definitions:
  - `Traced`: an expression all of whose leaves are tokens of a script and whose arguments are in
    order.
  - `Finds`: a parser that goes on within a script, and what it gives.

  Main results: `Finds.bind`, `Finds.many`.
-/

namespace Framewise.Script

open Parse

/-! ## Leaves and arguments -/

/-- A name that is a word of a script. -/
def Named (T : List Token) (span : Span) (id : String) : Prop := ⟨.word, id, span⟩ ∈ T

/-- Strings in a row that are tokens in a row of a script, if all of them are plain. -/
def InRow (T : List Token) (pieces : List Expr) : Prop :=
  (∀ e ∈ pieces, ∃ s text, e = .string s text) →
    ∃ us, us <:+: T ∧ (∀ t ∈ us, t.kind = .string) ∧
      pieces = us.map fun t => Expr.string t.span t.text

/-- True if an argument may stand at a stage. -/
def ArgumentStage.admits : ArgumentStage → Argument → Bool
  | stage, .positional .none _ => stage = .positional
  | stage, .positional .one _ => stage != .mapping
  | _, _ => true

/-- The stage after an argument. -/
def ArgumentStage.after : ArgumentStage → Argument → ArgumentStage
  | _, .positional .two _ => .mapping
  | stage, .positional _ _ => stage
  | stage, .keyword _ _ _ _ => if stage = .positional then .keyword else stage

/-- True if arguments may follow one another from a stage on. -/
def ArgumentStage.admitsAll : ArgumentStage → List Argument → Bool
  | _, [] => true
  | stage, a :: as => stage.admits a && (stage.after a).admitsAll as

mutual

/-- An expression all of whose leaves are tokens of a script and whose arguments are in order. -/
def Traced (T : List Token) : Expr → Prop
  | .name span id => Named T span id
  | .constant _ _ => True
  | .number span text => ⟨.number, text, span⟩ ∈ T
  | .string span text => ⟨.string, text, span⟩ ∈ T
  | .concatenation _ pieces => InRow T pieces ∧ TracedAll T pieces
  | .attribute _ receiver _ => Traced T receiver
  | .call _ callee arguments =>
    Traced T callee ∧ TracedArguments T arguments ∧ ArgumentStage.positional.admitsAll arguments = true
  | .subscript _ receiver items => Traced T receiver ∧ TracedAll T items
  | .slice _ bounds => TracedAll T bounds
  | .comparison _ first _ operands => Traced T first ∧ TracedAll T operands
  | .sequence _ _ elements => TracedAll T elements
  | .starred _ inner => Traced T inner
  | .lambda _ parameters body => TracedParameters T parameters ∧ Traced T body
  | .operation _ _ operands => TracedAll T operands
  | .parenthesized _ inner => Traced T inner

/-- `Traced` for each of several expressions. -/
def TracedAll (T : List Token) : List Expr → Prop
  | [] => True
  | e :: es => Traced T e ∧ TracedAll T es

/-- `Traced` for an expression that may be absent. -/
def TracedOption (T : List Token) : Option Expr → Prop
  | none => True
  | some e => Traced T e

/-- `Traced` for the names and values of arguments. -/
def TracedArguments (T : List Token) : List Argument → Prop
  | [] => True
  | .positional _ value :: as => Traced T value ∧ TracedArguments T as
  | .keyword _ nameSpan name value :: as =>
    Named T nameSpan name ∧ Traced T value ∧ TracedArguments T as

/-- `Traced` for the types and defaults of parameters. -/
def TracedParameters (T : List Token) : List Parameter → Prop
  | [] => True
  | .mk _ _ _ hint fallback :: ps =>
    TracedOption T hint ∧ TracedOption T fallback ∧ TracedParameters T ps

end

section Traced

variable {T : List Token}

@[simp] theorem tracedAll_iff {es : List Expr} : TracedAll T es ↔ ∀ e ∈ es, Traced T e := by
  induction es with
  | nil => simp [TracedAll]
  | cons e es ih => rw [TracedAll, ih, List.forall_mem_cons]

theorem tracedOption_iff {e : Option Expr} : TracedOption T e ↔ ∀ a ∈ e, Traced T a := by
  cases e <;> simp [TracedOption]

theorem TracedOption.toList {e : Option Expr} (h : TracedOption T e) : ∀ a ∈ e.toList, Traced T a :=
  fun a ha => tracedOption_iff.mp h a (Option.mem_toList.mp ha)

theorem TracedArguments.cons {a : Argument} {as : List Argument} (ha : TracedArguments T [a])
    (has : TracedArguments T as) : TracedArguments T (a :: as) := by
  cases a with
  | positional stars value => exact ⟨ha.1, has⟩
  | keyword span nameSpan name value => exact ⟨ha.1, ha.2.1, has⟩

theorem tracedParameters_append {ps qs : List Parameter} :
    TracedParameters T (ps ++ qs) ↔ TracedParameters T ps ∧ TracedParameters T qs := by
  induction ps with
  | nil => simp [TracedParameters]
  | cons p ps ih => cases p; simp [TracedParameters, ih, and_assoc]

/-- Each of several rows of expressions is traced. -/
theorem traced_flatten {ess : List (List Expr)} (h : ∀ es ∈ ess, ∀ e ∈ es, Traced T e) :
    ∀ e ∈ ess.flatten, Traced T e := by
  intro e he
  obtain ⟨es, hes, he⟩ := List.mem_flatten.mp he
  exact h es hes e he

theorem traced_tupleOf {es : List Expr} {comma : Option Token} (h : ∀ e ∈ es, Traced T e) :
    Traced T (tupleOf es comma) := by
  unfold tupleOf
  split
  · exact h _ List.mem_cons_self
  · exact tracedAll_iff.mpr h

end Traced

/-! ## Parsers within a script -/

/-- A parser that goes on within the tokens of a script and gives results as said. -/
def Finds {α : Type} (T : List Token) (p : Parse α) (Q : α → Prop) : Prop :=
  ∀ ts a rest, ts <:+ T → p ts = some (a, rest) → rest <:+ T ∧ Q a

section Rules

variable {α β : Type} {T : List Token} {p : Parse α} {f : α → Parse β} {P P' : α → Prop}
  {Q : β → Prop}

namespace Finds

theorem mono (h : Finds T p P) (himp : ∀ a, P a → P' a) : Finds T p P' := by
  intro ts a rest hts heq
  obtain ⟨hrest, ha⟩ := h ts a rest hts heq
  exact ⟨hrest, himp a ha⟩

theorem pure {a : α} (h : P a) : Finds T (pure a) P := by
  rintro ts _ _ hts ⟨⟩
  exact ⟨hts, h⟩

theorem failure : Finds T (failure : Parse α) P := by
  intro ts a rest _ heq
  cases heq

theorem bind (hp : Finds T p P) (hf : ∀ a, P a → Finds T (f a) Q) : Finds T (p >>= f) Q := by
  intro ts b rest hts heq
  obtain ⟨a, mid, hpeq, hfeq⟩ := bind_eq_some heq
  obtain ⟨hmid, ha⟩ := hp ts a mid hts hpeq
  exact hf a ha mid b rest hmid hfeq

theorem map {g : α → β} (hp : Finds T p P) (hg : ∀ a, P a → Q (g a)) : Finds T (g <$> p) Q :=
  bind hp fun a ha => pure (hg a ha)

theorem look_bind (hp : Looks p) (h : ∀ a, Finds T (f a) Q) : Finds T (p >>= f) Q := by
  intro ts b rest hts heq
  obtain ⟨a, mid, hpeq, hfeq⟩ := bind_eq_some heq
  rw [hp ts a mid hpeq] at hfeq
  exact h a ts b rest hts hfeq

theorem sees_bind {w : Token → Bool} {f : Bool → Parse β} (h : ∀ b, Finds T (f b) Q) :
    Finds T (sees w >>= f) Q := look_bind (looks_fun _) h

theorem get_bind {f : List Token → Parse β} (h : ∀ ts, Finds T (f ts) Q) :
    Finds T (get >>= f) Q := look_bind (looks_fun _) h

theorem peek_bind {f : Option Token → Parse β} (h : ∀ t, Finds T (f t) Q) :
    Finds T (peek >>= f) Q := look_bind (looks_fun _) h

theorem required {holds : Bool} {f : Unit → Parse β} (h : holds = true → Finds T (f ()) Q) :
    Finds T (require holds >>= f) Q := by
  intro ts b rest hts heq
  obtain ⟨a, mid, hrequire, hfeq⟩ := bind_eq_some heq
  obtain ⟨hholds, rfl⟩ := require_eq_some hrequire
  exact h hholds mid b rest hts hfeq

theorem require_bind {holds : Bool} {f : Unit → Parse β} (h : Finds T (f ()) Q) :
    Finds T (require holds >>= f) Q := required fun _ => h

theorem require {holds : Bool} : Finds T (require holds) fun _ => True := by
  intro ts a rest hts heq
  rw [(require_eq_some heq).2]
  exact ⟨hts, trivial⟩

theorem ite {c : Prop} [Decidable c] {q : Parse α} (hp : Finds T p P) (hq : Finds T q P) :
    Finds T (if c then p else q) P := by
  split
  · exact hp
  · exact hq

theorem satisfy {w : Token → Bool} : Finds T (satisfy w) fun t => t ∈ T ∧ w t = true := by
  intro ts t rest hts heq
  obtain ⟨rfl, ht⟩ := satisfy_eq_some heq
  exact ⟨(List.suffix_cons t rest).trans hts, hts.subset List.mem_cons_self, ht⟩

theorem token_bind {w : Token → Bool} {f : Token → Parse β} (h : ∀ t, Finds T (f t) Q) :
    Finds T (Parse.satisfy w >>= f) Q := satisfy.bind fun t _ => h t

/-- The token of a kind is of this kind. -/
theorem ofKind {kind : TokenKind} : Finds T (ofKind kind) fun t => ⟨kind, t.text, t.span⟩ ∈ T := by
  refine satisfy.mono fun t ht => ?_
  rw [← of_decide_eq_true ht.2]
  exact ht.1

theorem identifier : Finds T identifier fun t => Named T t.span t.text := by
  refine satisfy.mono fun t ht => ?_
  obtain ⟨hkind, -⟩ := Bool.and_eq_true_iff.mp ht.2
  rw [Named, ← of_decide_eq_true hkind]
  exact ht.1

theorem attempt (hp : Finds T p P) : Finds T (attempt p) fun c => ∀ a ∈ c, P a := by
  intro ts c rest hts heq
  unfold Parse.attempt at heq
  cases hpeq : p ts with
  | none =>
    rw [hpeq] at heq
    cases heq
    exact ⟨hts, fun _ h => absurd h (Option.not_mem_none _)⟩
  | some result =>
    obtain ⟨a, mid⟩ := result
    rw [hpeq] at heq
    cases heq
    obtain ⟨hrest, ha⟩ := hp ts a rest hts hpeq
    refine ⟨hrest, ?_⟩
    rintro _ ⟨⟩
    exact ha

theorem some (hp : Finds T p P) : Finds T (some <$> p) fun c => ∀ a ∈ c, P a :=
  hp.map fun _ ha => by simpa using ha

theorem many (hp : Finds T p P) : Finds T (many p) fun as => ∀ a ∈ as, P a := by
  intro ts as rest hts heq
  unfold Parse.many at heq
  generalize ts.length = n at heq
  induction n generalizing ts as with
  | zero =>
    cases heq
    exact ⟨hts, fun _ h => absurd h List.not_mem_nil⟩
  | succ n ih =>
    unfold manyUpTo at heq
    cases hpeq : p ts with
    | none =>
      rw [hpeq] at heq
      cases heq
      exact ⟨hts, fun _ h => absurd h List.not_mem_nil⟩
    | some result =>
      obtain ⟨a, mid⟩ := result
      rw [hpeq] at heq
      obtain ⟨⟨as, rest⟩, hmany, hcons⟩ := Option.map_eq_some_iff.mp heq
      cases hcons
      obtain ⟨hmid, ha⟩ := hp ts a mid hts hpeq
      obtain ⟨hrest, has⟩ := ih mid as hmid hmany
      exact ⟨hrest, List.forall_mem_cons.mpr ⟨ha, has⟩⟩

theorem many1 (hp : Finds T p P) : Finds T (many1 p) fun as => ∀ a ∈ as, P a :=
  hp.bind fun _ ha => hp.many.bind fun _ has => .pure (List.forall_mem_cons.mpr ⟨ha, has⟩)

theorem commaList (hp : Finds T p P) : Finds T (commaList p) fun r => ∀ a ∈ r.1, P a :=
  hp.bind fun _ ha => (many (token_bind fun _ => hp)).bind fun _ has =>
    satisfy.attempt.bind fun _ _ => .pure (List.forall_mem_cons.mpr ⟨ha, has⟩)

/-- A parser whose result does not matter. -/
theorem skip (hp : Finds T p P) : Finds T (skip p) fun _ => True :=
  hp.bind fun _ _ => .pure trivial

theorem skip_token {w : Token → Bool} : Finds T (Script.skip (Parse.satisfy w)) fun _ => True :=
  satisfy.skip

end Finds

end Rules

end Framewise.Script
