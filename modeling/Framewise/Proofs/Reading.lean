import Framewise.Proofs.Outline

/-! # What parsers do to positions

  The tokens of a script stand in order: each begins where the one before it ends,
  or later. Line ends and changes of indentation have no place of their own and are
  passed over here.

  A parser that is given tokens from some position on takes some of them and leaves
  tokens from a later position on; what it gives lies between the two. `Reads` says
  this of a parser, with what is known of its result, and has a rule for every way
  in which parsers are put together. So the places of a result follow the text of
  its parser.

  Main definitions:
  - `Ordered`: tokens in order, from a position on.
  - `Reads`: what holds of the result of a parser.

  Main results: `Reads.bind`, `reads_many`, `reads_commaList`.
-/

namespace Framewise.Script

open Parse

variable {V : Pos → Prop} {lo lo' mid hi hi' : Pos}

/-! ## Tokens in order -/

/-- True for the tokens that have a place. -/
def TokenKind.isPlaced (kind : TokenKind) : Bool :=
  kind != .newline && kind != .indent && kind != .dedent

/-- True for a token that has a place. -/
def Token.isPlaced (t : Token) : Bool := t.kind.isPlaced

/-- A token in its place. -/
structure Token.Lies (V : Pos → Prop) (lo hi : Pos) (t : Token) : Prop where
  within : t.span.Within V lo hi
  strict : t.span.start < t.span.stop

theorem Token.Lies.mono {t : Token} (h : t.Lies V lo hi) (hlo : lo' ≤ lo) (hhi : hi ≤ hi') :
    t.Lies V lo' hi' := ⟨h.within.mono hlo hhi, h.strict⟩

theorem Token.Lies.lt {t : Token} (h : t.Lies V lo hi) : lo < hi :=
  h.within.lo_le.trans_lt (h.strict.trans_le h.within.le_hi)

/-- Tokens in order, from a position on. -/
def Ordered (V : Pos → Prop) : Pos → List Token → Prop
  | _, [] => True
  | lo, t :: ts =>
    if t.isPlaced then t.Lies V lo t.span.stop ∧ Ordered V t.span.stop ts else Ordered V lo ts

theorem Ordered.placed {t : Token} {ts : List Token} (h : Ordered V lo (t :: ts))
    (ht : t.isPlaced = true) : t.Lies V lo t.span.stop ∧ Ordered V t.span.stop ts := by
  rw [Ordered, if_pos ht] at h
  exact h

theorem Ordered.mono {ts : List Token} (h : Ordered V lo ts) (hlo : lo' ≤ lo) :
    Ordered V lo' ts := by
  induction ts with
  | nil => trivial
  | cons t ts ih =>
    by_cases ht : t.isPlaced = true
    · rw [Ordered, if_pos ht] at h ⊢
      exact ⟨h.1.mono hlo le_rfl, h.2⟩
    · rw [Ordered, if_neg ht] at h ⊢
      exact ih h

/-- Tokens in order begin at the first of them. -/
theorem Ordered.from_head {t : Token} {ts : List Token} (h : Ordered V lo (t :: ts))
    (ht : t.isPlaced = true) : Ordered V t.span.start (t :: ts) := by
  obtain ⟨hlies, hrest⟩ := h.placed ht
  rw [Ordered, if_pos ht]
  exact ⟨⟨⟨hlies.within.1, hlies.within.2, le_rfl, hlies.within.4, le_rfl⟩, hlies.strict⟩, hrest⟩

theorem Token.isPlaced_of_operator {t : Token} (h : t.kind = .operator) : t.isPlaced = true := by
  rw [isPlaced, h]
  rfl

theorem Token.isPlaced_of_word {t : Token} (h : t.kind = .word) : t.isPlaced = true := by
  rw [isPlaced, h]
  rfl

/-! ## Parsers -/

/-- A parser that succeeds from a position on stops at a later one, and its result is as said. -/
def Reads (V : Pos → Prop) {α : Type} (lo : Pos) (p : Parse α) (Q : Pos → α → Prop) : Prop :=
  ∀ ts a rest, Ordered V lo ts → p ts = some (a, rest) →
    ∃ hi, lo ≤ hi ∧ Ordered V hi rest ∧ Q hi a

/-- A parser of which only the place where it stops matters. -/
def Passes (V : Pos → Prop) {α : Type} (p : Parse α) : Prop :=
  ∀ lo, Reads V lo p fun _ _ => True

section Rules

variable {α β : Type} {p : Parse α} {f : α → Parse β} {P P' : Pos → α → Prop}
  {Q : Pos → β → Prop}

theorem bind_eq_some {ts rest : List Token} {b : β} (h : (p >>= f) ts = some (b, rest)) :
    ∃ a mid, p ts = some (a, mid) ∧ f a mid = some (b, rest) := by
  obtain ⟨⟨a, mid⟩, hp, hf⟩ := Option.bind_eq_some_iff.mp h
  exact ⟨a, mid, hp, hf⟩

/-- A parser that looks at the tokens and takes none. -/
def Looks (p : Parse α) : Prop := ∀ ts a rest, p ts = some (a, rest) → rest = ts

theorem looks_fun (look : List Token → α) : Looks fun ts => some (look ts, ts) := by
  rintro ts _ _ ⟨⟩
  rfl

theorem require_eq_some {holds : Bool} {ts rest : List Token} {u : Unit}
    (h : require holds ts = some (u, rest)) : holds = true ∧ rest = ts := by
  unfold require at h
  by_cases hholds : holds = true
  · rw [if_pos hholds] at h
    cases h
    exact ⟨hholds, rfl⟩
  · rw [if_neg hholds] at h
    cases h

theorem peek_bind_cons {f : Option Token → Parse β} (t : Token) (ts : List Token) :
    (peek >>= f) (t :: ts) = f (some t) (t :: ts) := rfl

theorem get_bind_eq {f : List Token → Parse β} (ts : List Token) : (get >>= f) ts = f ts ts := rfl

namespace Reads

theorem mono (h : Reads V lo p P) (himp : ∀ hi a, lo ≤ hi → P hi a → P' hi a) :
    Reads V lo p P' := by
  intro ts a rest hts heq
  obtain ⟨hi, hle, hrest, ha⟩ := h ts a rest hts heq
  exact ⟨hi, hle, hrest, himp hi a hle ha⟩

theorem pure {a : α} (h : P lo a) : Reads V lo (pure a) P := by
  rintro ts _ _ hts ⟨⟩
  exact ⟨lo, le_rfl, hts, h⟩

theorem failure : Reads V lo (failure : Parse α) P := by
  intro ts a rest _ heq
  cases heq

theorem bind (hp : Reads V lo p P)
    (hf : ∀ mid a, lo ≤ mid → P mid a → Reads V mid (f a) Q) : Reads V lo (p >>= f) Q := by
  intro ts b rest hts heq
  obtain ⟨a, ts', hpeq, hfeq⟩ := bind_eq_some heq
  obtain ⟨mid, hmid, hts', ha⟩ := hp ts a ts' hts hpeq
  obtain ⟨hi, hhi, hrest, hb⟩ := hf mid a hmid ha ts' b rest hts' hfeq
  exact ⟨hi, hmid.trans hhi, hrest, hb⟩

theorem map {g : α → β} (hp : Reads V lo p P) (hg : ∀ hi a, lo ≤ hi → P hi a → Q hi (g a)) :
    Reads V lo (g <$> p) Q :=
  bind hp fun mid a hmid ha => pure (hg mid a hmid ha)

theorem look_bind (hp : Looks p) (h : ∀ a, Reads V lo (f a) Q) : Reads V lo (p >>= f) Q := by
  intro ts b rest hts heq
  obtain ⟨a, ts', hpeq, hfeq⟩ := bind_eq_some heq
  rw [hp ts a ts' hpeq] at hfeq
  exact h a ts b rest hts hfeq

theorem sees_bind {wanted : Token → Bool} {f : Bool → Parse β} (h : ∀ b, Reads V lo (f b) Q) :
    Reads V lo (sees wanted >>= f) Q := look_bind (looks_fun _) h

theorem get_bind {f : List Token → Parse β} (h : ∀ ts, Reads V lo (f ts) Q) :
    Reads V lo (get >>= f) Q := look_bind (looks_fun _) h

theorem peek_bind {f : Option Token → Parse β} (h : ∀ t, Reads V lo (f t) Q) :
    Reads V lo (peek >>= f) Q := look_bind (looks_fun _) h

theorem require_bind {holds : Bool} {f : Unit → Parse β} (h : holds = true → Reads V lo (f ()) Q) :
    Reads V lo (require holds >>= f) Q := by
  intro ts b rest hts heq
  obtain ⟨u, ts', hpeq, hfeq⟩ := bind_eq_some heq
  obtain ⟨hholds, rfl⟩ := require_eq_some hpeq
  exact h hholds _ b rest hts hfeq

theorem ite {c : Prop} [Decidable c] {q : Parse α} (hp : c → Reads V lo p P)
    (hq : ¬c → Reads V lo q P) : Reads V lo (if c then p else q) P := by
  by_cases hc : c
  · rw [if_pos hc]
    exact hp hc
  · rw [if_neg hc]
    exact hq hc

/-- Two parsers that are applied under a condition, and what comes after them in any case. -/
theorem optional_bind {γ : Type} {c : Prop} [Decidable c] {q : Parse γ} {k : Parse β}
    (hp : Passes V p) (hq : Passes V q) (hk : ∀ mid, lo ≤ mid → Reads V mid k Q) :
    Reads V lo (if c then p >>= fun _ => q >>= fun _ => k else k) Q := by
  refine ite (fun _ => ?_) fun _ => hk lo le_rfl
  refine (hp lo).bind fun mid _ hmid _ => (hq mid).bind fun mid' _ hmid' _ => ?_
  exact hk mid' (hmid.trans hmid')

/-- What a parser gives, or nothing. -/
theorem attempt (hp : Reads V lo p P) : Reads V lo (attempt p) fun hi o => ∀ a ∈ o, P hi a := by
  intro ts o rest hts heq
  unfold Parse.attempt at heq
  cases hpeq : p ts with
  | none =>
    rw [hpeq] at heq
    cases heq
    exact ⟨lo, le_rfl, hts, nofun⟩
  | some result =>
    obtain ⟨a, ts'⟩ := result
    rw [hpeq] at heq
    cases heq
    obtain ⟨hi, hhi, hrest, ha⟩ := hp ts a rest hts hpeq
    refine ⟨hi, hhi, hrest, ?_⟩
    rintro _ ⟨⟩
    exact ha

end Reads

namespace Passes

theorem pure (a : α) : Passes V (pure a : Parse α) := fun _ => .pure trivial

theorem failure : Passes V (failure : Parse α) := fun _ => .failure

theorem look (hp : Looks p) : Passes V p := by
  intro lo ts a rest hts heq
  rw [hp ts a rest heq]
  exact ⟨lo, le_rfl, hts, trivial⟩

theorem require (holds : Bool) : Passes V (require holds) :=
  look fun _ _ _ heq => (require_eq_some heq).2

theorem bind (hp : Passes V p) (hf : ∀ a, Passes V (f a)) : Passes V (p >>= f) := fun lo =>
  (hp lo).bind fun mid a _ _ => hf a mid

theorem sees_bind {wanted : Token → Bool} {f : Bool → Parse β} (h : ∀ b, Passes V (f b)) :
    Passes V (sees wanted >>= f) := fun lo => .sees_bind fun b => h b lo

theorem ite {c : Prop} [Decidable c] {q : Parse α} (hp : Passes V p) (hq : Passes V q) :
    Passes V (if c then p else q) := fun lo => .ite (fun _ => hp lo) fun _ => hq lo

theorem attempt (hp : Passes V p) : Passes V (attempt p) := fun lo =>
  (hp lo).attempt.mono fun _ _ _ _ => trivial

end Passes

end Rules

/-! ## Single tokens -/

theorem satisfy_eq_some {wanted : Token → Bool} {ts rest : List Token} {t : Token}
    (h : satisfy wanted ts = some (t, rest)) : ts = t :: rest ∧ wanted t = true := by
  cases ts with
  | nil => cases h
  | cons t' ts =>
    change (if wanted t' then some (t', ts) else none) = some (t, rest) at h
    by_cases hw : wanted t' = true
    · rw [if_pos hw] at h
      cases h
      exact ⟨rfl, hw⟩
    · rw [if_neg hw] at h
      cases h

theorem passes_satisfy (wanted : Token → Bool) : Passes V (satisfy wanted) := by
  intro lo ts t rest hts heq
  obtain ⟨rfl, -⟩ := satisfy_eq_some heq
  by_cases ht : t.isPlaced = true
  · obtain ⟨hlies, hrest⟩ := hts.placed ht
    exact ⟨_, hlies.lt.le, hrest, trivial⟩
  · rw [Ordered, if_neg ht] at hts
    exact ⟨lo, le_rfl, hts, trivial⟩

/-- A parser of a token that has a place. -/
theorem reads_satisfy {wanted : Token → Bool} (h : ∀ t, wanted t = true → t.isPlaced = true)
    (lo : Pos) : Reads V lo (satisfy wanted) (Token.Lies V lo) := by
  intro ts t rest hts heq
  obtain ⟨rfl, hw⟩ := satisfy_eq_some heq
  obtain ⟨hlies, hrest⟩ := hts.placed (h t hw)
  exact ⟨_, hlies.lt.le, hrest, hlies⟩

theorem reads_operator (text : String) (lo : Pos) :
    Reads V lo (operator text) (Token.Lies V lo) :=
  reads_satisfy (fun t ht => t.isPlaced_of_operator (by simp_all [Token.isOperator])) lo

theorem reads_operatorIn (texts : List String) (lo : Pos) :
    Reads V lo (operatorIn texts) (Token.Lies V lo) :=
  reads_satisfy (fun t ht => t.isPlaced_of_operator (by simp_all)) lo

theorem reads_word (text : String) (lo : Pos) : Reads V lo (word text) (Token.Lies V lo) :=
  reads_satisfy (fun t ht => t.isPlaced_of_word (by simp_all [Token.isWord])) lo

theorem reads_identifier (lo : Pos) : Reads V lo identifier (Token.Lies V lo) :=
  reads_satisfy (fun t ht => t.isPlaced_of_word (by simp_all)) lo

theorem reads_ofKind {kind : TokenKind} (h : kind.isPlaced = true) (lo : Pos) :
    Reads V lo (ofKind kind) (Token.Lies V lo) := by
  refine reads_satisfy (fun t ht => ?_) lo
  rw [Token.isPlaced, of_decide_eq_true ht]
  exact h

/-! ## Repetition -/

section Repetition

variable {α : Type} {p : Parse α} {Q : Pos → Pos → α → Prop}

theorem reads_manyUpTo (hp : ∀ lo, Reads V lo p (Q lo)) (n : Nat) (lo : Pos) :
    Reads V lo (manyUpTo p n) (Chain Q lo) := by
  induction n generalizing lo with
  | zero => exact .pure (.nil le_rfl)
  | succ n ih =>
    intro ts as rest hts heq
    unfold manyUpTo at heq
    cases hpeq : p ts with
    | none =>
      rw [hpeq] at heq
      cases heq
      exact ⟨lo, le_rfl, hts, .nil le_rfl⟩
    | some result =>
      obtain ⟨a, ts'⟩ := result
      rw [hpeq] at heq
      obtain ⟨⟨as', rest'⟩, hmany, hcons⟩ := Option.map_eq_some_iff.mp heq
      cases hcons
      obtain ⟨mid, hmid, hts', ha⟩ := hp lo ts a ts' hts hpeq
      obtain ⟨hi, hhi, hrest, has⟩ := ih mid ts' as' rest hts' hmany
      exact ⟨hi, hmid.trans hhi, hrest, .cons hmid ha has⟩

theorem reads_many (hp : ∀ lo, Reads V lo p (Q lo)) (lo : Pos) :
    Reads V lo (many p) (Chain Q lo) := fun ts => reads_manyUpTo hp ts.length lo ts

theorem reads_many1 (hp : ∀ lo, Reads V lo p (Q lo)) (lo : Pos) :
    Reads V lo (many1 p) fun hi as => Chain Q lo hi as ∧ as ≠ [] := by
  refine (hp lo).bind fun mid a hmid ha => ?_
  refine (reads_many hp mid).bind fun hi as _ has => ?_
  exact .pure ⟨.cons hmid ha has, nofun⟩

/-- Further items, each behind a sign. -/
theorem reads_many_behind {β : Type} {sign : Parse β} (hsign : Passes V sign)
    (hp : ∀ lo, Reads V lo p (Q lo)) (lo : Pos) :
    Reads V lo (many (sign >>= fun _ => p)) (Chain Q lo) := by
  -- a chain may leave out what stands between its members
  refine (reads_many (Q := fun lo hi a => Chain Q lo hi [a]) (fun lo => ?_) lo).mono ?_
  · refine (hsign lo).bind fun mid _ hmid _ => ?_
    exact (hp mid).mono fun hi a hhi ha => (Chain.single hhi ha).after hmid
  · intro hi as _ h
    have hsingles := Chain.map (f := fun a => [a]) (fun _ _ _ ha => ha) h
    simpa [← List.flatMap_def] using hsingles.flatten

/-- Items one behind the other, with a comma behind the last if there is one. -/
def Series (V : Pos → Prop) (Q : Pos → Pos → α → Prop) (lo hi : Pos) (as : List α)
    (comma : Option Token) : Prop :=
  as ≠ [] ∧ ∃ mid, mid ≤ hi ∧ Chain Q lo mid as ∧ ∀ t ∈ comma, t.Lies V mid hi

theorem reads_comma (lo : Pos) :
    Reads V lo (attempt (operator ",")) fun hi comma => ∀ t ∈ comma, t.Lies V lo hi :=
  (reads_operator "," lo).attempt

theorem reads_commaList (hp : ∀ lo, Reads V lo p (Q lo)) (lo : Pos) :
    Reads V lo (commaList p) fun hi items => Series V Q lo hi items.1 items.2 := by
  refine (hp lo).bind fun _ a hfirst ha => ?_
  refine (reads_many_behind (passes_satisfy _) hp _).bind fun mid as hmid has => ?_
  refine (reads_comma mid).bind fun hi comma hhi hcomma => ?_
  exact .pure ⟨nofun, mid, hhi, .cons hfirst ha has, hcomma⟩

theorem Passes.many (hp : Passes V p) : Passes V (many p) := fun lo =>
  (reads_many hp lo).mono fun _ _ _ _ => trivial

theorem Passes.commaList (hp : Passes V p) : Passes V (commaList p) := fun lo =>
  (reads_commaList hp lo).mono fun _ _ _ _ => trivial

end Repetition

end Framewise.Script
