import Framewise.Proofs.TokenPlaces
import Mathlib.Data.List.TakeWhile
import Mathlib.Logic.Relation

/-! # Steps of the lexer

  Whatever a step does, it does one of two things. It makes a token of glyphs in
  front, behind blanks, and leaves the layout as it is; or it makes no token that
  has a place. So every token with a place can be traced back to the step that made
  it, and to the glyphs it was made of.

  Main definitions:
  - `Lexer.Advances`: what a step can do.
  - `Lexer.Reaches`: one state leads to another.

  Main results:
  - `Lexer.step_advances`: every step is one of the two.
  - `Lexer.exists_emission`: the step that made a token.
  - `lex_reaches`: a script is lexed by steps.
-/

namespace Framewise.Script

namespace Lexer

/-- Two states lay out the script alike. -/
structure SameLayout (l next : Lexer) : Prop where
  atLineStart : next.atLineStart = l.atLineStart
  levels : next.levels = l.levels
  marginLine : next.marginLine = l.marginLine
  margin : next.margin = l.margin
  written : next.written = l.written
  dropped : next.dropped = l.dropped

/-- A step that makes a token of the glyphs in front, behind blanks. -/
structure Emits (l next : Lexer) (kind : TokenKind) (blank gs : List Glyph) : Prop where
  isPlaced : kind.isPlaced = true
  rest : l.rest = blank ++ (gs ++ next.rest)
  isBlank : ∀ g ∈ blank, isGap g.char = true
  nonempty : gs ≠ []
  tokens : next.tokens = ⟨kind, textOf gs, l.spanOf gs⟩ :: l.tokens
  layout : SameLayout l next

/-- A step that makes no token with a place. -/
structure Skips (l next : Lexer) : Prop where
  rest : ∃ skipped, l.rest = skipped ++ next.rest
  tokens : ∃ marks, next.tokens = marks ++ l.tokens ∧ ∀ t ∈ marks, ¬t.isPlaced = true
  dropped : l.dropped ≤ next.dropped

/-- A step that makes a token with a place. -/
def Makes (l next : Lexer) : Prop := ∃ kind blank gs, Emits l next kind blank gs

/-- What a step can do. -/
def Advances (l next : Lexer) : Prop := Makes l next ∨ Skips l next

variable {l next : Lexer} {g : Glyph} {gs rest : List Glyph} {kind : TokenKind}

/-! ## Making tokens -/

/-- A token made of the glyphs in front; brackets and formatted strings may change with it. -/
theorem makes_of_takes (hkind : kind.isPlaced = true) (htakes : Takes l.rest (gs, rest))
    (brackets : List Char) (frames : List FormatFrame) :
    Makes l { l.emit kind gs rest with brackets := brackets, frames := frames } := by
  refine ⟨kind, [], gs, hkind, htakes.1.symm, ?_, htakes.2, rfl, rfl, rfl, rfl, rfl, rfl, rfl⟩
  intro g hg
  cases hg

theorem makes_emit (hkind : kind.isPlaced = true) (htakes : Takes l.rest (gs, rest)) :
    Makes l (l.emit kind gs rest) := makes_of_takes hkind htakes l.brackets l.frames

theorem makes_updateFrame (hkind : kind.isPlaced = true) (htakes : Takes l.rest (gs, rest))
    (change : FormatFrame → FormatFrame) :
    Makes l ((l.emit kind gs rest).updateFrame change) := by
  unfold updateFrame
  split
  next f outer _ => exact makes_of_takes hkind htakes l.brackets (change f :: outer)
  next => exact makes_emit hkind htakes

theorem openFormat_makes {letters : List Glyph} (htakes : Takes l.rest (letters, rest)) :
    Yields (Makes l) (l.openFormat letters rest) := by
  refine (openingQuotes_takes rest).bind fun quotes hquotes => .bind_any fun first => .some ?_
  have hopening : Takes l.rest (letters ++ quotes.1, quotes.2) :=
    ⟨htakes.1.trans hquotes.1, by simp [htakes.2]⟩
  exact makes_of_takes rfl hopening l.brackets _

theorem wordOrString_makes (hrest : l.rest = g :: gs) (hg : isWordGlyph g = true) :
    Yields (Makes l) l.wordOrString := by
  have hletters : Takes l.rest (l.rest.takeWhile isWordGlyph, l.rest.dropWhile isWordGlyph) :=
    ⟨splits_takeWhile _ _, by simp [hrest, hg]⟩
  refine .ite (fun _ => openFormat_makes hletters) fun _ => .ite (fun _ => ?_) fun _ => ?_
  · refine (scanString_takes _).bind fun body hbody => .some (makes_emit rfl ?_)
    exact ⟨hletters.1.trans hbody.1, by simp [hletters.2]⟩
  · have hword : Yields (Takes l.rest) (scanWord l.rest) := hrest ▸ scanWord_takes hg
    exact hword.bind fun word hword => .some (makes_emit rfl hword)

theorem operator_makes (hrest : l.rest = g :: gs) : Yields (Makes l) (l.operator g gs) := by
  refine .ite (fun _ => .some ?_) fun _ => ?_
  · have hcolon : Takes l.rest ([g], gs) := ⟨hrest.symm, List.cons_ne_nil g []⟩
    exact makes_updateFrame rfl hcolon _
  · refine (scanOperator_takes g gs).bind fun text htext => ?_
    have htakes : Takes l.rest (text.1, text.2) := hrest ▸ htext
    -- a bracket changes the open brackets and counts in the formatted string around it
    have hbracket : ∀ (change : FormatFrame → FormatFrame) (brackets : List Char), Makes l
        { (l.emit .operator text.1 text.2).updateFrame change with brackets := brackets } := by
      intro change brackets
      unfold updateFrame
      split
      next f outer _ => exact makes_of_takes rfl htakes brackets (change f :: outer)
      next => exact makes_of_takes rfl htakes brackets l.frames
    refine .ite (fun _ => .some ?_) fun _ => .ite (fun _ => ?_) fun _ =>
      .some (makes_emit rfl htakes)
    · exact hbracket _ _
    · unfold closeBracket
      split
      · exact .ite (fun _ => .some (hbracket _ _)) fun _ => .none
      · exact .none

theorem formatPart_makes (l : Lexer) : Yields (Makes l) l.formatPart? := by
  unfold formatPart?
  split
  next => exact .none
  next f outer hframes =>
    refine .ite (fun _ => .none) fun _ => .ite (fun htext => .some ?_) fun _ =>
      .ite (fun hends => .some ?_) fun _ => .none
    · exact makes_emit rfl ⟨formatText_splits _ _ _ _, by simpa using htext⟩
    · have hquotes : Takes l.rest (l.rest.take (if f.triple then 3 else 1),
          l.rest.drop (if f.triple then 3 else 1)) := by
        refine ⟨splits_take _ _, ?_⟩
        cases hrest : l.rest with
        | nil =>
          rw [hrest] at hends
          cases hends
        | cons g gs => split <;> simp
      exact makes_of_takes rfl hquotes l.brackets outer

/-! ## Passing over glyphs -/

/-- Glyphs are passed over, and no token is made. -/
theorem Skips.of_rest (skipped : List Glyph) (hrest : l.rest = skipped ++ next.rest)
    (htokens : next.tokens = l.tokens) (hdropped : l.dropped ≤ next.dropped) : Skips l next :=
  ⟨⟨skipped, hrest⟩, ⟨[], by simp [htokens]⟩, hdropped⟩

theorem Skips.trans {mid : Lexer} (h : Skips l mid) (h' : Skips mid next) : Skips l next := by
  obtain ⟨⟨skipped, hskipped⟩, ⟨marks, hmarks, hunplaced⟩, hdropped⟩ := h
  obtain ⟨⟨skipped', hskipped'⟩, ⟨marks', hmarks', hunplaced'⟩, hdropped'⟩ := h'
  refine ⟨⟨skipped ++ skipped', by simp [hskipped, hskipped']⟩, ⟨marks' ++ marks, ?_, ?_⟩,
    hdropped.trans hdropped'⟩
  · simp [hmarks', hmarks]
  · intro t ht
    rcases List.mem_append.mp ht with ht | ht
    · exact hunplaced' t ht
    · exact hunplaced t ht

theorem Skips.mark (l : Lexer) (hkind : ¬kind.isPlaced = true) : Skips l (l.mark kind) where
  rest := ⟨[], rfl⟩
  tokens := by
    refine ⟨[{ kind := kind }], rfl, ?_⟩
    intro t ht
    cases List.mem_singleton.mp ht
    exact hkind
  dropped := le_rfl

theorem skips_skipComment (l : Lexer) : Skips l l.skipComment := by
  unfold skipComment
  split
  next => exact .of_rest _ List.takeWhile_append_dropWhile.symm rfl le_rfl
  next => exact .of_rest [] (List.nil_append _).symm rfl le_rfl

theorem skips_closeLevels (width : Nat) (levels : List Level) (l : Lexer) :
    Skips l (closeLevels width levels l) := by
  induction levels generalizing l with
  | nil => exact .of_rest [] (List.nil_append _).symm rfl le_rfl
  | cons level levels ih =>
    rw [closeLevels]
    split
    · have hmark : Skips l { l.mark .dedent with levels := levels } := by
        have hmark : Skips l (l.mark .dedent) := .mark l (by decide)
        exact ⟨hmark.rest, hmark.tokens, hmark.dropped⟩
      exact hmark.trans (ih _)
    · exact .of_rest [] (List.nil_append _).symm rfl le_rfl

theorem indentTo_skips (l : Lexer) (blank : List Char) : Yields (Skips l) (l.indentTo blank) := by
  have hsame : Skips l l := .of_rest [] (List.nil_append _).symm rfl le_rfl
  refine .ite (fun _ => .ite (fun _ => .some hsame) fun _ => .none) fun _ => .ite (fun _ => ?_)
    fun _ => .ite (fun _ => .some (skips_closeLevels _ _ l)) fun _ => .none
  refine .ite (fun _ => .some ?_) fun _ => .none
  have hmark : Skips l (l.mark .indent) := .mark l (by decide)
  exact ⟨hmark.rest, hmark.tokens, hmark.dropped⟩

theorem skips_setMargin (l : Lexer) : Skips l l.setMargin := by
  unfold setMargin
  split <;> exact .of_rest [] (List.nil_append _).symm rfl le_rfl

theorem beginLine_skips (l : Lexer) : Yields (Skips l) l.beginLine := by
  have hblank : Skips l { l with rest := l.rest.dropWhile fun g => isGap g.char } :=
    .of_rest _ List.takeWhile_append_dropWhile.symm rfl le_rfl
  unfold beginLine
  simp only
  split
  next => exact .some hblank
  next g gs hrest =>
    refine .ite (fun _ => .some (hblank.trans ?_)) fun _ => .ite (fun _ => .some (hblank.trans ?_))
      fun _ => .ite (fun _ => .some (hblank.trans ?_)) fun _ => .ite (fun _ => ?_) fun _ => ?_
    · exact .of_rest [g] hrest rfl le_rfl
    · exact skips_skipComment _
    · exact .of_rest [] (List.nil_append _).symm rfl le_rfl
    · cases gs with
      | nil => exact .none
      | cons h gs =>
        refine .ite (fun _ => .none) fun _ => ?_
        have hjoined : ∀ dropped, l.dropped ≤ dropped →
            Skips { l with rest := l.rest.dropWhile fun g => isGap g.char }
              { l with rest := gs.dropWhile fun g => isGap g.char, dropped := dropped } := by
          intro dropped hdropped
          refine .of_rest (g :: h :: gs.takeWhile fun g => isGap g.char) ?_ rfl hdropped
          change l.rest.dropWhile _ = _
          rw [hrest]
          simp
        refine .ite (fun _ => .some (hblank.trans (hjoined l.dropped le_rfl))) fun _ => .some ?_
        exact (hblank.trans (hjoined (l.dropped + 1) (Nat.le_succ _))).trans (skips_setMargin _)
    · exact (indentTo_skips _ _).map fun mid hmid => (hblank.trans hmid).trans (skips_setMargin mid)

/-! ## One step -/

/-- What the first glyph of a token leads to: a comment is passed over, a line end begins a line,
    a continuation joins two lines, and anything else makes a token. -/
theorem token_cases (hrest : l.rest = g :: gs) (h : l.token g gs = some next) :
    (g.char = '#' ∧ next = l.skipComment) ∨
    (g.char = '\n' ∧ next = if l.brackets.isEmpty then
      { l with rest := gs, atLineStart := true }.mark .newline
      else { l with rest := gs, atLineStart := true }) ∨
    (∃ h rest, gs = h :: rest ∧ next = { l with rest := rest }) ∨ Makes l next := by
  unfold token at h
  by_cases hcomment : g.char = '#'
  · rw [if_pos hcomment] at h
    exact .inl ⟨hcomment, (Option.some.inj h).symm⟩
  rw [if_neg hcomment] at h
  by_cases hnewline : g.char = '\n'
  · rw [if_pos hnewline] at h
    exact .inr (.inl ⟨hnewline, (Option.some.inj h).symm⟩)
  rw [if_neg hnewline] at h
  by_cases hjoined : g.char = '\\'
  · rw [if_pos hjoined] at h
    cases gs with
    | nil => cases h
    | cons k rest =>
      simp only [Option.ite_none_right_eq_some, Option.some.injEq] at h
      exact .inr (.inr (.inl ⟨k, rest, rfl, h.2.symm⟩))
  rw [if_neg hjoined] at h
  refine .inr (.inr (.inr ?_))
  by_cases hword : beginsWord g = true
  · rw [if_pos hword] at h
    have hg : isWordGlyph g = true := by
      unfold beginsWord at hword
      simp_all
    exact wordOrString_makes hrest hg next h
  rw [if_neg hword] at h
  by_cases hnumber : (g.char.isDigit || (g.char = '.' && startsWithDigit Char.isDigit gs)) = true
  · rw [if_pos hnumber] at h
    have hg : g.char.isDigit = true ∨ g.char = '.' := by
      simp only [Bool.or_eq_true, Bool.and_eq_true, decide_eq_true_eq] at hnumber
      exact hnumber.imp_right And.left
    obtain ⟨number, hscan, heq⟩ := Option.bind_eq_some_iff.mp h
    cases heq
    exact makes_emit rfl (hrest ▸ scanNumber_takes hg number hscan)
  rw [if_neg hnumber] at h
  by_cases hquote : isQuote g.char = true
  · rw [if_pos hquote] at h
    obtain ⟨text, hscan, heq⟩ := Option.bind_eq_some_iff.mp h
    cases heq
    exact makes_emit rfl (hrest ▸ scanString_takes (g :: gs) text hscan)
  rw [if_neg hquote] at h
  exact operator_makes hrest next h

theorem token_advances (hrest : l.rest = g :: gs) : Yields (Advances l) (l.token g gs) := by
  intro next h
  rcases token_cases hrest h with ⟨-, rfl⟩ | ⟨-, rfl⟩ | ⟨k, rest, rfl, rfl⟩ | hmakes
  · exact .inr (skips_skipComment l)
  · -- a line end; within brackets it gives no token
    have hnext : Skips l { l with rest := gs, atLineStart := true } :=
      .of_rest [g] hrest rfl le_rfl
    split
    · exact .inr (hnext.trans (.mark _ (by decide)))
    · exact .inr hnext
  · exact .inr (.of_rest [g, k] hrest rfl le_rfl)
  · exact .inl hmakes

/-- Blanks in front of a token do not matter. -/
theorem Advances.behind {blank rest : List Glyph} (hrest : l.rest = blank ++ rest)
    (hblank : ∀ g ∈ blank, isGap g.char = true) (h : Advances { l with rest := rest } next) :
    Advances l next := by
  rcases h with ⟨kind, blank', gs, h⟩ | h
  · refine .inl ⟨kind, blank ++ blank', gs, h.isPlaced, ?_, ?_, h.nonempty, h.tokens, ?_⟩
    · rw [hrest, List.append_assoc, ← h.rest]
    · intro g hg
      rcases List.mem_append.mp hg with hg | hg
      · exact hblank g hg
      · exact h.isBlank g hg
    · obtain ⟨h1, h2, h3, h4, h5, h6⟩ := h.layout
      exact ⟨h1, h2, h3, h4, h5, h6⟩
  · have hskips : Skips l { l with rest := rest } := .of_rest blank hrest rfl le_rfl
    exact .inr (hskips.trans h)

/-- A step reads a part of a formatted string, begins a line, comes to the end of the script, or
    reads a token behind blanks. -/
theorem step_cases (h : l.step = some next) :
    l.formatPart? = some next ∨ l.formatPart? = none ∧ l.brokenFormat = false ∧
      (l.atLineStart = true ∧ l.beginLine = some next ∨
        l.atLineStart = false ∧
          ((l.rest.dropWhile fun g => isGap g.char) = [] ∧ next = { l with rest := [] } ∨
            ∃ g gs, (l.rest.dropWhile fun g => isGap g.char) = g :: gs ∧
              { l with rest := g :: gs }.token g gs = some next)) := by
  unfold step at h
  cases hpart : l.formatPart? with
  | some part =>
    rw [hpart] at h
    exact .inl h
  | none =>
    rw [hpart] at h
    simp only at h
    obtain ⟨hbroken, h⟩ := Option.ite_none_left_eq_some.mp h
    refine .inr ⟨rfl, by simpa using hbroken, ?_⟩
    by_cases hline : l.atLineStart = true
    · rw [if_pos hline] at h
      exact .inl ⟨hline, h⟩
    · rw [if_neg hline] at h
      refine .inr ⟨by simpa using hline, ?_⟩
      cases hrest : l.rest.dropWhile fun g => isGap g.char with
      | nil =>
        rw [hrest] at h
        exact .inl ⟨rfl, (Option.some.inj h).symm⟩
      | cons g gs =>
        rw [hrest] at h
        exact .inr ⟨g, gs, rfl, h⟩

theorem step_advances (l : Lexer) : Yields (Advances l) l.step := by
  intro next h
  have hsplit := List.takeWhile_append_dropWhile (l := l.rest) (p := fun g => isGap g.char)
  have hblank : ∀ g ∈ l.rest.takeWhile fun g => isGap g.char, isGap g.char = true :=
    fun g hg => List.mem_takeWhile_imp (p := fun g : Glyph => isGap g.char) hg
  rcases step_cases h with hpart | ⟨-, -, ⟨-, hbegin⟩ | ⟨-, ⟨hnone, rfl⟩ | ⟨g, gs, hsome, htoken⟩⟩⟩
  · exact .inl (formatPart_makes l next hpart)
  · exact .inr (beginLine_skips l next hbegin)
  · rw [hnone] at hsplit
    exact .inr (.of_rest _ hsplit.symm rfl le_rfl)
  · rw [hsome] at hsplit
    exact (token_advances (l := { l with rest := g :: gs }) rfl next htoken).behind hsplit.symm
      hblank

/-! ## Many steps -/

/-- One state leads to another by steps. -/
def Reaches : Lexer → Lexer → Prop := Relation.ReflTransGen fun l next => l.step = some next

theorem run_reaches (fuel : Nat) (l : Lexer) : Yields (Reaches l) (run fuel l) := by
  induction fuel generalizing l with
  | zero => exact .ite (fun _ => .some .refl) fun _ => .none
  | succ fuel ih =>
    refine .ite (fun _ => .some .refl) fun _ => ?_
    intro last hlast
    obtain ⟨next, hstep, hrun⟩ := Option.bind_eq_some_iff.mp hlast
    exact .head hstep (ih next last hrun)

/-- What is left of the script is a part of what was left before. -/
theorem Reaches.suffix (h : Reaches l next) : next.rest <:+ l.rest := by
  induction h with
  | refl => exact List.suffix_rfl
  | tail _ hstep ih =>
    rcases step_advances _ _ hstep with ⟨kind, blank, gs, h⟩ | h
    · exact .trans ⟨blank ++ gs, by simp [h.rest]⟩ ih
    · obtain ⟨skipped, hskipped⟩ := h.rest
      exact .trans ⟨skipped, hskipped.symm⟩ ih

/-- Lines are left out one after the other and never taken back. -/
theorem Reaches.dropped_le (h : Reaches l next) : l.dropped ≤ next.dropped := by
  induction h with
  | refl => exact le_rfl
  | tail _ hstep ih =>
    rcases step_advances _ _ hstep with ⟨kind, blank, gs, h⟩ | h
    · exact ih.trans h.layout.dropped.ge
    · exact ih.trans h.dropped

/-- Every token with a place was made by a step, from the state that had made all before it. -/
theorem exists_emission {last : Lexer} {t : Token} {before after : List Token}
    (h : Reaches l last) (htokens : last.tokens = after ++ t :: before)
    (hstart : l.tokens.length ≤ before.length) (ht : t.isPlaced = true) :
    ∃ mid next kind blank gs, Reaches l mid ∧ mid.step = some next ∧ Reaches next last ∧
      Emits mid next kind blank gs ∧ mid.tokens = before ∧ next.tokens = t :: before := by
  induction h generalizing after with
  | refl =>
    rw [htokens, List.length_append, List.length_cons] at hstart
    omega
  | @tail mid last hreaches hstep ih =>
    -- a token made before the last step was made by one of the steps before
    have hearlier : ∀ after', mid.tokens = after' ++ t :: before →
        ∃ mid next kind blank gs, Reaches l mid ∧ mid.step = some next ∧ Reaches next last ∧
          Emits mid next kind blank gs ∧ mid.tokens = before ∧ next.tokens = t :: before := by
      intro after' hmid
      obtain ⟨mid, next, kind, blank, gs, hbefore, hmade, hafter, h⟩ := ih hmid
      exact ⟨mid, next, kind, blank, gs, hbefore, hmade, hafter.tail hstep, h⟩
    rcases step_advances _ _ hstep with ⟨kind, blank, gs, hemits⟩ | hskips
    · cases after with
      | nil =>
        have htop := hemits.tokens.symm.trans htokens
        exact ⟨mid, last, kind, blank, gs, hreaches, hstep, .refl, hemits,
          (List.cons.inj htop).2, htokens⟩
      | cons a after =>
        have htop := hemits.tokens.symm.trans htokens
        exact hearlier after (List.cons.inj htop).2
    · obtain ⟨marks, hmarks, hunplaced⟩ := hskips.tokens
      rcases List.append_eq_append_iff.mp (hmarks.symm.trans htokens) with
        ⟨more, rfl, hmid⟩ | ⟨more, rfl, hmid⟩
      · exact hearlier more hmid
      · cases more with
        | nil => exact hearlier [] hmid.symm
        | cons a more =>
          -- a mark has no place
          obtain ⟨rfl, -⟩ := List.cons.inj hmid
          exact absurd ht (hunplaced t (by simp))

end Lexer

/-- The lines that the regular layout of a script leaves out. -/
def linesLeftOut (code : String) : Nat :=
  ((Lexer.run (2 * (glyphsOf code).length) { rest := glyphsOf code }).map Lexer.dropped).getD 0

/-- A script is lexed by steps from the state in which nothing has been read. -/
theorem lex_reaches {code : String} {lexed : Lexed} (h : lex code = some lexed) :
    ∃ last, Lexer.Reaches { rest := glyphsOf code } last ∧ last.dropped = linesLeftOut code ∧
      ∃ marks, lexed.tokens = last.tokens.reverse ++ marks ∧ ∀ t ∈ marks, ¬t.isPlaced = true := by
  unfold lex at h
  obtain ⟨finished, hfinished, rfl⟩ := Option.map_eq_some_iff.mp h
  obtain ⟨last, hlast, rfl⟩ := Option.map_eq_some_iff.mp hfinished
  have hleft : last.dropped = linesLeftOut code := by
    unfold linesLeftOut
    rw [hlast]
    rfl
  have hskips : Lexer.Skips last last.finish := by
    unfold Lexer.finish
    refine .trans ?_ (Lexer.skips_closeLevels _ _ _)
    split
    · exact .of_rest [] (List.nil_append _).symm rfl le_rfl
    · exact .mark _ (by decide)
  obtain ⟨marks, hmarks, hunplaced⟩ := hskips.tokens
  refine ⟨last, Lexer.run_reaches _ _ last hlast, hleft, marks.reverse, ?_, ?_⟩
  · change last.finish.tokens.reverse = _
    rw [hmarks, List.reverse_append]
  · intro t ht
    exact hunplaced t (List.mem_reverse.mp ht)

/-- Every token with a place is made of glyphs of its script, in a state that the lexer comes to. -/
theorem token_emitted {code : String} {lexed : Lexed} {t : Token} (h : lex code = some lexed)
    (ht : t ∈ lexed.tokens) (hplaced : t.isPlaced = true) :
    ∃ mid next kind blank gs, Lexer.Reaches { rest := glyphsOf code } mid ∧
      mid.dropped ≤ linesLeftOut code ∧ Lexer.Emits mid next kind blank gs ∧
      t = ⟨kind, textOf gs, mid.spanOf gs⟩ := by
  obtain ⟨last, hreaches, hleft, marks, htokens, hunplaced⟩ := lex_reaches h
  rw [htokens] at ht
  rcases List.mem_append.mp ht with ht | ht
  · obtain ⟨after, before, hsplit⟩ := List.append_of_mem (List.mem_reverse.mp ht)
    obtain ⟨mid, next, kind, blank, gs, hmid, hstep, hnext, hemits, hbefore, htokens⟩ :=
      Lexer.exists_emission hreaches hsplit (Nat.zero_le _) hplaced
    refine ⟨mid, next, kind, blank, gs, hmid, ?_, hemits, ?_⟩
    · rw [← hleft, ← hemits.layout.dropped]
      exact hnext.dropped_le
    · exact (List.cons.inj (htokens.symm.trans hemits.tokens)).1
  · exact absurd hplaced (hunplaced t ht)

end Framewise.Script
