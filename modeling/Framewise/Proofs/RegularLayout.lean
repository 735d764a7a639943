import Framewise.Proofs.LexerSteps
import Mathlib.Data.List.Chain

/-! # Scripts in regular layout

  Tokens have their places in a regular layout, which differs from the script in two
  ways: a form feed in front of a line takes no column there, and a line that is
  joined to the next before its first token is left out. In a script with neither,
  every token stands where its glyphs do.

  Main definition: `Lexer.Straight`, what holds between two steps in such a script.

  Main results:
  - `Lexer.step_straight`: a step keeps it as long as no line is left out.
  - `token_in_place`: a token begins where its first glyph stands and ends behind its
    last one.
-/

namespace Framewise.Script

/-! ## Glyphs one after the other -/

/-- One glyph comes right after another. -/
def Glyph.Next (g h : Glyph) : Prop :=
  (g.char = '\n' ∧ h.line = g.line + 1 ∧ h.column = 1) ∨
    (g.char ≠ '\n' ∧ h.line = g.line ∧ h.column = g.column + 1)

/-- The first glyph stands where the script begins. -/
theorem head_glyphsFrom {line column : Nat} {cs : List Char} {g : Glyph}
    (hg : g ∈ (glyphsFrom line column cs).head?) : g.line = line ∧ g.column = column := by
  revert hg
  fun_cases glyphsFrom line column cs with
  | case1 => simp
  | case2 cs => rintro ⟨⟩; exact ⟨rfl, rfl⟩
  | case3 c cs => rintro ⟨⟩; exact ⟨rfl, rfl⟩
  | case4 c cs => rintro ⟨⟩; exact ⟨rfl, rfl⟩

theorem glyphsFrom_chain (line column : Nat) (cs : List Char) :
    (glyphsFrom line column cs).IsChain Glyph.Next := by
  fun_induction glyphsFrom line column cs with
  | case1 => exact .nil
  | case2 line column cs ih =>
    refine List.isChain_cons.mpr ⟨fun g hg => .inl ⟨rfl, ?_⟩, ih⟩
    exact head_glyphsFrom hg
  | case3 line column c cs _ _ ih =>
    refine List.isChain_cons.mpr ⟨fun g hg => .inl ⟨rfl, ?_⟩, ih⟩
    exact head_glyphsFrom hg
  | case4 line column c cs _ hc ih =>
    refine List.isChain_cons.mpr ⟨fun g hg => .inr ⟨by simp_all, ?_⟩, ih⟩
    exact head_glyphsFrom hg

/-- Behind blanks on one line, columns have moved by the number of blanks. -/
theorem column_behind {blank gs : List Glyph} {g : Glyph} {column : Nat}
    (h : (blank ++ g :: gs).IsChain Glyph.Next) (hblank : ∀ b ∈ blank, b.char ≠ '\n')
    (hfirst : ∀ b ∈ (blank ++ g :: gs).head?, b.column = column) :
    g.column = column + blank.length := by
  induction blank generalizing column with
  | nil => exact hfirst g rfl
  | cons b blank ih =>
    rw [List.cons_append, List.isChain_cons] at h
    have hcolumn : b.column = column := hfirst b rfl
    have hsecond : ∀ c ∈ (blank ++ g :: gs).head?, c.column = column + 1 := by
      intro c hc
      rcases h.1 c hc with ⟨hnewline, -⟩ | ⟨-, -, hc⟩
      · exact absurd hnewline (hblank b List.mem_cons_self)
      · omega
    have hnext := ih h.2 (fun c hc => hblank c (List.mem_cons_of_mem b hc)) hsecond
    rw [hnext, List.length_cons]
    omega

namespace Lexer

variable {l next : Lexer} {g : Glyph} {gs : List Glyph}

/-! ## White space without form feeds -/

/-- True for a form feed. -/
def isFormFeed (c : Char) : Bool := c.toNat = 12

/-- A fold that counts every item. -/
theorem foldl_counts {α β : Type} {f : α × Nat → β → α × Nat} {items : List β}
    (h : ∀ b ∈ items, ∀ p, (f p b).2 = p.2 + 1) (p : α × Nat) :
    (items.foldl f p).2 = p.2 + items.length := by
  induction items generalizing p with
  | nil => rfl
  | cons b items ih =>
    rw [List.foldl_cons, ih fun b' hb' => h b' (List.mem_cons_of_mem b hb'),
      h b List.mem_cons_self, List.length_cons]
    omega

theorem narrow_widths {blank : List Char} (hgap : ∀ c ∈ blank, isGap c = true)
    (hfeed : ∀ c ∈ blank, isFormFeed c = false) : (widths blank).2 = blank.length := by
  unfold widths
  rw [foldl_counts, Nat.zero_add]
  intro c hc p
  have hc : c = ' ' ∨ c = '\t' := by
    have hgap := hgap c hc
    have hfeed := hfeed c hc
    simp only [isGap, isFormFeed, Bool.or_eq_true, decide_eq_true_eq,
      decide_eq_false_iff_not] at hgap hfeed
    rcases hgap with hgap | hgap
    · exact hgap
    · exact absurd hgap hfeed
  rcases hc with rfl | rfl
  · simp
  · simp

/-- Levels that are as wide as their white space is long. -/
def Even (levels : List Level) : Prop := ∀ level ∈ levels, level.narrowWidth = level.blank.length

theorem Even.currentBlank (h : Even l.levels) : l.currentBlank.length = l.currentWidths.2 := by
  unfold Lexer.currentBlank currentWidths
  split
  next level levels heq => exact (h level (by simp [heq])).symm
  next => rfl

/-! ## The invariant -/

/-- What holds between two steps in a script without form feeds: the margin is what is written,
    and a line begins at its first column or has nothing more to say. -/
structure Straight (l : Lexer) : Prop where
  margin : l.margin = l.written
  even : Even l.levels
  chain : l.rest.IsChain Glyph.Next
  unfed : ∀ g ∈ l.rest, isFormFeed g.char = false
  lineStart : l.atLineStart = true → ∀ g ∈ l.rest.head?, g.column = 1 ∨ g.char = '\n' ∨ g.char = '#'

theorem Straight.columnOf (h : l.Straight) (g : Glyph) : l.columnOf g = g.column := by
  unfold Lexer.columnOf
  rw [h.margin]
  split <;> omega

/-- Where levels and margin stay, only the beginning of a line matters. -/
theorem Straight.of_suffix (h : l.Straight) (hrest : next.rest <:+ l.rest)
    (hmargin : next.margin = l.margin) (hwritten : next.written = l.written)
    (hlevels : next.levels = l.levels)
    (hline : next.atLineStart = true →
      ∀ g ∈ next.rest.head?, g.column = 1 ∨ g.char = '\n' ∨ g.char = '#') : next.Straight where
  margin := by rw [hmargin, hwritten, h.margin]
  even := by rw [hlevels]; exact h.even
  chain := by
    obtain ⟨skipped, heq⟩ := hrest
    have hchain := h.chain
    rw [← heq] at hchain
    exact hchain.right_of_append
  unfed := fun g hg => h.unfed g (hrest.subset hg)
  lineStart := hline

theorem Straight.makes (h : l.Straight) (hline : l.atLineStart = false) (hmakes : Makes l next) :
    next.Straight ∧ next.dropped = l.dropped := by
  obtain ⟨kind, blank, gs, hemits⟩ := hmakes
  have hlayout := hemits.layout
  refine ⟨h.of_suffix ?_ hlayout.margin hlayout.written hlayout.levels ?_, hlayout.dropped⟩
  · exact ⟨blank ++ gs, by simp [hemits.rest]⟩
  · intro hstart
    rw [hlayout.atLineStart, hline] at hstart
    cases hstart

/-- Behind a line end a line begins at its first column. -/
theorem Straight.column_of_newline (h : l.Straight) (hrest : l.rest = g :: gs)
    (hg : g.char = '\n') : ∀ k ∈ gs.head?, k.column = 1 := by
  intro k hk
  have hchain := h.chain
  rw [hrest, List.isChain_cons] at hchain
  rcases hchain.1 k hk with ⟨-, -, hcolumn⟩ | ⟨hne, -⟩
  · exact hcolumn
  · exact absurd hg hne

theorem Straight.newline (h : l.Straight) (hrest : l.rest = g :: gs) (hg : g.char = '\n')
    (atLineStart : Bool) (tokens : List Token) :
    { l with rest := gs, atLineStart := atLineStart, tokens := tokens }.Straight := by
  refine h.of_suffix ⟨[g], hrest.symm⟩ rfl rfl rfl ?_
  intro _ k hk
  exact .inl (h.column_of_newline hrest hg k hk)

theorem Straight.skipComment (h : l.Straight) :
    l.skipComment.Straight ∧ l.skipComment.dropped = l.dropped := by
  unfold Lexer.skipComment
  split
  next g gs hrest =>
    refine ⟨h.of_suffix (List.dropWhile_suffix _) rfl rfl rfl ?_, rfl⟩
    intro _ k hk
    -- what stands behind a comment is the end of its line
    have hend := List.head?_dropWhile_not (fun g : Glyph => g.char != '\n') l.rest
    rw [show (l.rest.dropWhile fun g => g.char != '\n').head? = some k from hk] at hend
    exact .inr (.inl (by simpa using hend))
  next => exact ⟨h, rfl⟩

/-! ## Lines -/

/-- Closing levels changes nothing else. -/
theorem closeLevels_frame (width : Nat) (levels : List Level) (l : Lexer)
    (hlevels : levels = l.levels) :
    (closeLevels width levels l).levels <:+ l.levels ∧
      (closeLevels width levels l).rest = l.rest ∧
      (closeLevels width levels l).dropped = l.dropped := by
  induction levels generalizing l with
  | nil => exact ⟨List.suffix_rfl, rfl, rfl⟩
  | cons level levels ih =>
    rw [closeLevels]
    split
    · obtain ⟨hsuffix, hrest, hdropped⟩ := ih { l.mark .dedent with levels := levels } rfl
      refine ⟨hsuffix.trans ?_, hrest, hdropped⟩
      rw [← hlevels]
      exact List.suffix_cons level levels
    · exact ⟨List.suffix_rfl, rfl, rfl⟩

/-- What happens to a logical line, by the widths of its white space. -/
theorem indentTo_eq (l : Lexer) (blank : List Char) :
    l.indentTo blank =
      if (widths blank).1 = l.currentWidths.1 then
        if (widths blank).2 = l.currentWidths.2 then some l else none
      else if l.currentWidths.1 < (widths blank).1 then
        if l.currentWidths.2 < (widths blank).2 && l.currentBlank.isPrefixOf blank then
          some { (l.mark .indent) with
            levels := ⟨(widths blank).1, (widths blank).2, blank⟩ :: l.levels }
        else none
      else if (closeLevels (widths blank).1 l.levels l).currentWidths = widths blank then
        some (closeLevels (widths blank).1 l.levels l)
      else none := rfl

/-- A logical line settles on a level whose white space is as long as its own. -/
theorem indentTo_even {blank : List Char} (h : Even l.levels)
    (hwidth : (widths blank).2 = blank.length) :
    Yields (fun next => Even next.levels ∧ next.currentBlank.length = blank.length ∧
      next.rest = l.rest ∧ next.dropped = l.dropped) (l.indentTo blank) := by
  rw [indentTo_eq]
  refine .ite (fun _ => .ite (fun hnarrow => .some ?_) fun _ => .none) fun _ => .ite (fun _ => ?_)
    fun _ => .ite (fun hclosed => .some ?_) fun _ => .none
  · refine ⟨h, ?_, rfl, rfl⟩
    rw [h.currentBlank, ← hnarrow, hwidth]
  · refine .ite (fun _ => .some ⟨?_, rfl, rfl, rfl⟩) fun _ => .none
    intro level hlevel
    rcases List.mem_cons.mp hlevel with rfl | hlevel
    · exact hwidth
    · exact h level hlevel
  · obtain ⟨hsuffix, hrest, hdropped⟩ := closeLevels_frame (widths blank).1 l.levels l rfl
    have heven : Even (closeLevels (widths blank).1 l.levels l).levels := fun level hlevel =>
      h level (hsuffix.subset hlevel)
    refine ⟨heven, ?_, hrest, hdropped⟩
    rw [heven.currentBlank, hclosed, hwidth]

/-- The first token of a logical line stands behind the white space of its level. -/
theorem setMargin_straight (heven : Even l.levels) (hchain : l.rest.IsChain Glyph.Next)
    (hunfed : ∀ g ∈ l.rest, isFormFeed g.char = false) (hrest : l.rest = g :: gs)
    (hcolumn : g.column = 1 + l.currentBlank.length) : l.setMargin.Straight := by
  have heq : l.setMargin =
      { l with
        atLineStart := false
        marginLine := g.line
        margin := l.currentBlank.length
        written := g.column - 1 } := by
    simp [setMargin, hrest]
  rw [heq]
  refine ⟨?_, heven, hchain, hunfed, ?_⟩
  · change l.currentBlank.length = g.column - 1
    omega
  · intro hstart
    cases hstart

theorem dropped_setMargin (l : Lexer) : l.setMargin.dropped = l.dropped := by
  unfold setMargin
  split <;> rfl

/-- Blanks end no line and begin no comment. -/
theorem ne_of_isGap {c : Char} (h : isGap c = true) : c ≠ '\n' ∧ c ≠ '#' := by
  constructor <;> rintro rfl <;> cases h

/-- A logical line that is not blank begins behind its white space. -/
theorem Straight.column_behind_blank (h : l.Straight) (hline : l.atLineStart = true)
    (hrest : (l.rest.dropWhile fun g => isGap g.char) = g :: gs) (hnewline : g.char ≠ '\n')
    (hcomment : g.char ≠ '#') :
    g.column = 1 + (l.rest.takeWhile fun g => isGap g.char).length := by
  have hsplit := List.takeWhile_append_dropWhile (l := l.rest) (p := fun g => isGap g.char)
  rw [hrest] at hsplit
  have hgap : ∀ b ∈ l.rest.takeWhile fun g => isGap g.char, isGap b.char = true := fun b hb =>
    List.mem_takeWhile_imp (p := fun g : Glyph => isGap g.char) hb
  have hchain := h.chain
  rw [← hsplit] at hchain
  refine column_behind hchain (fun b hb => (ne_of_isGap (hgap b hb)).1) ?_
  intro b hb
  -- the first glyph is a blank or the one behind the blanks, so it is no line end
  have hordinary : b.char ≠ '\n' ∧ b.char ≠ '#' := by
    cases hblank : l.rest.takeWhile fun g => isGap g.char with
    | nil =>
      rw [hblank] at hb
      cases hb
      exact ⟨hnewline, hcomment⟩
    | cons b' blank =>
      rw [hblank] at hb hgap
      cases hb
      exact ne_of_isGap (hgap b List.mem_cons_self)
  rw [hsplit] at hb
  rcases h.lineStart hline b hb with hcolumn | hchar | hchar
  · exact hcolumn
  · exact absurd hchar hordinary.1
  · exact absurd hchar hordinary.2

/-- Beginning a line keeps the layout straight, or leaves a line out. -/
theorem beginLine_straight (h : l.Straight) (hline : l.atLineStart = true)
    (hstep : l.beginLine = some next) :
    (next.Straight ∧ next.dropped = l.dropped) ∨ l.dropped < next.dropped := by
  have hsuffix : (l.rest.dropWhile fun g => isGap g.char) <:+ l.rest := List.dropWhile_suffix _
  unfold beginLine at hstep
  simp only at hstep
  cases hrest : l.rest.dropWhile fun g => isGap g.char with
  | nil =>
    rw [hrest] at hstep
    cases hstep
    exact .inl ⟨h.of_suffix List.nil_suffix rfl rfl rfl (by simp), rfl⟩
  | cons g gs =>
    rw [hrest] at hstep hsuffix
    simp only at hstep
    by_cases hnewline : g.char = '\n'
    · -- an empty line
      rw [if_pos hnewline] at hstep
      cases hstep
      have hmid : { l with rest := g :: gs }.Straight :=
        h.of_suffix hsuffix rfl rfl rfl (by simp [hnewline])
      exact .inl ⟨hmid.newline rfl hnewline _ _, rfl⟩
    rw [if_neg hnewline] at hstep
    by_cases hcomment : g.char = '#'
    · rw [if_pos hcomment] at hstep
      cases hstep
      have hmid : { l with rest := g :: gs }.Straight :=
        h.of_suffix hsuffix rfl rfl rfl (by simp [hcomment])
      exact .inl hmid.skipComment
    rw [if_neg hcomment] at hstep
    by_cases hbrackets : (!l.brackets.isEmpty) = true
    · rw [if_pos hbrackets] at hstep
      cases hstep
      exact .inl ⟨h.of_suffix hsuffix rfl rfl rfl (by simp), rfl⟩
    rw [if_neg hbrackets] at hstep
    by_cases hjoined : g.char = '\\'
    · -- a line joined to the next, which is empty or leaves this one out
      rw [if_pos hjoined] at hstep
      cases gs with
      | nil => cases hstep
      | cons k gs =>
        obtain ⟨hnext, hstep⟩ := Option.ite_none_left_eq_some.mp hstep
        by_cases hends : endsLine (gs.dropWhile fun g => isGap g.char) = true
        · rw [if_pos hends] at hstep
          cases hstep
          refine .inl ⟨h.of_suffix ?_ rfl rfl rfl ?_, rfl⟩
          · exact (List.dropWhile_suffix _).trans (.trans ⟨[g, k], rfl⟩ hsuffix)
          · intro _ c hc
            unfold endsLine at hends
            split at hends
            next c' cs heq =>
              rw [show gs.dropWhile (fun g => isGap g.char) = c' :: cs from heq] at hc
              cases hc
              exact .inr (by simpa using hends)
            next heq =>
              rw [show gs.dropWhile (fun g => isGap g.char) = [] from heq] at hc
              cases hc
        · rw [if_neg hends] at hstep
          cases hstep
          rw [dropped_setMargin]
          exact .inr (Nat.lt_succ_self _)
    · -- the first token of a logical line
      rw [if_neg hjoined] at hstep
      obtain ⟨mid, hmid, rfl⟩ := Option.map_eq_some_iff.mp hstep
      have hcolumn := h.column_behind_blank hline hrest hnewline hcomment
      have hblank : ∀ c ∈ (l.rest.takeWhile fun g => isGap g.char).map Glyph.char,
          isGap c = true ∧ isFormFeed c = false := by
        intro c hc
        obtain ⟨b, hb, rfl⟩ := List.mem_map.mp hc
        refine ⟨List.mem_takeWhile_imp (p := fun g : Glyph => isGap g.char) hb, ?_⟩
        exact h.unfed b ((List.takeWhile_sublist _).mem hb)
      have hwidth := narrow_widths (fun c hc => (hblank c hc).1) fun c hc => (hblank c hc).2
      obtain ⟨heven, hlength, hleft, hdropped⟩ :=
        indentTo_even (l := { l with rest := g :: gs }) h.even hwidth mid hmid
      rw [dropped_setMargin, hdropped]
      refine .inl ⟨setMargin_straight heven ?_ ?_ hleft ?_, rfl⟩
      · obtain ⟨skipped, heq⟩ := hsuffix
        rw [hleft]
        exact (heq ▸ h.chain : (skipped ++ g :: gs).IsChain Glyph.Next).right_of_append
      · rw [hleft]
        exact fun k hk => h.unfed k (hsuffix.subset hk)
      · rw [hcolumn, hlength, List.length_map]

/-! ## Steps -/

/-- Parts of formatted strings are read within lines. -/
theorem InOrder.formatPart_line (h : l.InOrder) (hpart : l.formatPart? = some next) :
    l.atLineStart = false := by
  by_contra hline
  have hcalm := h.calm (by simpa using hline)
  unfold formatPart? at hpart
  split at hpart
  next => cases hpart
  next f outer hframes =>
    rw [if_pos (hcalm f (by simp [hframes]))] at hpart
    cases hpart

/-- A step keeps the layout straight, or leaves a line out. -/
theorem step_straight (hordered : l.InOrder) (h : l.Straight) (hstep : l.step = some next) :
    (next.Straight ∧ next.dropped = l.dropped) ∨ l.dropped < next.dropped := by
  have hsuffix : (l.rest.dropWhile fun g => isGap g.char) <:+ l.rest := List.dropWhile_suffix _
  rcases step_cases hstep with
    hpart | ⟨-, -, ⟨hline, hbegin⟩ | ⟨hline, ⟨-, rfl⟩ | ⟨g, gs, hsome, htoken⟩⟩⟩
  · exact .inl (h.makes (hordered.formatPart_line hpart) (formatPart_makes l next hpart))
  · exact beginLine_straight h hline hbegin
  · exact .inl ⟨h.of_suffix List.nil_suffix rfl rfl rfl (by simp), rfl⟩
  · rw [hsome] at hsuffix
    have hmid : { l with rest := g :: gs }.Straight :=
      h.of_suffix hsuffix rfl rfl rfl (by simp [hline])
    rcases token_cases rfl htoken with ⟨-, rfl⟩ | ⟨hnewline, rfl⟩ | ⟨k, rest, rfl, rfl⟩ | hmakes
    · exact .inl hmid.skipComment
    · left
      split
      · exact ⟨hmid.newline rfl hnewline _ _, rfl⟩
      · exact ⟨hmid.newline rfl hnewline _ _, rfl⟩
    · refine .inl ⟨hmid.of_suffix ⟨[g, k], rfl⟩ rfl rfl rfl (by simp [hline]), rfl⟩
    · exact .inl (hmid.makes hline hmakes)

/-- As long as no line is left out, the layout stays straight. -/
theorem Reaches.straight {last : Lexer} (h : Reaches l last) (hordered : l.InOrder)
    (hstart : l.Straight) (hdropped : last.dropped = l.dropped) :
    last.InOrder ∧ last.Straight := by
  induction h with
  | refl => exact ⟨hordered, hstart⟩
  | @tail mid last hreaches hstep ih =>
    have hmid := Reaches.dropped_le hreaches
    have hnext := Reaches.dropped_le (.single hstep)
    obtain ⟨hin, hstraight⟩ := ih (by omega)
    refine ⟨step_inOrder hin last hstep, ?_⟩
    rcases step_straight hin hstraight hstep with h | hlt
    · exact h.1
    · omega

/-- A property of characters that line feeds have holds of the glyphs of a script if it holds of
    its characters. -/
theorem char_glyphsOf {code : String} {P : Char → Bool} (h : ∀ c ∈ code.toList, P c = false)
    (hnewline : P '\n' = false) {g : Glyph} (hg : g ∈ glyphsOf code) : P g.char = false := by
  have hglyphs : ∀ line column (cs : List Char), (∀ c ∈ cs, P c = false) →
      ∀ g ∈ glyphsFrom line column cs, P g.char = false := by
    intro line column cs hcs
    fun_induction glyphsFrom line column cs with
    | case1 => simp
    | case2 line column cs ih =>
      refine List.forall_mem_cons.mpr ⟨hnewline, ih fun c hc => hcs c (by simp [hc])⟩
    | case3 line column c cs _ _ ih =>
      refine List.forall_mem_cons.mpr ⟨hnewline, ih fun c hc => hcs c (by simp [hc])⟩
    | case4 line column c cs _ _ ih =>
      refine List.forall_mem_cons.mpr ⟨hcs c (by simp), ih fun c hc => hcs c (by simp [hc])⟩
  refine hglyphs 1 1 _ ?_ g hg
  intro c hc
  cases hcode : code.toList with
  | nil =>
    rw [hcode] at hc
    cases hc
  | cons d ds =>
    rw [hcode, dropByteOrderMark] at hc
    rw [hcode] at h
    split at hc
    · exact h c (List.mem_cons_of_mem d hc)
    · exact h c hc

theorem straight_start {code : String} (h : ∀ c ∈ code.toList, isFormFeed c = false) :
    Straight { rest := glyphsOf code } where
  margin := rfl
  even := by
    intro level hlevel
    cases hlevel
  chain := glyphsFrom_chain 1 1 _
  unfed := fun g hg => char_glyphsOf h rfl hg
  lineStart := by
    intro _ g hg
    exact .inl (head_glyphsFrom hg).2

end Lexer

/-! ## Tokens -/

/-- The span from one glyph to another. -/
def spanBetween (first last : Glyph) : Span :=
  ⟨first.line, first.column, last.line, last.column + 1⟩

/-- In a script without form feeds of which no line is left out, a token begins where its first
    glyph stands and ends behind its last one. -/
theorem token_in_place {code : String} {lexed : Lexed} {t : Token} (h : lex code = some lexed)
    (hunfed : ∀ c ∈ code.toList, Lexer.isFormFeed c = false) (hleft : linesLeftOut code = 0)
    (ht : t ∈ lexed.tokens) (hplaced : t.isPlaced = true) :
    ∃ first ∈ glyphsOf code, ∃ last ∈ glyphsOf code, t.span = spanBetween first last := by
  obtain ⟨mid, next, kind, blank, gs, hmid, hdropped, hemits, rfl⟩ := token_emitted h ht hplaced
  have hnone : mid.dropped = 0 := by omega
  obtain ⟨-, hstraight⟩ :=
    hmid.straight (Lexer.inOrder_start code) (Lexer.straight_start hunfed) hnone
  have hmem : ∀ g ∈ gs, g ∈ glyphsOf code := fun g hg =>
    hmid.suffix.subset (by rw [hemits.rest]; simp [hg])
  obtain ⟨first, tail, rfl⟩ := List.exists_cons_of_ne_nil hemits.nonempty
  refine ⟨first, hmem first List.mem_cons_self, (first :: tail).getLast (by simp),
    hmem _ (List.getLast_mem _), ?_⟩
  simp [Lexer.spanOf, List.getLast?_eq_some_getLast, Lexer.lineOf, hnone, hstraight.columnOf,
    spanBetween]

end Framewise.Script
