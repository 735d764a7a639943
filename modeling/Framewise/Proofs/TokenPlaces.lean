import Framewise.Proofs.StatementPlaces
import Framewise.Proofs.Success

/-! # Places of tokens

  The tokens of a script stand in order. Each lexeme takes glyphs from the front and
  leaves the others, so it is enough that glyphs stand in order and that the regular
  layout keeps their order: within a logical line all columns move by the same
  distance, and the lines that are left out come before any token of the line that
  they are joined to.

  Main definitions:
  - `Splits`: a lexeme and what is left after it make up the glyphs it was taken from.
  - `Lexer.InOrder`: what holds of the lexer between two steps.

  Main results:
  - `Lexer.step_inOrder`: a step keeps the invariant.
  - `lex_ordered`: the tokens of a script stand in order.
  - `parse_located`: the pieces of a script stand in their place.
-/

namespace Framewise.Script

/-! ## Lexemes -/

/-- A lexeme and what is left after it make up the glyphs it was taken from. -/
def Splits (gs : List Glyph) (l : Lexeme) : Prop := l.1 ++ l.2 = gs

/-- A lexeme that takes something. -/
def Takes (gs : List Glyph) (l : Lexeme) : Prop := Splits gs l ∧ l.1 ≠ []

theorem Splits.after {gs : List Glyph} {l : Lexeme} (h : Splits gs l) (taken : List Glyph) :
    Splits (taken ++ gs) (l.after taken) := by
  change taken ++ l.1 ++ l.2 = taken ++ gs
  rw [List.append_assoc, h]

theorem Splits.takes {gs : List Glyph} {l : Lexeme} (h : Splits gs l) {taken : List Glyph}
    (hne : taken ≠ []) : Takes (taken ++ gs) (l.after taken) :=
  ⟨h.after taken, by simp [Lexeme.after, hne]⟩

/-- Two lexemes in a row. -/
theorem Splits.trans {gs rest : List Glyph} {taken : List Glyph} {l : Lexeme}
    (h : Splits gs (taken, rest)) (hrest : Splits rest l) : Splits gs (l.after taken) := by
  have hboth := hrest.after taken
  rwa [show taken ++ rest = gs from h] at hboth

theorem Splits.ite {gs : List Glyph} {c : Prop} [Decidable c] {l l' : Lexeme} (h : c → Splits gs l)
    (h' : ¬c → Splits gs l') : Splits gs (if c then l else l') := by
  by_cases hc : c
  · rw [if_pos hc]
    exact h hc
  · rw [if_neg hc]
    exact h' hc

theorem splits_nil (gs : List Glyph) : Splits gs ([], gs) := rfl

theorem splits_takeWhile (p : Glyph → Bool) (gs : List Glyph) :
    Splits gs (gs.takeWhile p, gs.dropWhile p) := List.takeWhile_append_dropWhile

theorem splits_take (n : Nat) (gs : List Glyph) : Splits gs (gs.take n, gs.drop n) :=
  List.take_append_drop n gs

/-! ### Numbers -/

theorem digitRun_splits (digit : Char → Bool) (gs : List Glyph) :
    Yields (Splits gs) (digitRun digit gs) := by
  induction gs with
  | nil => exact .some (splits_nil [])
  | cons g gs ih =>
    rw [digitRun]
    refine .ite (fun _ => ?_) fun _ => .ite (fun _ => .none) fun _ => .some (splits_nil _)
    exact ih.map fun l hl => hl.after [g]

/-- A run that begins with a digit takes it. -/
theorem digitRun_takes {digit : Char → Bool} {g : Glyph} {gs : List Glyph}
    (hg : digit g.char = true) : Yields (Takes (g :: gs)) (digitRun digit (g :: gs)) := by
  rw [digitRun, if_pos (by simp [hg])]
  exact (digitRun_splits digit gs).map fun l hl => hl.takes (List.cons_ne_nil g [])

theorem basedDigits_splits (digit : Char → Bool) (gs : List Glyph) :
    Yields (Splits gs) (basedDigits digit gs) :=
  (digitRun_splits digit gs).bind fun _ hrun => .ite (fun _ => .none) fun _ => .some hrun

theorem imaginaryTail_splits (gs : List Glyph) : Splits gs (imaginaryTail gs) := by
  cases gs with
  | nil => exact splits_nil []
  | cons g gs =>
    rw [imaginaryTail]
    split
    · rfl
    · exact splits_nil _

theorem exponentTail_splits (gs : List Glyph) : Yields (Splits gs) (exponentTail gs) := by
  cases gs with
  | nil => exact .some (splits_nil [])
  | cons e gs =>
    refine .ite (fun _ => ?_) fun _ => .some (imaginaryTail_splits _)
    cases gs with
    | nil => exact .some (splits_nil _)
    | cons sign gs =>
      refine .ite (fun _ => .ite (fun _ => ?_) fun _ => .none) fun _ => .ite (fun _ => ?_)
        fun _ => .some (splits_nil _)
      · -- a sign stands before the digits
        refine (digitRun_splits _ gs).bind fun run hrun => .some ?_
        exact (hrun.trans (imaginaryTail_splits run.2)).after [e, sign]
      · refine (digitRun_splits _ (sign :: gs)).bind fun run hrun => .some ?_
        exact (hrun.trans (imaginaryTail_splits run.2)).after [e]

theorem fractionTail_splits (gs : List Glyph) : Yields (Splits gs) (fractionTail gs) := by
  refine .ite (fun _ => ?_) fun _ => exponentTail_splits gs
  refine (digitRun_splits _ gs).bind fun run hrun => ?_
  exact (exponentTail_splits run.2).bind fun tail htail => .some (hrun.trans htail)

theorem decimalNumber_takes {g : Glyph} {gs : List Glyph} (hg : g.char.isDigit = true) :
    Yields (Takes (g :: gs)) (decimalNumber (g :: gs)) := by
  refine (digitRun_takes hg).bind fun run hrun => ?_
  obtain ⟨digits, rest⟩ := run
  obtain ⟨hrun, hne⟩ := hrun
  have hplain : Yields (Takes (g :: gs)) (do
      let tail ← exponentTail rest
      let leadingZero :=
        startsWithDigit (· = '0') digits && digits.any fun g => '1' ≤ g.char && g.char ≤ '9'
      if leadingZero && tail.1.isEmpty then none else some (digits ++ tail.1, tail.2)) := by
    refine (exponentTail_splits rest).bind fun tail htail => .ite (fun _ => .none) fun _ => .some ?_
    exact ⟨hrun.trans htail, by simp_all⟩
  cases rest with
  | nil => exact hplain
  | cons point after =>
    refine .ite (fun _ => ?_) fun _ => hplain
    refine (fractionTail_splits after).bind fun tail htail => .some ⟨?_, by simp [Lexeme.after]⟩
    have hpoint := hrun.trans (htail.after [point])
    rwa [Lexeme.after, Lexeme.after, ← List.append_assoc] at hpoint

theorem scanNumber_takes {g : Glyph} {gs : List Glyph}
    (hg : g.char.isDigit = true ∨ g.char = '.') :
    Yields (Takes (g :: gs)) (scanNumber (g :: gs)) := by
  have hdecimal : ¬g.char = '.' → ∀ gs, Yields (Takes (g :: gs)) (decimalNumber (g :: gs)) :=
    fun hpoint gs => decimalNumber_takes (hg.resolve_right hpoint)
  refine .ite (fun _ => ?_) fun hpoint => ?_
  · exact (fractionTail_splits gs).map fun l hl => hl.takes (List.cons_ne_nil g [])
  · cases gs with
    | nil => exact hdecimal hpoint []
    | cons base gs =>
      have hbased : ∀ digit, Yields (Takes (g :: base :: gs))
          ((basedDigits digit gs).map (Lexeme.after [g, base])) := fun digit =>
        (basedDigits_splits digit gs).map fun l hl => hl.takes (List.cons_ne_nil g [base])
      refine .ite (fun _ => hdecimal hpoint _) fun _ => ?_
      exact .ite (fun _ => hbased _) fun _ => .ite (fun _ => hbased _) fun _ =>
        .ite (fun _ => hbased _) fun _ => hdecimal hpoint _

/-! ### Words, strings and operators -/

theorem scanWord_takes {g : Glyph} {gs : List Glyph} (hg : isWordGlyph g = true) :
    Yields (Takes (g :: gs)) (scanWord (g :: gs)) := by
  refine .ite (fun _ => .some ⟨splits_takeWhile _ _, ?_⟩) fun _ => .none
  simp [hg]

theorem openingQuotes_takes (gs : List Glyph) : Yields (Takes gs) (openingQuotes gs) := by
  unfold openingQuotes
  split
  · refine .ite (fun _ => .ite (fun _ => .some ⟨rfl, ?_⟩) fun _ => .some ⟨rfl, ?_⟩) fun _ => .none
    · simp
    · simp
  · exact .ite (fun _ => .some ⟨rfl, by simp⟩) fun _ => .none
  · exact .none

theorem stringTail_splits (quote : Char) (triple : Bool) (gs : List Glyph) :
    Yields (Splits gs) (stringTail quote triple gs) := by
  fun_induction stringTail quote triple gs with
  | case1 => exact .none
  | case2 g _ h rest ih => exact ih.map fun l hl => hl.after [g, h]
  | case3 => exact .none
  | case4 => exact .some rfl
  | case5 g gs => exact .some (splits_take 3 (g :: gs))
  | case6 => exact .none
  | case7 g gs _ _ _ _ ih => exact ih.map fun l hl => hl.after [g]

theorem scanString_takes (gs : List Glyph) : Yields (Takes gs) (scanString gs) := by
  refine (openingQuotes_takes gs).bind fun quotes hquotes => .bind_any fun first => ?_
  refine (stringTail_splits _ _ quotes.2).bind fun tail htail => .some ⟨hquotes.1.trans htail, ?_⟩
  simp [Lexeme.after, hquotes.2]

theorem scanOperator_takes (g : Glyph) (gs : List Glyph) :
    Yields (Takes (g :: gs)) (scanOperator (g :: gs)) := by
  have htake : ∀ n, Takes (g :: gs) ((g :: gs).take (n + 1), (g :: gs).drop (n + 1)) :=
    fun n => ⟨splits_take _ _, nofun⟩
  exact .ite (fun _ => .some (htake 2)) fun _ => .ite (fun _ => .some (htake 1)) fun _ =>
    .ite (fun _ => .some (htake 0)) fun _ => .none

theorem formatText_splits (f : FormatFrame) (fuel : Nat) (named : Bool) (gs : List Glyph) :
    Splits gs (Lexer.formatText f fuel named gs) := by
  induction fuel generalizing named gs with
  | zero => exact splits_nil gs
  | succ fuel ih =>
    cases gs with
    | nil => exact splits_nil []
    | cons g gs =>
      -- every branch stops here, or takes some glyphs and goes on behind them
      have hmore : ∀ named taken rest, Splits (taken ++ rest)
          (Lexeme.after taken (Lexer.formatText f fuel named rest)) :=
        fun named taken rest => (ih named rest).after taken
      refine .ite (fun _ => .ite (fun _ => splits_nil _) fun _ => hmore _ [g] gs) fun _ =>
        .ite (fun _ => splits_nil _) fun _ => .ite (fun _ => ?_) fun _ =>
        .ite (fun _ => hmore _ [g] gs) fun _ => .ite (fun _ => ?_) fun _ => hmore _ [g] gs
      · cases gs with
        | nil => rfl
        | cons h gs =>
          refine .ite (fun _ => .ite (fun _ => hmore _ [g, h] gs) fun _ => hmore _ [g] (h :: gs))
            fun _ => .ite (fun _ => .ite (fun _ => hmore _ [g] (h :: gs)) fun _ =>
              hmore _ [g, h] gs) fun _ => ?_
          cases gs with
          | nil => exact hmore _ [g, h] []
          | cons k gs =>
            exact .ite (fun _ => hmore _ [g, h, k] gs) fun _ => hmore _ [g, h] (k :: gs)
      · cases gs with
        | nil => exact splits_nil _
        | cons h gs => exact .ite (fun _ => hmore _ [g, h] gs) fun _ => splits_nil _

/-! ## Glyphs in order -/

/-- One glyph stands before another; behind a line end all stand on later lines. -/
def Glyph.Before (g h : Glyph) : Prop :=
  g.line < h.line ∨ (g.char ≠ '\n' ∧ g.line = h.line ∧ g.column < h.column)

/-- A glyph that does not stand before a place. -/
structure Glyph.From (line column : Nat) (g : Glyph) : Prop where
  line_le : line ≤ g.line
  column_le : g.line = line → column ≤ g.column
  column_pos : 1 ≤ g.column

/-- Glyphs in order, from a place on. -/
structure GlyphsFrom (line column : Nat) (gs : List Glyph) : Prop where
  sorted : gs.Pairwise Glyph.Before
  from_place : ∀ g ∈ gs, g.From line column

namespace GlyphsFrom

variable {line column : Nat} {gs : List Glyph}

theorem newline (hcolumn : 1 ≤ column) (h : GlyphsFrom (line + 1) 1 gs) :
    GlyphsFrom line column (⟨'\n', line, column⟩ :: gs) where
  sorted := List.pairwise_cons.mpr ⟨fun g hg => .inl (h.from_place g hg).line_le, h.sorted⟩
  from_place := by
    refine List.forall_mem_cons.mpr ⟨⟨le_rfl, fun _ => le_rfl, hcolumn⟩, fun g hg => ?_⟩
    obtain ⟨hline, -, hpos⟩ := h.from_place g hg
    exact ⟨by omega, by omega, hpos⟩

theorem cons {c : Char} (hc : c ≠ '\n') (hcolumn : 1 ≤ column)
    (h : GlyphsFrom line (column + 1) gs) : GlyphsFrom line column (⟨c, line, column⟩ :: gs) where
  sorted := by
    refine List.pairwise_cons.mpr ⟨fun g hg => ?_, h.sorted⟩
    obtain ⟨hline, hcol, -⟩ := h.from_place g hg
    rcases hline.lt_or_eq with hlt | heq
    · exact .inl hlt
    · exact .inr ⟨hc, heq, hcol heq.symm⟩
  from_place := by
    refine List.forall_mem_cons.mpr ⟨⟨le_rfl, fun _ => le_rfl, hcolumn⟩, fun g hg => ?_⟩
    obtain ⟨hline, hcol, hpos⟩ := h.from_place g hg
    exact ⟨hline, fun heq => (Nat.le_succ column).trans (hcol heq), hpos⟩

end GlyphsFrom

theorem glyphsFrom_ordered (line column : Nat) (cs : List Char) (hcolumn : 1 ≤ column) :
    GlyphsFrom line column (glyphsFrom line column cs) := by
  fun_induction glyphsFrom line column cs with
  | case1 => exact ⟨.nil, nofun⟩
  | case2 line column cs ih => exact .newline hcolumn (ih le_rfl)
  | case3 line column c cs _ _ ih => exact .newline hcolumn (ih le_rfl)
  | case4 line column c cs _ hc ih => exact .cons (by simp_all) hcolumn (ih (by omega))

/-! ## The regular layout -/

/-- A position with a line and a column from 1 on. -/
def Numbered (p : Pos) : Prop := 1 ≤ (ofLex p).1 ∧ 1 ≤ (ofLex p).2

/-- Tokens in order, last first, up to a position. -/
def Stacked (V : Pos → Prop) (lo : Pos) : List Token → Pos → Prop
  | [], hi => lo ≤ hi
  | t :: ts, hi =>
    if t.isPlaced then t.Lies V t.span.start hi ∧ Stacked V lo ts t.span.start
    else Stacked V lo ts hi

theorem Stacked.mono {V : Pos → Prop} {lo hi hi' : Pos} {ts : List Token} (h : Stacked V lo ts hi)
    (hle : hi ≤ hi') : Stacked V lo ts hi' := by
  induction ts with
  | nil => exact le_trans h hle
  | cons t ts ih =>
    by_cases ht : t.isPlaced = true
    · rw [Stacked, if_pos ht] at h ⊢
      exact ⟨h.1.mono le_rfl hle, h.2⟩
    · rw [Stacked, if_neg ht] at h ⊢
      exact ih h

theorem Stacked.push {V : Pos → Prop} {lo mid hi : Pos} {t : Token} {ts : List Token}
    (h : Stacked V lo ts mid) (hplaced : t.isPlaced = true) (ht : t.Lies V mid hi) :
    Stacked V lo (t :: ts) hi := by
  obtain ⟨hwithin, hstrict⟩ := ht
  rw [Stacked, if_pos hplaced]
  exact ⟨⟨⟨hwithin.1, hwithin.2, le_rfl, hwithin.4, hwithin.5⟩, hstrict⟩, h.mono hwithin.lo_le⟩

theorem Stacked.push_mark {V : Pos → Prop} {lo hi : Pos} {t : Token} {ts : List Token}
    (h : Stacked V lo ts hi) (hplaced : ¬t.isPlaced = true) : Stacked V lo (t :: ts) hi := by
  rw [Stacked, if_neg hplaced]
  exact h

/-- Tokens that are stacked in order stand in order once they are turned over. -/
theorem Stacked.ordered {V : Pos → Prop} {lo hi : Pos} {ts rest : List Token}
    (h : Stacked V lo ts hi) (hrest : Ordered V hi rest) : Ordered V lo (ts.reverse ++ rest) := by
  induction ts generalizing hi rest with
  | nil => exact hrest.mono h
  | cons t ts ih =>
    rw [List.reverse_cons, List.append_assoc, List.singleton_append]
    by_cases ht : t.isPlaced = true
    · rw [Stacked, if_pos ht] at h
      refine ih h.2 ?_
      rw [Ordered, if_pos ht]
      have hstop := h.1.within.le_hi
      exact ⟨⟨⟨h.1.within.1, h.1.within.2, le_rfl, h.1.within.4, le_rfl⟩, h.1.strict⟩,
        hrest.mono hstop⟩
    · rw [Stacked, if_neg ht] at h
      refine ih h ?_
      rw [Ordered, if_neg ht]
      exact hrest

namespace Lexer

/-- The position of a glyph in the regular layout. -/
def posOf (l : Lexer) (g : Glyph) : Pos := toLex ((l.lineOf g : Int), (l.columnOf g : Int))

/-- The position behind a glyph. -/
def posAfter (l : Lexer) (g : Glyph) : Pos := toLex ((l.lineOf g : Int), (l.columnOf g : Int) + 1)

/-- The regular layout of a lexer has a place for a glyph. -/
def Fits (l : Lexer) (g : Glyph) : Prop :=
  1 ≤ g.column ∧ l.dropped < g.line ∧ (g.line = l.marginLine → l.written < g.column)

theorem Fits.numbered {l : Lexer} {g : Glyph} (h : l.Fits g) : Numbered (l.posOf g) := by
  obtain ⟨hcolumn, hdropped, hwritten⟩ := h
  unfold Numbered posOf lineOf columnOf
  split
  next heq =>
    have := hwritten heq
    constructor <;> simp <;> omega
  next => constructor <;> simp <;> omega

theorem Fits.numbered_after {l : Lexer} {g : Glyph} (h : l.Fits g) : Numbered (l.posAfter g) := by
  obtain ⟨hline, -⟩ := h.numbered
  refine ⟨hline, ?_⟩
  change (1 : Int) ≤ (l.columnOf g : Int) + 1
  omega

theorem posOf_lt_posAfter (l : Lexer) (g : Glyph) : l.posOf g < l.posAfter g := by
  rw [posOf, posAfter, Prod.Lex.toLex_lt_toLex]
  exact .inr ⟨rfl, Int.lt_succ _⟩

/-- The regular layout keeps the order of glyphs. -/
theorem Fits.posAfter_le {l : Lexer} {g h : Glyph} (hg : l.Fits g) (hgh : g.Before h) :
    l.posAfter g ≤ l.posOf h := by
  obtain ⟨-, hdropped, hwritten⟩ := hg
  rw [posAfter, posOf, Prod.Lex.toLex_le_toLex]
  rcases hgh with hlt | ⟨-, hline, hlt⟩
  · left
    simp only [lineOf]
    omega
  · right
    have hcolumn : l.columnOf g < l.columnOf h := by
      unfold columnOf
      rw [← hline]
      split
      next heq =>
        have := hwritten heq
        omega
      next => exact hlt
    simp only [lineOf, hline, true_and]
    omega

/-! ## The lexer between two steps -/

/-- What holds of the lexer between two steps: the glyphs that are left stand in order and behind
    all tokens. Before a line begins they stand on later lines, and no text of a formatted string
    is due. -/
structure InOrder (l : Lexer) : Prop where
  sorted : l.rest.Pairwise Glyph.Before
  fits : ∀ g ∈ l.rest, l.Fits g
  stacked : ∃ hi, Stacked Numbered (toLex (0, 0)) l.tokens hi ∧ ∀ g ∈ l.rest, hi ≤ l.posOf g ∧
    (l.atLineStart = true → (ofLex hi).1 < l.lineOf g)
  calm : l.atLineStart = true → ∀ f ∈ l.frames.head?, f.inExpression = true

namespace InOrder

variable {l : Lexer}

/-- Glyphs can be left out. -/
theorem drop (h : l.InOrder) {rest : List Glyph} (hrest : rest.Sublist l.rest) :
    { l with rest := rest }.InOrder where
  sorted := h.sorted.sublist hrest
  fits := fun g hg => h.fits g (hrest.mem hg)
  stacked := by
    obtain ⟨hi, hstacked, hafter⟩ := h.stacked
    exact ⟨hi, hstacked, fun g hg => hafter g (hrest.mem hg)⟩
  calm := h.calm

/-- Within a line, brackets and formatted strings can be opened and closed. -/
theorem reframe (h : l.InOrder) (hline : l.atLineStart = false) (brackets : List Char)
    (frames : List FormatFrame) : { l with brackets := brackets, frames := frames }.InOrder where
  sorted := h.sorted
  fits := h.fits
  stacked := h.stacked
  calm := fun hstart => absurd hstart (by simp [hline])

/-- A mark has no place. -/
theorem mark (h : l.InOrder) {kind : TokenKind} (hkind : ¬kind.isPlaced = true) :
    (l.mark kind).InOrder where
  sorted := h.sorted
  fits := h.fits
  stacked := by
    obtain ⟨hi, hstacked, hafter⟩ := h.stacked
    exact ⟨hi, hstacked.push_mark hkind, hafter⟩
  calm := h.calm

/-- The span of glyphs in order: where the first stands, and behind the last. -/
theorem exists_span (h : l.InOrder) {gs rest : List Glyph} (htakes : Takes l.rest (gs, rest)) :
    ∃ first last, first ∈ l.rest ∧ last ∈ l.rest ∧ (l.spanOf gs).start = l.posOf first ∧
      (l.spanOf gs).stop = l.posAfter last ∧ l.posOf first < l.posAfter last ∧
      ∀ g ∈ rest, last.Before g := by
  obtain ⟨hsplit, hne⟩ := htakes
  obtain ⟨first, tail, rfl⟩ := List.exists_cons_of_ne_nil hne
  change first :: tail ++ rest = l.rest at hsplit
  obtain ⟨hsorted, -, hbefore⟩ := List.pairwise_append.mp (hsplit ▸ h.sorted)
  obtain ⟨last, hlast⟩ := Option.isSome_iff_exists.mp (List.getLast?_isSome.mpr hne)
  have hmem := List.mem_of_getLast? hlast
  have hin : ∀ g ∈ first :: tail, g ∈ l.rest := fun g hg =>
    hsplit ▸ List.mem_append_left rest hg
  have hspan : l.spanOf (first :: tail) =
      ⟨l.lineOf first, l.columnOf first, l.lineOf last, l.columnOf last + 1⟩ := by
    simp [spanOf, hlast]
  refine ⟨first, last, hin first List.mem_cons_self, hin last hmem, ?_, ?_, ?_, ?_⟩
  · rw [hspan]
    rfl
  · rw [hspan]
    rfl
  · rcases List.mem_cons.mp hmem with rfl | hmem
    · exact l.posOf_lt_posAfter last
    · have hle := (h.fits first (hin first List.mem_cons_self)).posAfter_le
        ((List.pairwise_cons.mp hsorted).1 last hmem)
      exact (l.posOf_lt_posAfter first).trans (hle.trans_lt (l.posOf_lt_posAfter last))
  · exact fun g hg => hbefore last (List.mem_of_getLast? hlast) g hg

/-- A token made of the glyphs in front. -/
theorem emit (h : l.InOrder) (hline : l.atLineStart = false) {kind : TokenKind}
    (hkind : kind.isPlaced = true) {gs rest : List Glyph} (htakes : Takes l.rest (gs, rest)) :
    (l.emit kind gs rest).InOrder := by
  obtain ⟨first, last, hfirst, hlast, hstart, hstop, hlt, hrest⟩ := h.exists_span htakes
  have hsub : rest.Sublist l.rest := htakes.1 ▸ List.sublist_append_right gs rest
  have hnotStart : (l.emit kind gs rest).atLineStart ≠ true := by simp [Lexer.emit, hline]
  refine ⟨h.sorted.sublist hsub, fun g hg => h.fits g (hsub.mem hg), ?_,
    fun h => absurd h hnotStart⟩
  obtain ⟨hi, hstacked, hafter⟩ := h.stacked
  have hwithin : (l.spanOf gs).Within Numbered hi (l.posAfter last) :=
    ⟨hstart ▸ (h.fits first hfirst).numbered, hstop ▸ (h.fits last hlast).numbered_after,
      hstart ▸ (hafter first hfirst).1, hstart ▸ hstop ▸ hlt.le, hstop.le⟩
  refine ⟨l.posAfter last, hstacked.push hkind ⟨hwithin, hstart ▸ hstop ▸ hlt⟩, fun g hg => ?_⟩
  exact ⟨(h.fits last hlast).posAfter_le (hrest g hg), fun h => absurd h hnotStart⟩

/-- Within a line, nothing changes but what is left. -/
theorem ofLine (h : l.InOrder) (brackets : List Char) (comments : List (Int × String)) :
    { l with atLineStart := false, brackets := brackets, comments := comments }.InOrder where
  sorted := h.sorted
  fits := h.fits
  stacked := by
    obtain ⟨hi, hstacked, hafter⟩ := h.stacked
    exact ⟨hi, hstacked, fun g hg => ⟨(hafter g hg).1, nofun⟩⟩
  calm := nofun

theorem skipComment (h : l.InOrder) : l.skipComment.InOrder := by
  unfold Lexer.skipComment
  split
  next g gs heq =>
    have hdrop := h.drop (List.dropWhile_sublist (l := l.rest) fun h => h.char != '\n')
    exact ⟨hdrop.sorted, hdrop.fits, hdrop.stacked, hdrop.calm⟩
  next => exact h

theorem updateFrame (h : l.InOrder) (hline : l.atLineStart = false)
    (change : FormatFrame → FormatFrame) : (l.updateFrame change).InOrder := by
  unfold Lexer.updateFrame
  split
  next f outer heq => exact h.reframe hline l.brackets (change f :: outer)
  next => exact h

end InOrder

variable {l : Lexer}

theorem atLineStart_updateFrame (l : Lexer) (change : FormatFrame → FormatFrame) :
    (l.updateFrame change).atLineStart = l.atLineStart := by
  unfold updateFrame
  split <;> rfl

/-! ### Tokens -/

theorem openFormat_inOrder (h : l.InOrder) (hline : l.atLineStart = false)
    {letters rest : List Glyph} (htakes : Takes l.rest (letters, rest)) :
    Yields InOrder (l.openFormat letters rest) := by
  refine (openingQuotes_takes rest).bind fun quotes hquotes => .bind_any fun first => .some ?_
  have hopening : Takes l.rest (letters ++ quotes.1, quotes.2) :=
    ⟨htakes.1.trans hquotes.1, by simp [htakes.2]⟩
  exact (h.emit hline rfl hopening).reframe hline l.brackets _

theorem wordOrString_inOrder (h : l.InOrder) (hline : l.atLineStart = false) {g : Glyph}
    {gs : List Glyph} (hrest : l.rest = g :: gs) (hg : isWordGlyph g = true) :
    Yields InOrder l.wordOrString := by
  have hletters : Takes l.rest (l.rest.takeWhile isWordGlyph, l.rest.dropWhile isWordGlyph) :=
    ⟨splits_takeWhile _ _, by simp [hrest, hg]⟩
  refine .ite (fun _ => openFormat_inOrder h hline hletters) fun _ => .ite (fun _ => ?_) fun _ => ?_
  · refine (scanString_takes _).bind fun body hbody => .some (h.emit hline rfl ?_)
    exact ⟨hletters.1.trans hbody.1, by simp [hletters.2]⟩
  · have hword : Yields (Takes l.rest) (scanWord l.rest) := hrest ▸ scanWord_takes hg
    exact hword.bind fun word hword => .some (h.emit hline rfl hword)

theorem operator_inOrder (h : l.InOrder) (hline : l.atLineStart = false) {g : Glyph}
    {gs : List Glyph} (hrest : l.rest = g :: gs) : Yields InOrder (l.operator g gs) := by
  refine .ite (fun _ => .some ?_) fun _ => ?_
  · -- the colon before a format is one token by itself
    have hcolon : Takes l.rest ([g], gs) := ⟨hrest.symm, List.cons_ne_nil g []⟩
    exact (h.emit hline rfl hcolon).updateFrame hline _
  · refine (scanOperator_takes g gs).bind fun text htext => ?_
    have hemit : (l.emit .operator text.1 text.2).InOrder := h.emit hline rfl (hrest ▸ htext)
    refine .ite (fun _ => .some ?_) fun _ => .ite (fun _ => ?_) fun _ => .some hemit
    · -- an opening bracket, which the formatted string around it counts too
      have hopened := hemit.updateFrame hline FormatFrame.opened
      exact hopened.reframe ((atLineStart_updateFrame _ _).trans hline) _ _
    · -- a closing bracket, which has to match the last one opened
      have hclosed := hemit.updateFrame hline FormatFrame.closed
      unfold closeBracket
      split
      · refine .ite (fun _ => .some ?_) fun _ => .none
        exact hclosed.reframe ((atLineStart_updateFrame _ _).trans hline) _ _
      · exact .none

/-- Behind a line end, all glyphs stand on later lines than the tokens so far. -/
theorem newline_inOrder (h : l.InOrder) {g : Glyph} {gs : List Glyph} (hrest : l.rest = g :: gs)
    (hg : g.char = '\n') (hcalm : ∀ f ∈ l.frames.head?, f.inExpression = true) :
    { l with rest := gs, atLineStart := true }.InOrder := by
  have hsub : gs.Sublist l.rest := hrest ▸ List.sublist_cons_self g gs
  have hdrop := h.drop hsub
  refine ⟨hdrop.sorted, hdrop.fits, ?_, fun _ => hcalm⟩
  obtain ⟨hi, hstacked, hafter⟩ := h.stacked
  refine ⟨hi, hstacked, fun g' hg' => ⟨(hafter g' (by simp [hrest, hg'])).1, fun _ => ?_⟩⟩
  have hle := (hafter g (by simp [hrest])).1
  have hfits := (h.fits g (by simp [hrest])).2.1
  have hline : g.line < g'.line := by
    rcases (List.pairwise_cons.mp (hrest ▸ h.sorted)).1 g' hg' with hlt | hsame
    · exact hlt
    · exact absurd hg hsame.1
  have hhi : (ofLex hi).1 ≤ (l.lineOf g : Int) := by
    rcases Prod.Lex.le_iff.mp hle with hlt | heq
    · exact hlt.le
    · exact heq.1.le
  change (ofLex hi).1 < ((g'.line - l.dropped : Nat) : Int)
  unfold lineOf at hhi
  omega

theorem token_inOrder (h : l.InOrder) (hline : l.atLineStart = false) {g : Glyph} {gs : List Glyph}
    (hrest : l.rest = g :: gs)
    (hcalm : g.char = '\n' → ∀ f ∈ l.frames.head?, f.inExpression = true) :
    Yields InOrder (l.token g gs) := by
  refine .ite (fun _ => .some h.skipComment) fun _ => .ite (fun hg => .some ?_) fun _ =>
    .ite (fun _ => ?_) fun _ => .ite (fun hword => ?_) fun _ => .ite (fun hnumber => ?_) fun _ =>
    .ite (fun _ => ?_) fun _ => operator_inOrder h hline hrest
  · -- a line end; within brackets it gives no token
    have hnext := newline_inOrder h hrest hg (hcalm hg)
    split
    · exact hnext.mark nofun
    · exact hnext
  · cases gs with
    | nil => exact .none
    | cons g' gs =>
      refine .ite (fun _ => .some (h.drop ?_)) fun _ => .none
      rw [hrest]
      exact (List.sublist_cons_self g' gs).cons g
  · -- a word, or a string with letters in front
    have hg : isWordGlyph g = true := by
      unfold beginsWord at hword
      simp_all
    exact wordOrString_inOrder h hline hrest hg
  · -- a number
    have hg : g.char.isDigit = true ∨ g.char = '.' := by
      simp only [Bool.or_eq_true, Bool.and_eq_true, decide_eq_true_eq] at hnumber
      exact hnumber.imp_right And.left
    exact (scanNumber_takes hg).bind fun number hnumber =>
      .some (h.emit hline rfl (hrest ▸ hnumber))
  · exact (scanString_takes _).bind fun text htext => .some (h.emit hline rfl (hrest ▸ htext))

/-! ### Formatted strings -/

/-- Where text is due, blanks are text, and so are line ends between three quotes. -/
theorem formatText_ne_nil {f : FormatFrame} {g : Glyph} {gs : List Glyph} {fuel : Nat}
    (hg : isGap g.char = true ∨ (g.char = '\n' ∧ f.triple = true)) :
    (formatText f (fuel + 1) false (g :: gs)).1 ≠ [] := by
  have hcode : g.char.toNat ∈ [32, 9, 12, 10] := by
    rcases hg with hg | ⟨hg, -⟩
    · simp only [isGap, Bool.or_eq_true, decide_eq_true_eq] at hg
      rcases hg with (hg | hg) | hg <;> simp [hg]
    · simp [hg]
  have hne : ∀ d : Char, d.toNat ∉ [32, 9, 12, 10] → g.char ≠ d := fun d hd heq =>
    hd (heq ▸ hcode)
  have hquote : isQuote g.char = false := by
    simp [isQuote, hne '\'' (by decide), hne '"' (by decide)]
  have hnewline : ¬(g.char = '\n' ∧ f.triple = false) := by
    rintro ⟨heq, htriple⟩
    rcases hg with hg | hg
    · rw [heq] at hg
      cases hg
    · simp [htriple] at hg
  have hbackslash := hne '\\' (by decide)
  have hopening := hne '\x7b' (by decide)
  have hclosing := hne '\x7d' (by decide)
  unfold formatText
  simp [hquote, hnewline, hbackslash, hopening, hclosing, Lexeme.after]

theorem formatPart_inOrder (h : l.InOrder) : Yields InOrder l.formatPart? := by
  unfold formatPart?
  split
  next => exact .none
  next f outer hframes =>
    refine .ite (fun _ => .none) fun hexpression => ?_
    have hline : l.atLineStart = false := by
      by_contra hstart
      exact hexpression (h.calm (by simpa using hstart) f (by simp [hframes]))
    refine .ite (fun htext => .some ?_) fun _ => .ite (fun hends => .some ?_) fun _ => .none
    · -- a stretch of text
      exact h.emit hline rfl ⟨formatText_splits _ _ _ _, by simpa using htext⟩
    · -- the closing quotes
      have hquotes : Takes l.rest (l.rest.take (if f.triple then 3 else 1),
          l.rest.drop (if f.triple then 3 else 1)) := by
        refine ⟨splits_take _ _, ?_⟩
        cases hrest : l.rest with
        | nil =>
          rw [hrest] at hends
          cases hends
        | cons g gs => split <;> exact nofun
      exact (h.emit hline rfl hquotes).reframe hline l.brackets outer

/-- Where no part of a formatted string comes next and the script goes on with a line end, the
    line end stands in an expression. -/
theorem calm_of_newline {g : Glyph} {gs : List Glyph} (hpart : l.formatPart? = none)
    (hbroken : ¬l.brokenFormat = true) (hrest : (l.rest.dropWhile fun g => isGap g.char) = g :: gs)
    (hg : g.char = '\n') : ∀ f ∈ l.frames.head?, f.inExpression = true := by
  intro f hf
  by_contra hexpression
  obtain ⟨outer, hframes⟩ : ∃ outer, l.frames = f :: outer := List.head?_eq_some_iff.mp hf
  have hempty : (formatText f l.rest.length false l.rest).1 = [] := by
    by_contra hne
    simp [formatPart?, hframes, hexpression, hne] at hpart
  cases hall : l.rest with
  | nil =>
    rw [hall] at hrest
    cases hrest
  | cons c cs =>
    rw [hall] at hempty hrest
    have hgap : ¬isGap c.char = true := fun hgap => formatText_ne_nil (.inl hgap) hempty
    have hhead : (c :: cs).dropWhile (fun g => isGap g.char) = c :: cs :=
      List.dropWhile_cons_of_neg hgap
    rw [hhead] at hrest
    cases hrest
    have htriple : ¬f.triple = true := fun htriple =>
      formatText_ne_nil (.inr ⟨hg, htriple⟩) hempty
    exact hbroken (by simp [brokenFormat, hframes, hall, hexpression, htriple, hg])

/-! ### Lines -/

theorem closeLevels_inOrder (width : Nat) (levels : List Level) (h : l.InOrder) :
    (closeLevels width levels l).InOrder ∧
      (closeLevels width levels l).atLineStart = l.atLineStart := by
  induction levels generalizing l with
  | nil => exact ⟨h, rfl⟩
  | cons level levels ih =>
    rw [closeLevels]
    split
    · have hclosed : { l.mark .dedent with levels := levels }.InOrder := by
        have hmark : (l.mark .dedent).InOrder := h.mark nofun
        exact ⟨hmark.sorted, hmark.fits, hmark.stacked, hmark.calm⟩
      exact ih hclosed
    · exact ⟨h, rfl⟩

theorem indentTo_inOrder (h : l.InOrder) (blank : List Char) :
    Yields (fun next => next.InOrder ∧ next.atLineStart = l.atLineStart) (l.indentTo blank) := by
  refine .ite (fun _ => .ite (fun _ => .some ⟨h, rfl⟩) fun _ => .none) fun _ => .ite (fun _ => ?_)
    fun _ => ?_
  · refine .ite (fun _ => .some ⟨?_, rfl⟩) fun _ => .none
    have hmark : (l.mark .indent).InOrder := h.mark nofun
    exact ⟨hmark.sorted, hmark.fits, hmark.stacked, hmark.calm⟩
  · exact .ite (fun _ => .some (closeLevels_inOrder _ _ h)) fun _ => .none

/-- On a later line, columns do not matter. -/
theorem le_posOf_of_line {hi : Pos} {g : Glyph} (h : (ofLex hi).1 < l.lineOf g) : hi ≤ l.posOf g :=
  Prod.Lex.le_iff.mpr (.inl h)

/-- The margin of a line can be set as long as no token stands on it. -/
theorem setMargin_inOrder (h : l.InOrder) (hline : l.atLineStart = true) : l.setMargin.InOrder := by
  unfold setMargin
  split
  next g gs hrest =>
    refine ⟨h.sorted, fun g' hg' => ?_, ?_, nofun⟩
    · obtain ⟨hpos, hdropped, -⟩ := h.fits g' hg'
      refine ⟨hpos, hdropped, fun hsame => ?_⟩
      change g.column - 1 < g'.column
      rw [hrest] at hg'
      rcases List.mem_cons.mp hg' with rfl | hg'
      · omega
      · rcases (List.pairwise_cons.mp (hrest ▸ h.sorted)).1 g' hg' with hlt | ⟨-, -, hlt⟩
        · exact absurd hsame hlt.ne'
        · omega
    · obtain ⟨hi, hstacked, hafter⟩ := h.stacked
      exact ⟨hi, hstacked, fun g' hg' => ⟨le_posOf_of_line ((hafter g' hg').2 hline), nofun⟩⟩
  next => exact h

/-- A line can be left out of the layout as long as all tokens stand before it. -/
theorem dropLine_inOrder (h : l.InOrder) (hline : l.atLineStart = true) {g g' : Glyph}
    {gs rest : List Glyph} (hrest : l.rest = g :: g' :: gs) (hg' : g'.char = '\n')
    (hsub : rest.Sublist gs) : { l with rest := rest, dropped := l.dropped + 1 }.InOrder := by
  have hlater : ∀ k ∈ rest, g.line + 1 ≤ k.line := by
    intro k hk
    obtain ⟨hfirst, hsecond⟩ := List.pairwise_cons.mp (hrest ▸ h.sorted)
    have hle : g.line ≤ g'.line := by
      rcases hfirst g' List.mem_cons_self with hlt | hsame
      · exact hlt.le
      · exact hsame.2.1.le
    rcases (List.pairwise_cons.mp hsecond).1 k (hsub.mem hk) with hlt | hsame
    · omega
    · exact absurd hg' hsame.1
  have hmem : ∀ k ∈ rest, k ∈ l.rest := fun k hk => by simp [hrest, hsub.mem hk]
  have hsublist : rest.Sublist l.rest := hrest ▸ (hsub.cons g').cons g
  have hfits := (h.fits g (by simp [hrest])).2.1
  refine ⟨h.sorted.sublist hsublist, fun k hk => ?_, ?_, h.calm⟩
  · obtain ⟨hpos, -, hwritten⟩ := h.fits k (hmem k hk)
    have hlt := hlater k hk
    exact ⟨hpos, (by change l.dropped + 1 < k.line; omega), hwritten⟩
  · obtain ⟨hi, hstacked, hafter⟩ := h.stacked
    refine ⟨hi, hstacked, fun k hk => ?_⟩
    have hhi : (ofLex hi).1 < ((k.line - (l.dropped + 1) : Nat) : Int) := by
      have hlt := hlater k hk
      have hhi := (hafter g (by simp [hrest])).2 hline
      unfold lineOf at hhi
      omega
    exact ⟨le_posOf_of_line hhi, fun _ => hhi⟩

theorem beginLine_inOrder (h : l.InOrder) (hline : l.atLineStart = true) :
    Yields InOrder l.beginLine := by
  have hdrop := h.drop (List.dropWhile_sublist (l := l.rest) fun g => isGap g.char)
  unfold beginLine
  simp only
  split
  next => exact .some hdrop
  next g gs hrest =>
    refine .ite (fun _ => .some ?_) fun _ => .ite (fun _ => .some hdrop.skipComment) fun _ =>
      .ite (fun _ => .some (hdrop.ofLine _ _)) fun _ => .ite (fun _ => ?_) fun _ => ?_
    · -- an empty line
      exact hdrop.drop (hrest ▸ List.sublist_cons_self g gs)
    · -- a line that is joined to the next before it holds a token
      cases gs with
      | nil => exact .none
      | cons g' gs =>
        refine .ite (fun _ => .none) fun hcontinued => ?_
        have hg' : g'.char = '\n' := by simp_all
        have hgap := List.dropWhile_sublist (l := gs) fun g => isGap g.char
        refine .ite (fun _ => .some ?_) fun _ => .some ?_
        · exact hdrop.drop (hrest ▸ (hgap.cons g').cons g)
        · exact setMargin_inOrder (dropLine_inOrder hdrop hline hrest hg' hgap) hline
    · -- the first token of a logical line sets the margin
      refine (indentTo_inOrder hdrop _).map fun next hnext => ?_
      exact setMargin_inOrder hnext.1 (hnext.2.trans hline)

/-! ## Whole scripts -/

/-- A step of the lexer keeps glyphs and tokens in order. -/
theorem step_inOrder (h : l.InOrder) : Yields InOrder l.step := by
  unfold step
  split
  next next hpart => exact .some (formatPart_inOrder h next hpart)
  next hpart =>
    refine .ite (fun _ => .none) fun hbroken => .ite (fun hline => beginLine_inOrder h hline)
      fun hline => ?_
    split
    next => exact .some (h.drop (List.nil_sublist _))
    next g gs hrest =>
      have hsub : (g :: gs).Sublist l.rest :=
        hrest ▸ List.dropWhile_sublist (l := l.rest) fun g => isGap g.char
      have hcalm : g.char = '\n' → ∀ f ∈ l.frames.head?, f.inExpression = true := fun hg =>
        calm_of_newline hpart hbroken hrest hg
      exact token_inOrder (h.drop hsub) (by simpa using hline) rfl hcalm

theorem run_inOrder (fuel : Nat) (h : l.InOrder) : Yields InOrder (run fuel l) := by
  induction fuel generalizing l with
  | zero => exact .ite (fun _ => .some h) fun _ => .none
  | succ fuel ih =>
    exact .ite (fun _ => .some h) fun _ => (step_inOrder h).bind fun next hnext => ih hnext

theorem finish_inOrder (h : l.InOrder) : l.finish.InOrder := by
  unfold finish
  refine (closeLevels_inOrder _ _ ?_).1
  split
  · exact h
  · exact h.mark nofun

theorem inOrder_start (code : String) : InOrder { rest := glyphsOf code } := by
  have hglyphs : GlyphsFrom 1 1 (glyphsOf code) := glyphsFrom_ordered 1 1 _ le_rfl
  refine ⟨hglyphs.sorted, fun g hg => ?_, ⟨toLex (0, 0), le_rfl, fun g hg => ?_⟩, nofun⟩
  · obtain ⟨hline, -, hcolumn⟩ := hglyphs.from_place g hg
    refine ⟨hcolumn, hline, fun hmargin => ?_⟩
    change g.line = 0 at hmargin
    omega
  · have hline : (0 : Int) < ((g.line - 0 : Nat) : Int) := by
      have := (hglyphs.from_place g hg).line_le
      omega
    exact ⟨le_posOf_of_line hline, fun _ => hline⟩

end Lexer

/-- The tokens of a script stand in order, at lines and columns from 1 on. -/
theorem lex_ordered {code : String} {lexed : Lexed} (h : lex code = some lexed) :
    Ordered Numbered (toLex (0, 0)) lexed.tokens := by
  unfold lex at h
  obtain ⟨l, hl, rfl⟩ := Option.map_eq_some_iff.mp h
  obtain ⟨last, hlast, rfl⟩ := Option.map_eq_some_iff.mp hl
  have horder := Lexer.finish_inOrder (Lexer.run_inOrder _ (Lexer.inOrder_start code) last hlast)
  obtain ⟨hi, hstacked, -⟩ := horder.stacked
  have hnil : Ordered Numbered hi [] := trivial
  have hordered := hstacked.ordered hnil
  rwa [List.append_nil] at hordered

/-- The pieces of a script stand in their place, at lines and columns from 1 on. -/
theorem parse_located {code : String} {source : Source} (h : parse code = some source) :
    ∃ hi, Located Numbered (toLex (0, 0)) hi source.outline := by
  obtain ⟨lexed, hlexed, h⟩ := Option.bind_eq_some_iff.mp h
  obtain ⟨body, hbody, h⟩ := Option.bind_eq_some_iff.mp h
  cases h
  exact parseTokens_located (lex_ordered hlexed) hbody

end Framewise.Script
