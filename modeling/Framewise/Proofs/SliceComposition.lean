import Framewise.Proofs.ScriptRows

/-! # Slices laid end to end

  The positions of a text are ordered by line and column, and each stands before some
  number of its characters. The end of a line and the start of the next stand before the
  same number; otherwise the numbers grow with the positions. So slices between
  neighbouring positions make up the slice between the outer ones.

  Main definition: `Span.between`, the span from one position to another.

  Main results: `SourceText.offset_mono`, `SourceText.stretch_append`,
  `SourceText.slices_compose`.
-/

namespace Framewise

/-- The span from one position to another. -/
def Span.between (p q : Pos) : Span := ⟨(ofLex p).1, (ofLex p).2, (ofLex q).1, (ofLex q).2⟩

namespace SourceText

variable {source : SourceText} {p q r : Pos}

/-! ## Offsets -/

/-- A position of the text stands as many characters into its line as its column says. -/
theorem Has.offset_eq (h : source.Has p) :
    source.offset p = (source.lines.take ((ofLex p).1 - 1).toNat).flatten.length +
      ((ofLex p).2 - 1).toNat := by
  have hcolumn := h.column_le
  unfold offset
  omega

/-- The lines up to that of a position, its own included. -/
theorem Has.offset_le (h : source.Has p) :
    source.offset p ≤ (source.lines.take (ofLex p).1.toNat).flatten.length := by
  have hpos := h.line_pos
  have hline := h.line_le
  have hnext : (ofLex p).1.toNat = ((ofLex p).1 - 1).toNat + 1 := by omega
  have hlt : ((ofLex p).1 - 1).toNat < source.lines.length := by omega
  have hown : source.lines.getD ((ofLex p).1 - 1).toNat [] =
      source.lines[((ofLex p).1 - 1).toNat] := by
    rw [List.getD_eq_getElem?_getD, List.getElem?_eq_getElem hlt, Option.getD_some]
  rw [hnext, List.take_succ_eq_append_getElem hlt, ← hown, List.flatten_append, List.length_append]
  unfold offset
  simp

/-- More lines hold more characters. -/
theorem length_take_mono {i j : Nat} (h : i ≤ j) :
    (source.lines.take i).flatten.length ≤ (source.lines.take j).flatten.length := by
  have hprefix : source.lines.take i <+: source.lines.take j := List.take_prefix_take_left h
  obtain ⟨more, hmore⟩ := hprefix
  rw [← hmore, List.flatten_append, List.length_append]
  exact Nat.le_add_right _ _

theorem Has.offset_le_length (h : source.Has p) : source.offset p ≤ source.chars.length := by
  refine h.offset_le.trans ?_
  have hall : (source.lines.take (ofLex p).1.toNat).flatten.length ≤
      (source.lines.take (max (ofLex p).1.toNat source.lines.length)).flatten.length :=
    length_take_mono (le_max_left _ _)
  rwa [List.take_of_length_le (le_max_right _ _)] at hall

/-- Later positions stand before no fewer characters. -/
theorem offset_mono (hp : source.Has p) (hq : source.Has q) (hpq : p ≤ q) :
    source.offset p ≤ source.offset q := by
  rcases Prod.Lex.le_iff.mp hpq with hline | ⟨hline, hcolumn⟩
  · -- the line of the first position lies in front of that of the second
    have hpos := hp.line_pos
    calc source.offset p ≤ (source.lines.take (ofLex p).1.toNat).flatten.length := hp.offset_le
      _ ≤ (source.lines.take ((ofLex q).1 - 1).toNat).flatten.length :=
        length_take_mono (by omega)
      _ ≤ source.offset q := Nat.le_add_right _ _
  · rw [hp.offset_eq, hq.offset_eq, hline]
    omega

/-! ## Stretches -/

/-- Two stretches that meet at a position make up one. -/
theorem stretch_append (hp : source.Has p) (hpq : source.offset p ≤ source.offset q)
    (hqr : source.offset q ≤ source.offset r) :
    source.stretch p q ++ source.stretch q r = source.stretch p r := by
  have hsplit : source.chars.take (source.offset r) =
      source.chars.take (source.offset q) ++ source.stretch q r := by
    have htake := List.take_append_drop (source.offset q) (source.chars.take (source.offset r))
    rwa [List.take_take, Nat.min_eq_left hqr, eq_comm] at htake
  have hlength : source.offset p ≤ (source.chars.take (source.offset q)).length := by
    rw [List.length_take]
    exact le_min hpq hp.offset_le_length
  show _ = (source.chars.take (source.offset r)).drop (source.offset p)
  rw [hsplit, List.drop_append_of_le_length hlength]
  rfl

/-- Between two positions of the text a slice is the stretch from one to the other. -/
theorem slice_between (hp : source.Has p) (hq : source.Has q) (hpq : p ≤ q) :
    source.slice (.between p q) = some (String.ofList (source.stretch p q)) := by
  have hlines : (ofLex p).1 ≤ (ofLex q).1 := Prod.Lex.monotone_fst _ _ hpq
  have hchars : source.sliceChars (.between p q) = some (source.stretch p q) :=
    sliceChars_eq hp.line_pos hlines hq.line_le hp.column_pos hq.column_pos
  exact congrArg (Option.map String.ofList) hchars

/-- A slice is missing just if its lines are not lines of the text in order. -/
theorem slice_eq_none_iff {span : Span} :
    source.slice span = none ↔
      span.startLine < 1 ∨ source.lines.length < span.endLine ∨ span.endLine < span.startLine := by
  unfold slice sliceChars
  simp only [Option.map_eq_none_iff, Bool.or_eq_true, decide_eq_true_eq]
  split_ifs with houtside
  · simpa [or_assoc] using houtside
  · simpa [or_assoc] using houtside
  · simpa [or_assoc] using houtside

/-! ## The first and the last position -/

/-- The start of the text. -/
def firstPos : Pos := toLex (1, 1)

/-- The end of the last line. -/
def lastPos (source : SourceText) : Pos :=
  toLex (source.lines.length, (source.lines.getD (source.lines.length - 1) []).length + 1)

theorem has_firstPos (h : source.lines ≠ []) : source.Has firstPos := by
  have hpos := List.length_pos_iff.mpr h
  refine ⟨le_rfl, ?_, le_rfl, ?_⟩ <;> simp only [firstPos, ofLex_toLex] <;> omega

theorem has_lastPos (h : source.lines ≠ []) : source.Has source.lastPos := by
  have hpos := List.length_pos_iff.mpr h
  have hindex : ((source.lines.length : Int) - 1).toNat = source.lines.length - 1 := by omega
  refine ⟨?_, le_rfl, ?_, ?_⟩ <;> simp only [lastPos, ofLex_toLex]
  · omega
  · omega
  · rw [hindex]

theorem firstPos_le (h : source.Has p) : firstPos ≤ p := by
  have hline := h.line_pos
  have hcolumn := h.column_pos
  rw [Prod.Lex.le_iff]
  simp only [firstPos, ofLex_toLex]
  omega

theorem le_lastPos (h : source.Has p) : p ≤ source.lastPos := by
  have hline := h.line_le
  have hcolumn := h.column_le
  rw [Prod.Lex.le_iff]
  simp only [lastPos, ofLex_toLex]
  rcases hline.lt_or_eq with hlt | heq
  · exact .inl hlt
  · have hindex : ((ofLex p).1 - 1).toNat = source.lines.length - 1 := by omega
    rw [hindex] at hcolumn
    exact .inr ⟨heq, hcolumn⟩

/-- Between its first and its last position lies the whole text. -/
theorem stretch_whole (h : source.lines ≠ []) :
    source.stretch firstPos source.lastPos = source.chars := by
  have hpos := List.length_pos_iff.mpr h
  have hfirst : source.offset firstPos = 0 := by simp [offset, firstPos]
  have hlast : source.offset source.lastPos = source.chars.length := by
    have hindex : ((source.lines.length : Int) - 1).toNat = source.lines.length - 1 := by omega
    have hlt : source.lines.length - 1 < source.lines.length := by omega
    have hsplit := congrArg (List.length ∘ List.flatten) (lines_split hlt)
    have hnone : source.lines.drop (source.lines.length - 1 + 1) = [] :=
      List.drop_eq_nil_of_le (by omega)
    rw [hnone] at hsplit
    simp only [Function.comp, List.flatten_append, List.flatten_cons, List.flatten_nil,
      List.append_nil, List.length_append] at hsplit
    rw [(has_lastPos h).offset_eq, chars, hsplit]
    simp [lastPos, hindex]
  rw [stretch, hfirst, hlast]
  simp

/-! ## Composition -/

/-- Slices of a text between its positions are the stretches between their offsets, so they compose;
    from the first position to the last it is the whole text. A slice is missing just if its lines
    are not lines of the text in order. -/
theorem slices_compose (code : String) :
    (∀ p q r, (ofString code).Has p → (ofString code).Has q → (ofString code).Has r →
      p ≤ q → q ≤ r → ∃ before after, (ofString code).slice (.between p q) = some before ∧
        (ofString code).slice (.between q r) = some after ∧
        (ofString code).slice (.between p r) = some (before ++ after)) ∧
    (code ≠ "" → ∃ first last, (ofString code).Has first ∧ (ofString code).Has last ∧
      (∀ p, (ofString code).Has p → first ≤ p ∧ p ≤ last) ∧
      (ofString code).slice (.between first last) = some code) ∧
    (∀ p q, (ofString code).Has p → (ofString code).Has q → p ≤ q →
      ∃ i j, i ≤ j ∧ j ≤ code.toList.length ∧
        i = ((ofString code).lines.take ((ofLex p).1 - 1).toNat).flatten.length +
          ((ofLex p).2 - 1).toNat ∧
        j = ((ofString code).lines.take ((ofLex q).1 - 1).toNat).flatten.length +
          ((ofLex q).2 - 1).toNat ∧
        (ofString code).slice (.between p q) =
          some (String.ofList ((code.toList.drop i).take (j - i)))) ∧
    ∀ span, (ofString code).slice span = none ↔
      span.startLine < 1 ∨ (ofString code).lines.length < span.endLine ∨
        span.endLine < span.startLine := by
  have hchars := Script.chars_ofString code
  refine ⟨fun p q r hp hq hr hpq hqr => ?_, fun hne => ?_, fun p q hp hq hpq => ?_,
    fun span => slice_eq_none_iff⟩
  · refine ⟨_, _, slice_between hp hq hpq, slice_between hq hr hqr, ?_⟩
    rw [slice_between hp hr (hpq.trans hqr),
      ← stretch_append hp (offset_mono hp hq hpq) (offset_mono hq hr hqr), String.ofList_append]
  · have hlines : (ofString code).lines ≠ [] := by
      intro hnil
      refine hne (String.toList_inj.mp ?_)
      rw [← hchars, chars, hnil]
      rfl
    have hfirst := has_firstPos hlines
    have hlast := has_lastPos hlines
    refine ⟨firstPos, _, hfirst, hlast, fun p hp => ⟨firstPos_le hp, le_lastPos hp⟩, ?_⟩
    rw [slice_between hfirst hlast (le_lastPos hfirst), stretch_whole hlines, hchars,
      String.ofList_toList]
  · refine ⟨_, _, offset_mono hp hq hpq, hchars ▸ hq.offset_le_length, hp.offset_eq, hq.offset_eq, ?_⟩
    rw [slice_between hp hq hpq, ← hchars, ← List.drop_take]
    rfl

/-- A text of three lines. -/
def threeLines : String := "ab\r\nc\n\x0bd"

/-- The slices of two pairs of positions, the second of which begins at the end of a line. -/
theorem threeLines_sliced :
    (ofString threeLines).slice ⟨1, 2, 3, 1⟩ = some "b\r\nc\n" ∧
      ∃ before after, (ofString threeLines).slice ⟨1, 2, 1, 5⟩ = some before ∧
        (ofString threeLines).slice ⟨1, 5, 3, 1⟩ = some after ∧
        (ofString threeLines).slice ⟨1, 2, 3, 1⟩ = some (before ++ after) := by
  have hhas : (ofString threeLines).Has (toLex (1, 2)) ∧ (ofString threeLines).Has (toLex (1, 5)) ∧
      (ofString threeLines).Has (toLex (3, 1)) := by
    refine ⟨⟨?_, ?_, ?_, ?_⟩, ⟨?_, ?_, ?_, ?_⟩, ⟨?_, ?_, ?_, ?_⟩⟩ <;> decide
  refine ⟨by decide, ?_⟩
  exact (slices_compose threeLines).1 (toLex (1, 2)) (toLex (1, 5)) (toLex (3, 1)) hhas.1 hhas.2.1
    hhas.2.2 (by decide) (by decide)

end SourceText

end Framewise
