import Framewise.Proofs.Outline
import Framewise.Source.SourceText

/-! # Slices of a text

  A span picks its characters line by line. Laid end to end, the lines are the text
  itself, and every position stands before some number of its characters; so what a
  span picks is the stretch of the text between two such numbers.

  Main definition: `SourceText.offset`, the characters in front of a position.

  Main result: `SourceText.sliceChars_eq`.
-/

namespace Framewise.SourceText

variable {source : SourceText} {p : Pos} {span : Span}

/-- The whole text. -/
def chars (source : SourceText) : List Char := source.lines.flatten

/-- The number of characters in front of a position. A column beyond its line stands for the end
    of the line. -/
def offset (source : SourceText) (p : Pos) : Nat :=
  (source.lines.take ((ofLex p).1 - 1).toNat).flatten.length +
    min ((ofLex p).2 - 1).toNat (source.lines.getD ((ofLex p).1 - 1).toNat []).length

/-- The text between two positions. -/
def stretch (source : SourceText) (p q : Pos) : List Char :=
  (source.chars.take (source.offset q)).drop (source.offset p)

/-- A position of the text: on one of its lines, and not beyond the end of that line. -/
structure Has (source : SourceText) (p : Pos) : Prop where
  line_pos : 1 ≤ (ofLex p).1
  line_le : (ofLex p).1 ≤ source.lines.length
  column_pos : 1 ≤ (ofLex p).2
  column_le : (ofLex p).2 ≤ (source.lines.getD ((ofLex p).1 - 1).toNat []).length + 1

/-- The lines up to one, that line, and the lines behind it. -/
theorem lines_split {i : Nat} (h : i < source.lines.length) :
    source.lines = source.lines.take i ++ source.lines.getD i [] :: source.lines.drop (i + 1) := by
  have hline : source.lines.getD i [] = source.lines[i] := by
    simp [List.getD_eq_getElem?_getD, h]
  rw [hline, ← List.drop_eq_getElem_cons h, List.take_append_drop]

/-- What stands in front of a position: the lines before its own, and a part of its own. -/
theorem take_offset (h : ((ofLex p).1 - 1).toNat < source.lines.length) :
    source.chars.take (source.offset p) =
      (source.lines.take ((ofLex p).1 - 1).toNat).flatten ++
        (source.lines.getD ((ofLex p).1 - 1).toNat []).take ((ofLex p).2 - 1).toNat := by
  have hchars : source.chars = (source.lines.take ((ofLex p).1 - 1).toNat).flatten ++
      (source.lines.getD ((ofLex p).1 - 1).toNat [] ++
        (source.lines.drop (((ofLex p).1 - 1).toNat + 1)).flatten) := by
    unfold chars
    conv_lhs => rw [lines_split h]
    simp
  rw [hchars, offset, List.take_length_add_append, List.take_append_of_le_length (by omega)]
  simp [List.take_eq_take_iff]

/-- A position stands behind as many characters in two texts with the same first lines. -/
theorem offset_congr {source' : SourceText} {number : Nat}
    (hlines : source.lines.take number = source'.lines.take number) (hpos : 1 ≤ (ofLex p).1)
    (hline : (ofLex p).1 ≤ number) : source.offset p = source'.offset p := by
  have hbefore : ∀ i ≤ number, source.lines.take i = source'.lines.take i := by
    intro i hi
    have htake := congrArg (List.take i) hlines
    simpa [List.take_take, Nat.min_eq_left hi] using htake
  have hown : source.lines[((ofLex p).1 - 1).toNat]? = source'.lines[((ofLex p).1 - 1).toNat]? := by
    have hlt : ((ofLex p).1 - 1).toNat < number := by omega
    rw [← List.getElem?_take_of_lt hlt, hlines, List.getElem?_take_of_lt hlt]
  unfold offset
  rw [hbefore _ (by omega), List.getD_eq_getElem?_getD, List.getD_eq_getElem?_getD, hown]

/-- A column from 1 on is an offset that stops at the end of its line. -/
theorem clampOffset_column {n : Nat} {column : Int} (h : 1 ≤ column) :
    clampOffset n (column - 1) = min (column - 1).toNat n := by
  unfold clampOffset
  rw [if_neg (by omega)]
  split <;> omega

/-- The characters that a span picks are those between its two ends. -/
theorem sliceChars_eq (hfirst : 1 ≤ span.startLine) (hlines : span.startLine ≤ span.endLine)
    (hlast : span.endLine ≤ source.lines.length) (hstart : 1 ≤ span.startColumn)
    (hstop : 1 ≤ span.endColumn) :
    source.sliceChars span = some (source.stretch span.start span.stop) := by
  have hinside : ¬(span.startLine < 1 || (source.lines.length : Int) < span.endLine ||
      span.endLine < span.startLine) = true := by
    simp only [Bool.or_eq_true, decide_eq_true_eq]
    omega
  have htake : source.chars.take (source.offset span.stop) =
      (source.lines.take (span.endLine - 1).toNat).flatten ++
        (source.lines.getD (span.endLine - 1).toNat []).take (span.endColumn - 1).toNat :=
    take_offset (p := span.stop) (by change (span.endLine - 1).toNat < _; omega)
  have hoffset : source.offset span.start =
      (source.lines.take (span.startLine - 1).toNat).flatten.length +
        min (span.startColumn - 1).toNat
          (source.lines.getD (span.startLine - 1).toNat []).length := rfl
  unfold sliceChars stretch
  rw [if_neg hinside, htake, hoffset]
  by_cases hsame : span.startLine = span.endLine
  · -- both ends stand on one line
    rw [if_pos hsame, ← hsame, List.drop_length_add_append, between, clampOffset_column hstart,
      clampOffset_column hstop]
    congr 2
    simp [List.take_eq_take_iff]
  · -- the span begins on one line, takes those between as a whole, and ends on another
    simp only [if_neg hsame, suffixAt, beforeAt, clampOffset_column hstart,
      clampOffset_column hstop]
    set i := (span.startLine - 1).toNat with hi
    set j := (span.endLine - 1).toNat with hj
    have hij : i < j := by omega
    have hnext : span.startLine.toNat = i + 1 := by omega
    have hbefore : (source.lines.take j).flatten = (source.lines.take i).flatten ++
        (source.lines.getD i [] ++ ((source.lines.take j).drop (i + 1)).flatten) := by
      have hshorter : i < (⟨source.lines.take j⟩ : SourceText).lines.length := by
        simp only [List.length_take]
        omega
      have hsplit := congrArg List.flatten (lines_split hshorter)
      simpa [List.take_take, Nat.min_eq_left hij.le, List.getD_eq_getElem?_getD,
        List.getElem?_take_of_lt hij] using hsplit
    rw [hbefore, hnext]
    simp only [List.append_assoc]
    rw [List.drop_length_add_append, List.drop_append_of_le_length (by omega)]
    simp [List.take_eq_take_iff]

end Framewise.SourceText
