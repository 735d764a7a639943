import Framewise.Proofs.SourceSlices
import Framewise.Proofs.TokenPlaces

/-! # Rows of a script

  A script is laid out in rows: a row ends at a line feed, a carriage return or both
  in a row, and at nothing else. Slices are taken from lines, which end at more
  characters than that. The two agree as long as none of the others occurs, except
  that behind the last line end there is one more row, which is empty.

  Main definitions:
  - `layout`: a script by its rows.
  - `PlainTo`: up to a row, nothing but the end of a row ends a line.

  Main results:
  - `lines_eq_layout`: the lines up to a row that is not empty are the rows.
  - `glyph_on_row`: every glyph stands on a row of its script.
-/

namespace Framewise.Script

/-- Cuts a script into rows; `row` holds the current row, last character first. -/
def rowsFrom (row : List Char) : List Char → List (List Char)
  | [] => [row.reverse]
  | '\r' :: '\n' :: cs => ('\n' :: '\r' :: row).reverse :: rowsFrom [] cs
  | c :: cs =>
    if c = '\r' || c = '\n' then (c :: row).reverse :: rowsFrom [] cs
    else rowsFrom (c :: row) cs

/-- A script by its rows. -/
def layout (code : String) : SourceText := ⟨rowsFrom [] code.toList⟩

/-- In the first rows nothing but the end of a row ends a line. -/
def PlainRows (rows : List (List Char)) : Prop :=
  ∀ row ∈ rows, ∀ c ∈ row, Text.isLineEnd c = true → c = '\r' ∨ c = '\n'

/-- Up to a row of a script nothing but the end of a row ends a line. -/
def PlainTo (code : String) (number : Nat) : Prop := PlainRows ((layout code).lines.take number)

theorem plainRows_iff (rows : List (List Char)) :
    (rows.all fun row => row.all fun c => !Text.isLineEnd c || c = '\r' || c = '\n') = true ↔
      PlainRows rows := by
  simp only [List.all_eq_true, PlainRows, Bool.or_eq_true, Bool.not_eq_true', decide_eq_true_eq,
    or_assoc, ← Bool.not_eq_true, imp_iff_not_or]

instance (rows : List (List Char)) : Decidable (PlainRows rows) :=
  decidable_of_iff _ (plainRows_iff rows)

/-! ## Rows -/

/-- The rows make up the script. -/
theorem flatten_rowsFrom (row cs : List Char) :
    (rowsFrom row cs).flatten = row.reverse ++ cs := by
  fun_induction rowsFrom row cs with
  | case1 row => simp
  | case2 row cs ih => simp [ih]
  | case3 row c cs _ _ ih => simp [ih]
  | case4 row c cs _ _ ih => simp [ih]

theorem chars_layout (code : String) : (layout code).chars = code.toList :=
  flatten_rowsFrom [] code.toList

/-- So do the lines. -/
theorem flatten_splitLinesFrom (line cs : List Char) :
    (Text.splitLinesFrom line cs).flatten = line.reverse ++ cs := by
  fun_induction Text.splitLinesFrom line cs with
  | case1 line hempty => simp_all
  | case2 line _ => simp
  | case3 line cs ih => simp [ih]
  | case4 line c cs _ _ ih => simp [ih]
  | case5 line c cs _ _ ih => simp [ih]

theorem chars_ofString (code : String) : (SourceText.ofString code).chars = code.toList :=
  flatten_splitLinesFrom [] code.toList

/-- The first row goes on with what has been read of it. -/
theorem exists_first_row (row cs : List Char) :
    ∃ more rows, rowsFrom row cs = (row.reverse ++ more) :: rows := by
  fun_induction rowsFrom row cs with
  | case1 row => exact ⟨[], [], by simp⟩
  | case2 row cs _ => exact ⟨['\r', '\n'], rowsFrom [] cs, by simp⟩
  | case3 row c cs _ _ _ => exact ⟨[c], rowsFrom [] cs, by simp⟩
  | case4 row c cs _ _ ih =>
    obtain ⟨more, rows, heq⟩ := ih
    exact ⟨c :: more, rows, by simp [heq]⟩

/-- Only the last row can be empty. -/
theorem row_ne_nil {row cs r : List Char} {i : Nat} (h : (rowsFrom row cs)[i]? = some r)
    (hlast : i + 1 < (rowsFrom row cs).length) : r ≠ [] := by
  fun_induction rowsFrom row cs generalizing i with
  | case1 row => simp at hlast
  | case2 row cs ih =>
    cases i with
    | zero =>
      cases h
      simp
    | succ i => exact ih h (by simpa using hlast)
  | case3 row c cs _ _ ih =>
    cases i with
    | zero =>
      cases h
      simp
    | succ i => exact ih h (by simpa using hlast)
  | case4 row c cs _ _ ih => exact ih h hlast

/-- The end of a row ends a line. -/
theorem isLineEnd_of_rowEnd {c : Char} (h : (c = '\r' || c = '\n') = true) :
    Text.isLineEnd c = true := by
  simp only [Bool.or_eq_true, decide_eq_true_eq] at h
  rcases h with rfl | rfl <;> decide

/-- On a plain row nothing else does. -/
theorem not_isLineEnd {c : Char} {row cs : List Char} {n : Nat}
    (hc : ¬(c = '\r' || c = '\n') = true)
    (hplain : PlainRows ((rowsFrom (c :: row) cs).take (n + 1))) : ¬Text.isLineEnd c = true := by
  intro hend
  obtain ⟨more, rows, heq⟩ := exists_first_row (c :: row) cs
  have hmem := hplain _ (by rw [heq, List.take_succ_cons]; exact List.mem_cons_self) c
    (by simp) hend
  simp only [Bool.or_eq_true, decide_eq_true_eq] at hc
  exact hc hmem

/-- The lines up to a row that is not empty are the rows up to it. -/
theorem splitLinesFrom_take {row cs : List Char} {i : Nat}
    (hplain : PlainRows ((rowsFrom row cs).take (i + 1)))
    (hrow : ∃ r, (rowsFrom row cs)[i]? = some r ∧ r ≠ []) :
    (Text.splitLinesFrom row cs).take (i + 1) = (rowsFrom row cs).take (i + 1) ∧
      i < (Text.splitLinesFrom row cs).length := by
  -- a row that ends here is a line, and what follows is cut alike
  have hends : ∀ (line rest : List Char) (i : Nat),
      (∀ i, PlainRows ((rowsFrom [] rest).take (i + 1)) →
        (∃ r, (rowsFrom [] rest)[i]? = some r ∧ r ≠ []) →
        (Text.splitLinesFrom [] rest).take (i + 1) = (rowsFrom [] rest).take (i + 1) ∧
          i < (Text.splitLinesFrom [] rest).length) →
      PlainRows ((line :: rowsFrom [] rest).take (i + 1)) →
      (∃ r, (line :: rowsFrom [] rest)[i]? = some r ∧ r ≠ []) →
      (line :: Text.splitLinesFrom [] rest).take (i + 1) =
          (line :: rowsFrom [] rest).take (i + 1) ∧
        i < (line :: Text.splitLinesFrom [] rest).length := by
    intro line rest i ih hplain hrow
    cases i with
    | zero => simp
    | succ i =>
      have htail : PlainRows ((rowsFrom [] rest).take (i + 1)) := fun r hr =>
        hplain r (by rw [List.take_succ_cons]; exact List.mem_cons_of_mem _ hr)
      obtain ⟨heq, hlt⟩ := ih i htail (by simpa using hrow)
      rw [List.take_succ_cons, List.take_succ_cons, heq]
      exact ⟨rfl, by simpa using hlt⟩
  fun_induction rowsFrom row cs generalizing i with
  | case1 row =>
    obtain ⟨r, hr, hne⟩ := hrow
    cases i with
    | zero =>
      have hne : row ≠ [] := by
        rintro rfl
        exact hne (by simpa using hr.symm)
      simp [Text.splitLinesFrom, hne]
    | succ i => simp at hr
  | case2 row cs ih =>
    rw [Text.splitLinesFrom]
    exact hends _ cs i (fun i hp hr => ih hp hr) hplain hrow
  | case3 row c cs hpair hc ih =>
    rw [Text.splitLinesFrom.eq_3 _ _ _ hpair, if_pos (isLineEnd_of_rowEnd hc)]
    exact hends _ cs i (fun i hp hr => ih hp hr) hplain hrow
  | case4 row c cs hpair hc ih =>
    rw [Text.splitLinesFrom.eq_3 _ _ _ hpair, if_neg (not_isLineEnd hc hplain)]
    exact ih hplain hrow

/-- The lines of a script up to a row that is not empty are its rows. -/
theorem lines_eq_layout {code : String} {number : Nat} (hnumber : 1 ≤ number)
    (hplain : PlainTo code number)
    (hrow : ∃ r, (layout code).lines[number - 1]? = some r ∧ r ≠ []) :
    (SourceText.ofString code).lines.take number = (layout code).lines.take number ∧
      number ≤ (SourceText.ofString code).lines.length := by
  obtain ⟨i, rfl⟩ := Nat.exists_eq_add_of_le' hnumber
  obtain ⟨heq, hlt⟩ := splitLinesFrom_take hplain hrow
  exact ⟨heq, hlt⟩

/-! ## Glyphs -/

/-- Every glyph stands on a row, within it. -/
theorem glyphsFrom_on_row {line column : Nat} {row cs : List Char} {g : Glyph}
    (hcolumn : column ≤ row.length + 1) (hg : g ∈ glyphsFrom line column cs) :
    line ≤ g.line ∧ ∃ r, (rowsFrom row cs)[g.line - line]? = some r ∧ g.column ≤ r.length := by
  -- behind the end of a row the next one begins
  have hnext : ∀ (r : List Char) (rows : List (List Char)) (line : Nat), line + 1 ≤ g.line →
      (r :: rows)[g.line - line]? = rows[g.line - (line + 1)]? := by
    intro r rows line hle
    rw [show g.line - line = g.line - (line + 1) + 1 by omega, List.getElem?_cons_succ]
  fun_induction glyphsFrom line column cs generalizing row with
  | case1 => simp at hg
  | case2 line column cs ih =>
    rw [rowsFrom]
    rcases List.mem_cons.mp hg with rfl | hg
    · exact ⟨le_rfl, _, by rw [Nat.sub_self]; rfl, by simp; omega⟩
    · obtain ⟨hline, hr⟩ := ih (by simp) hg
      exact ⟨by omega, by rwa [hnext _ _ _ hline]⟩
  | case3 line column c cs hpair hc ih =>
    rw [rowsFrom.eq_3 _ _ _ hpair, if_pos hc]
    rcases List.mem_cons.mp hg with rfl | hg
    · exact ⟨le_rfl, _, by rw [Nat.sub_self]; rfl, by simp; omega⟩
    · obtain ⟨hline, hr⟩ := ih (by simp) hg
      exact ⟨by omega, by rwa [hnext _ _ _ hline]⟩
  | case4 line column c cs hpair hc ih =>
    rw [rowsFrom.eq_3 _ _ _ hpair, if_neg hc]
    rcases List.mem_cons.mp hg with rfl | hg
    · obtain ⟨more, rows, heq⟩ := exists_first_row (c :: row) cs
      rw [heq]
      exact ⟨le_rfl, _, by rw [Nat.sub_self]; rfl, by simp; omega⟩
    · exact ih (by simp; omega) hg

/-- Glyphs, rows and lines of a script are read from the same characters, behind the mark that may
    open a file; the mark takes the first place of the first row. -/
theorem exists_reading (code : String) :
    ∃ mark cs, glyphsOf code = glyphsFrom 1 1 cs ∧ (layout code).lines = rowsFrom mark cs ∧
      (SourceText.ofString code).lines = Text.splitLinesFrom mark cs := by
  unfold glyphsOf layout SourceText.ofString Text.splitLines
  cases code.toList with
  | nil => exact ⟨[], [], rfl, rfl, rfl⟩
  | cons c cs =>
    by_cases hmark : c.toNat = 0xFEFF
    · have hc : c ≠ '\r' ∧ c ≠ '\n' := by
        constructor <;> rintro rfl <;> simp at hmark
      have hend : ¬Text.isLineEnd c = true := by simp [Text.isLineEnd, hmark]
      refine ⟨[c], cs, by rw [dropByteOrderMark, if_pos hmark], ?_, ?_⟩
      · show rowsFrom [] (c :: cs) = _
        rw [rowsFrom.eq_3 _ _ _ (by simp [hc.1]), if_neg (by simp [hc])]
      · show Text.splitLinesFrom [] (c :: cs) = _
        rw [Text.splitLinesFrom.eq_3 _ _ _ (by simp [hc.1]), if_neg hend]
    · exact ⟨[], c :: cs, by rw [dropByteOrderMark, if_neg hmark], rfl, rfl⟩

/-- Every glyph of a script stands on a row of its layout, within it. -/
theorem glyph_on_row {code : String} {g : Glyph} (hg : g ∈ glyphsOf code) :
    1 ≤ g.line ∧ ∃ r, (layout code).lines[g.line - 1]? = some r ∧ g.column ≤ r.length := by
  obtain ⟨mark, cs, hglyphs, hrows, -⟩ := exists_reading code
  rw [hglyphs] at hg
  rw [hrows]
  exact glyphsFrom_on_row (by omega) hg

/-- A glyph stands on the last line. -/
theorem exists_glyph_on_last_line {line column : Nat} {row cs : List Char} (hne : cs ≠ [])
    (hplain : PlainRows (rowsFrom row cs)) :
    ∃ g ∈ glyphsFrom line column cs,
      (Text.splitLinesFrom row cs).length + line = g.line + 1 := by
  -- the end of a row stands on the last line unless something follows
  have hends : ∀ (line column : Nat) (rest : List Char),
      (rest ≠ [] → ∃ g ∈ glyphsFrom (line + 1) 1 rest,
        (Text.splitLinesFrom [] rest).length + (line + 1) = g.line + 1) →
      ∃ g ∈ (⟨'\n', line, column⟩ : Glyph) :: glyphsFrom (line + 1) 1 rest,
        (Text.splitLinesFrom [] rest).length + 1 + line = g.line + 1 := by
    intro line column rest ih
    by_cases hrest : rest = []
    · subst hrest
      refine ⟨_, List.mem_cons_self, ?_⟩
      simp [Text.splitLinesFrom]
      omega
    · obtain ⟨g, hg, heq⟩ := ih hrest
      exact ⟨g, List.mem_cons_of_mem _ hg, by omega⟩
  have htail : ∀ {r : List Char} {rows : List (List Char)}, PlainRows (r :: rows) →
      PlainRows rows := fun h r hr => h r (List.mem_cons_of_mem _ hr)
  fun_induction rowsFrom row cs generalizing line column with
  | case1 row => exact absurd rfl hne
  | case2 row cs ih =>
    rw [glyphsFrom, Text.splitLinesFrom, List.length_cons]
    exact hends line column cs fun hcs => ih hcs (htail hplain)
  | case3 row c cs hpair hc ih =>
    have hend : Text.isLineEnd c = true := isLineEnd_of_rowEnd hc
    rw [glyphsFrom.eq_3 _ _ _ _ hpair, if_pos hc, Text.splitLinesFrom.eq_3 _ _ _ hpair,
      if_pos hend, List.length_cons]
    exact hends line column cs fun hcs => ih hcs (htail hplain)
  | case4 row c cs hpair hc ih =>
    have hall : PlainRows ((rowsFrom (c :: row) cs).take ((rowsFrom (c :: row) cs).length + 1)) := by
      rwa [List.take_of_length_le (Nat.le_succ _)]
    have hend := not_isLineEnd hc hall
    rw [glyphsFrom.eq_3 _ _ _ _ hpair, if_neg hc, Text.splitLinesFrom.eq_3 _ _ _ hpair,
      if_neg hend]
    by_cases hcs : cs = []
    · subst hcs
      refine ⟨_, List.mem_cons_self, ?_⟩
      simp [Text.splitLinesFrom]
      omega
    · obtain ⟨g, hg, heq⟩ := ih hcs hplain
      exact ⟨g, List.mem_cons_of_mem _ hg, heq⟩

/-- Up to the row of a glyph, no row is empty. -/
theorem row_before_glyph {code : String} {g : Glyph} (hg : g ∈ glyphsOf code) {i : Nat}
    (hi : i ≤ g.line - 1) : ∃ r, (layout code).lines[i]? = some r ∧ r ≠ [] := by
  obtain ⟨-, own, hown, hcolumn⟩ := glyph_on_row hg
  have hpos : 1 ≤ g.column := ((glyphsFrom_ordered 1 1 _ le_rfl).from_place g hg).column_pos
  have hlength := (List.getElem?_eq_some_iff.mp hown).1
  rcases hi.lt_or_eq with hlt | rfl
  · obtain ⟨r, hr⟩ : ∃ r, (layout code).lines[i]? = some r :=
      ⟨_, List.getElem?_eq_getElem (by omega)⟩
    exact ⟨r, hr, row_ne_nil hr (by change _ < (layout code).lines.length; omega)⟩
  · refine ⟨own, hown, ?_⟩
    rintro rfl
    simp at hcolumn
    omega

/-- A script with glyphs has as many lines as the last of them says. -/
theorem lines_length {code : String} {g : Glyph} (hg : (glyphsOf code).getLast? = some g)
    (hplain : PlainRows (layout code).lines) :
    (SourceText.ofString code).lines.length = g.line := by
  have hmem := List.mem_of_getLast? hg
  -- no glyph stands on a later line than the last one
  have hlast : ∀ k ∈ glyphsOf code, k.line ≤ g.line := by
    intro k hk
    obtain ⟨before, heq⟩ := List.getLast?_eq_some_iff.mp hg
    have hsorted : (glyphsOf code).Pairwise Glyph.Before :=
      (glyphsFrom_ordered 1 1 _ le_rfl).sorted
    rw [heq] at hk hsorted
    rcases List.mem_append.mp hk with hk | hk
    · rcases (List.pairwise_append.mp hsorted).2.2 k hk g List.mem_cons_self with hlt | hsame
      · exact hlt.le
      · exact hsame.2.1.le
    · cases List.mem_singleton.mp hk
      exact le_rfl
  obtain ⟨k, hk, heq⟩ : ∃ k ∈ glyphsOf code,
      (SourceText.ofString code).lines.length + 1 = k.line + 1 := by
    obtain ⟨mark, cs, hglyphs, hrows, hlines⟩ := exists_reading code
    rw [hrows] at hplain
    rw [hglyphs] at hmem ⊢
    rw [hlines]
    refine exists_glyph_on_last_line ?_ hplain
    rintro rfl
    simp [glyphsFrom] at hmem
  have hrow := row_before_glyph hmem le_rfl
  have hle := (lines_eq_layout (glyph_on_row hmem).1 (fun r hr => hplain r (List.mem_of_mem_take hr))
    hrow).2
  have := hlast k hk
  omega

end Framewise.Script
