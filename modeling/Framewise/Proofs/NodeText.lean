import Framewise.Proofs.RegularLayout
import Framewise.Proofs.Rendering
import Framewise.Proofs.ScriptRows

/-! # The text of a node

  A node has the text that its span picks from the lines of the script. The span
  counts rows. As long as no line ends but where a row does, the text of a node is
  the stretch of the script between the two ends of its span. The root is the
  exception: it ends behind the last line, where no text is found.

  Main result: `node_text_is_its_stretch`.
-/

namespace Framewise

open Script

namespace Script

/-- Tokens in order stay so if more is asked of where they begin and end. -/
theorem Ordered.and {V W : Pos → Prop} {lo : Pos} {ts : List Token} (h : Ordered V lo ts)
    (hW : ∀ t ∈ ts, t.isPlaced = true → W t.span.start ∧ W t.span.stop) :
    Ordered (fun p => V p ∧ W p) lo ts := by
  induction ts generalizing lo with
  | nil => trivial
  | cons t ts ih =>
    have hrest : ∀ t ∈ ts, t.isPlaced = true → W t.span.start ∧ W t.span.stop := fun t ht =>
      hW t (List.mem_cons_of_mem _ ht)
    by_cases ht : t.isPlaced = true
    · rw [Ordered, if_pos ht] at h ⊢
      obtain ⟨⟨hwithin, hstrict⟩, h⟩ := h
      obtain ⟨hstart, hstop⟩ := hW t List.mem_cons_self ht
      exact ⟨⟨⟨⟨hwithin.start_valid, hstart⟩, ⟨hwithin.stop_valid, hstop⟩, hwithin.lo_le,
        hwithin.start_le, hwithin.le_hi⟩, hstrict⟩, ih h hrest⟩
    · rw [Ordered, if_neg ht] at h ⊢
      exact ih h hrest

/-- The nodes below the root of a script begin and end where tokens do. -/
theorem node_within {V : Pos → Prop} {code : String} {source : Source} {root n : Node}
    (hparse : Script.parse code = some source) (hroot : source.node = some root)
    (hn : n ∈ root.walk.tail)
    (hV : ∀ lexed t, lex code = some lexed → t ∈ lexed.tokens → t.isPlaced = true →
      V t.span.start ∧ V t.span.stop) :
    ∃ hi, n.span.Within (fun p => Numbered p ∧ V p) (toLex (0, 0)) hi := by
  obtain ⟨lexed, hlexed, hparse⟩ := Option.bind_eq_some_iff.mp hparse
  obtain ⟨body, hbody, hparse⟩ := Option.bind_eq_some_iff.mp hparse
  cases hparse
  obtain ⟨nodes, hnodes, heq⟩ := Option.bind_eq_some_iff.mp hroot
  cases heq
  obtain ⟨hi, hlocated⟩ :=
    parseTokens_located ((lex_ordered hlexed).and fun t => hV lexed t hlexed) hbody
  rw [Node.walk_eq_preorder, Node.preorder_eq] at hn
  obtain ⟨m, hm, hspan⟩ := (stmtNodes_render Role.body body nodes hnodes).spans n hn
  rw [← hspan]
  exact ⟨hi, hlocated.within m hm⟩

/-- A script with statements has glyphs. -/
theorem exists_last_glyph {code : String} {source : Source} {root : Node}
    (hparse : Script.parse code = some source) (hroot : source.node = some root)
    (hchildren : root.children ≠ []) : ∃ g, (glyphsOf code).getLast? = some g := by
  obtain ⟨n, rest, heq⟩ := List.exists_cons_of_ne_nil hchildren
  have hn : n ∈ root.walk.tail := by
    rw [Node.walk_eq_preorder, Node.preorder_eq, heq, List.flatMap_cons]
    exact List.mem_append_left _ n.self_mem_preorder
  obtain ⟨hi, hwithin⟩ := node_within (V := fun _ => glyphsOf code ≠ []) hparse hroot hn (by
    intro lexed t hlexed ht hplaced
    obtain ⟨mid, next, kind, blank, gs, hmid, -, hemits, -⟩ := token_emitted hlexed ht hplaced
    have hne : glyphsOf code ≠ [] := by
      intro hnil
      have hrest := hmid.suffix
      rw [hemits.rest] at hrest
      simp [hnil, hemits.nonempty] at hrest
    exact ⟨hne, hne⟩)
  exact ⟨_, List.getLast?_eq_some_getLast hwithin.start_valid.2⟩

/-- The root of a script with statements ends in the line behind its last glyph. -/
theorem root_span_of_children {code : String} {source : Source} {root : Node} {g : Glyph}
    (hparse : Script.parse code = some source) (hroot : source.node = some root)
    (hchildren : root.children ≠ []) (hg : (glyphsOf code).getLast? = some g) :
    root.span = ⟨1, 1, (g.line : Int) + 1, 1⟩ := by
  obtain ⟨lexed, -, hparse⟩ := Option.bind_eq_some_iff.mp hparse
  obtain ⟨body, -, hparse⟩ := Option.bind_eq_some_iff.mp hparse
  cases hparse
  obtain ⟨nodes, -, heq⟩ := Option.bind_eq_some_iff.mp hroot
  cases heq
  simp [lineAfter, hg] at hchildren ⊢
  simp [hchildren]

/-- A position on a row that is not empty. -/
def OnRow (code : String) (p : Pos) : Prop :=
  ∃ r, (layout code).lines[((ofLex p).1 - 1).toNat]? = some r ∧ r ≠ []

/-- Every token with a place begins and ends on a row that is not empty. -/
theorem token_on_row {code : String} {lexed : Lexed} {t : Token} (h : lex code = some lexed)
    (ht : t ∈ lexed.tokens) (hplaced : t.isPlaced = true) :
    OnRow code t.span.start ∧ OnRow code t.span.stop := by
  obtain ⟨mid, next, kind, blank, gs, hmid, -, hemits, rfl⟩ := token_emitted h ht hplaced
  have hmem : ∀ g ∈ gs, g ∈ glyphsOf code := fun g hg =>
    hmid.suffix.subset (by rw [hemits.rest]; simp [hg])
  obtain ⟨first, tail, rfl⟩ := List.exists_cons_of_ne_nil hemits.nonempty
  -- lines may be left out, so a token can only move to rows before its own
  have hrow : ∀ g ∈ first :: tail, ∀ i, i ≤ g.line - mid.dropped - 1 →
      ∃ r, (layout code).lines[i]? = some r ∧ r ≠ [] := fun g hg i hi =>
    row_before_glyph (hmem g hg) (by omega)
  simp only [Lexer.spanOf, List.head?_cons, List.getLast?_eq_some_getLast, ne_eq, reduceCtorEq,
    not_false_eq_true]
  constructor
  · refine hrow first List.mem_cons_self _ ?_
    change (((first.line - mid.dropped : Nat) : Int) - 1).toNat ≤ _
    omega
  · refine hrow _ (List.getLast_mem (List.cons_ne_nil first tail)) _ ?_
    change (((((first :: tail).getLast _).line - mid.dropped : Nat) : Int) - 1).toNat ≤ _
    omega

/-- Glyphs stand at positions of their script. -/
theorem layout_has {code : String} {g : Glyph} (hg : g ∈ glyphsOf code) :
    (layout code).Has (toLex ((g.line : Int), (g.column : Int))) ∧
      (layout code).Has (toLex ((g.line : Int), (g.column : Int) + 1)) := by
  obtain ⟨hline, row, hrow, hcolumn⟩ := glyph_on_row hg
  have hpos : 1 ≤ g.column := ((glyphsFrom_ordered 1 1 _ le_rfl).from_place g hg).column_pos
  have hlength := (List.getElem?_eq_some_iff.mp hrow).1
  have hown : (layout code).lines.getD ((g.line : Int) - 1).toNat [] = row := by
    rw [show ((g.line : Int) - 1).toNat = g.line - 1 by omega, List.getD_eq_getElem?_getD, hrow]
    rfl
  constructor
  all_goals
    refine ⟨?_, ?_, ?_, ?_⟩ <;> simp only [ofLex_toLex, hown] <;> omega

/-- Up to a row at whose end a line ends, lines and rows give the same stretches. -/
theorem stretch_ofString {code : String} {number : Nat} {p q : Pos}
    (hlines : (SourceText.ofString code).lines.take number = (layout code).lines.take number)
    (hp : 1 ≤ (ofLex p).1 ∧ (ofLex p).1 ≤ number) (hq : 1 ≤ (ofLex q).1 ∧ (ofLex q).1 ≤ number) :
    (SourceText.ofString code).stretch p q = (layout code).stretch p q := by
  unfold SourceText.stretch
  rw [chars_ofString, chars_layout, SourceText.offset_congr hlines hp.1 hp.2,
    SourceText.offset_congr hlines hq.1 hq.2]

end Script

/-- The lines of a span in order. -/
theorem Span.Within.startLine_le {V : Pos → Prop} {lo hi : Pos} {s : Span}
    (h : s.Within V lo hi) : s.startLine ≤ s.endLine := by
  rcases Prod.Lex.le_iff.mp h.start_le with hlt | heq
  · exact hlt.le
  · exact heq.1.le

/-- The text of every node below the root is the stretch of the script between the two ends of its
    span, if up to the last row of the span nothing but the end of a row ends a line. In a script
    without form feeds of which no line is left out, these ends are positions of the script. The
    root of a script with statements reaches over the whole script, but has no text. -/
theorem node_text_is_its_stretch {code : String} {source : Source} {root : Node}
    (hparse : Script.parse code = some source) (hroot : source.node = some root) :
    (∀ n ∈ root.walk.tail, PlainTo code n.span.endLine.toNat →
      n.textIn (some (SourceText.ofString code)) =
        some (String.ofList ((layout code).stretch n.span.start n.span.stop))) ∧
    ((∀ c ∈ code.toList, Lexer.isFormFeed c = false) → linesLeftOut code = 0 →
      ∀ n ∈ root.walk.tail, (layout code).Has n.span.start ∧ (layout code).Has n.span.stop ∧
        n.span.start ≤ n.span.stop) ∧
    (root.children ≠ [] → PlainRows (layout code).lines →
      (layout code).stretch root.span.start root.span.stop = code.toList ∧
        root.textIn (some (SourceText.ofString code)) = none) := by
  refine ⟨?_, ?_, ?_⟩
  · intro n hn hplain
    obtain ⟨hi, hwithin⟩ := node_within hparse hroot hn fun lexed t hlexed => token_on_row hlexed
    have hlines := hwithin.startLine_le
    obtain ⟨⟨hfirst, hstart⟩, -⟩ := hwithin.start_valid
    obtain ⟨⟨hlast, hstop⟩, row, hrow, hne⟩ := hwithin.stop_valid
    change 1 ≤ n.span.startLine at hfirst
    change 1 ≤ n.span.endLine at hlast
    change (layout code).lines[(n.span.endLine - 1).toNat]? = some row at hrow
    rw [show (n.span.endLine - 1).toNat = n.span.endLine.toNat - 1 by omega] at hrow
    obtain ⟨htake, hle⟩ := lines_eq_layout (by omega) hplain ⟨row, hrow, hne⟩
    have hslice : (SourceText.ofString code).sliceChars n.span =
        some ((SourceText.ofString code).stretch n.span.start n.span.stop) :=
      SourceText.sliceChars_eq hfirst hlines (by omega) hstart hstop
    have hstretch : (SourceText.ofString code).stretch n.span.start n.span.stop =
        (layout code).stretch n.span.start n.span.stop := by
      refine stretch_ofString htake ⟨hfirst, ?_⟩ ⟨hlast, ?_⟩
      · change n.span.startLine ≤ _
        omega
      · change n.span.endLine ≤ _
        omega
    simp [Node.textIn, SourceText.slice, hslice, hstretch]
  · intro hunfed hleft n hn
    obtain ⟨hi, hwithin⟩ := node_within (V := (layout code).Has) hparse hroot hn (by
      intro lexed t hlexed ht hplaced
      obtain ⟨first, hfirst, last, hlast, hspan⟩ := token_in_place hlexed hunfed hleft ht hplaced
      rw [hspan]
      exact ⟨(layout_has hfirst).1, (layout_has hlast).2⟩)
    exact ⟨hwithin.start_valid.2, hwithin.stop_valid.2, hwithin.start_le⟩
  · intro hchildren hplain
    obtain ⟨g, hg⟩ := exists_last_glyph hparse hroot hchildren
    have hmem := List.mem_of_getLast? hg
    have hspan := root_span_of_children hparse hroot hchildren hg
    have hlength := lines_length hg hplain
    -- the rows up to the last glyph are all lines, and so the whole script
    have htake := (lines_eq_layout (glyph_on_row hmem).1
      (fun r hr => hplain r (List.mem_of_mem_take hr)) (row_before_glyph hmem le_rfl)).1
    rw [List.take_of_length_le hlength.le] at htake
    have hall : ((layout code).lines.take g.line).flatten = code.toList := by
      rw [← htake]
      exact chars_ofString code
    rw [hspan]
    constructor
    · have hstart : (layout code).offset (toLex ((1 : Int), (1 : Int))) = 0 := by
        simp [SourceText.offset]
      have hstop : (layout code).offset (toLex ((g.line : Int) + 1, (1 : Int))) =
          code.toList.length := by
        simp [SourceText.offset, hall]
      show ((layout code).chars.take ((layout code).offset (toLex ((g.line : Int) + 1, 1)))).drop
        ((layout code).offset (toLex (1, 1))) = _
      rw [hstart, hstop, chars_layout, List.take_length, List.drop_zero]
    · have houtside : (SourceText.ofString code).sliceChars ⟨1, 1, (g.line : Int) + 1, 1⟩ = none := by
        unfold SourceText.sliceChars
        rw [if_pos]
        simp only [hlength, Bool.or_eq_true, decide_eq_true_eq]
        omega
      simp [Node.textIn, SourceText.slice, hspan, houtside]

/-- A script with a call over two rows. -/
def spreadCall : String := "x = f(\n  a)\n"

/-- All nodes below the root have their text, also those that go over a line end. -/
theorem spreadCall_texts :
    ∃ source root, Script.parse spreadCall = some source ∧ source.node = some root ∧
      root.children ≠ [] ∧ PlainRows (layout spreadCall).lines ∧ linesLeftOut spreadCall = 0 ∧
      (∀ n ∈ root.walk.tail, n.textIn (some (SourceText.ofString spreadCall)) =
        some (String.ofList ((layout spreadCall).stretch n.span.start n.span.stop))) ∧
      (∀ n ∈ root.walk.tail, (layout spreadCall).Has n.span.start ∧
        (layout spreadCall).Has n.span.stop ∧ n.span.start ≤ n.span.stop) ∧
      root.textIn (some (SourceText.ofString spreadCall)) = none := by
  have h : ((Script.parse spreadCall).bind fun source =>
      source.node.map fun root => !root.children.isEmpty) = some true := by
    decide +kernel
  obtain ⟨source, hparse, h⟩ := Option.bind_eq_some_iff.mp h
  obtain ⟨root, hroot, h⟩ := Option.map_eq_some_iff.mp h
  have hchildren : root.children ≠ [] := by simpa using h
  have hplain : PlainRows (layout spreadCall).lines := by decide +kernel
  have hleft : linesLeftOut spreadCall = 0 := by decide +kernel
  have hunfed : (spreadCall.toList.any Lexer.isFormFeed) = false := by decide +kernel
  obtain ⟨htext, hhas, hnone⟩ := node_text_is_its_stretch hparse hroot
  refine ⟨source, root, hparse, hroot, hchildren, hplain, hleft, ?_, ?_, ?_⟩
  · intro n hn
    exact htext n hn fun r hr => hplain r (List.mem_of_mem_take hr)
  · exact hhas (by simpa using hunfed) hleft
  · exact (hnone hchildren hplain).2

/-- A script with a vertical tab in a string. -/
def tabbedString : String := "a = \"\x0b\"\nb = 1\n"

/-- The vertical tab ends a line but no row, and the name in the next row has the text of another
    place. -/
theorem vertical_tab_moves_text :
    ∃ source root, Script.parse tabbedString = some source ∧ source.node = some root ∧
      ∃ n ∈ root.walk.tail, n.name = some "b" ∧
        (layout tabbedString).stretch n.span.start n.span.stop = ['b'] ∧
        n.textIn (some (SourceText.ofString tabbedString)) = some "\"" := by
  have h : ((Script.parse tabbedString).bind fun source => source.node.map fun root =>
      decide (∃ n ∈ root.walk.tail, n.name = some "b" ∧
        (layout tabbedString).stretch n.span.start n.span.stop = ['b'] ∧
        n.textIn (some (SourceText.ofString tabbedString)) = some "\"")) = some true := by
    decide +kernel
  obtain ⟨source, hparse, h⟩ := Option.bind_eq_some_iff.mp h
  obtain ⟨root, hroot, h⟩ := Option.map_eq_some_iff.mp h
  exact ⟨source, root, hparse, hroot, of_decide_eq_true h⟩

end Framewise
