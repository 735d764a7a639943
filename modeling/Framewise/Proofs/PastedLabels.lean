import Framewise.Proofs.CrashFreedom
import Framewise.Proofs.RereadPhrases
import Framewise.Proofs.SpacedTokens
import Framewise.Proofs.TracedTrees

/-! # Labels pasted into a fix

  The rule on filler values offers an assignment of the mark of missing data. It pastes
  the label of the column between double quotes as it is, so the offer names the same
  column only for a label that stands for itself there. The reason is a count: whatever
  the text is read as, its strings lie between the bracket and the last quote, and a
  string is longer than its value.

  Main definition: `AssignsColumn`, a text that is one assignment to a column.

  Main results: `assignsColumn_pasted`, `standsForItself_of_assignsColumn`,
  `filler_fix_same_column_iff`.
-/

namespace Framewise

open Script

/-- A text that is read as a single assignment, to a column of a frame. -/
def AssignsColumn (code frame label : String) : Prop :=
  ∃ source root assignment target receiver, parse code = some source ∧ source.node = some root ∧
    root.children = [assignment] ∧ assignment.kind = .assignment ∧
    assignment.childrenIn Role.target = [target] ∧
    Rule.assignedColumn target = some (receiver, label) ∧ receiver.name = some frame

/-- What the rule on filler values offers for a column. -/
def pastedFix (frame label : String) : String :=
  frame ++ "[\"" ++ label ++ "\"] = " ++ Frame.missingMark

/-- What follows the label and its closing quote. -/
def behindLabel : List Char := ['"', ']', ' ', '=', ' ', 'p', 'd', '.', 'N', 'A']

theorem toList_pastedFix (frame label : String) :
    (pastedFix frame label).toList =
      frame.toList ++ '[' :: '"' :: (label.toList ++ behindLabel) := by
  simp [pastedFix, Frame.missingMark, behindLabel]

namespace Script

open Lexer

/-! ## The front -/

section Front

variable {code frame : String} {cs : List Char}

/-- The frame and the bracket are read in front of the label, whatever that is. -/
theorem spells_front (hframe : Text.isIdentifier frame.toList = true)
    (hchars : (glyphsOf code).map Glyph.char = frame.toList ++ '[' :: '"' :: cs) :
    Spells code ['['] [⟨.word, frame, nowhere⟩, ⟨.operator, "[", nowhere⟩] ('"' :: cs) := by
  have hword : spaced false [⟨.word, frame, nowhere⟩] ([] ++ (frame.toList ++ [])) = true :=
    spaced_of_lexeme [] (by simp) hframe (by simp) rfl
  rw [List.nil_append, List.append_nil] at hword
  have hstart : Spells code ([] ++ []) [] (frame.toList ++ '[' :: '"' :: cs) := .start hchars hframe
  have hbracket : Spells code ([] ++ []) [⟨.word, frame, nowhere⟩] (['['] ++ '"' :: cs) :=
    hstart.spaced hword (by simp) (by simp [Token.endsBefore, isWordChar, isQuote]) rfl
  exact hbracket.spaced (show spaced false [⟨.operator, "[", nowhere⟩] ['['] = true from rfl) (by simp)
    (by simp; decide) rfl

/-- The glyphs of a fix, whatever its label is. -/
theorem chars_pastedFix (label : String) (hframe : Text.isIdentifier frame.toList = true) :
    ∃ line column, (glyphsOf (pastedFix frame label)).map Glyph.char =
      frame.toList ++ '[' :: '"' :: ((glyphsFrom line column label.toList).map Glyph.char ++ behindLabel) := by
  have hglyphs : glyphsOf (pastedFix frame label) =
      glyphsFrom 1 1 ((frame.toList ++ ['[', '"']) ++ (label.toList ++ behindLabel)) := by
    have hcode := toList_pastedFix frame label
    cases hw : frame.toList with
    | nil =>
      rw [hw] at hframe
      cases hframe
    | cons c w =>
      rw [hw] at hframe hcode
      rw [glyphsOf_of_begins hcode (Bool.and_eq_true_iff.mp hframe).1]
      simp
  have hfront : ∀ c ∈ frame.toList ++ ['[', '"'], c ≠ '\r' := by
    refine List.forall_mem_append.mpr ⟨?_, by simp⟩
    rintro c hc rfl
    exact absurd (isWordChar_of_isIdentifier hframe _ hc) (by decide)
  obtain ⟨line, column, hsplit⟩ :=
    glyphsFrom_append 1 1 _ (label.toList ++ behindLabel) (.inl hfront)
  obtain ⟨line', column', hlabel⟩ :=
    glyphsFrom_append line column label.toList behindLabel (.inr (by rintro _ ⟨⟩; decide))
  refine ⟨line, column, ?_⟩
  rw [hglyphs, hsplit, hlabel, List.map_append, List.map_append, chars_glyphsFrom 1 1 hfront,
    chars_glyphsFrom line' column' (by simp [behindLabel])]
  simp

end Front

/-! ## Labels that stand for themselves -/

section Complete

/-- The tokens of a fix, but for their places. -/
def pastedTokens (frame label : String) : List Token :=
  [⟨.word, frame, nowhere⟩, ⟨.operator, "[", nowhere⟩,
    ⟨.string, String.ofList ('"' :: (label.toList ++ ['"'])), nowhere⟩, ⟨.operator, "]", nowhere⟩,
    ⟨.operator, "=", nowhere⟩, ⟨.word, "pd", nowhere⟩, ⟨.operator, ".", nowhere⟩,
    ⟨.word, "NA", nowhere⟩]

theorem spells_pasted {code frame label : String}
    (h : Spells code ['['] [⟨.word, frame, nowhere⟩, ⟨.operator, "[", nowhere⟩]
      ('"' :: (label.toList ++ behindLabel)))
    (hlabel : standsForItself label.toList = true) :
    Spells code [] (pastedTokens frame label) [] := by
  have hlexeme : Token.isLexeme ⟨.string, String.ofList ('"' :: (label.toList ++ ['"'])), nowhere⟩ = true := by
    show isQuoted _ = true
    rw [String.toList_ofList]
    exact closes_of_standsForItself hlabel
  have hchars : '"' :: (label.toList ++ behindLabel) =
      (String.ofList ('"' :: (label.toList ++ ['"']))).toList ++ behindLabel.tail := by
    rw [String.toList_ofList]
    simp [behindLabel]
  have hspaced : spaced false ((pastedTokens frame label).drop 2) ('"' :: (label.toList ++ behindLabel)) = true := by
    rw [hchars]
    exact spaced_of_lexeme [] (by simp) hlexeme (by rintro _ ⟨⟩; rfl)
      (show spaced false ((pastedTokens frame label).drop 3) behindLabel.tail = true from rfl)
  have hopening : Spells code (['['] ++ []) ((pastedTokens frame label).take 2)
      (('"' :: (label.toList ++ behindLabel)) ++ []) := by
    rw [List.append_nil, List.append_nil]
    exact h
  exact hopening.spaced hspaced (by simp) (by simp) rfl

/-- Tokens like those of a fix are read as one assignment. -/
theorem parseTokens_pasted {ts : List Token} {frame label : String}
    (h : Alike ts (pastedTokens frame label ++ [{ kind := .newline }]))
    (hframe : keywords.contains frame = false) :
    ∃ span target value receiver index mod mark name, parseTokens ts =
      some [.assign span [.subscript target (.name receiver frame)
        [.string index (String.ofList ('"' :: (label.toList ++ ['"'])))]]
        (.attribute value (.name mod mark) name)] := by
  have hcolumn : Spelled (.primary (.subscript nowhere (.name nowhere frame)
      [.string nowhere (String.ofList ('"' :: (label.toList ++ ['"'])))]))
      ((pastedTokens frame label).take 4) :=
    .subscript (.name hframe) (.of_primary .string) .noElements
  have hmark : Spelled (.primary (.attribute nowhere (.name nowhere "pd") "NA"))
      ((pastedTokens frame label).drop 5) := .attribute (.name (by decide)) (by decide)
  obtain ⟨span, target, value, hread, htarget, hvalue⟩ := parseTokens_spelled hcolumn hmark hframe
    (by rintro _ ⟨⟩; decide) (by simp [pastedTokens])
    (fun e he => by obtain ⟨s, e, es, rfl, -⟩ := he.subscript_left; rfl) h.symm
  obtain ⟨target, receiver, items, rfl, hreceiver, hitems⟩ := htarget.subscript_left
  obtain ⟨receiver, rfl⟩ := hreceiver.name_left
  obtain ⟨item, nothing, rfl, hitem, hnil⟩ := hitems.cons_left
  obtain rfl := Alike.nil_iff.mp hnil
  obtain ⟨index, rfl⟩ := hitem.string_left
  obtain ⟨value, receiver, rfl, hreceiver⟩ := hvalue.attributed_left
  obtain ⟨mod, rfl⟩ := hreceiver.name_left
  exact ⟨_, _, _, _, _, _, _, _, hread⟩

/-- The node of a target with a string for an index names the column. -/
theorem exists_columnNode {label text : String} (frame : String) (target receiver index : Span)
    (h : stringValue? text = some (.text label)) :
    ∃ n r, exprNode Role.target (.subscript target (.name receiver frame) [.string index text]) = some n ∧
      n.role = Role.target ∧ Rule.assignedColumn n = some (r, label) ∧ r.name = some frame := by
  have hitems : itemNodes [.string index text] =
      some [literalNode Role.element "SimpleString" index (.text label)] := by
    simp [itemNodes, exprNode, h]
  have hnode : exprNode Role.target (.subscript target (.name receiver frame) [.string index text]) =
      some { kind := .subscript, span := target, role := Role.target, tag := "Subscript",
             children := [{ kind := .name, span := receiver, role := Role.receiver, tag := "Name", name := some frame },
               { literalNode Role.element "SimpleString" index (.text label) with role := Role.index }] } := by
    rw [exprNode, exprNode, hitems]
    rfl
  exact ⟨_, _, hnode, rfl, rfl, rfl⟩

/-- Completeness: a label that stands for itself is found again in the fix. -/
theorem assignsColumn_pasted {frame label : String} (hframe : Text.isIdentifier frame.toList = true)
    (hkeyword : keywords.contains frame = false) (hlabel : standsForItself label.toList = true) :
    AssignsColumn (pastedFix frame label) frame label := by
  have hchars : (glyphsOf (pastedFix frame label)).map Glyph.char =
      frame.toList ++ '[' :: '"' :: (label.toList ++ behindLabel) := by
    obtain ⟨line, column, hchars⟩ := chars_pastedFix label hframe
    rw [hchars, chars_glyphsFrom line column (return_not_mem_of_standsForItself hlabel)]
  obtain ⟨lexed, hlex, halike⟩ := (spells_pasted (spells_front hframe hchars) hlabel).lexed
  obtain ⟨span, target, value, receiver, index, mod, mark, name, hread⟩ :=
    parseTokens_pasted halike hkeyword
  have hvalue := stringValue?_quoted hlabel (String.toList_ofList (l := '"' :: (label.toList ++ ['"'])))
  rw [String.ofList_toList] at hvalue
  obtain ⟨n, r, hn, hrole, hcolumn, hname⟩ := exists_columnNode frame target receiver index hvalue
  obtain ⟨v, hv, hvrole⟩ : ∃ v, exprNode Role.value (.attribute value (.name mod mark) name) = some v ∧
      v.role = Role.value := by
    rw [exprNode, exprNode]
    exact ⟨_, rfl, rfl⟩
  obtain ⟨source, root, hparse, hnode, hchildren⟩ := parse_assignment hlex hread hn hv
  refine ⟨source, root, _, n, r, hparse, hnode, hchildren, rfl, ?_, hcolumn, hname⟩
  simp [Node.childrenIn, hrole, hvrole, Role.target, Role.value]

end Complete

/-! ## Counting characters -/

section Sound

/-- The characters of the strings among tokens. -/
def stringChars (ts : List Token) : List Char :=
  (ts.filter fun t => t.kind = .string).flatMap fun t => t.text.toList

theorem stringChars_append (ts us : List Token) :
    stringChars (ts ++ us) = stringChars ts ++ stringChars us := by
  simp [stringChars]

theorem stringChars_eq_nil {ts : List Token} (h : ∀ t ∈ ts, t.kind ≠ .string) : stringChars ts = [] := by
  unfold stringChars
  rw [List.filter_eq_nil_iff.mpr (by simpa using h)]
  rfl

/-- The strings that have been read are parts of what was left before. -/
theorem Lexer.Reaches.stringChars {l n : Lexer} (h : Reaches l n) :
    ∃ us, n.tokens = us.reverse ++ l.tokens ∧
      (Script.stringChars us ++ n.rest.map Glyph.char).Sublist (l.rest.map Glyph.char) := by
  induction h with
  | refl => exact ⟨[], rfl, List.Sublist.refl _⟩
  | tail hpath hstep ih =>
    rename_i mid n
    obtain ⟨us, htokens, hsublist⟩ := ih
    rcases step_advances _ _ hstep with ⟨kind, blank, gs, hemits⟩ | hskips
    · refine ⟨us ++ [⟨kind, textOf gs, mid.spanOf gs⟩], ?_, ?_⟩
      · rw [hemits.tokens, htokens, List.reverse_append]
        rfl
      · refine List.Sublist.trans ?_ hsublist
        rw [stringChars_append, List.append_assoc, hemits.rest, List.map_append, List.map_append]
        refine (List.Sublist.refl _).append (List.Sublist.trans ?_ (List.sublist_append_right _ _))
        refine List.Sublist.append ?_ (List.Sublist.refl _)
        by_cases hkind : kind = .string
        · simp [Script.stringChars, hkind, textOf]
        · rw [stringChars_eq_nil (by simpa using hkind)]
          exact List.nil_sublist _
    · obtain ⟨marks, hmarks, hunplaced⟩ := hskips.tokens
      obtain ⟨skipped, hskipped⟩ := hskips.rest
      refine ⟨us ++ marks.reverse, ?_, ?_⟩
      · rw [hmarks, htokens, List.reverse_append, List.reverse_reverse, List.append_assoc]
      · refine List.Sublist.trans ?_ hsublist
        have hnone : Script.stringChars marks.reverse = [] := by
          refine stringChars_eq_nil fun t ht hkind => hunplaced t (List.mem_reverse.mp ht) ?_
          rw [Token.isPlaced, hkind]
          rfl
        rw [stringChars_append, hnone, List.append_nil, hskipped, List.map_append]
        exact (List.Sublist.refl _).append (List.sublist_append_right _ _)

/-- The strings of a text lie behind what has been read without finding one. -/
theorem stringChars_sublist {code : String} {B cs : List Char} {ts : List Token} {lexed : Lexed}
    (h : Spells code B ts cs) (hts : ∀ t ∈ ts, t.kind ≠ .string) (hlex : lex code = some lexed) :
    (stringChars lexed.tokens).Sublist cs := by
  obtain ⟨l, hl, hstands⟩ := h
  obtain ⟨last, hlast, -, marks, htokens, hunplaced⟩ := lex_reaches hlex
  have hmarks : stringChars marks = [] := by
    refine stringChars_eq_nil fun t ht hkind => hunplaced t ht ?_
    rw [Token.isPlaced, hkind]
    rfl
  have hread : ∀ t ∈ l.tokens, t.kind ≠ .string := by
    intro t ht
    have hkinds : l.tokens.reverse.map Token.kind = ts.map Token.kind := by
      have hbare : (l.tokens.reverse.map Token.bare).map Token.kind =
          (ts.map Token.bare).map Token.kind := congrArg (List.map Token.kind) hstands.tokens
      rwa [List.map_map, List.map_map] at hbare
    have hkind : t.kind ∈ ts.map Token.kind :=
      hkinds ▸ List.mem_map_of_mem (List.mem_reverse.mpr ht)
    obtain ⟨t', ht', heq⟩ := List.mem_map.mp hkind
    exact heq ▸ hts t' ht'
  rw [htokens, stringChars_append, hmarks, List.append_nil]
  have hunique : Relator.RightUnique fun l next : Lexer => l.step = some next :=
    fun _ _ _ hb hc => Option.some.inj (hb.symm.trans hc)
  rcases Relation.ReflTransGen.total_of_right_unique hunique hl hlast with hafter | hbefore
  · obtain ⟨us, hus, hsublist⟩ := Reaches.stringChars hafter
    have hfront : stringChars l.tokens.reverse = [] :=
      stringChars_eq_nil fun t ht => hread t (List.mem_reverse.mp ht)
    rw [hus, List.reverse_append, List.reverse_reverse, stringChars_append, hfront, List.nil_append,
      ← hstands.rest]
    exact (List.sublist_append_left _ _).trans hsublist
  · -- the text ends before the first string
    have hnone : stringChars last.tokens.reverse = [] := by
      refine stringChars_eq_nil fun t ht => hread t ?_
      exact (Reaches.tokens hbefore).subset (List.mem_reverse.mp ht)
    rw [hnone]
    exact List.nil_sublist cs

/-- Strings are longer than their values, each by two quotes at least. -/
theorem length_values_le {ts : List Token} {parts : List String}
    (hscanned : ∀ t ∈ ts, Scanned t.text.toList)
    (hvalues : ts.map (fun t => stringValue? t.text) = parts.map fun part => some (.text part)) :
    (parts.flatMap String.toList).length + 2 * ts.length ≤
      (ts.flatMap fun t => t.text.toList).length := by
  induction ts generalizing parts with
  | nil =>
    obtain rfl := List.map_eq_nil_iff.mp hvalues.symm
    exact le_rfl
  | cons t ts ih =>
    obtain ⟨part, parts, rfl, hpart, hparts⟩ := List.map_eq_cons_iff.mp hvalues.symm
    obtain ⟨ht, hts⟩ := List.forall_mem_cons.mp hscanned
    have hvalue := length_value_le ht.wrapped hpart.symm
    have hmore := ih hts hparts.symm
    simp only [List.flatMap_cons, List.length_append, List.length_cons]
    omega

/-- A list that ends in a quote ends in front of what holds none. -/
theorem sublist_of_quote {cs front behind : List Char} {q : Char} (hq : isQuote q = true)
    (h : (cs ++ [q]).Sublist (front ++ behind)) (hbehind : ∀ c ∈ behind, isQuote c = false) :
    (cs ++ [q]).Sublist front := by
  obtain ⟨us, vs, heq, hus, hvs⟩ := List.sublist_append_iff.mp h
  cases List.eq_nil_or_concat vs with
  | inl hnil =>
    rw [hnil, List.append_nil] at heq
    rw [heq]
    exact hus
  | inr hlast =>
    obtain ⟨ws, r, rfl⟩ := hlast
    rw [List.concat_eq_append, ← List.append_assoc] at heq
    obtain ⟨-, hr⟩ := List.append_inj' heq rfl
    obtain ⟨rfl, -⟩ := List.cons.inj hr
    have hquote := hbehind q (hvs.subset (by simp))
    rw [hq] at hquote
    cases hquote

/-- Strings in a row are among the strings of the whole. -/
theorem sublist_stringChars {ts us : List Token} (h : ts <:+: us) (hts : ∀ t ∈ ts, t.kind = .string) :
    (ts.flatMap fun t => t.text.toList).Sublist (stringChars us) := by
  obtain ⟨before, after, rfl⟩ := h
  have hstrings : stringChars ts = ts.flatMap fun t => t.text.toList := by
    rw [stringChars, List.filter_eq_self.mpr (by simpa using hts)]
  rw [stringChars_append, stringChars_append, hstrings]
  exact (List.sublist_append_right _ _).trans (List.sublist_append_left _ _)

/-- The last character of strings in a row is a quote. -/
theorem exists_last_quote {ts : List Token} (hne : ts ≠ [])
    (hscanned : ∀ t ∈ ts, Scanned t.text.toList) :
    ∃ cs q, (ts.flatMap fun t => t.text.toList) = cs ++ [q] ∧ isQuote q = true := by
  rcases List.eq_nil_or_concat ts with hnil | ⟨us, t, rfl⟩
  · exact absurd hnil hne
  · obtain ⟨letters, a, body, b, htext, -, -, hb⟩ := (hscanned t (by simp)).wrapped
    refine ⟨(us.flatMap fun t => t.text.toList) ++ (letters ++ a :: body), b, ?_, hb⟩
    simp [htext]

/-- The label of a column is a string in the tree. -/
theorem exists_label {target receiver : Node} {label : String}
    (h : Rule.assignedColumn target = some (receiver, label)) :
    ∃ n ∈ target.preorder, n.kind = .literal ∧ n.literal = some (.text label) := by
  have hkey : ∀ {n : Node}, Frame.isColumnKey n = true → n.text? = some label →
      n.kind = .literal ∧ n.literal = some (.text label) := by
    intro n hn htext
    refine ⟨of_decide_eq_true (Bool.and_eq_true_iff.mp hn).1, ?_⟩
    unfold Node.text? Value.text? at htext
    split at htext
    next s hs =>
      cases htext
      exact hs
    next => cases htext
  unfold Rule.assignedColumn at h
  obtain ⟨-, h⟩ := Option.ite_none_left_eq_some.mp h
  obtain ⟨r, -, h⟩ := Option.bind_eq_some_iff.mp h
  obtain ⟨index, hindex, h⟩ := Option.bind_eq_some_iff.mp h
  have hchild : index ∈ target.children := List.mem_of_find?_eq_some hindex
  by_cases hname : (r.kind = .name && Frame.isColumnKey index) = true
  · rw [if_pos hname] at h
    obtain ⟨s, hs, h⟩ := Option.bind_eq_some_iff.mp h
    cases h
    exact ⟨index, Node.mem_preorder_of_child hchild index.self_mem_preorder,
      hkey (Bool.and_eq_true_iff.mp hname).2 hs⟩
  · -- the column is the second of two indices
    rw [if_neg hname] at h
    obtain ⟨-, h⟩ := Option.ite_none_right_eq_some.mp h
    obtain ⟨frame, -, h⟩ := Option.bind_eq_some_iff.mp h
    obtain ⟨-, h⟩ := Option.ite_none_left_eq_some.mp h
    split at h
    next rows column hchildren =>
      obtain ⟨hcolumn, h⟩ := Option.ite_none_right_eq_some.mp h
      obtain ⟨s, hs, h⟩ := Option.bind_eq_some_iff.mp h
      cases h
      refine ⟨column, Node.mem_preorder_of_child hchild ?_, hkey hcolumn hs⟩
      exact Node.mem_preorder_of_child (by simp [hchildren]) column.self_mem_preorder
    next => cases h

/-- Soundness: a fix that names the same column has a label that stands for itself. -/
theorem standsForItself_of_assignsColumn {frame label : String}
    (hframe : Text.isIdentifier frame.toList = true)
    (h : AssignsColumn (pastedFix frame label) frame label) : standsForItself label.toList = true := by
  obtain ⟨source, root, assignment, target, receiver, hparse, hnode, hroot, -, htargets, hcolumn, -⟩ := h
  obtain ⟨lexed, hlex, hgrown⟩ := source_grown hparse hnode
  -- the label comes from strings in a row
  obtain ⟨n, hn, hkind, hliteral⟩ := exists_label hcolumn
  have hmem : n ∈ root.preorder := by
    have htarget : target ∈ assignment.children := by
      have hall : target ∈ assignment.childrenIn Role.target := by simp [htargets]
      exact (List.mem_filter.mp hall).1
    exact Node.mem_preorder_of_child (by simp [hroot]) (Node.mem_preorder_of_child htarget hn)
  obtain ⟨ts, parts, hne, hwithin, hstrings, hvalues, hlabel⟩ :=
    text_of_stems (hgrown n hmem (by simp [Node.isStem, hkind])) hkind hliteral
  -- these lie between the bracket and the last quote
  obtain ⟨line, column, hchars⟩ := chars_pastedFix label hframe
  have hscanned : ∀ t ∈ ts, Scanned t.text.toList :=
    fun t ht => lexed_scanned hlex t (hwithin.subset ht) (hstrings t ht)
  have hsublist : (ts.flatMap fun t => t.text.toList).Sublist
      ('"' :: ((glyphsFrom line column label.toList).map Glyph.char ++ ['"'])) := by
    have hall : (ts.flatMap fun t => t.text.toList).Sublist
        (('"' :: ((glyphsFrom line column label.toList).map Glyph.char ++ ['"'])) ++ behindLabel.tail) := by
      have hspells := spells_front hframe hchars
      refine (sublist_stringChars hwithin hstrings).trans ?_
      simpa [behindLabel] using stringChars_sublist hspells (by simp) hlex
    obtain ⟨cs, q, heq, hq⟩ := exists_last_quote hne hscanned
    rw [heq] at hall ⊢
    exact sublist_of_quote hq hall (by simp [behindLabel, isQuote])
  have hcount := length_values_le hscanned hvalues
  rw [← hlabel] at hcount
  have hle := hsublist.length_le
  have hglyphs := length_glyphsFrom_le line column label.toList
  simp only [List.length_cons, List.length_append, List.length_map, List.length_nil] at hle
  -- so there is only one, and it has all the characters there
  obtain ⟨t, rfl⟩ : ∃ t, ts = [t] := by
    have hpos := List.length_pos_iff.mpr hne
    exact List.length_eq_one_iff.mp (by omega)
  obtain ⟨part, rfl⟩ : ∃ part, parts = [part] := by
    have hlength := congrArg List.length hvalues
    simp only [List.length_map] at hlength
    exact List.length_eq_one_iff.mp hlength.symm
  simp only [List.flatMap_singleton, List.map_cons, List.map_nil, List.length_cons, List.length_nil,
    List.cons.injEq, and_true] at hvalues hlabel hsublist hcount hle
  obtain rfl := String.toList_inj.mp hlabel
  have htext := hsublist.eq_of_length (by simp; omega)
  have hreturn : ∀ c ∈ (glyphsFrom line column label.toList).map Glyph.char, c ≠ '\r' := by
    intro c hc
    obtain ⟨g, hg, rfl⟩ := List.mem_map.mp hc
    exact char_ne_of_mem_glyphsFrom hg
  have hstands := standsForItself_of_value (hscanned t List.mem_cons_self) htext hreturn hvalues
    (by rw [List.length_map]; exact hglyphs)
  rw [hstands.2]
  exact hstands.1

end Sound

end Script

/-! ## The rule -/

/-- Wherever the rule on filler values is applied in the walk over a tree, each of its findings is
    about a target that assigns a column, and offers a fix. The fix is read as a single
    assignment to the same column of the same frame if and only if the label stands for itself
    between double quotes. -/
theorem filler_fix_same_column_iff {root : Node} {stop : Stop}
    (hstop : stop ∈ (itinerary root).stops) {source : Option SourceText} {findings : List Finding}
    (h : Rule.fillerColumn stop.site ⟨stop.tracker, source⟩ = .ok findings) {f : Finding}
    (hf : f ∈ findings) :
    ∃ target ∈ stop.site.node.childrenIn Role.target, ∃ frame label fix,
      Rule.assignedColumn target = some (frame, label) ∧ f.span = some target.span ∧
      f.fix = some fix ∧
      ∀ id, frame.name = some id → Text.isIdentifier id.toList = true →
        keywords.contains id = false →
        (AssignsColumn fix id label ↔ standsForItself label.toList = true) := by
  have hproper : stop.tracker.Proper fun _ => True :=
    moments_proper (fun _ => trivial) (fun _ _ _ => trivial) stop (itinerary_subset_moments root hstop)
  obtain ⟨target, htarget, frame, label, b, shown, hcolumn, hframe, rfl⟩ :=
    Rule.fillerColumn_findsAtTargets.mem h hf
  refine ⟨target, htarget, frame, label, _, hcolumn, rfl, rfl, ?_⟩
  intro id hname hid hkeyword
  have hresolved : stop.tracker.frameOf (some frame) = .ok (some b) := by
    cases hresult : stop.tracker.frameOf (some frame) with
    | error fault =>
      rw [View.frameOf, hresult] at hframe
      cases hframe
    | ok found =>
      rw [View.frameOf, hresult] at hframe
      cases hframe
      rfl
  -- the binding goes by the name of the frame, so the fix begins with it
  have hbinding : b.name = some id := by
    unfold Tracker.frameOf at hresolved
    dsimp only at hresolved
    split at hresolved
    · exact (hproper.resolve hresolved).1.trans hname
    · cases hresolved
  rw [hbinding]
  exact ⟨standsForItself_of_assignsColumn hid, assignsColumn_pasted hid hkeyword⟩

/-! ### Two labels -/

/-- A frame is read, and a column of it is filled with zeros. -/
def zeroedColumn (label : String) : Node :=
  let name (role id : String) : Node :=
    { kind := .name, span := ⟨1, 1, 1, 1⟩, role := role, name := some id }
  let read : Node :=
    { kind := .call, span := ⟨1, 1, 1, 1⟩, role := Role.value,
      children := [name Role.func "read_csv"] }
  let column : Node :=
    { kind := .subscript, span := ⟨1, 1, 1, 1⟩, role := Role.target, children :=
      [name Role.receiver "df",
        { kind := .literal, span := ⟨1, 1, 1, 1⟩, role := Role.index,
          literal := some (.text label) }] }
  { kind := .module, span := ⟨1, 1, 1, 1⟩, children :=
    [{ kind := .assignment, span := ⟨1, 1, 1, 1⟩, children := [name Role.target "df", read] },
      { kind := .assignment, span := ⟨1, 1, 1, 1⟩, children :=
        [column, { kind := .literal, span := ⟨1, 1, 1, 1⟩, role := Role.value,
                   literal := some (.int 0) }] }] }

/-- A backslash in front of a letter that begins no escape is kept. -/
theorem digits_label_kept :
    ∃ stop ∈ (itinerary (zeroedColumn "net\\d")).stops, ∃ findings f fix,
      Rule.fillerColumn stop.site ⟨stop.tracker, none⟩ = .ok findings ∧ f ∈ findings ∧
      f.fix = some fix ∧ AssignsColumn fix "df" "net\\d" := by
  have hfound : ∃ stop ∈ (itinerary (zeroedColumn "net\\d")).stops,
      ((Rule.fillerColumn stop.site ⟨stop.tracker, none⟩).toOption.getD []).isEmpty = false := by
    decide +kernel
  have hcolumns : ∀ stop ∈ (itinerary (zeroedColumn "net\\d")).stops,
      ∀ target ∈ stop.site.node.childrenIn Role.target, ∀ column ∈ Rule.assignedColumn target,
        column.1.name = some "df" ∧ column.2 = "net\\d" := by
    decide +kernel
  obtain ⟨stop, hstop, hsome⟩ := hfound
  cases hfindings : Rule.fillerColumn stop.site ⟨stop.tracker, none⟩ with
  | error crash =>
    rw [hfindings] at hsome
    cases hsome
  | ok findings =>
    cases findings with
    | nil =>
      rw [hfindings] at hsome
      cases hsome
    | cons f rest =>
      obtain ⟨target, htarget, frame, label, fix, hcolumn, -, hfix, hiff⟩ :=
        filler_fix_same_column_iff hstop hfindings List.mem_cons_self
      obtain ⟨hname, rfl⟩ := hcolumns stop hstop target htarget (frame, label) hcolumn
      have hassigns := (hiff "df" hname (by decide +kernel) (by decide)).mpr (by decide)
      exact ⟨stop, hstop, f :: rest, f, fix, hfindings, List.mem_cons_self, hfix, hassigns⟩

/-- A quote in a label ends the string early, and the fix is no script. -/
theorem quote_label_broken :
    (∃ stop ∈ (itinerary (zeroedColumn "a\"b")).stops,
      (Rule.fillerColumn stop.site ⟨stop.tracker, none⟩).toOption.map (List.map Finding.fix) =
        some [some "df[\"a\"b\"] = pd.NA"]) ∧
      ¬AssignsColumn "df[\"a\"b\"] = pd.NA" "df" "a\"b" := by
  constructor
  · decide +kernel
  · rintro ⟨source, -, -, -, -, hparse, -⟩
    have hnone : (parse "df[\"a\"b\"] = pd.NA").isNone = true := by decide +kernel
    rw [hparse] at hnone
    cases hnone

end Framewise
