import Framewise.Proofs.BareSyntax
import Framewise.Proofs.LexerSteps

/-! # Lexing a text that has been put together

  A text that is put together from words and operators is lexed piece by piece.
  Between two pieces the lexer stands in the middle of a line; what it has read so
  far is known but for the places of the tokens.

  Main definitions:
  - `Lexer.Stands`: a lexer between two pieces.
  - `Spells`: what the lexer of a text has come to.

  Main results: `Spells.start`, `Spells.lexed`.
-/

namespace Framewise.Script

/-! ## Strings -/

theorem startsWithThree_iff {quote : Char} {gs : List Glyph} :
    startsWithThree quote gs = true ↔ (gs.take 3).map Glyph.char = [quote, quote, quote] := by
  rcases gs with - | ⟨a, - | ⟨b, - | ⟨c, gs⟩⟩⟩ <;> simp [startsWithThree, and_assoc]

theorem length_of_three {quote : Char} {gs : List Glyph} (h : startsWithThree quote gs = true) :
    3 ≤ gs.length := by
  have hlength := congrArg List.length (startsWithThree_iff.mp h)
  rw [List.length_map, List.length_take] at hlength
  simp only [List.length_cons, List.length_nil] at hlength
  omega

theorem openingQuotes_cons (a : Glyph) (gs : List Glyph) :
    openingQuotes (a :: gs) =
      if isQuote a.char then
        if startsWithThree a.char (a :: gs) then some ((a :: gs).take 3, (a :: gs).drop 3)
        else some ([a], gs)
      else none := by
  rcases gs with - | ⟨b, - | ⟨c, gs⟩⟩
  · rfl
  · rfl
  · have hthree : (decide (a.char = b.char) && decide (b.char = c.char)) =
        startsWithThree a.char (a :: b :: c :: gs) := by
      rw [Bool.eq_iff_iff]
      simp [startsWithThree]
      grind
    rw [openingQuotes, hthree]
    rfl

/-- What stands behind a backslash in a string, and the rest of the string. -/
def escapedTail (quote : Char) (triple : Bool) (g : Glyph) : List Glyph → Option Lexeme
  | h :: gs => (stringTail quote triple gs).map (Lexeme.after [g, h])
  | [] => none

theorem stringTail_cons (quote : Char) (triple : Bool) (g : Glyph) (gs : List Glyph) :
    stringTail quote triple (g :: gs) =
      if g.char = '\\' then escapedTail quote triple g gs
      else if g.char = quote && !triple then some ([g], gs)
      else if startsWithThree quote (g :: gs) then some ((g :: gs).take 3, (g :: gs).drop 3)
      else if g.char = '\n' && !triple then none
      else (stringTail quote triple gs).map (Lexeme.after [g]) := by
  cases gs <;> rw [stringTail] <;> rfl

/-- Opening quotes begin with a quote. -/
theorem openingQuotes_head (gs : List Glyph) :
    Yields (fun l => ∀ g ∈ l.1.head?, isQuote g.char = true) (openingQuotes gs) := by
  cases gs with
  | nil => exact .none
  | cons a gs =>
    rw [openingQuotes_cons]
    refine .ite (fun hquote => .ite (fun _ => .some ?_) fun _ => .some ?_) fun _ => .none
    · rintro _ ⟨⟩
      exact hquote
    · rintro _ ⟨⟩
      exact hquote

namespace Lexer

variable {l n last : Lexer}

/-! ## Steps -/

theorem wordOrString_eq (l : Lexer) :
    l.wordOrString =
      if startsWithDigit isQuote (l.rest.dropWhile isWordGlyph) &&
          isFormatLetters (lowered (l.rest.takeWhile isWordGlyph)) then
        l.openFormat (l.rest.takeWhile isWordGlyph) (l.rest.dropWhile isWordGlyph)
      else if startsWithDigit isQuote (l.rest.dropWhile isWordGlyph) &&
          isStringLetters (lowered (l.rest.takeWhile isWordGlyph)) then
        (scanString (l.rest.dropWhile isWordGlyph)).bind fun t =>
          some (l.emit .string (l.rest.takeWhile isWordGlyph ++ t.1) t.2)
      else (scanWord l.rest).bind fun t => some (l.emit .word ([] ++ t.1) t.2) := by
  unfold wordOrString
  cases l.rest.dropWhile isWordGlyph <;> rfl

theorem openFormat_eq (l : Lexer) (letters rest : List Glyph) :
    l.openFormat letters rest = (openingQuotes rest).bind fun t => t.1.head?.bind fun first =>
      some { l.emit .formatOpen (letters ++ t.1) t.2 with
        frames := { quote := first.char, triple := t.1.length = 3,
                    raw := letters.any fun g => g.char.toLower = 'r' } :: l.frames } := rfl

/-- True for an opening bracket. -/
def opensBracket (c : Char) : Bool := c = '(' || c = '[' || c = '\x7b'

/-- True for a closing bracket. -/
def closesBracket (c : Char) : Bool := c = ')' || c = ']' || c = '\x7d'

theorem operator_eq (l : Lexer) (g : Glyph) (gs : List Glyph) :
    l.operator g gs =
      if g.char = ':' && l.beginsFormat then
        some ((l.emit .operator [g] gs).updateFrame fun f => { f with formats := f.formats + 1 })
      else (scanOperator (g :: gs)).bind fun t =>
        if opensBracket g.char then some ((l.emit .operator t.1 t.2).openBracket g.char)
        else if closesBracket g.char then (l.emit .operator t.1 t.2).closeBracket g.char
        else some (l.emit .operator t.1 t.2) := rfl

theorem tokens_updateFrame (l : Lexer) (change : FormatFrame → FormatFrame) :
    (l.updateFrame change).tokens = l.tokens := by
  unfold updateFrame
  split <;> rfl

theorem rest_updateFrame (l : Lexer) (change : FormatFrame → FormatFrame) :
    (l.updateFrame change).rest = l.rest := by
  unfold updateFrame
  split <;> rfl

theorem closeBracket_keeps {c : Char} (h : l.closeBracket c = some n) :
    n.rest = l.rest ∧ n.tokens = l.tokens := by
  unfold closeBracket at h
  split at h
  · obtain ⟨-, heq⟩ := Option.ite_none_right_eq_some.mp h
    cases heq
    exact ⟨rest_updateFrame l _, tokens_updateFrame l _⟩
  · cases h

theorem step_of_beginLine (hpart : l.formatPart? = none) (hbroken : l.brokenFormat = false)
    (hline : l.atLineStart = true) : l.step = l.beginLine := by
  unfold step
  rw [hpart]
  exact (if_neg (by simp [hbroken])).trans (if_pos hline)

theorem step_of_token (hpart : l.formatPart? = none) (hbroken : l.brokenFormat = false)
    (hline : l.atLineStart = false) {g : Glyph} {gs : List Glyph}
    (hrest : (l.rest.dropWhile fun g => isGap g.char) = g :: gs) :
    l.step = { l with rest := g :: gs }.token g gs := by
  unfold step
  rw [hpart, hrest]
  exact (if_neg (by simp [hbroken])).trans (if_neg (by simp [hline]))

theorem Reaches.tokens (h : Reaches l n) : l.tokens <:+ n.tokens := by
  induction h with
  | refl => exact List.suffix_rfl
  | tail _ hstep ih =>
    refine ih.trans ?_
    rcases step_advances _ _ hstep with ⟨kind, blank, gs, h⟩ | h
    · rw [h.tokens]
      exact List.suffix_cons _ _
    · obtain ⟨marks, hmarks, -⟩ := h.tokens
      rw [hmarks]
      exact List.suffix_append marks _

/-! ## Enough steps -/

/-- Twice the glyphs that are left, and one more where a line has still to begin. -/
def todo (l : Lexer) : Nat := 2 * l.rest.length + if l.atLineStart then 1 else 0

theorem todo_le (l : Lexer) : l.todo ≤ 2 * l.rest.length + 1 := by
  unfold todo
  split <;> omega

/-- A step that takes glyphs and does not begin a line leaves less to do. -/
theorem todo_lt_of_rest (h : n.rest.length < l.rest.length) : n.todo < l.todo := by
  have := todo_le n
  unfold todo at this ⊢
  omega

theorem length_skipComment_lt {g : Glyph} {gs : List Glyph} (hrest : l.rest = g :: gs)
    (hg : g.char = '#') : l.skipComment.rest.length < l.rest.length := by
  have hcomment : l.skipComment.rest = l.rest.dropWhile fun h => h.char != '\n' := by
    unfold skipComment
    rw [hrest]
  rw [hcomment, hrest, List.dropWhile_cons_of_pos (by simp [hg])]
  exact Nat.lt_succ_of_le (List.dropWhile_suffix _).length_le

theorem beginLine_todo (hne : l.rest ≠ []) (hline : l.atLineStart = true) :
    Yields (fun n => n.todo < l.todo) l.beginLine := by
  have hlength := List.length_pos_iff.mpr hne
  have hdrop := (List.dropWhile_suffix (l := l.rest) fun g => isGap g.char).length_le
  -- where the line has begun, one less is to be done
  have hbegun : ∀ {n : Lexer}, n.rest.length ≤ l.rest.length → n.atLineStart = false →
      n.todo < l.todo := by
    intro n hle hn
    unfold todo
    rw [hn, hline]
    simp
    omega
  unfold beginLine
  simp only
  split
  next hnil =>
    refine .some (todo_lt_of_rest ?_)
    simpa [hnil] using hlength
  next g gs hrest =>
    rw [hrest, List.length_cons] at hdrop
    refine .ite (fun _ => .some (todo_lt_of_rest hdrop)) fun _ => ?_
    refine .ite (fun hhash => .some (todo_lt_of_rest ?_)) fun _ => ?_
    · refine lt_of_lt_of_le (length_skipComment_lt hrest hhash) ?_
      rw [hrest]
      simpa using hdrop
    refine .ite (fun _ => .some (hbegun ?_ rfl)) fun _ => ?_
    · show (l.rest.dropWhile _).length ≤ _
      rw [hrest]
      simpa using hdrop
    refine .ite (fun _ => ?_) fun _ => ?_
    · split
      next h rest =>
        refine .ite (fun _ => .none) fun _ => ?_
        have hless : (rest.dropWhile fun g => isGap g.char).length < l.rest.length := by
          have hle := (List.dropWhile_suffix (l := rest) fun g => isGap g.char).length_le
          rw [List.length_cons] at hdrop
          omega
        refine .ite (fun _ => .some (todo_lt_of_rest hless)) fun _ => .some (todo_lt_of_rest ?_)
        unfold setMargin
        split <;> exact hless
      next => exact .none
    · -- the indentation is settled, and the line begins
      refine (indentTo_skips _ _).map fun n hn => ?_
      obtain ⟨skipped, hskipped⟩ := hn.rest
      have hle : n.rest.length ≤ l.rest.length := by
        have hall := congrArg List.length hskipped
        rw [List.length_append] at hall
        change (l.rest.dropWhile _).length = _ at hall
        rw [hrest, List.length_cons] at hall
        omega
      unfold setMargin
      split
      · exact hbegun hle rfl
      next hnil =>
        refine todo_lt_of_rest ?_
        rw [hnil]
        exact hlength

/-- Every step from where glyphs are left leaves less to do. -/
theorem step_todo (hne : l.rest ≠ []) : Yields (fun n => n.todo < l.todo) l.step := by
  intro n hstep
  have hmakes : ∀ {l : Lexer}, Makes l n → n.rest.length < l.rest.length := by
    rintro l ⟨kind, blank, gs, h⟩
    have hpos := List.length_pos_iff.mpr h.nonempty
    rw [h.rest, List.length_append, List.length_append]
    omega
  rcases step_cases hstep with hpart | ⟨-, -, ⟨hline, hbegin⟩ | ⟨-, ⟨-, rfl⟩ | ⟨g, gs, hsome, htoken⟩⟩⟩
  · exact todo_lt_of_rest (hmakes (formatPart_makes l n hpart))
  · exact beginLine_todo hne hline n hbegin
  · exact todo_lt_of_rest (List.length_pos_iff.mpr hne)
  · have hle := (List.dropWhile_suffix (l := l.rest) fun g => isGap g.char).length_le
    rw [hsome] at hle
    rcases token_cases rfl htoken with ⟨hhash, rfl⟩ | ⟨-, rfl⟩ | ⟨k, rest, rfl, rfl⟩ | hmade
    · exact todo_lt_of_rest (lt_of_lt_of_le (length_skipComment_lt rfl hhash) hle)
    · exact todo_lt_of_rest (by split <;> exact hle)
    · exact todo_lt_of_rest (lt_trans (Nat.lt_succ_self _) hle)
    · exact todo_lt_of_rest (lt_of_lt_of_le (hmakes hmade) hle)

/-- Where no glyph is left, a step changes nothing. -/
theorem step_of_nil (h : l.rest = []) : l.step = some l := by
  obtain ⟨rest, atLineStart, brackets, levels, frames, marginLine, margin, written, dropped, tokens,
    comments⟩ := l
  cases h
  cases frames with
  | nil => cases atLineStart <;> rfl
  | cons f frames =>
    by_cases hf : f.inExpression = true
    · simp [step, formatPart?, brokenFormat, beginLine, hf]
    · simp [step, formatPart?, brokenFormat, beginLine, hf, formatText, FormatFrame.endsAt]

theorem Reaches.eq_of_nil (h : Reaches l n) (hnil : l.rest = []) : n = l := by
  induction h with
  | refl => rfl
  | tail _ hstep ih =>
    rw [ih, step_of_nil hnil] at hstep
    exact (Option.some.inj hstep).symm

/-- What can be reached is reached with as many steps as there is to do. -/
theorem run_of_reaches (h : Reaches l last) (hlast : last.rest = []) {fuel : Nat}
    (hfuel : l.todo ≤ fuel + 1) : run fuel l = some last := by
  induction h using Relation.ReflTransGen.head_induction_on generalizing fuel with
  | refl =>
    have hempty : last.rest.isEmpty = true := by rw [hlast, List.isEmpty_nil]
    cases fuel <;> exact if_pos hempty
  | head hstep hpath ih =>
    rename_i l n
    by_cases hnil : l.rest = []
    · obtain rfl := Reaches.eq_of_nil (.head hstep hpath) hnil
      have hempty : last.rest.isEmpty = true := by rw [hlast, List.isEmpty_nil]
      cases fuel <;> exact if_pos hempty
    · have hless := step_todo hnil n hstep
      have hempty : ¬l.rest.isEmpty = true := by simpa using hnil
      cases fuel with
      | zero =>
        have hpos := List.length_pos_iff.mpr hnil
        unfold todo at hfuel
        omega
      | succ fuel =>
        refine (if_neg hempty).trans ?_
        rw [hstep]
        exact ih (by omega)

/-! ## Between two pieces -/

/-- A lexer in the middle of a line, in no block and no formatted string, inside the brackets `B`,
    behind the like of the tokens `ts` and in front of the characters `cs`. -/
structure Stands (B : List Char) (ts : List Token) (cs : List Char) (l : Lexer) : Prop where
  atLineStart : l.atLineStart = false
  brackets : l.brackets = B
  levels : l.levels = []
  frames : l.frames = []
  tokens : Alike l.tokens.reverse ts
  rest : l.rest.map Glyph.char = cs

variable {B : List Char} {ts : List Token} {blank cs : List Char}

/-- The glyphs of blanks and of what follows them. -/
theorem Stands.split {front : List Char} (h : Stands B ts (front ++ cs) l) :
    ∃ gs rest, l.rest = gs ++ rest ∧ gs.map Glyph.char = front ∧ rest.map Glyph.char = cs := by
  obtain ⟨gs, rest, heq, hgs, hrest⟩ := List.map_eq_append_iff.mp h.rest
  exact ⟨gs, rest, heq, hgs, hrest⟩

/-- A step from between two pieces makes the token behind the blanks. -/
theorem Stands.step_eq (h : Stands B ts (blank ++ cs) l) (hblank : ∀ c ∈ blank, isGap c = true)
    {c : Char} {more : List Char} (hcs : cs = c :: more) (hc : isGap c = false) :
    ∃ g gs, g.char = c ∧ gs.map Glyph.char = more ∧
      l.step = { l with rest := g :: gs }.token g gs := by
  obtain ⟨before, rest, heq, hbefore, hrest⟩ := h.split
  subst hcs
  obtain ⟨g, gs, rfl, hg, hgs⟩ := List.map_eq_cons_iff.mp hrest
  refine ⟨g, gs, hg, hgs, step_of_token ?_ ?_ h.atLineStart ?_⟩
  · unfold formatPart?
    rw [h.frames]
  · unfold brokenFormat
    rw [h.frames]
  · have hgaps : ∀ k ∈ before, isGap k.char = true := by
      intro k hk
      refine hblank _ ?_
      rw [← hbefore]
      exact List.mem_map_of_mem hk
    rw [heq, List.dropWhile_append_of_pos hgaps, List.dropWhile_cons_of_neg (by simp [hg, hc])]

/-- A token made in the middle of a line. -/
theorem Stands.emit {before w after B' : List Char} (h : Stands B ts before l) {kind : TokenKind}
    {gs : List Glyph} {s : Span} (hbrackets : n.brackets = B') (hframes : n.frames = l.frames)
    (hline : n.atLineStart = l.atLineStart) (hlevels : n.levels = l.levels)
    (htokens : n.tokens = ⟨kind, textOf gs, s⟩ :: l.tokens) (hgs : gs.map Glyph.char = w)
    (hrest : n.rest.map Glyph.char = after) :
    Stands B' (ts ++ [⟨kind, String.ofList w, nowhere⟩]) after n where
  atLineStart := hline.trans h.atLineStart
  brackets := hbrackets
  levels := hlevels.trans h.levels
  frames := hframes.trans h.frames
  tokens := by
    rw [htokens, List.reverse_cons, textOf, hgs]
    exact h.tokens.append rfl
  rest := hrest

/-! ### Words -/

/-- A character that a word may hold. -/
def isWordChar (c : Char) : Bool := c.isAlphanum || c = '_' || 128 ≤ c.toNat

theorem isWordGlyph_eq (g : Glyph) : isWordGlyph g = isWordChar g.char := rfl

theorem isWordChar_of_continues {c : Char} (h : Text.continuesIdentifier c = true) :
    isWordChar c = true := by
  unfold Text.continuesIdentifier at h
  unfold isWordChar
  split at h
  · rw [h, Bool.true_or]
  next hge =>
    have hge : 128 ≤ c.toNat := by omega
    simp [hge]

theorem isWordChar_of_begins {c : Char} (h : Text.beginsIdentifier c = true) :
    isWordChar c = true ∧ c.isDigit = false := by
  unfold Text.beginsIdentifier at h
  unfold isWordChar Char.isAlphanum
  split at h
  · rcases Bool.or_eq_true_iff.mp h with halpha | hunderscore
    · refine ⟨by simp [halpha], ?_⟩
      have hletter : (decide (c.val ≥ 65 ∧ c.val ≤ 90) || c.val ≥ 97 && c.val ≤ 122) = true := halpha
      simp [UInt32.le_iff_toNat_le] at hletter
      simp [Char.isDigit, UInt32.le_iff_toNat_le]
      omega
    · obtain rfl := of_decide_eq_true hunderscore
      exact ⟨rfl, rfl⟩
  next hge =>
    have hge : 128 ≤ c.toNat := by omega
    refine ⟨by simp [hge], ?_⟩
    unfold Char.toNat at hge
    simp [Char.isDigit, UInt32.le_iff_toNat_le]
    omega

theorem isWordChar_of_isIdentifier {w : List Char} (h : Text.isIdentifier w = true) :
    ∀ c ∈ w, isWordChar c = true := by
  cases w with
  | nil => cases h
  | cons c w =>
    obtain ⟨hbegins, hcontinues⟩ := Bool.and_eq_true_iff.mp h
    refine List.forall_mem_cons.mpr ⟨(isWordChar_of_begins hbegins).1, fun d hd => ?_⟩
    exact isWordChar_of_continues (List.all_eq_true.mp hcontinues d hd)

/-- No blank, comment sign, line end or backslash is in a word. -/
theorem isWordChar_ne {c : Char} (h : isWordChar c = true) :
    isGap c = false ∧ c ≠ '#' ∧ c ≠ '\n' ∧ c ≠ '\\' := by
  have hne : ∀ d : Char, isWordChar d = false → c ≠ d := by
    rintro d hd rfl
    rw [hd] at h
    cases h
  refine ⟨?_, hne _ rfl, hne _ rfl, hne _ rfl⟩
  unfold isGap
  have hfeed : ¬c.toNat = 12 := by
    intro hcode
    refine hne (Char.ofNat 12) rfl ?_
    rw [← hcode, Char.ofNat_toNat]
  simp [hne ' ' rfl, hne '\t' rfl, hfeed]

/-- Where a word can begin, a word or a string with letters in front is read. -/
theorem token_of_word {g : Glyph} {gs : List Glyph} (h : beginsWord g = true) :
    l.token g gs = l.wordOrString := by
  obtain ⟨-, hhash, hnewline, hbackslash⟩ := isWordChar_ne (Bool.and_eq_true_iff.mp h).1
  exact (if_neg hhash).trans ((if_neg hnewline).trans ((if_neg hbackslash).trans (if_pos h)))

theorem takeWhile_word {ws rest : List Glyph} {w cs : List Char} (hws : ws.map Glyph.char = w)
    (hrest : rest.map Glyph.char = cs) (hw : ∀ c ∈ w, isWordChar c = true)
    (hcs : ∀ c ∈ cs.head?, isWordChar c = false) :
    (ws ++ rest).takeWhile isWordGlyph = ws ∧ (ws ++ rest).dropWhile isWordGlyph = rest := by
  have hall : ∀ g ∈ ws, isWordGlyph g = true := by
    intro g hg
    rw [isWordGlyph_eq]
    refine hw _ ?_
    rw [← hws]
    exact List.mem_map_of_mem hg
  rw [List.takeWhile_append_of_pos hall, List.dropWhile_append_of_pos hall]
  cases rest with
  | nil => simp
  | cons g rest =>
    have hg : ¬isWordGlyph g = true := by
      rw [isWordGlyph_eq, hcs g.char (by rw [← hrest]; rfl)]
      exact Bool.false_ne_true
    rw [List.takeWhile_cons_of_neg hg, List.dropWhile_cons_of_neg hg, List.append_nil]
    exact ⟨rfl, rfl⟩

theorem Stands.word {w : List Char} (h : Stands B ts (blank ++ (w ++ cs)) l)
    (hblank : ∀ c ∈ blank, isGap c = true) (hw : Text.isIdentifier w = true)
    (hcs : ∀ c ∈ cs.head?, isWordChar c = false ∧ isQuote c = false) :
    ∃ n, l.step = some n ∧ Stands B (ts ++ [⟨.word, String.ofList w, nowhere⟩]) cs n := by
  cases w with
  | nil => cases hw
  | cons c w =>
    obtain ⟨hc, hdigit⟩ := isWordChar_of_begins (Bool.and_eq_true_iff.mp hw).1
    have hall := isWordChar_of_isIdentifier hw
    obtain ⟨hgap, hhash, hnewline, hbackslash⟩ := isWordChar_ne hc
    obtain ⟨g, gs, hg, hgs, hstep⟩ := h.step_eq hblank List.cons_append hgap
    obtain ⟨ws, rest, rfl, hws, hrest⟩ := List.map_eq_append_iff.mp hgs
    obtain ⟨htake, hdrop⟩ := takeWhile_word (by rw [List.map_cons, hg, hws]) hrest hall
      fun d hd => (hcs d hd).1
    have hunquoted : startsWithDigit isQuote rest = false := by
      cases rest with
      | nil => rfl
      | cons k rest => exact (hcs k.char (by rw [← hrest]; rfl)).2
    have hword : beginsWord g = true := by
      rw [beginsWord, isWordGlyph_eq, hg, hc, hdigit]
      rfl
    have hscan : scanWord (g :: ws ++ rest) = some (g :: ws, rest) := by
      have hidentifier : Text.isIdentifier ((g :: ws).map Glyph.char) = true := by
        rw [List.map_cons, hg, hws]
        exact hw
      unfold scanWord
      rw [htake, hdrop]
      exact if_pos hidentifier
    have hstep : l.step = some ({ l with rest := g :: ws ++ rest }.emit .word (g :: ws) rest) := by
      rw [hstep, token_of_word hword, wordOrString_eq]
      show (if startsWithDigit isQuote ((g :: ws ++ rest).dropWhile isWordGlyph) && _ then _ else
        if startsWithDigit isQuote ((g :: ws ++ rest).dropWhile isWordGlyph) && _ then _ else
        (scanWord (g :: ws ++ rest)).bind _) = _
      rw [hdrop, hunquoted, Bool.false_and, Bool.false_and, if_neg Bool.false_ne_true,
        if_neg Bool.false_ne_true, hscan]
      rfl
    refine ⟨_, hstep, h.emit h.brackets rfl rfl rfl rfl ?_ hrest⟩
    rw [List.map_cons, hg, hws]

/-! ### Operators -/

/-- The characters that operators and brackets begin with. -/
def signs : List Char :=
  ['(', ')', '[', ']', '\x7b', '\x7d', ',', '=', '.', ':', ';', '*', '/', '%', '@', '+', '-', '~',
    '<', '>', '&', '^', '|', '!']

/-- True for a character that an operator or bracket begins with. -/
def isSign (c : Char) : Bool := signs.contains c

theorem token_of_sign {g : Glyph} {gs : List Glyph} (h : isSign g.char = true)
    (hpoint : g.char = '.' → startsWithDigit Char.isDigit gs = false) :
    l.token g gs = l.operator g gs := by
  have hne : ∀ d : Char, isSign d = false → g.char ≠ d := by
    intro d hd heq
    rw [heq, hd] at h
    cases h
  have hother : ∀ w : Char → Bool, signs.all (!w ·) = true → ¬w g.char = true := fun w hw => by
    simpa using List.all_eq_true.mp hw _ (List.contains_iff_mem.mp h)
  have hword : ¬beginsWord g = true := by
    rw [beginsWord, isWordGlyph_eq]
    exact hother (fun c => isWordChar c && !c.isDigit) (by decide +kernel)
  have hnumber : ¬(g.char.isDigit || (g.char = '.' && startsWithDigit Char.isDigit gs)) = true := by
    have hdigit := hother Char.isDigit (by decide +kernel)
    simp only [Bool.or_eq_true, Bool.and_eq_true, decide_eq_true_eq, not_or, not_and]
    exact ⟨hdigit, fun hchar => by simp [hpoint hchar]⟩
  exact (if_neg (hne '#' rfl)).trans ((if_neg (hne '\n' rfl)).trans ((if_neg (hne '\\' rfl)).trans
    ((if_neg hword).trans ((if_neg hnumber).trans (if_neg (hother isQuote (by decide +kernel)))))))

/-- The characters `o` are the longest operator in front of the characters `cs`. -/
def Scans (o cs : List Char) : Prop :=
  ∀ gs rest : List Glyph, gs.map Glyph.char = o → rest.map Glyph.char = cs →
    scanOperator (gs ++ rest) = some (gs, rest)

/-- The open brackets after an operator or bracket. -/
def bracketsAfter (c : Char) (B : List Char) : Option (List Char) :=
  if opensBracket c then some (c :: B)
  else if closesBracket c then if B.head?.map closingOf = some c then some B.tail else none
  else some B

theorem updateFrame_of_nil (h : l.frames = []) (change : FormatFrame → FormatFrame) :
    l.updateFrame change = l := by
  unfold updateFrame
  rw [h]

theorem openBracket_of_nil (h : l.frames = []) (c : Char) :
    l.openBracket c = { l with brackets := c :: l.brackets } := by
  rw [openBracket, updateFrame_of_nil h]

theorem closeBracket_of_nil (h : l.frames = []) {c : Char}
    (hc : l.brackets.head?.map closingOf = some c) :
    l.closeBracket c = some { l with brackets := l.brackets.tail } := by
  unfold closeBracket
  obtain ⟨opening, hopening, hclosing⟩ := Option.map_eq_some_iff.mp hc
  obtain ⟨outer, houter⟩ := List.head?_eq_some_iff.mp hopening
  rw [houter]
  refine (if_pos hclosing).trans ?_
  rw [updateFrame_of_nil h]
  rfl

theorem Stands.operator {c : Char} {o B' : List Char} (h : Stands B ts (blank ++ (c :: o ++ cs)) l)
    (hblank : ∀ c ∈ blank, isGap c = true) (hc : isSign c = true) (hscan : Scans (c :: o) cs)
    (hpoint : c = '.' → ∀ d ∈ (o ++ cs).head?, d.isDigit = false) (hB : bracketsAfter c B = some B') :
    ∃ n, l.step = some n ∧ Stands B' (ts ++ [⟨.operator, String.ofList (c :: o), nowhere⟩]) cs n := by
  have hsigns : signs.all (fun c => !isGap c) = true := by decide +kernel
  have hgap : isGap c = false := by
    simpa using List.all_eq_true.mp hsigns c (List.contains_iff_mem.mp hc)
  obtain ⟨g, gs, hg, hgs, hstep⟩ := h.step_eq hblank List.cons_append hgap
  obtain ⟨os, rest, rfl, hos, hrest⟩ := List.map_eq_append_iff.mp hgs
  subst hg
  have hchars : (g :: os).map Glyph.char = g.char :: o := by rw [List.map_cons, hos]
  have hnumber : g.char = '.' → startsWithDigit Char.isDigit (os ++ rest) = false := by
    intro hchar
    cases hall : os ++ rest with
    | nil => rfl
    | cons k more =>
      refine hpoint hchar k.char ?_
      rw [← hos, ← hrest, ← List.map_append, hall]
      rfl
  have hoperator := hscan (g :: os) rest hchars hrest
  have hformat : { l with rest := g :: (os ++ rest) }.beginsFormat = false := by
    unfold beginsFormat
    rw [h.frames]
  rw [hstep, token_of_sign hc hnumber, operator_eq, if_neg (by simp [hformat]), ← List.cons_append,
    hoperator]
  have hframes : ({ l with rest := g :: os ++ rest }.emit .operator (g :: os) rest).frames = [] :=
    h.frames
  unfold bracketsAfter at hB
  by_cases hopens : opensBracket g.char = true
  · rw [if_pos hopens] at hB
    cases hB
    refine ⟨_, (if_pos hopens).trans (congrArg some (openBracket_of_nil hframes g.char)), ?_⟩
    exact h.emit (by rw [← h.brackets]; rfl) rfl rfl rfl rfl hchars hrest
  rw [if_neg hopens] at hB
  by_cases hcloses : closesBracket g.char = true
  · rw [if_pos hcloses] at hB
    obtain ⟨hhead, heq⟩ := Option.ite_none_right_eq_some.mp hB
    cases heq
    rw [← h.brackets] at hhead
    have hclose := closeBracket_of_nil hframes hhead
    refine ⟨_, (if_neg hopens).trans ((if_pos hcloses).trans hclose), ?_⟩
    exact h.emit (by rw [← h.brackets]; rfl) rfl rfl rfl rfl hchars hrest
  · rw [if_neg hcloses] at hB
    cases hB
    exact ⟨_, (if_neg hopens).trans (if_neg hcloses), h.emit h.brackets rfl rfl rfl rfl hchars hrest⟩

end Lexer

/-! ## Texts -/

/-- Where every line end is a line feed, the glyphs of a text are its characters. -/
theorem chars_glyphsFrom (line column : Nat) {cs : List Char} (h : ∀ c ∈ cs, c ≠ '\r') :
    (glyphsFrom line column cs).map Glyph.char = cs := by
  fun_induction glyphsFrom line column cs with
  | case1 => rfl
  | case2 line column cs ih => exact absurd rfl (h '\r' List.mem_cons_self)
  | case3 line column c cs _ hend ih =>
    obtain ⟨hc, hcs⟩ := List.forall_mem_cons.mp h
    have hnewline : c = '\n' := by simpa [hc] using hend
    rw [List.map_cons, ih hcs, hnewline]
  | case4 line column c cs _ _ ih =>
    rw [List.map_cons, ih (List.forall_mem_cons.mp h).2]

/-- A line end that is a carriage return and a line feed gives one glyph. -/
theorem length_glyphsFrom_le (line column : Nat) (cs : List Char) :
    (glyphsFrom line column cs).length ≤ cs.length := by
  fun_induction glyphsFrom line column cs with
  | case1 => exact le_rfl
  | case2 line column cs ih =>
    simp only [List.length_cons]
    omega
  | case3 line column c cs _ _ ih => exact Nat.succ_le_succ ih
  | case4 line column c cs _ _ ih => exact Nat.succ_le_succ ih

/-- No glyph is a carriage return. -/
theorem char_ne_of_mem_glyphsFrom {line column : Nat} {cs : List Char} {g : Glyph}
    (hg : g ∈ glyphsFrom line column cs) : g.char ≠ '\r' := by
  fun_induction glyphsFrom line column cs with
  | case1 => cases hg
  | case2 line column cs ih =>
    rcases List.mem_cons.mp hg with rfl | hg
    · show '\n' ≠ '\r'
      decide
    · exact ih hg
  | case3 line column c cs _ _ ih =>
    rcases List.mem_cons.mp hg with rfl | hg
    · show '\n' ≠ '\r'
      decide
    · exact ih hg
  | case4 line column c cs _ hend ih =>
    rcases List.mem_cons.mp hg with rfl | hg
    · rintro rfl
      exact hend rfl
    · exact ih hg

/-- Glyphs can be taken in two parts, unless a line end would be cut in two. -/
theorem glyphsFrom_append (line column : Nat) (cs rest : List Char)
    (h : (∀ c ∈ cs, c ≠ '\r') ∨ ∀ c ∈ rest.head?, c ≠ '\n') :
    ∃ line' column', glyphsFrom line column (cs ++ rest) =
      glyphsFrom line column cs ++ glyphsFrom line' column' rest := by
  -- what is no pair stays none with more behind it
  have hpaired : ∀ {c : Char} {cs : List Char}, (∀ more, c = '\r' → cs = '\n' :: more → False) →
      ((∀ d ∈ c :: cs, d ≠ '\r') ∨ ∀ d ∈ rest.head?, d ≠ '\n') →
      ∀ more, c = '\r' → cs ++ rest = '\n' :: more → False := by
    intro c cs hpair h more hc heq
    cases cs with
    | nil =>
      rcases h with h | h
      · exact h c List.mem_cons_self hc
      · exact h '\n' (by rw [List.nil_append] at heq; rw [heq]; rfl) rfl
    | cons d cs =>
      obtain ⟨rfl, -⟩ := List.cons.inj heq
      exact hpair cs hc rfl
  fun_induction glyphsFrom line column cs with
  | case1 line column => exact ⟨line, column, rfl⟩
  | case2 line column cs ih =>
    obtain ⟨line', column', heq⟩ := ih (h.imp_left fun h => absurd rfl (h '\r' List.mem_cons_self))
    refine ⟨line', column', ?_⟩
    rw [List.cons_append, List.cons_append, glyphsFrom, heq]
    rfl
  | case3 line column c cs hpair hend ih =>
    obtain ⟨line', column', heq⟩ := ih (h.imp_left fun h => (List.forall_mem_cons.mp h).2)
    refine ⟨line', column', ?_⟩
    rw [List.cons_append, glyphsFrom.eq_3 _ _ _ _ (hpaired hpair h), if_pos hend, heq]
    rfl
  | case4 line column c cs hpair hend ih =>
    obtain ⟨line', column', heq⟩ := ih (h.imp_left fun h => (List.forall_mem_cons.mp h).2)
    refine ⟨line', column', ?_⟩
    rw [List.cons_append, glyphsFrom.eq_3 _ _ _ _ (hpaired hpair h), if_neg hend, heq]
    rfl

/-- A text that begins with a word has no mark in front. -/
theorem glyphsOf_of_begins {code : String} {c : Char} {cs : List Char} (hcode : code.toList = c :: cs)
    (hc : Text.beginsIdentifier c = true) : glyphsOf code = glyphsFrom 1 1 (c :: cs) := by
  have hmark : ¬c.toNat = 0xFEFF := by
    intro hcode
    have hbegins : Text.beginsIdentifier (Char.ofNat 0xFEFF) = true := by
      rw [← hcode, Char.ofNat_toNat]
      exact hc
    have hnot : Text.beginsIdentifier (Char.ofNat 0xFEFF) = false := by decide +kernel
    rw [hnot] at hbegins
    cases hbegins
  rw [glyphsOf, hcode, dropByteOrderMark, if_neg hmark]

/-- The lexer of a text comes to stand behind the like of the tokens `ts`, inside the brackets `B`
    and in front of the characters `cs`. -/
def Spells (code : String) (B : List Char) (ts : List Token) (cs : List Char) : Prop :=
  ∃ l, Lexer.Reaches { rest := glyphsOf code } l ∧ l.Stands B ts cs

namespace Spells

open Lexer

variable {code : String} {B B' : List Char} {ts us : List Token} {cs : List Char}

/-- A text that begins with a word begins a line. -/
theorem start {w : List Char} (hchars : (glyphsOf code).map Glyph.char = w ++ cs)
    (hw : Text.isIdentifier w = true) : Spells code [] [] (w ++ cs) := by
  cases w with
  | nil => cases hw
  | cons c w => ?_
  obtain ⟨g, gs, hglyphs, hg, hgs⟩ := List.map_eq_cons_iff.mp hchars
  obtain ⟨hword, -⟩ := isWordChar_of_begins (Bool.and_eq_true_iff.mp hw).1
  obtain ⟨hgap, hhash, hnewline, hbackslash⟩ := isWordChar_ne hword
  rw [← hg] at hgap hhash hnewline hbackslash
  -- the first line is not indented
  have hstep : ({ rest := g :: gs } : Lexer).step =
      some { rest := g :: gs, atLineStart := false, marginLine := g.line, written := g.column - 1 } := by
    rw [step_of_beginLine rfl rfl rfl]
    simp [beginLine, hgap, hnewline, hhash, hbackslash, indentTo, widths, currentWidths, setMargin,
      currentBlank]
  refine ⟨{ rest := g :: gs, atLineStart := false, marginLine := g.line, written := g.column - 1 },
    .single ?_, rfl, rfl, rfl, rfl, rfl, ?_⟩
  · rw [hglyphs]
    exact hstep
  · rw [← hchars, hglyphs]

/-- A text that has been read to its end has these tokens, and the end of the line. -/
theorem lexed (h : Spells code [] ts []) :
    ∃ lexed, lex code = some lexed ∧ Alike lexed.tokens (ts ++ [{ kind := .newline }]) := by
  obtain ⟨l, hreaches, hl⟩ := h
  have hrun : run (2 * (glyphsOf code).length) { rest := glyphsOf code } = some l :=
    run_of_reaches hreaches (List.map_eq_nil_iff.mp hl.rest) (todo_le _)
  have hfinish : l.finish = l.mark .newline := by
    unfold finish
    rw [hl.atLineStart]
    show closeLevels 0 l.levels (l.mark .newline) = _
    rw [hl.levels]
    rfl
  refine ⟨⟨l.finish.tokens.reverse, l.finish.comments.reverse⟩, ?_, ?_⟩
  · show ((run (2 * (glyphsOf code).length) { rest := glyphsOf code }).map finish).map _ = _
    rw [hrun]
    rfl
  · rw [hfinish]
    show Alike (({ kind := .newline } : Token) :: l.tokens).reverse _
    rw [List.reverse_cons]
    exact hl.tokens.append rfl

end Spells

end Framewise.Script
