import Framewise.Proofs.QuotedStrings

/-! # Tokens with blanks between them

  The text of a token is lexed as this token wherever the next character does not go on
  with it. So tokens can be written one after the other with blanks in front of them, and
  inside brackets with line ends too: the lexer finds the same tokens again.

  Main definitions:
  - `Token.isLexeme`: a word, a number, a string or an operator as written.
  - `spaced`: characters that are the texts of tokens, with blanks in front of them.

  Main result: `Spells.spaced`.
-/

namespace Framewise.Script

open Lexer

/-! ## Numbers -/

/-- True for a number in digits, perhaps with a point; zeros must not lead it. -/
def isDecimal (cs : List Char) : Bool :=
  let digits := cs.takeWhile Char.isDigit
  match cs.dropWhile Char.isDigit with
  | [] => digits = ['0'] || digits.head?.any (· != '0')
  | point :: fraction =>
    !digits.isEmpty && point = '.' && !fraction.isEmpty && fraction.all Char.isDigit

section Numbers

variable {ws rest : List Glyph}

theorem digitRun_digits (hws : ∀ g ∈ ws, g.char.isDigit = true)
    (hrest : ∀ g ∈ rest.head?, g.char.isDigit = false ∧ g.char ≠ '_') :
    digitRun Char.isDigit (ws ++ rest) = some (ws, rest) := by
  induction ws with
  | nil =>
    cases rest with
    | nil => rfl
    | cons g rest =>
      obtain ⟨hdigit, hunderscore⟩ := hrest g rfl
      simp [digitRun, hdigit, hunderscore]
  | cons g ws ih =>
    obtain ⟨hg, hws⟩ := List.forall_mem_cons.mp hws
    rw [List.cons_append, digitRun, if_pos (by simp [hg]), ih hws]
    rfl

theorem not_digit {g : Glyph} (h : isWordGlyph g = false) : g.char.isDigit = false ∧ g.char ≠ '_' := by
  rw [isWordGlyph_eq, isWordChar, Char.isAlphanum] at h
  simp only [Bool.or_eq_false_iff, decide_eq_false_iff_not] at h
  exact ⟨h.1.1.2, h.1.2⟩

/-- Nothing goes on with a number where no word goes on. -/
theorem exponentTail_stop (hrest : ∀ g ∈ rest.head?, isWordGlyph g = false) :
    exponentTail rest = some ([], rest) := by
  cases rest with
  | nil => rfl
  | cons g rest =>
    have hne : ∀ c : Char, isWordChar c = true → ¬g.char = c := by
      rintro c hc rfl
      rw [← isWordGlyph_eq, hrest g rfl] at hc
      cases hc
    simp [exponentTail, imaginaryTail, hne 'e' rfl, hne 'E' rfl, hne 'j' rfl, hne 'J' rfl]

theorem decimalNumber_whole (hws : ∀ g ∈ ws, g.char.isDigit = true)
    (hzero : startsWithDigit (· = '0') ws = true → ∀ g ∈ ws, g.char = '0')
    (hrest : ∀ g ∈ rest.head?, isWordGlyph g = false ∧ g.char ≠ '.') :
    decimalNumber (ws ++ rest) = some (ws, rest) := by
  have hrun : digitRun Char.isDigit (ws ++ rest) = some (ws, rest) :=
    digitRun_digits hws fun g hg => not_digit (hrest g hg).1
  have htail := exponentTail_stop fun g hg => (hrest g hg).1
  have hzeros : startsWithDigit (· = '0') ws = true → ∀ g ∈ ws, '1' ≤ g.char → '9' < g.char := by
    intro hstart g hg hle
    rw [hzero hstart g hg] at hle
    exact absurd hle (by decide)
  unfold decimalNumber
  rw [hrun]
  cases rest with
  | nil => simpa [htail] using hzeros
  | cons g rest => simpa [htail, (hrest g rfl).2] using hzeros

theorem decimalNumber_fraction {point : Glyph} {fs : List Glyph}
    (hws : ∀ g ∈ ws, g.char.isDigit = true) (hpoint : point.char = '.')
    (hfs : ∀ g ∈ fs, g.char.isDigit = true) (hne : fs ≠ [])
    (hrest : ∀ g ∈ rest.head?, isWordGlyph g = false) :
    decimalNumber (ws ++ point :: (fs ++ rest)) = some (ws ++ point :: fs, rest) := by
  have hrun : digitRun Char.isDigit (ws ++ point :: (fs ++ rest)) = some (ws, point :: (fs ++ rest)) := by
    refine digitRun_digits hws ?_
    rintro _ ⟨⟩
    rw [hpoint]
    decide
  have hstart : startsWithDigit Char.isDigit (fs ++ rest) = true := by
    cases fs with
    | nil => exact absurd rfl hne
    | cons g fs => exact hfs g List.mem_cons_self
  have hfraction : fractionTail (fs ++ rest) = some (fs, rest) := by
    unfold fractionTail
    rw [if_pos hstart, digitRun_digits hfs fun g hg => not_digit (hrest g hg)]
    simp [exponentTail_stop hrest, Lexeme.after]
  unfold decimalNumber
  rw [hrun]
  simp [hpoint, hfraction, Lexeme.after]

/-- A number in digits has a point among them, or no zero leads it. -/
theorem isDecimal_cases {cs : List Char} (h : isDecimal cs = true) :
    ((∀ c ∈ cs, c.isDigit = true) ∧ cs ≠ [] ∧ (cs.head? = some '0' → cs = ['0'])) ∨
      ∃ ds fs, cs = ds ++ '.' :: fs ∧ (∀ c ∈ ds, c.isDigit = true) ∧ ds ≠ [] ∧
        (∀ c ∈ fs, c.isDigit = true) ∧ fs ≠ [] := by
  have hsplit := List.takeWhile_append_dropWhile (p := Char.isDigit) (l := cs)
  have hdigits : ∀ c ∈ cs.takeWhile Char.isDigit, c.isDigit = true := fun c hc => List.mem_takeWhile_imp hc
  unfold isDecimal at h
  dsimp only at h
  split at h
  next hnil =>
    rw [hnil, List.append_nil] at hsplit
    rw [hsplit] at h hdigits
    refine .inl ⟨hdigits, ?_, fun hzero => ?_⟩
    · rintro rfl
      cases h
    · simpa [hzero] using h
  next point fraction hpoint =>
    rw [hpoint] at hsplit
    simp only [Bool.and_eq_true, Bool.not_eq_true', decide_eq_true_eq, List.all_eq_true] at h
    obtain ⟨⟨⟨hds, rfl⟩, hfs⟩, hfraction⟩ := h
    exact .inr ⟨_, fraction, hsplit.symm, hdigits, by simpa using hds, hfraction, by simpa using hfs⟩

theorem scanNumber_eq_decimalNumber {g : Glyph} (hg : g.char ≠ '.')
    (hbase : g.char = '0' → ∀ b ∈ rest.head?, b.char.isDigit = true ∨ b.char = '.' ∨ isWordGlyph b = false) :
    scanNumber (g :: rest) = decimalNumber (g :: rest) := by
  cases rest with
  | nil => exact if_neg hg
  | cons b rest =>
    refine (if_neg hg).trans ?_
    by_cases hzero : g.char = '0'
    · have hne : ∀ c : Char, (c.isDigit || c = '.' || !isWordChar c) = false → ¬b.char = c := by
        rintro c hc rfl
        rw [← isWordGlyph_eq] at hc
        rcases hbase hzero b rfl with h | h | h <;> simp [h] at hc
      simp [hne 'x' rfl, hne 'X' rfl, hne 'o' rfl, hne 'O' rfl, hne 'b' rfl, hne 'B' rfl]
    · simp [hzero]

theorem isDigit_of_isDecimal {c : Char} {cs : List Char} (h : isDecimal (c :: cs) = true) :
    c.isDigit = true := by
  rcases isDecimal_cases h with ⟨hdigits, -, -⟩ | ⟨ds, fs, hsplit, hds, hne, -, -⟩
  · exact hdigits c List.mem_cons_self
  · cases ds with
    | nil => exact absurd rfl hne
    | cons d ds =>
      cases hsplit
      exact hds c List.mem_cons_self

/-- A number in digits is read up to where it ends. -/
theorem scanNumber_decimal (h : isDecimal (ws.map Glyph.char) = true)
    (hrest : ∀ g ∈ rest.head?, isWordGlyph g = false ∧ g.char ≠ '.') :
    scanNumber (ws ++ rest) = some (ws, rest) := by
  cases ws with
  | nil => cases h
  | cons g ws =>
    have hpoint : g.char ≠ '.' := by
      intro hchar
      have hdigit := isDigit_of_isDecimal h
      rw [hchar] at hdigit
      cases hdigit
    rcases isDecimal_cases h with ⟨hdigits, -, hzero⟩ | ⟨ds, fs, hsplit, hds, hdsne, hfs, hfsne⟩
    · rw [List.forall_mem_map] at hdigits
      have halone : g.char = '0' → ws = [] := by
        intro hchar
        simpa [hchar] using hzero (by simp [hchar])
      rw [List.cons_append, scanNumber_eq_decimalNumber hpoint, ← List.cons_append]
      · refine decimalNumber_whole hdigits (fun hstart k hk => ?_) hrest
        have hchar : g.char = '0' := of_decide_eq_true hstart
        rw [halone hchar] at hk
        rw [List.mem_singleton.mp hk, hchar]
      · intro hchar b hb
        rw [halone hchar] at hb
        exact .inr (.inr (hrest b hb).1)
    · obtain ⟨us, vs, heq, rfl, hvs⟩ := List.map_eq_append_iff.mp hsplit
      obtain ⟨point, vs, rfl, hdot, rfl⟩ := List.map_eq_cons_iff.mp hvs
      rw [List.forall_mem_map] at hds hfs
      have hread := decimalNumber_fraction hds hdot hfs (by simpa using hfsne) fun g hg => (hrest g hg).1
      rw [← List.cons_append, ← List.append_assoc, ← heq] at hread
      rw [List.cons_append, scanNumber_eq_decimalNumber hpoint]
      · exact hread
      · intro _ b hb
        -- a digit or the point comes second
        cases us with
        | nil => exact absurd rfl hdsne
        | cons k us =>
          cases heq
          cases us with
          | nil =>
            cases hb
            exact .inr (.inl hdot)
          | cons k us =>
            cases hb
            exact .inl (hds _ (List.mem_cons_of_mem _ List.mem_cons_self))

end Numbers

/-! ## Strings -/

/-- True for characters that a quote ends for the first time at their end. -/
def closes (q : Char) : List Char → Bool
  | [] => false
  | c :: cs =>
    if c = '\\' then
      match cs with
      | d :: cs => d != '\r' && closes q cs
      | [] => false
    else if c = q then cs.isEmpty
    else c != '\n' && c != '\r' && closes q cs

/-- True for a string in single quotes or double quotes, without letters in front. -/
def isQuoted : List Char → Bool
  | q :: cs => isQuote q && closes q cs
  | [] => false

theorem closes_cons (q c : Char) (cs : List Char) :
    closes q (c :: cs) =
      if c = '\\' then cs.head?.any (· != '\r') && closes q cs.tail
      else if c = q then cs.isEmpty
      else c != '\n' && c != '\r' && closes q cs := by
  cases cs <;> rfl

/-- A quote ends characters that stand for themselves. -/
theorem closes_of_standsForItself {cs : List Char} (h : standsForItself cs = true) :
    closes '"' (cs ++ ['"']) = true := by
  -- a backslash takes the next character with it, so the induction is on the length
  induction hn : cs.length using Nat.strong_induction_on generalizing cs with
  | _ n ih =>
    cases cs with
    | nil => rfl
    | cons c cs =>
      obtain ⟨hquote, hnewline, hreturn, -, hbackslash, hcs⟩ := standsForItself_cons.mp h
      rw [List.length_cons] at hn
      rw [List.cons_append, closes_cons]
      by_cases hc : c = '\\'
      · obtain ⟨d, hd, -⟩ := hbackslash hc
        obtain ⟨more, rfl⟩ := List.head?_eq_some_iff.mp hd
        obtain ⟨-, -, hd, -, -, hmore⟩ := standsForItself_cons.mp hcs
        rw [List.length_cons] at hn
        simp [hc, hd, ih more.length (by omega) hmore rfl]
      · simp [hc, hquote, hnewline, hreturn, ih cs.length (by omega) hcs rfl]

/-- Characters that a quote ends are read up to this quote. -/
theorem stringTail_closes {q : Char} {ws rest : List Glyph} (h : closes q (ws.map Glyph.char) = true) :
    stringTail q false (ws ++ rest) = some (ws, rest) := by
  -- a backslash takes the next glyph with it, so the induction is on the length
  induction hn : ws.length using Nat.strong_induction_on generalizing ws with
  | _ n ih =>
    cases ws with
    | nil => cases h
    | cons g ws =>
      rw [List.length_cons] at hn
      rw [List.map_cons, closes_cons] at h
      by_cases hg : g.char = '\\'
      · rw [if_pos hg] at h
        cases ws with
        | nil => cases h
        | cons k ws =>
          rw [List.length_cons] at hn
          rw [List.cons_append, List.cons_append, stringTail_backslash hg,
            ih ws.length (by omega) (Bool.and_eq_true_iff.mp h).2 rfl]
          rfl
      · rw [if_neg hg] at h
        rw [List.cons_append, stringTail_plain hg]
        by_cases hq : g.char = q
        · rw [if_pos hq] at h
          have hnil : ws = [] := by simpa using h
          rw [if_pos (by simp [hq]), hnil]
          rfl
        · rw [if_neg hq] at h
          simp only [Bool.and_eq_true, bne_iff_ne, ne_eq] at h
          rw [if_neg (by simp [hq]), if_neg (by simp [startsWithThree_of_ne hq]), if_neg (by simp [h.1.1]),
            ih ws.length (by omega) h.2 rfl]
          rfl

/-- A string in quotes is read up to its end. -/
theorem scanString_isQuoted {ws rest : List Glyph} (h : isQuoted (ws.map Glyph.char) = true)
    (hrest : ∀ g ∈ rest.head?, isQuote g.char = false) :
    scanString (ws ++ rest) = some (ws, rest) ∧ startsWithDigit isQuote ws = true := by
  cases ws with
  | nil => cases h
  | cons p ws =>
    obtain ⟨hp, hcloses⟩ := Bool.and_eq_true_iff.mp h
    have hthree : startsWithThree p.char (p :: (ws ++ rest)) = false := by
      by_contra hthree
      have htake := startsWithThree_iff.mp (Bool.not_eq_false _ ▸ hthree)
      cases ws with
      | nil => cases hcloses
      | cons w ws =>
        have hw : w.char = p.char := (List.cons.inj (List.cons.inj htake).2).1
        have hback : ¬w.char = '\\' := by
          rintro hchar
          rw [← hw, hchar] at hp
          cases hp
        rw [List.map_cons, closes_cons, if_neg hback, if_pos hw] at hcloses
        obtain rfl : ws = [] := by simpa using hcloses
        -- what follows the second quote is no quote
        cases rest with
        | nil => simp at htake
        | cons r rest =>
          have hr : r.char = p.char := by simpa using (List.cons.inj (List.cons.inj htake).2).2
          rw [← hr, hrest r rfl] at hp
          cases hp
    refine ⟨?_, hp⟩
    rw [List.cons_append, scanString_single hp hthree, stringTail_closes hcloses]
    rfl

/-! ## Operators -/

/-- The operators and brackets, the longer ones first. -/
def operators : List String := longOperators ++ pairOperators ++ singleOperators

/-- An operator is read in front of a character that goes on with none. -/
theorem scans_operator {o : String} {cs : List Char} (ho : o ∈ operators)
    (hcs : ∀ c ∈ cs.head?, ∀ p ∈ operators, ¬o.toList ++ [c] <+: p.toList) : Scans o.toList cs := by
  intro gs rest hgs hrest
  have hchars : (gs ++ rest).map Glyph.char = o.toList ++ cs := by rw [List.map_append, hgs, hrest]
  -- a longer operator would go on with this one
  have hlonger : ∀ {k : Nat} {table : List String}, table ⊆ operators →
      (∀ p ∈ table, p.toList.length = k) → o.toList.length < k →
      ¬table.contains (textOf ((gs ++ rest).take k)) = true := by
    intro k table htable hlength hlt hmem
    have hp := List.contains_iff_mem.mp hmem
    have htext : (textOf ((gs ++ rest).take k)).toList = (o.toList ++ cs).take k := by
      rw [textOf, String.toList_ofList, List.map_take, hchars]
    have hlong := hlength _ hp
    rw [htext] at hlong
    cases cs with
    | nil =>
      rw [List.append_nil, List.length_take] at hlong
      omega
    | cons c cs =>
      refine hcs c rfl _ (htable hp) ?_
      rw [htext, List.prefix_take_iff]
      refine ⟨⟨cs, by simp⟩, ?_⟩
      simp only [List.length_append, List.length_cons, List.length_nil]
      omega
  have hthis : ∀ {table : List String}, o ∈ table →
      table.contains (textOf ((gs ++ rest).take gs.length)) = true := by
    intro table ho
    rw [List.take_left, textOf, hgs, String.ofList_toList]
    exact List.contains_iff_mem.mpr ho
  have hlength : gs.length = o.toList.length := by rw [← hgs, List.length_map]
  have hlong : ∀ p ∈ longOperators, p.toList.length = 3 := by decide
  have hpair : ∀ p ∈ pairOperators, p.toList.length = 2 := by decide
  have hsingle : ∀ p ∈ singleOperators, p.toList.length = 1 := by decide
  have hlongs : longOperators ⊆ operators := fun p hp => List.mem_append_left _ (List.mem_append_left _ hp)
  have hpairs : pairOperators ⊆ operators := fun p hp => List.mem_append_left _ (List.mem_append_right _ hp)
  unfold scanOperator
  rcases List.mem_append.mp ho with ho | ho
  · rcases List.mem_append.mp ho with ho | ho
    · have hthree : gs.length = 3 := by rw [hlength, hlong o ho]
      rw [← hthree, if_pos (hthis ho), List.take_left, List.drop_left]
    · have htwo : gs.length = 2 := by rw [hlength, hpair o ho]
      rw [if_neg (hlonger hlongs hlong (by rw [hpair o ho]; decide)), ← htwo, if_pos (hthis ho),
        List.take_left, List.drop_left]
  · have hone : gs.length = 1 := by rw [hlength, hsingle o ho]
    rw [if_neg (hlonger hlongs hlong (by rw [hsingle o ho]; decide)),
      if_neg (hlonger hpairs hpair (by rw [hsingle o ho]; decide)), ← hone, if_pos (hthis ho),
      List.take_left, List.drop_left]

/-! ## Tokens -/

namespace Token

/-- True for a word, a number, a string or an operator as written. -/
def isLexeme (t : Token) : Bool :=
  match t.kind with
  | .word => Text.isIdentifier t.text.toList
  | .number => isDecimal t.text.toList
  | .string => isQuoted t.text.toList
  | .operator => operators.contains t.text
  | _ => false

/-- True for a character that does not go on with a token. -/
def endsBefore (t : Token) (c : Char) : Bool :=
  match t.kind with
  | .word => !isWordChar c && !isQuote c
  | .number => !isWordChar c && c != '.'
  | .string => !isQuote c
  | .operator =>
    (operators.all fun o => !(t.text.toList ++ [c]).isPrefixOf o.toList) && !(t.text = "." && c.isDigit)
  | _ => false

/-- The open brackets after a token. -/
def bracketsAfter (t : Token) (B : List Char) : Option (List Char) :=
  match t.kind, t.text.toList with
  | .operator, c :: _ => Lexer.bracketsAfter c B
  | _, _ => some B

end Token

namespace Lexer

variable {l : Lexer} {B B' : List Char} {ts : List Token} {blank cs : List Char} {t : Token}

theorem token_of_digit {g : Glyph} {gs : List Glyph} (h : g.char.isDigit = true) :
    l.token g gs = (scanNumber (g :: gs)).bind fun t => some (l.emit .number t.1 t.2) := by
  have hword : isWordChar g.char = true := by simp [isWordChar, Char.isAlphanum, h]
  obtain ⟨-, hhash, hnewline, hbackslash⟩ := isWordChar_ne hword
  exact (if_neg hhash).trans ((if_neg hnewline).trans ((if_neg hbackslash).trans
    ((if_neg (by simp [beginsWord, h])).trans (if_pos (by simp [h])))))

/-- What a scanner takes becomes a token, where the first character leads to this scanner. -/
theorem Stands.scanned {kind : TokenKind} {f : List Glyph → Option Lexeme} {c : Char} {w : List Char}
    (h : Stands B ts (blank ++ (c :: w ++ cs)) l) (hblank : ∀ c ∈ blank, isGap c = true)
    (hgap : isGap c = false)
    (htoken : ∀ (l : Lexer) (g : Glyph) (gs : List Glyph), g.char = c →
      l.token g gs = (f (g :: gs)).bind fun t => some (l.emit kind t.1 t.2))
    (hscan : ∀ ws rest : List Glyph, ws.map Glyph.char = c :: w → rest.map Glyph.char = cs →
      f (ws ++ rest) = some (ws, rest)) :
    ∃ n, l.step = some n ∧ Stands B (ts ++ [⟨kind, String.ofList (c :: w), nowhere⟩]) cs n := by
  obtain ⟨g, gs, hg, hgs, hstep⟩ := h.step_eq hblank List.cons_append hgap
  obtain ⟨ws, rest, rfl, hws, hrest⟩ := List.map_eq_append_iff.mp hgs
  have hchars : (g :: ws).map Glyph.char = c :: w := by rw [List.map_cons, hg, hws]
  rw [htoken _ g (ws ++ rest) hg, ← List.cons_append, hscan (g :: ws) rest hchars hrest] at hstep
  exact ⟨_, hstep, h.emit h.brackets rfl rfl rfl rfl hchars hrest⟩

theorem Stands.number {w : List Char} (h : Stands B ts (blank ++ (w ++ cs)) l)
    (hblank : ∀ c ∈ blank, isGap c = true) (hw : isDecimal w = true)
    (hcs : ∀ c ∈ cs.head?, isWordChar c = false ∧ c ≠ '.') :
    ∃ n, l.step = some n ∧ Stands B (ts ++ [⟨.number, String.ofList w, nowhere⟩]) cs n := by
  cases w with
  | nil => cases hw
  | cons c w =>
    have hc := isDigit_of_isDecimal hw
    have hword : isWordChar c = true := by simp [isWordChar, Char.isAlphanum, hc]
    refine h.scanned (f := scanNumber) hblank (isWordChar_ne hword).1 ?_ ?_
    · rintro l g gs rfl
      exact token_of_digit hc
    · intro ws rest hws hrest
      refine scanNumber_decimal (by rw [hws]; exact hw) fun g hg => hcs g.char ?_
      rw [← hrest, List.head?_map, hg]
      rfl

theorem Stands.quoted {w : List Char} (h : Stands B ts (blank ++ (w ++ cs)) l)
    (hblank : ∀ c ∈ blank, isGap c = true) (hw : isQuoted w = true)
    (hcs : ∀ c ∈ cs.head?, isQuote c = false) :
    ∃ n, l.step = some n ∧ Stands B (ts ++ [⟨.string, String.ofList w, nowhere⟩]) cs n := by
  cases w with
  | nil => cases hw
  | cons c w =>
    have hc : isQuote c = true := (Bool.and_eq_true_iff.mp hw).1
    have hgap : isGap c = false := by
      rcases eq_of_isQuote hc with rfl | rfl <;> rfl
    refine h.scanned (f := scanString) hblank hgap ?_ ?_
    · rintro l g gs rfl
      exact token_of_quote hc
    · intro ws rest hws hrest
      refine (scanString_isQuoted (by rw [hws]; exact hw) fun g hg => hcs g.char ?_).1
      rw [← hrest, List.head?_map, hg]
      rfl

/-- A lexeme is read as one token. -/
theorem Stands.lexeme (h : Stands B ts (blank ++ (t.text.toList ++ cs)) l)
    (hblank : ∀ c ∈ blank, isGap c = true) (ht : t.isLexeme = true)
    (hcs : ∀ c ∈ cs.head?, t.endsBefore c = true) (hB : t.bracketsAfter B = some B') :
    ∃ n, l.step = some n ∧ Stands B' (ts ++ [t.bare]) cs n := by
  have hbare : t.bare = ⟨t.kind, String.ofList t.text.toList, nowhere⟩ := by
    rw [String.ofList_toList]
    rfl
  rw [hbare]
  unfold Token.isLexeme at ht
  unfold Token.endsBefore at hcs
  unfold Token.bracketsAfter at hB
  split at ht
  next hkind =>
    rw [hkind] at hcs hB ⊢
    cases hB
    exact h.word hblank ht fun c hc => by simpa using hcs c hc
  next hkind =>
    rw [hkind] at hcs hB ⊢
    cases hB
    exact h.number hblank ht fun c hc => by simpa using hcs c hc
  next hkind =>
    rw [hkind] at hcs hB ⊢
    cases hB
    exact h.quoted hblank ht fun c hc => by simpa using hcs c hc
  next hkind =>
    rw [hkind] at hcs hB ⊢
    have ho := List.contains_iff_mem.mp ht
    have hsigns : operators.all (fun o => o.toList.head?.any isSign) = true := by decide +kernel
    have hsign := List.all_eq_true.mp hsigns _ ho
    have hscan : Scans t.text.toList cs := by
      refine scans_operator ho fun c hc p hp => ?_
      have hends := List.all_eq_true.mp (Bool.and_eq_true_iff.mp (hcs c hc)).1 p hp
      rw [← List.isPrefixOf_iff_prefix, Bool.not_eq_true]
      simpa using hends
    have hpoint : t.text = "." → ∀ d ∈ cs.head?, d.isDigit = false := by
      intro htext d hd
      simpa [htext] using (Bool.and_eq_true_iff.mp (hcs d hd)).2
    cases hchars : t.text.toList with
    | nil =>
      rw [hchars] at hsign
      cases hsign
    | cons c o =>
      rw [hchars] at h hsign hscan hB
      refine h.operator hblank hsign hscan ?_ hB
      rintro rfl d hd
      cases o with
      | nil =>
        refine hpoint ?_ d hd
        rw [← String.ofList_toList (s := t.text), hchars]
      | cons e o =>
        -- the dots go on to an ellipsis
        cases hd
        have hdots : operators.all (fun o => o.toList.head? != some '.' || o.toList.tail.all (!·.isDigit)) = true := by
          decide +kernel
        have hdot := List.all_eq_true.mp hdots _ ho
        rw [hchars] at hdot
        simp at hdot
        exact hdot.1
  next => cases ht

/-! ## Line ends inside brackets -/

/-- A lexer at the beginning of a line. -/
structure Begins (B : List Char) (ts : List Token) (cs : List Char) (l : Lexer) : Prop where
  atLineStart : l.atLineStart = true
  stands : Stands B ts cs { l with atLineStart := false }

/-- True for a character between tokens: a blank, or inside brackets a line end. -/
def separates (inside : Bool) (c : Char) : Bool := isGap c || (inside && c = '\n')

/-- Characters between tokens are blanks, or a line end comes first behind blanks. -/
theorem exists_lineEnd {inside : Bool} {gap : List Char} (h : ∀ c ∈ gap, separates inside c = true) :
    (∀ c ∈ gap, isGap c = true) ∨ ∃ blank more, gap = blank ++ '\n' :: more ∧ inside = true ∧
      (∀ c ∈ blank, isGap c = true) ∧ ∀ c ∈ more, separates inside c = true := by
  have hblank : ∀ c ∈ gap.takeWhile isGap, isGap c = true := fun c hc => List.mem_takeWhile_imp hc
  have hsplit := List.takeWhile_append_dropWhile (p := isGap) (l := gap)
  cases hdrop : gap.dropWhile isGap with
  | nil =>
    rw [hdrop, List.append_nil] at hsplit
    rw [hsplit] at hblank
    exact .inl hblank
  | cons d more =>
    rw [hdrop] at hsplit
    have hd : isGap d = false := by
      have hnot := List.head?_dropWhile_not isGap gap
      rw [hdrop] at hnot
      simpa using hnot
    rw [← hsplit, List.forall_mem_append, List.forall_mem_cons] at h
    obtain ⟨rfl, rfl⟩ : inside = true ∧ d = '\n' := by simpa [separates, hd] using h.2.1
    exact .inr ⟨_, more, hsplit.symm, rfl, hblank, h.2.2⟩

theorem Stands.lineEnd (h : Stands B ts (blank ++ '\n' :: cs) l) (hblank : ∀ c ∈ blank, isGap c = true)
    (hB : B ≠ []) : ∃ n, l.step = some n ∧ Begins B ts cs n := by
  obtain ⟨g, gs, hg, hgs, hstep⟩ := h.step_eq hblank rfl (by decide)
  have hopen : ¬l.brackets.isEmpty = true := by simpa [h.brackets] using hB
  have htoken : { l with rest := g :: gs }.token g gs = some { l with rest := gs, atLineStart := true } := by
    unfold token
    rw [if_neg (by rw [hg]; decide), if_pos hg]
    exact congrArg some (if_neg hopen)
  rw [htoken] at hstep
  exact ⟨_, hstep, rfl, rfl, h.brackets, h.levels, h.frames, h.tokens, hgs⟩

theorem Begins.step_eq {c : Char} (h : Begins B ts (blank ++ c :: cs) l)
    (hblank : ∀ c ∈ blank, isGap c = true) (hc : isGap c = false) :
    ∃ g gs, g.char = c ∧ gs.map Glyph.char = cs ∧ (l.rest.dropWhile fun g => isGap g.char) = g :: gs ∧
      l.step = l.beginLine := by
  obtain ⟨before, rest, heq, hbefore, hrest⟩ := h.stands.split
  obtain ⟨g, gs, rfl, hg, hgs⟩ := List.map_eq_cons_iff.mp hrest
  have hframes : l.frames = [] := h.stands.frames
  have hgaps : ∀ k ∈ before, isGap k.char = true := by
    intro k hk
    refine hblank _ ?_
    rw [← hbefore]
    exact List.mem_map_of_mem hk
  refine ⟨g, gs, hg, hgs, ?_, step_of_beginLine ?_ ?_ h.atLineStart⟩
  · rw [show l.rest = before ++ g :: gs from heq, List.dropWhile_append_of_pos hgaps,
      List.dropWhile_cons_of_neg (by simp [hg, hc])]
  · unfold formatPart?
    rw [hframes]
  · unfold brokenFormat
    rw [hframes]

/-- Blanks and line ends at the beginning of a line are passed over. -/
theorem Begins.reaches {gap : List Char} {c : Char} (h : Begins B ts (gap ++ c :: cs) l) (hB : B ≠ [])
    (hgap : ∀ d ∈ gap, separates true d = true) (hc : separates true c = false) (hhash : c ≠ '#') :
    ∃ n, Reaches l n ∧ Stands B ts (c :: cs) n := by
  obtain ⟨hcgap, hcend⟩ : isGap c = false ∧ c ≠ '\n' := by simpa [separates] using hc
  induction hn : gap.length using Nat.strong_induction_on generalizing gap l with
  | _ n ih =>
    rcases exists_lineEnd hgap with hblank | ⟨blank, more, rfl, -, hblank, hmore⟩
    · -- the line holds the next token
      obtain ⟨g, gs, hg, hgs, hrest, hstep⟩ := h.step_eq hblank hcgap
      have hopen : ¬l.brackets = [] := by
        rw [show l.brackets = B from h.stands.brackets]
        exact hB
      have hbegun : l.beginLine = some { l with rest := g :: gs, atLineStart := false } := by
        simp [beginLine, hrest, hg, hcend, hhash, hopen]
      rw [hbegun] at hstep
      refine ⟨_, .single hstep, rfl, h.stands.brackets, h.stands.levels, h.stands.frames, h.stands.tokens, ?_⟩
      rw [← hg, ← hgs]
      rfl
    · rw [List.append_assoc, List.cons_append] at h
      obtain ⟨g, gs, hg, hgs, hrest, hstep⟩ := h.step_eq hblank (by decide)
      have hbegun : l.beginLine = some { l with rest := gs } := by
        simp [beginLine, hrest, hg]
      rw [hbegun] at hstep
      have hnext : Begins B ts (more ++ c :: cs) { l with rest := gs } :=
        ⟨h.atLineStart, rfl, h.stands.brackets, h.stands.levels, h.stands.frames, h.stands.tokens, hgs⟩
      rw [List.length_append, List.length_cons] at hn
      obtain ⟨last, hreaches, hlast⟩ := ih more.length (by omega) hnext hmore rfl
      exact ⟨last, .head hstep hreaches, hlast⟩

/-- Between two tokens the lexer comes to the next one, or to blanks in front of it. -/
theorem Stands.separated {inside : Bool} {gap : List Char} {c : Char} (h : Stands B ts (gap ++ c :: cs) l)
    (hB : inside = true → B ≠ []) (hgap : ∀ d ∈ gap, separates inside d = true)
    (hc : separates true c = false) (hhash : c ≠ '#') :
    ∃ n blank, Reaches l n ∧ (∀ d ∈ blank, isGap d = true) ∧ Stands B ts (blank ++ c :: cs) n := by
  rcases exists_lineEnd hgap with hblank | ⟨blank, more, rfl, rfl, hblank, hmore⟩
  · exact ⟨l, gap, .refl, hblank, h⟩
  · rw [List.append_assoc, List.cons_append] at h
    obtain ⟨n, hstep, hn⟩ := h.lineEnd hblank (hB rfl)
    obtain ⟨last, hreaches, hlast⟩ := hn.reaches (hB rfl) hmore hc hhash
    exact ⟨last, [], .head hstep hreaches, by simp, hlast⟩

end Lexer

/-! ## Spaced tokens -/

/-- The first character of a lexeme begins no comment and separates nothing. -/
theorem Token.isLexeme_head {t : Token} (h : t.isLexeme = true) :
    ∃ c w, t.text.toList = c :: w ∧ separates true c = false ∧ c ≠ '#' := by
  have hword : ∀ {c : Char}, isWordChar c = true → separates true c = false ∧ c ≠ '#' := by
    intro c hc
    obtain ⟨hgap, hhash, hnewline, -⟩ := isWordChar_ne hc
    exact ⟨by simp [separates, hgap, hnewline], hhash⟩
  unfold Token.isLexeme at h
  cases hchars : t.text.toList with
  | nil =>
    rw [hchars] at h
    split at h
    next => cases h
    next => cases h
    next => cases h
    next =>
      have hne : operators.all (!·.toList.isEmpty) = true := by decide +kernel
      have hmem := List.all_eq_true.mp hne _ (List.contains_iff_mem.mp h)
      rw [hchars] at hmem
      cases hmem
    next => cases h
  | cons c w =>
    rw [hchars] at h
    refine ⟨c, w, rfl, ?_⟩
    split at h
    next => exact hword (isWordChar_of_isIdentifier h c List.mem_cons_self)
    next => exact hword (by simp [isWordChar, Char.isAlphanum, isDigit_of_isDecimal h])
    next => rcases eq_of_isQuote (Bool.and_eq_true_iff.mp h).1 with rfl | rfl <;> decide
    next =>
      have hall : operators.all (fun o => o.toList.head?.all fun c => !separates true c && c != '#') = true := by
        decide +kernel
      have hmem := List.all_eq_true.mp hall _ (List.contains_iff_mem.mp h)
      rw [hchars] at hmem
      simpa using hmem
    next => cases h

/-- True for characters that are the texts of tokens, with blanks in front of them, and inside
    brackets with line ends too. -/
def spaced (inside : Bool) : List Token → List Char → Bool
  | [], cs => cs.isEmpty
  | t :: ts, cs =>
    let rest := cs.dropWhile (separates inside)
    let after := rest.drop t.text.toList.length
    t.isLexeme && t.text.toList.isPrefixOf rest && after.head?.all t.endsBefore && spaced inside ts after

theorem spaced_cons {inside : Bool} {t : Token} {ts : List Token} {cs : List Char}
    (h : spaced inside (t :: ts) cs = true) :
    ∃ gap after, cs = gap ++ (t.text.toList ++ after) ∧ (∀ c ∈ gap, separates inside c = true) ∧
      t.isLexeme = true ∧ (∀ c ∈ after.head?, t.endsBefore c = true) ∧ spaced inside ts after = true := by
  unfold spaced at h
  simp only [Bool.and_eq_true] at h
  obtain ⟨⟨⟨hlexeme, hfront⟩, hends⟩, hrest⟩ := h
  obtain ⟨after, hafter⟩ := List.isPrefixOf_iff_prefix.mp hfront
  rw [← hafter, List.drop_left] at hends hrest
  refine ⟨cs.takeWhile (separates inside), after, ?_, fun c hc => List.mem_takeWhile_imp hc, hlexeme, ?_, hrest⟩
  · rw [hafter, List.takeWhile_append_dropWhile]
  · intro c hc
    rw [hc] at hends
    exact hends

theorem isLexeme_of_spaced {inside : Bool} {ts : List Token} {cs : List Char} (h : spaced inside ts cs = true) :
    ∀ t ∈ ts, t.isLexeme = true := by
  induction ts generalizing cs with
  | nil => simp
  | cons t ts ih =>
    obtain ⟨gap, after, -, -, hlexeme, -, hafter⟩ := spaced_cons h
    exact List.forall_mem_cons.mpr ⟨hlexeme, ih hafter⟩

theorem spaced_of_lexeme {inside : Bool} {t : Token} {ts : List Token} (gap : List Char) {after : List Char}
    (hgap : ∀ c ∈ gap, separates inside c = true) (ht : t.isLexeme = true)
    (hends : ∀ c ∈ after.head?, t.endsBefore c = true) (hrest : spaced inside ts after = true) :
    spaced inside (t :: ts) (gap ++ (t.text.toList ++ after)) = true := by
  obtain ⟨c, w, hchars, hc, -⟩ := t.isLexeme_head ht
  have hnot : ¬separates inside c = true := by
    simp only [separates, Bool.true_and, Bool.or_eq_false_iff, decide_eq_false_iff_not] at hc
    simp [separates, hc]
  have hdrop : (gap ++ (t.text.toList ++ after)).dropWhile (separates inside) = t.text.toList ++ after := by
    rw [List.dropWhile_append_of_pos hgap, hchars, List.cons_append, List.dropWhile_cons_of_neg hnot]
  unfold spaced
  simp only [hdrop, ht, List.drop_left, hrest, Bool.true_and, Bool.and_true, Bool.and_eq_true]
  exact ⟨List.isPrefixOf_iff_prefix.mpr ⟨after, rfl⟩, by rwa [Option.all_eq_true]⟩

theorem spaced_gap {inside : Bool} {ts : List Token} {c : Char} {cs : List Char} (hc : separates inside c = true)
    (hts : ts ≠ []) (h : spaced inside ts cs = true) : spaced inside ts (c :: cs) = true := by
  cases ts with
  | nil => exact absurd rfl hts
  | cons t ts =>
    unfold spaced at h ⊢
    rwa [List.dropWhile_cons_of_pos hc]

/-- Texts of tokens can be put together where no token goes on. -/
theorem spaced_append {inside : Bool} {ts us : List Token} {cs ds : List Char}
    (h : spaced inside ts cs = true) (hds : spaced inside us ds = true)
    (hends : ∀ t ∈ ts, t.isLexeme = true → ∀ c ∈ ds.head?, t.endsBefore c = true) :
    spaced inside (ts ++ us) (cs ++ ds) = true := by
  induction ts generalizing cs with
  | nil =>
    rw [List.isEmpty_iff.mp h]
    exact hds
  | cons t ts ih =>
    obtain ⟨ht, hts⟩ := List.forall_mem_cons.mp hends
    obtain ⟨gap, after, rfl, hgap, hlexeme, hnext, hafter⟩ := spaced_cons h
    rw [List.cons_append, List.append_assoc, List.append_assoc]
    refine spaced_of_lexeme gap hgap hlexeme (fun c hc => ?_) (ih hafter hts)
    cases after with
    | nil => exact ht hlexeme c hc
    | cons d after => exact hnext c hc

/-- The characters that go on with an operator. -/
def joins (c : Char) : Bool := ['*', '=', '/', '<', '>', '.'].contains c

/-- No operator goes on with other characters, but a point goes on with digits. -/
theorem Token.endsBefore_of_operator {t : Token} {c : Char} (hkind : t.kind = .operator)
    (ht : t.isLexeme = true) (hc : joins c = false) (hpoint : t.text = "." → c.isDigit = false) :
    t.endsBefore c = true := by
  obtain ⟨d, w, hchars, -⟩ := t.isLexeme_head ht
  have htails : operators.all (fun o => o.toList.tail.all joins) = true := by decide +kernel
  unfold Token.endsBefore
  rw [hkind]
  simp only [Bool.and_eq_true, List.all_eq_true, Bool.not_eq_true', Bool.and_eq_false_iff,
    decide_eq_false_iff_not]
  refine ⟨fun o ho => Bool.eq_false_iff.mpr fun hfront => ?_, Decidable.not_or_of_imp hpoint⟩
  obtain ⟨more, hmore⟩ := List.isPrefixOf_iff_prefix.mp hfront
  have htail := List.all_eq_true.mp htails o ho
  rw [← hmore, hchars] at htail
  have hjoins := List.all_eq_true.mp htail c (by simp)
  rw [hc] at hjoins
  cases hjoins

/-- Commas and parentheses go on with no token. -/
theorem Token.endsBefore_punctuation {t : Token} {c : Char} (ht : t.isLexeme = true)
    (hc : [',', '(', ')'].contains c = true) : t.endsBefore c = true := by
  have hplain : joins c = false ∧ c.isDigit = false ∧ isWordChar c = false ∧ isQuote c = false ∧ c ≠ '.' := by
    simp only [List.contains_iff_mem, List.mem_cons, List.not_mem_nil, or_false] at hc
    rcases hc with rfl | rfl | rfl <;> decide
  obtain ⟨hjoins, hdigit, hword, hquote, hdot⟩ := hplain
  cases hkind : t.kind with
  | operator => exact t.endsBefore_of_operator hkind ht hjoins fun _ => hdigit
  | word => simp [Token.endsBefore, hkind, hword, hquote]
  | number => simp [Token.endsBefore, hkind, hword, hdot]
  | string => simp [Token.endsBefore, hkind, hquote]
  | _ => simp [Token.isLexeme, hkind] at ht

theorem return_not_mem_of_closes {q : Char} {cs : List Char} (hq : isQuote q = true)
    (h : closes q cs = true) : '\r' ∉ cs := by
  fun_induction closes q cs with
  | case1 => cases h
  | case2 d cs ih =>
    obtain ⟨hd, hcs⟩ := Bool.and_eq_true_iff.mp h
    simpa [Ne.symm (bne_iff_ne.mp hd)] using ih hcs
  | case3 => cases h
  | case4 cs hslash =>
    rw [List.isEmpty_iff.mp h, List.mem_singleton]
    rintro rfl
    rcases eq_of_isQuote hq with hq | hq <;> cases hq
  | case5 c cs hslash hquote ih =>
    simp only [Bool.and_eq_true, bne_iff_ne] at h
    simpa [Ne.symm h.1.2] using ih h.2

theorem Token.return_not_mem {t : Token} (h : t.isLexeme = true) : '\r' ∉ t.text.toList := by
  have hword : isWordChar '\r' = false := by decide
  unfold Token.isLexeme at h
  split at h
  next =>
    intro hmem
    rw [isWordChar_of_isIdentifier h _ hmem] at hword
    cases hword
  next =>
    have hdigit : ∀ {cs : List Char}, (∀ c ∈ cs, c.isDigit = true) → '\r' ∉ cs := by
      intro cs hcs hmem
      cases hcs _ hmem
    rcases isDecimal_cases h with ⟨hall, -⟩ | ⟨ds, fs, heq, hds, -, hfs, -⟩
    · exact hdigit hall
    · simp [heq, hdigit hds, hdigit hfs]
  next =>
    cases hchars : t.text.toList with
    | nil => simp
    | cons q cs =>
      rw [hchars] at h
      obtain ⟨hq, hcs⟩ := Bool.and_eq_true_iff.mp h
      have hne : '\r' ≠ q := by rcases eq_of_isQuote hq with rfl | rfl <;> decide
      simp [hne, return_not_mem_of_closes hq hcs]
  next =>
    have hall : operators.all (fun o => !o.toList.contains '\r') = true := by decide +kernel
    simpa using List.all_eq_true.mp hall _ (List.contains_iff_mem.mp h)
  next => cases h

/-- Spaced tokens hold no carriage return. -/
theorem return_not_mem_of_spaced {inside : Bool} {ts : List Token} {cs : List Char}
    (h : spaced inside ts cs = true) : '\r' ∉ cs := by
  induction ts generalizing cs with
  | nil => simp [List.isEmpty_iff.mp h]
  | cons t ts ih =>
    obtain ⟨gap, after, rfl, hgap, hlexeme, -, hafter⟩ := spaced_cons h
    simp only [List.mem_append, not_or]
    refine ⟨fun hmem => ?_, t.return_not_mem hlexeme, ih hafter⟩
    have hseparates := hgap _ hmem
    cases inside <;> cases hseparates

/-- The open brackets after tokens. -/
def bracketsThrough : List Token → List Char → Option (List Char)
  | [], B => some B
  | t :: ts, B => (t.bracketsAfter B).bind (bracketsThrough ts)

theorem bracketsThrough_append (ts us : List Token) (B : List Char) :
    bracketsThrough (ts ++ us) B = (bracketsThrough ts B).bind (bracketsThrough us) := by
  induction ts generalizing B with
  | nil => rfl
  | cons t ts ih =>
    rw [List.cons_append, bracketsThrough, bracketsThrough]
    cases t.bracketsAfter B with
    | none => rfl
    | some C => exact ih C

/-- Brackets that are open around a token stay open. -/
theorem Token.bracketsAfter_append {t : Token} {C C' : List Char} (h : t.bracketsAfter C = some C')
    (outer : List Char) : t.bracketsAfter (C ++ outer) = some (C' ++ outer) := by
  unfold Token.bracketsAfter at h ⊢
  split at h
  next c w _ _ =>
    unfold Lexer.bracketsAfter at h ⊢
    by_cases hopens : opensBracket c = true
    · rw [if_pos hopens] at h ⊢
      cases h
      rfl
    rw [if_neg hopens] at h ⊢
    by_cases hcloses : closesBracket c = true
    · rw [if_pos hcloses] at h ⊢
      obtain ⟨hhead, heq⟩ := Option.ite_none_right_eq_some.mp h
      cases heq
      cases C with
      | nil => cases hhead
      | cons d C => exact if_pos hhead
    · rw [if_neg hcloses] at h ⊢
      cases h
      rfl
  next =>
    cases h
    rfl

/-- Spaced tokens are lexed one after the other. -/
theorem Spells.spaced {code : String} {inside : Bool} {us ts : List Token} {w cs C C' outer : List Char}
    (h : Spells code (C ++ outer) ts (w ++ cs)) (hw : spaced inside us w = true)
    (houter : inside = true → outer ≠ [])
    (hcs : ∀ t ∈ us, t.isLexeme = true → ∀ c ∈ cs.head?, t.endsBefore c = true)
    (hC : bracketsThrough us C = some C') :
    Spells code (C' ++ outer) (ts ++ us.map Token.bare) cs := by
  induction us generalizing ts w C with
  | nil =>
    cases hC
    rw [List.isEmpty_iff.mp hw] at h
    rwa [List.map_nil, List.append_nil]
  | cons t us ih =>
    obtain ⟨ht, hus⟩ := List.forall_mem_cons.mp hcs
    obtain ⟨gap, after, rfl, hgap, hlexeme, hends, hafter⟩ := spaced_cons hw
    obtain ⟨D, hD, hC⟩ := Option.bind_eq_some_iff.mp hC
    obtain ⟨c, w, hchars, hc, hhash⟩ := t.isLexeme_head hlexeme
    have hopen : inside = true → C ++ outer ≠ [] := fun hinside hnil =>
      houter hinside (List.append_eq_nil_iff.mp hnil).2
    have hnext : ∀ d ∈ (after ++ cs).head?, t.endsBefore d = true := by
      cases after with
      | nil => exact ht hlexeme
      | cons d after => exact hends
    obtain ⟨l, hreaches, hl⟩ := h
    rw [hchars, List.append_assoc, List.cons_append, List.cons_append] at hl
    obtain ⟨n, blank, hmore, hblank, hn⟩ := hl.separated hopen hgap hc hhash
    rw [← List.cons_append, ← List.cons_append, List.append_assoc, ← hchars] at hn
    obtain ⟨n', hstep, hn'⟩ := hn.lexeme hblank hlexeme hnext (t.bracketsAfter_append hD outer)
    have hrest := ih ⟨n', (hreaches.trans hmore).tail hstep, hn'⟩ hafter hus hC
    rwa [List.map_cons, List.append_cons]

end Framewise.Script
