import Framewise.Proofs.ComposedLexing
import Framewise.Script.Literal

/-! # Strings between double quotes

  Characters between double quotes are a string for these very characters only if they hold
  no quote, no line end and no character of code zero, and every backslash among them is
  followed by a character that begins no escape. One direction is completeness: the value of such a string is the
  characters. The other is soundness: each escape makes the value
  shorter than the text, so a string with a value as long as what stands between its
  quotes has none.

  Main definition: `standsForItself`.

  Main results: `stringValue?_quoted`, `standsForItself_of_value`, `lexed_scanned`.
-/

namespace Framewise.Script

/-- True for a character that begins an escape behind a backslash. -/
def beginsEscape (c : Char) : Bool :=
  c = '\n' || isOctalDigit c || c = 'N' || (shortEscape? c).isSome || (hexLength? false c).isSome

/-- True for characters that stand for themselves between double quotes. -/
def standsForItself : List Char → Bool
  | [] => true
  | c :: cs =>
    c != '"' && c != '\n' && c != '\r' && c != '\x00' &&
      (c != '\\' || cs.head?.any fun d => !beginsEscape d) && standsForItself cs

theorem standsForItself_cons {c : Char} {cs : List Char} :
    standsForItself (c :: cs) = true ↔ c ≠ '"' ∧ c ≠ '\n' ∧ c ≠ '\r' ∧ c ≠ '\x00' ∧
      (c = '\\' → ∃ d ∈ cs.head?, beginsEscape d = false) ∧ standsForItself cs = true := by
  simp only [standsForItself, Bool.and_eq_true, Bool.or_eq_true, bne_iff_ne, ne_eq, Option.any_eq_true,
    Bool.not_eq_true', and_assoc]
  rw [or_iff_not_imp_left, not_not]
  simp only [Option.mem_def]

/-! ## Escapes -/

section Escapes

variable {fuel : Nat} {c e : Char} {cs rest : List Char} {codes : List Nat}

theorem unescape_plain (hc : c ≠ '\\') :
    unescape false (fuel + 1) (c :: cs) = (unescape false fuel cs).map (c.toNat :: ·) := by
  cases cs <;> exact if_pos (by simpa using hc)

/-- A backslash in front of a character that begins no escape stands for itself. -/
theorem unescape_unescaped (he : beginsEscape e = false) :
    unescape false (fuel + 1) ('\\' :: e :: rest) =
      (unescape false fuel rest).map fun ns => '\\'.toNat :: e.toNat :: ns := by
  simp only [beginsEscape, Bool.or_eq_false_iff, decide_eq_false_iff_not, Option.isSome_eq_false_iff,
    Option.isNone_iff_eq_none] at he
  obtain ⟨⟨⟨⟨hnewline, hoctal⟩, hname⟩, hshort⟩, hhex⟩ := he
  simp [unescape, hnewline, hoctal, hname, hshort, hhex]

/-- What follows a name in braces is part of what follows the brace. -/
theorem bracedName?_suffix {name : String} {more : List Char}
    (h : bracedName? cs = some (name, more)) : more <:+ cs := by
  unfold bracedName? at h
  split at h
  next cs =>
    split at h
    next c rest hrest =>
      cases h
      have hsuffix : c :: more <:+ cs := hrest ▸ List.dropWhile_suffix _
      exact ((List.suffix_cons c more).trans hsuffix).trans (List.suffix_cons _ _)
    next => cases h
  next => cases h

/-- An escape takes at least two characters and gives at most one. -/
theorem unescape_escaped (he : beginsEscape e = true)
    (h : unescape false (fuel + 1) ('\\' :: e :: rest) = some codes) :
    ∃ more ns, more <:+ rest ∧ unescape false fuel more = some ns ∧
      codes.length ≤ ns.length + 1 := by
  have htaken : ∀ {n : Nat} {more : List Char}, more <:+ rest →
      (unescape false fuel more).map (n :: ·) = some codes →
      ∃ more ns, more <:+ rest ∧ unescape false fuel more = some ns ∧
        codes.length ≤ ns.length + 1 := by
    intro n more hmore h
    obtain ⟨ns, hns, rfl⟩ := Option.map_eq_some_iff.mp h
    exact ⟨more, ns, hmore, hns, le_rfl⟩
  rw [unescape, if_neg (by simp)] at h
  dsimp only at h
  by_cases hnewline : e = '\n'
  · rw [if_pos hnewline] at h
    exact ⟨rest, codes, List.suffix_rfl, h, Nat.le_succ _⟩
  rw [if_neg hnewline] at h
  by_cases hoctal : isOctalDigit e = true
  · -- at least the first digit is taken
    rw [if_pos hoctal, List.take_succ_cons, List.takeWhile_cons_of_pos hoctal, List.length_cons,
      List.drop_succ_cons] at h
    exact htaken (List.drop_suffix _ _) h
  rw [if_neg hoctal] at h
  by_cases hname : e = 'N'
  · rw [if_pos (by simp [hname])] at h
    obtain ⟨⟨name, more⟩, hbraced, h⟩ := Option.bind_eq_some_iff.mp h
    obtain ⟨n, -, h⟩ := Option.bind_eq_some_iff.mp h
    exact htaken (bracedName?_suffix hbraced) h
  rw [if_neg (by simp [hname])] at h
  cases hshort : shortEscape? e with
  | some n =>
    rw [hshort] at h
    exact htaken List.suffix_rfl h
  | none =>
    cases hhex : hexLength? false e with
    | none => simp [beginsEscape, hnewline, hoctal, hname, hshort, hhex] at he
    | some length =>
      rw [hshort, hhex] at h
      obtain ⟨-, h⟩ := Option.ite_none_right_eq_some.mp h
      exact htaken (List.drop_suffix _ _) h

theorem length_unescape_le (h : unescape false fuel cs = some codes) : codes.length ≤ cs.length := by
  induction fuel generalizing cs codes with
  | zero =>
    cases h
    exact Nat.zero_le _
  | succ fuel ih =>
    cases cs with
    | nil =>
      cases h
      exact le_rfl
    | cons c cs =>
      by_cases hc : c = '\\'
      · subst hc
        cases cs with
        | nil =>
          cases h
          exact le_rfl
        | cons e rest =>
          by_cases he : beginsEscape e = true
          · obtain ⟨more, ns, hmore, hns, hle⟩ := unescape_escaped he h
            have hns := ih hns
            have hmore := hmore.length_le
            simp only [List.length_cons]
            omega
          · rw [unescape_unescaped (by simpa using he)] at h
            obtain ⟨ns, hns, rfl⟩ := Option.map_eq_some_iff.mp h
            have hns := ih hns
            simp only [List.length_cons]
            omega
      · rw [unescape_plain hc] at h
        obtain ⟨ns, hns, rfl⟩ := Option.map_eq_some_iff.mp h
        exact Nat.succ_le_succ (ih hns)

/-- With an escape in front, the codes are fewer than the characters. -/
theorem length_unescape_lt (he : beginsEscape e = true)
    (h : unescape false fuel ('\\' :: e :: rest) = some codes) :
    codes.length < ('\\' :: e :: rest).length := by
  cases fuel with
  | zero =>
    cases h
    exact Nat.succ_pos _
  | succ fuel =>
    obtain ⟨more, ns, hmore, hns, hle⟩ := unescape_escaped he h
    have hns := length_unescape_le hns
    have hmore := hmore.length_le
    simp only [List.length_cons]
    omega

/-- Characters that stand for themselves are left as they are. -/
theorem unescape_of_standsForItself (h : standsForItself cs = true) (hfuel : cs.length ≤ fuel) :
    unescape false fuel cs = some (cs.map Char.toNat) := by
  induction fuel generalizing cs with
  | zero =>
    obtain rfl := List.length_eq_zero_iff.mp (Nat.le_zero.mp hfuel)
    rfl
  | succ fuel ih =>
    cases cs with
    | nil => rfl
    | cons c cs =>
      obtain ⟨-, -, -, -, hbackslash, hcs⟩ := standsForItself_cons.mp h
      rw [List.length_cons] at hfuel
      by_cases hc : c = '\\'
      · subst hc
        obtain ⟨e, he, hplain⟩ := hbackslash rfl
        obtain ⟨rest, rfl⟩ := List.head?_eq_some_iff.mp he
        obtain ⟨-, -, -, -, -, hrest⟩ := standsForItself_cons.mp hcs
        rw [List.length_cons] at hfuel
        rw [unescape_unescaped hplain, ih hrest (by omega)]
        rfl
      · rw [unescape_plain hc, ih hcs (by omega)]
        rfl

end Escapes

/-! ## Values -/

/-- The characters of a string from its first quote on. -/
def quotedPart (text : String) : List Char := text.toList.dropWhile fun c => !isQuote c

/-- True for characters of which the first three are the same. -/
def Threefold (cs : List Char) : Prop := ∃ a more, cs = a :: a :: a :: more

/-- The quotes around a string are three in a row or single. -/
theorem exists_width (text : String) :
    ∃ w, (w = 1 ∧ ¬Threefold (quotedPart text) ∨ w = 3 ∧ Threefold (quotedPart text)) ∧
      (stringParts text).body = ((quotedPart text).drop w).take ((quotedPart text).length - 2 * w) := by
  unfold stringParts
  dsimp only
  split
  next a b c more hquoted =>
    by_cases hequal : (a = b && b = c) = true
    · obtain ⟨hb, hc⟩ := Bool.and_eq_true_iff.mp hequal
      obtain rfl := of_decide_eq_true hb
      obtain rfl := of_decide_eq_true hc
      refine ⟨3, .inr ⟨rfl, a, more, hquoted⟩, ?_⟩
      rw [if_pos hequal]
      rfl
    · refine ⟨1, .inl ⟨rfl, ?_⟩, ?_⟩
      · rintro ⟨d, rest, hthree⟩
        have hthree : a :: b :: c :: more = d :: d :: d :: rest := hquoted.symm.trans hthree
        simp only [List.cons.injEq] at hthree
        simp [hthree] at hequal
      · rw [if_neg hequal]
        rfl
  next hshort =>
    refine ⟨1, .inl ⟨rfl, ?_⟩, rfl⟩
    rintro ⟨d, rest, hthree⟩
    exact hshort d d d rest hthree

/-- What stands between double quotes, where no third quote follows the first two. -/
theorem stringParts_quoted {cs : List Char} {text : String} (htext : text.toList = '"' :: (cs ++ ['"']))
    (hcs : ¬Threefold text.toList) : stringParts text = ⟨false, false, cs⟩ := by
  have hquoted : quotedPart text = '"' :: (cs ++ ['"']) := by
    rw [quotedPart, htext]
    exact List.dropWhile_cons_of_neg (by decide)
  have hletters : (text.toList.takeWhile fun c => !isQuote c) = [] := by
    rw [htext]
    exact List.takeWhile_cons_of_neg (by decide)
  have hbody : (stringParts text).body = cs := by
    obtain ⟨w, ⟨rfl, -⟩ | ⟨-, hthree⟩, hbody⟩ := exists_width text
    · rw [hbody, hquoted]
      simp
    · rw [hquoted, ← htext] at hthree
      exact absurd hthree hcs
  have hmark : (stringParts text).bytes = false ∧ (stringParts text).raw = false := by
    constructor
    · show (text.toList.takeWhile fun c => !isQuote c).any _ = false
      rw [hletters]
      rfl
    · show (text.toList.takeWhile fun c => !isQuote c).any _ = false
      rw [hletters]
      rfl
  show (⟨(stringParts text).bytes, (stringParts text).raw, (stringParts text).body⟩ : StringParts) = _
  rw [hmark.1, hmark.2, hbody]

/-- The value of a string by its parts. -/
theorem stringValue?_eq (text : String) :
    stringValue? text =
      if (stringParts text).body.contains '\x00' then none
      else if (stringParts text).bytes && (stringParts text).body.any fun c => 128 ≤ c.toNat then none
      else (if (stringParts text).raw then some ((stringParts text).body.map Char.toNat)
        else unescape (stringParts text).bytes (stringParts text).body.length (stringParts text).body).bind
        fun codes => if (stringParts text).bytes then some (.bytes (codes.map UInt8.ofNat))
          else some (.text (String.ofList (codes.map Char.ofNat))) := by
  unfold stringValue?
  dsimp only
  by_cases hraw : (stringParts text).raw = true
  · rw [if_pos hraw, if_pos hraw]
    rfl
  · rw [if_neg hraw, if_neg hraw]
    rfl

theorem stringValue?_of_parts {cs : List Char} {text : String}
    (h : stringParts text = ⟨false, false, cs⟩) :
    stringValue? text = if cs.contains '\x00' then none else
      (unescape false cs.length cs).map fun codes =>
        .text (String.ofList (codes.map Char.ofNat)) := by
  rw [stringValue?_eq, h]
  show (if cs.contains '\x00' then none else (unescape false cs.length cs).bind _) = _
  cases unescape false cs.length cs <;> rfl

theorem not_mem_quote_of_standsForItself {cs : List Char} (h : standsForItself cs = true) :
    '"' ∉ cs := by
  induction cs with
  | nil => exact List.not_mem_nil
  | cons c cs ih =>
    obtain ⟨hquote, -, -, -, -, hcs⟩ := standsForItself_cons.mp h
    exact List.not_mem_cons_of_ne_of_not_mem hquote.symm (ih hcs)

theorem return_not_mem_of_standsForItself {cs : List Char} (h : standsForItself cs = true) :
    ∀ c ∈ cs, c ≠ '\r' := by
  induction cs with
  | nil => simp
  | cons c cs ih =>
    obtain ⟨-, -, hreturn, -, -, hcs⟩ := standsForItself_cons.mp h
    exact List.forall_mem_cons.mpr ⟨hreturn, ih hcs⟩

theorem zero_not_mem_of_standsForItself {cs : List Char} (h : standsForItself cs = true) :
    '\x00' ∉ cs := by
  induction cs with
  | nil => exact List.not_mem_nil
  | cons c cs ih =>
    obtain ⟨-, -, -, hzero, -, hcs⟩ := standsForItself_cons.mp h
    exact List.not_mem_cons_of_ne_of_not_mem hzero.symm (ih hcs)

theorem not_threefold_of_not_mem {cs : List Char} (h : '"' ∉ cs) : ¬Threefold ('"' :: (cs ++ ['"'])) := by
  rintro ⟨a, more, hmore⟩
  obtain ⟨rfl, hmore⟩ := List.cons.inj hmore
  cases cs with
  | nil => cases hmore
  | cons c cs =>
    obtain ⟨rfl, -⟩ := List.cons.inj hmore
    exact h List.mem_cons_self

/-- Characters that stand for themselves are the value of the string between double quotes. -/
theorem stringValue?_quoted {cs : List Char} (h : standsForItself cs = true) {text : String}
    (htext : text.toList = '"' :: (cs ++ ['"'])) :
    stringValue? text = some (.text (String.ofList cs)) := by
  have hthree : ¬Threefold text.toList := by
    rw [htext]
    exact not_threefold_of_not_mem (not_mem_quote_of_standsForItself h)
  have hparts := stringParts_quoted htext hthree
  have hzero := zero_not_mem_of_standsForItself h
  rw [stringValue?_of_parts hparts, if_neg (by simpa using hzero),
    unescape_of_standsForItself h le_rfl]
  simp [List.map_map, Function.comp_def, Char.ofNat_toNat]

/-! ### Lengths -/

/-- The value of a string is no longer than what stands between its quotes. -/
theorem length_value_le_body {text s : String} (h : stringValue? text = some (.text s)) :
    s.toList.length ≤ (stringParts text).body.length := by
  rw [stringValue?_eq] at h
  obtain ⟨-, h⟩ := Option.ite_none_left_eq_some.mp h
  obtain ⟨-, h⟩ := Option.ite_none_left_eq_some.mp h
  obtain ⟨codes, hcodes, h⟩ := Option.bind_eq_some_iff.mp h
  by_cases hbytes : (stringParts text).bytes = true
  · rw [if_pos hbytes] at h
    cases h
  rw [if_neg hbytes] at h
  cases h
  rw [String.toList_ofList, List.length_map]
  by_cases hraw : (stringParts text).raw = true
  · rw [if_pos hraw] at hcodes
    cases hcodes
    rw [List.length_map]
  · rw [if_neg hraw, show (stringParts text).bytes = false by simpa using hbytes] at hcodes
    exact length_unescape_le hcodes

/-- Characters in quotes, perhaps with letters in front. -/
def Wrapped (cs : List Char) : Prop :=
  ∃ letters a body b, cs = letters ++ a :: (body ++ [b]) ∧ (∀ c ∈ letters, isQuote c = false) ∧
    isQuote a = true ∧ isQuote b = true

/-- The text of a string is longer than its value, by two quotes at least. -/
theorem length_value_le {text s : String} (h : Wrapped text.toList)
    (hvalue : stringValue? text = some (.text s)) : s.toList.length + 2 ≤ text.toList.length := by
  obtain ⟨letters, a, inner, b, htext, hletters, ha, -⟩ := h
  have hquoted : quotedPart text = a :: (inner ++ [b]) := by
    rw [quotedPart, htext, List.dropWhile_append_of_pos (by simpa using hletters)]
    exact List.dropWhile_cons_of_neg (by simp [ha])
  have hvalue := length_value_le_body hvalue
  obtain ⟨w, hw, hbody⟩ := exists_width text
  have hpos : 1 ≤ w := by omega
  rw [hbody, hquoted, List.length_take, List.length_drop] at hvalue
  rw [htext]
  simp only [List.length_append, List.length_cons, List.length_nil] at hvalue ⊢
  omega

/-- With three quotes around it, a string loses more than two characters. -/
theorem not_threefold_of_value {text s : String} {cs : List Char}
    (htext : text.toList = '"' :: (cs ++ ['"'])) (hvalue : stringValue? text = some (.text s))
    (hlength : cs.length ≤ s.toList.length) : ¬Threefold text.toList := by
  intro hthree
  have hquoted : quotedPart text = text.toList := by
    rw [quotedPart, htext]
    exact List.dropWhile_cons_of_neg (by decide)
  have hvalue := length_value_le_body hvalue
  obtain ⟨w, ⟨-, hsingle⟩ | ⟨rfl, -⟩, hbody⟩ := exists_width text
  · rw [hquoted] at hsingle
    exact hsingle hthree
  · rw [hbody, hquoted, List.length_take, List.length_drop] at hvalue
    obtain ⟨a, more, hmore⟩ := hthree
    have hmany := congrArg List.length (htext.symm.trans hmore)
    rw [htext] at hvalue
    simp only [List.length_append, List.length_cons, List.length_nil] at hvalue hmany
    omega

/-! ## Scanning -/

section Scanning

variable {gs ws rest : List Glyph} {q : Glyph}

theorem startsWithThree_of_ne {quote : Char} {g : Glyph} (h : g.char ≠ quote) (gs : List Glyph) :
    startsWithThree quote (g :: gs) = false := by
  cases gs with
  | nil => rfl
  | cons b gs =>
    cases gs with
    | nil => rfl
    | cons c gs => simp [startsWithThree, h]

theorem stringTail_backslash {quote : Char} {triple : Bool} {g k : Glyph} (hg : g.char = '\\') :
    stringTail quote triple (g :: k :: gs) = (stringTail quote triple gs).map (Lexeme.after [g, k]) :=
  (stringTail_cons quote triple g (k :: gs)).trans (if_pos hg)

theorem stringTail_plain {quote : Char} {triple : Bool} {g : Glyph} (hg : g.char ≠ '\\') :
    stringTail quote triple (g :: gs) =
      if g.char = quote && !triple then some ([g], gs)
      else if startsWithThree quote (g :: gs) then some (g :: gs.take 2, gs.drop 2)
      else if g.char = '\n' && !triple then none
      else (stringTail quote triple gs).map (Lexeme.after [g]) :=
  (stringTail_cons quote triple g gs).trans (if_neg hg)

theorem eq_of_isQuote {c : Char} (h : isQuote c = true) : c = '\'' ∨ c = '"' := by
  simpa [isQuote] using h

/-- The rest of a string ends in a quote. -/
theorem stringTail_ends (quote : Char) (triple : Bool) (gs : List Glyph) :
    Yields (fun l => ∃ ws q, l.1 = ws ++ [q] ∧ q.char = quote) (stringTail quote triple gs) := by
  have hafter : ∀ {front : List Glyph} {l : Lexeme}, (∃ ws q, l.1 = ws ++ [q] ∧ q.char = quote) →
      ∃ ws q, (l.after front).1 = ws ++ [q] ∧ q.char = quote := by
    rintro front l ⟨ws, q, hl, hq⟩
    exact ⟨front ++ ws, q, by rw [Lexeme.after, hl, List.append_assoc], hq⟩
  fun_induction stringTail quote triple gs with
  | case1 => exact .none
  | case2 g _ h rest ih => exact ih.map fun l hl => hafter hl
  | case3 => exact .none
  | case4 g gs hback hquote =>
    obtain ⟨hg, -⟩ := Bool.and_eq_true_iff.mp hquote
    exact .some ⟨[], g, rfl, of_decide_eq_true hg⟩
  | case5 g gs hback hquote hthree =>
    -- three quotes stand there, and the last of them ends the string
    refine .some ?_
    cases gs with
    | nil => cases hthree
    | cons b gs =>
      cases gs with
      | nil => cases hthree
      | cons c gs =>
        obtain ⟨-, hc⟩ := Bool.and_eq_true_iff.mp hthree
        exact ⟨[g, b], c, rfl, of_decide_eq_true hc⟩
  | case6 => exact .none
  | case7 g gs _ _ _ _ ih => exact ih.map fun l hl => hafter hl

/-- Soundness: what is read up to a quote, and has a value as long as itself, stands for itself. -/
theorem standsForItself_of_scanned {fuel : Nat} {codes : List Nat}
    (h : stringTail '"' false gs = some (ws ++ [q], rest))
    (hplain : ∀ g ∈ ws, g.char ≠ '\r' ∧ g.char ≠ '\x00')
    (hcodes : unescape false fuel (ws.map Glyph.char) = some codes) (hfuel : ws.length ≤ fuel)
    (hlength : ws.length ≤ codes.length) : standsForItself (ws.map Glyph.char) = true := by
  induction fuel generalizing gs ws codes with
  | zero =>
    obtain rfl := List.length_eq_zero_iff.mp (Nat.le_zero.mp hfuel)
    rfl
  | succ fuel ih =>
    cases ws with
    | nil => rfl
    | cons g ws =>
      obtain ⟨⟨hreturn, hzero⟩, hplain⟩ := List.forall_mem_cons.mp hplain
      rw [List.length_cons] at hfuel
      have hsplits : (g :: ws ++ [q]) ++ rest = gs := stringTail_splits _ _ _ _ h
      subst hsplits
      rw [List.map_cons] at hcodes ⊢
      rw [List.cons_append, List.cons_append] at h
      by_cases hback : g.char = '\\'
      · -- the glyph behind the backslash is not the last one
        cases hmore : ws ++ [q] ++ rest with
        | nil => simp at hmore
        | cons k more =>
          rw [hmore, stringTail_backslash hback] at h
          obtain ⟨l, hl, heq⟩ := Option.map_eq_some_iff.mp h
          obtain ⟨htaken, rfl⟩ := Prod.mk.inj heq
          obtain ⟨vs, r, hvs, -⟩ := stringTail_ends _ _ _ l hl
          have hws : ws ++ [q] = (k :: vs) ++ [r] := by
            rw [List.cons_append, ← hvs]
            exact (List.cons.inj htaken).2.symm
          obtain ⟨rfl, hr⟩ := List.append_inj' hws rfl
          obtain rfl := List.cons.inj hr |>.1
          rw [List.length_cons] at hfuel hlength
          rw [hback, List.map_cons] at hcodes ⊢
          by_cases hescape : beginsEscape k.char = true
          · have hless := length_unescape_lt hescape hcodes
            simp only [List.length_cons, List.length_map] at hless hlength
            omega
          have hescape : beginsEscape k.char = false := by simpa using hescape
          rw [unescape_unescaped hescape] at hcodes
          obtain ⟨ns, hns, rfl⟩ := Option.map_eq_some_iff.mp hcodes
          obtain ⟨⟨hreturn, hzero⟩, hplain⟩ := List.forall_mem_cons.mp hplain
          have hvs : standsForItself (vs.map Glyph.char) = true := by
            have htail : stringTail '"' false more = some (vs ++ [q], l.2) := by rw [hl, ← hvs]
            refine ih htail hplain hns (by omega) ?_
            simp only [List.length_cons] at hlength
            omega
          have hne : ∀ c : Char, beginsEscape c = true → k.char ≠ c := by
            rintro c hc rfl
            rw [hescape] at hc
            cases hc
          refine standsForItself_cons.mpr
            ⟨by decide, by decide, by decide, by decide, fun _ => ⟨k.char, rfl, hescape⟩, ?_⟩
          exact standsForItself_cons.mpr
            ⟨hne _ rfl, hne _ rfl, hreturn, hzero, fun h => absurd h (hne _ rfl), hvs⟩
      · rw [stringTail_plain hback] at h
        by_cases hquote : g.char = '"'
        · rw [if_pos (by simp [hquote])] at h
          simp at h
        have hthree : startsWithThree '"' (g :: (ws ++ [q] ++ rest)) = false := startsWithThree_of_ne hquote _
        rw [if_neg (by simp [hquote]), if_neg (by rw [hthree]; exact Bool.false_ne_true)] at h
        obtain ⟨hnewline, h⟩ := Option.ite_none_left_eq_some.mp h
        obtain ⟨l, hl, heq⟩ := Option.map_eq_some_iff.mp h
        obtain ⟨htaken, rfl⟩ := Prod.mk.inj heq
        rw [unescape_plain hback] at hcodes
        obtain ⟨ns, hns, rfl⟩ := Option.map_eq_some_iff.mp hcodes
        have hws : standsForItself (ws.map Glyph.char) = true := by
          have htail : stringTail '"' false (ws ++ [q] ++ l.2) = some (ws ++ [q], l.2) := by
            rw [hl, ← (List.cons.inj htaken).2]
            rfl
          refine ih htail hplain hns (by omega) ?_
          simp only [List.length_cons] at hlength
          omega
        exact standsForItself_cons.mpr
          ⟨hquote, by simpa using hnewline, hreturn, hzero, fun h => absurd h hback, hws⟩

/-- A single quote opens a string where three do not. -/
theorem scanString_single {p : Glyph} (hp : isQuote p.char = true)
    (hthree : startsWithThree p.char (p :: gs) = false) :
    scanString (p :: gs) = (stringTail p.char false gs).map (Lexeme.after [p]) := by
  unfold scanString
  rw [openingQuotes_cons, if_pos hp, hthree]
  show (stringTail p.char false gs).bind _ = _
  cases stringTail p.char false gs <;> rfl

/-- Three quotes open a string that three end. -/
theorem scanString_triple {p : Glyph} (hp : isQuote p.char = true)
    (hthree : startsWithThree p.char (p :: gs) = true) :
    scanString (p :: gs) =
      (stringTail p.char true (gs.drop 2)).map (Lexeme.after ((p :: gs).take 3)) := by
  have hlength : ((p :: gs).take 3).length = 3 := by
    have hle := length_of_three hthree
    rw [List.length_take]
    omega
  unfold scanString
  rw [openingQuotes_cons, if_pos hp, if_pos hthree]
  show (stringTail p.char (decide (((p :: gs).take 3).length = 3)) (gs.drop 2)).bind _ = _
  rw [hlength]
  show (stringTail p.char true (gs.drop 2)).bind _ = _
  cases stringTail p.char true (gs.drop 2) <;> rfl

/-- Characters that the lexer takes for a string: perhaps letters, then what it scans. -/
def Scanned (cs : List Char) : Prop :=
  ∃ letters gs taken after, cs = letters ++ taken.map Glyph.char ∧
    (∀ c ∈ letters, isQuote c = false) ∧ scanString gs = some (taken, after)

theorem Scanned.wrapped {cs : List Char} (h : Scanned cs) : Wrapped cs := by
  have hwraps : ∀ gs, Yields (fun l : Lexeme => ∃ a body b, l.1.map Glyph.char = a :: (body ++ [b]) ∧
      isQuote a = true ∧ isQuote b = true) (scanString gs) := by
    intro gs
    refine (openingQuotes_head gs).bind fun quotes hquotes => ?_
    obtain ⟨quotes, after⟩ := quotes
    cases quotes with
    | nil => exact .none
    | cons a more =>
      have ha : isQuote a.char = true := hquotes a rfl
      refine (stringTail_ends _ _ after).bind fun tail htail => .some ?_
      obtain ⟨ws, q, htail, hq⟩ := htail
      refine ⟨a.char, (more ++ ws).map Glyph.char, q.char, ?_, ha, by rw [hq]; exact ha⟩
      show (a :: more ++ tail.1).map Glyph.char = _
      rw [htail]
      simp
  obtain ⟨letters, gs, taken, after, rfl, hletters, hscan⟩ := h
  obtain ⟨a, body, b, htaken, ha, hb⟩ := hwraps gs _ hscan
  exact ⟨letters, a, body, b, by rw [htaken], hletters, ha, hb⟩

/-- A string between double quotes whose value is as long as what stands between them holds
    nothing but characters that stand for themselves. -/
theorem standsForItself_of_value {text s : String} {cs : List Char} (h : Scanned text.toList)
    (htext : text.toList = '"' :: (cs ++ ['"'])) (hreturn : ∀ c ∈ cs, c ≠ '\r')
    (hvalue : stringValue? text = some (.text s)) (hlength : cs.length ≤ s.toList.length) :
    standsForItself cs = true ∧ s.toList = cs := by
  have hsingle := not_threefold_of_value htext hvalue hlength
  have hparts := stringParts_quoted htext hsingle
  rw [stringValue?_of_parts hparts] at hvalue
  obtain ⟨hzero, hvalue⟩ := Option.ite_none_left_eq_some.mp hvalue
  obtain ⟨codes, hcodes, hs⟩ := Option.map_eq_some_iff.mp hvalue
  obtain ⟨letters, gs, taken, after, hchars, hletters, hscan⟩ := h
  have hnone : letters = [] := by
    cases letters with
    | nil => rfl
    | cons c letters =>
      obtain ⟨rfl, -⟩ := List.cons.inj (htext.symm.trans hchars)
      exact absurd (hletters '"' List.mem_cons_self) (by decide)
  rw [hnone, List.nil_append, htext] at hchars
  -- the glyphs of the string
  obtain ⟨p, inner, rfl, hp, hinner⟩ := List.map_eq_cons_iff.mp hchars.symm
  obtain ⟨ws, qs, rfl, hws, hqs⟩ := List.map_eq_append_iff.mp hinner
  obtain ⟨q, qs, rfl, hq, hnil⟩ := List.map_eq_cons_iff.mp hqs
  obtain rfl := List.map_eq_nil_iff.mp hnil
  have hsplits := (scanString_takes gs _ hscan).1
  have hgs : gs = p :: (ws ++ [q] ++ after) := hsplits.symm
  have hquote : isQuote p.char = true := by
    rw [hp]
    rfl
  have hopening : startsWithThree p.char (p :: (ws ++ [q] ++ after)) = false := by
    by_contra hthree
    have hthree : startsWithThree p.char (p :: (ws ++ [q] ++ after)) = true := by simpa using hthree
    rw [hgs, scanString_triple hquote hthree] at hscan
    obtain ⟨tail, -, heq⟩ := Option.map_eq_some_iff.mp hscan
    have htaken : ((p :: (ws ++ [q] ++ after)).take 3 ++ tail.1).map Glyph.char =
        (p :: (ws ++ [q])).map Glyph.char := congrArg (List.map Glyph.char) (Prod.mk.inj heq).1
    rw [List.map_append, startsWithThree_iff.mp hthree] at htaken
    exact hsingle ⟨p.char, tail.1.map Glyph.char, htext.trans (hchars.trans htaken.symm)⟩
  rw [hgs, scanString_single hquote hopening, hp] at hscan
  obtain ⟨tail, htail, heq⟩ := Option.map_eq_some_iff.mp hscan
  obtain ⟨htaken, rfl⟩ := Prod.mk.inj heq
  have htail : stringTail '"' false (ws ++ [q] ++ tail.2) = some (ws ++ [q], tail.2) := by
    rw [htail, ← (List.cons.inj htaken).2]
    rfl
  subst hws
  have hstands : standsForItself (ws.map Glyph.char) = true := by
    refine standsForItself_of_scanned htail ?_ hcodes (by rw [List.length_map]) ?_
    · intro g hg
      have hmem : g.char ∈ ws.map Glyph.char := List.mem_map_of_mem hg
      refine ⟨hreturn _ hmem, fun heq => hzero ?_⟩
      rw [← heq]
      exact List.contains_iff_mem.mpr hmem
    · cases hs
      simpa using hlength
  refine ⟨hstands, ?_⟩
  rw [unescape_of_standsForItself hstands le_rfl] at hcodes
  cases hcodes
  cases hs
  simp [List.map_map, Function.comp_def, Char.ofNat_toNat]

end Scanning

/-! ## Strings among the tokens -/

namespace Lexer

variable {l n : Lexer} {g : Glyph} {gs : List Glyph}

/-- All strings among the tokens have been scanned. -/
def StringsScanned (l : Lexer) : Prop := ∀ t ∈ l.tokens, t.kind = .string → Scanned t.text.toList

theorem StringsScanned.cons (h : l.StringsScanned) {t : Token} (htokens : n.tokens = t :: l.tokens)
    (ht : t.kind = .string → Scanned t.text.toList) : n.StringsScanned := by
  unfold StringsScanned
  rw [htokens]
  exact List.forall_mem_cons.mpr ⟨ht, h⟩

theorem StringsScanned.skips (h : l.StringsScanned) (hskips : Skips l n) : n.StringsScanned := by
  obtain ⟨marks, hmarks, hunplaced⟩ := hskips.tokens
  unfold StringsScanned
  rw [hmarks]
  intro t ht hkind
  rcases List.mem_append.mp ht with ht | ht
  · refine absurd ?_ (hunplaced t ht)
    rw [Token.isPlaced, hkind]
    rfl
  · exact h t ht hkind

theorem operator_stringsScanned (h : l.StringsScanned) :
    Yields StringsScanned (l.operator g gs) := by
  have hplain : ∀ {n : Lexer} (text rest : List Glyph),
      n.tokens = (l.emit .operator text rest).tokens → n.StringsScanned :=
    fun text rest htokens => h.cons htokens fun hkind => by cases hkind
  rw [operator_eq]
  refine .ite (fun _ => .some (hplain _ _ (tokens_updateFrame _ _))) fun _ => .bind_any fun t => ?_
  refine .ite (fun _ => .some (hplain t.1 t.2 (tokens_updateFrame _ _))) fun _ => .ite (fun _ => ?_)
    fun _ => .some (hplain t.1 t.2 rfl)
  intro n hclose
  exact hplain t.1 t.2 (closeBracket_keeps hclose).2

theorem wordOrString_stringsScanned (h : l.StringsScanned) :
    Yields StringsScanned l.wordOrString := by
  rw [wordOrString_eq]
  refine .ite (fun _ => ?_) fun _ => .ite (fun _ => ?_) fun _ => .bind_any fun t => .some ?_
  · rw [openFormat_eq]
    refine .bind_any fun t => .bind_any fun first => .some (h.cons rfl ?_)
    intro hkind
    cases hkind
  · intro n hn
    obtain ⟨t, ht, hn⟩ := Option.bind_eq_some_iff.mp hn
    cases hn
    refine h.cons rfl fun _ => ⟨(l.rest.takeWhile isWordGlyph).map Glyph.char, _, t.1, t.2, ?_, ?_, ht⟩
    · rw [textOf, String.toList_ofList, List.map_append]
    · -- a quote is no part of a word
      intro c hc
      obtain ⟨k, hk, rfl⟩ := List.mem_map.mp hc
      have hword : isWordGlyph k = true := List.mem_takeWhile_imp hk
      rw [isWordGlyph_eq] at hword
      by_contra hquote
      rcases eq_of_isQuote (Bool.not_eq_false _ ▸ hquote) with hchar | hchar
      · rw [hchar] at hword
        cases hword
      · rw [hchar] at hword
        cases hword
  · refine h.cons rfl ?_
    intro hkind
    cases hkind

theorem token_stringsScanned (h : l.StringsScanned) : Yields StringsScanned (l.token g gs) := by
  refine .ite (fun _ => .some (h.skips (skips_skipComment l))) fun _ => .ite (fun _ => .some ?_) fun _ =>
    .ite (fun _ => ?_) fun _ => .ite (fun _ => wordOrString_stringsScanned h) fun _ =>
    .ite (fun _ => .bind_any fun number => .some (h.cons rfl ?_)) fun _ => .ite (fun _ => ?_) fun _ =>
    operator_stringsScanned h
  · split
    · refine h.cons rfl ?_
      intro hkind
      cases hkind
    · exact h
  · split
    next => exact .ite (fun _ => .some h) fun _ => .none
    next => exact .none
  · intro hkind
    cases hkind
  · intro n hn
    obtain ⟨t, ht, hn⟩ := Option.bind_eq_some_iff.mp hn
    cases hn
    refine h.cons rfl fun _ => ⟨[], g :: gs, t.1, t.2, ?_, by simp, ht⟩
    rw [textOf, String.toList_ofList, List.nil_append]

theorem formatPart_stringsScanned (h : l.StringsScanned) : Yields StringsScanned l.formatPart? := by
  unfold formatPart?
  split
  next => exact .none
  next f outer _ =>
    refine .ite (fun _ => .none) fun _ => .ite (fun _ => .some (h.cons rfl ?_)) fun _ =>
      .ite (fun _ => .some (h.cons rfl ?_)) fun _ => .none
    · intro hkind
      cases hkind
    · intro hkind
      cases hkind

theorem step_stringsScanned (h : l.StringsScanned) : Yields StringsScanned l.step := by
  intro n hstep
  rcases step_cases hstep with hpart | ⟨-, -, ⟨-, hbegin⟩ | ⟨-, ⟨-, rfl⟩ | ⟨g, gs, hsome, htoken⟩⟩⟩
  · exact formatPart_stringsScanned h n hpart
  · exact h.skips (beginLine_skips l n hbegin)
  · exact h
  · have hl : { l with rest := g :: gs }.StringsScanned := h
    exact token_stringsScanned hl n htoken

theorem Reaches.stringsScanned (h : Reaches l n) (hl : l.StringsScanned) : n.StringsScanned := by
  induction h with
  | refl => exact hl
  | tail _ hstep ih => exact step_stringsScanned ih _ hstep

/-! ## A string in a text -/

theorem token_of_quote (h : isQuote g.char = true) :
    l.token g gs = (scanString (g :: gs)).bind fun t => some (l.emit .string t.1 t.2) := by
  have hother : ∀ w : Char → Bool, w '\'' = false → w '"' = false → ¬w g.char = true := by
    intro w hsingle hdouble
    rcases eq_of_isQuote h with hchar | hchar <;> simp [hchar, hsingle, hdouble]
  have hword : ¬beginsWord g = true := by
    rw [beginsWord, isWordGlyph_eq]
    exact hother (fun c => isWordChar c && !c.isDigit) (by decide) (by decide)
  have hnumber : ¬(g.char.isDigit || (g.char = '.' && startsWithDigit Char.isDigit gs)) = true :=
    hother (fun c => c.isDigit || (c = '.' && startsWithDigit Char.isDigit gs)) rfl rfl
  have hne : ∀ c : Char, '\'' ≠ c → '"' ≠ c → g.char ≠ c := by
    intro c hsingle hdouble
    rcases eq_of_isQuote h with hchar | hchar <;> rwa [hchar]
  exact (if_neg (hne '#' (by decide) (by decide))).trans ((if_neg (hne '\n' (by decide) (by decide))).trans
    ((if_neg (hne '\\' (by decide) (by decide))).trans ((if_neg hword).trans ((if_neg hnumber).trans
      (if_pos h)))))

end Lexer

/-- Every string of a script has been scanned. -/
theorem lexed_scanned {code : String} {lexed : Lexed} (h : lex code = some lexed) :
    ∀ t ∈ lexed.tokens, t.kind = .string → Scanned t.text.toList := by
  obtain ⟨last, hlast, -, marks, htokens, hunplaced⟩ := lex_reaches h
  have hscanned : last.StringsScanned := Lexer.Reaches.stringsScanned hlast fun t ht => by cases ht
  intro t ht hkind
  rw [htokens] at ht
  rcases List.mem_append.mp ht with ht | ht
  · exact hscanned t (List.mem_reverse.mp ht) hkind
  · refine absurd ?_ (hunplaced t ht)
    rw [Token.isPlaced, hkind]
    rfl

end Framewise.Script
