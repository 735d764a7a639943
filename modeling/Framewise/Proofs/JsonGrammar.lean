import Framewise.Json.Printer
import Framewise.Json.Reader
import Mathlib.Data.List.DropRight
import Mathlib.Tactic.IntervalCases

/-! # The grammar of JSON

  How a value may be spelled as JSON, apart from how it is written here and how it
  is read here: white space may stand around every value, a character of a text may
  stand for itself or be escaped, and objects keep the order of their members. Of
  numbers only the whole ones are covered.

  What is written is spelled as the grammar says, in ASCII. What is spelled as the
  grammar says is read as the value that it spells, with whatever follows it left
  over. So every value without fractions is read back from what is written of it.

  Main definitions:
  - `SpellsChar`, `SpellsText`: characters and texts between quotes.
  - `Spells`: the grammar.
  - `Plain`: values that can be written without loss.

  Main results: `parse_of_spells`, `spells_indented`, `ascii_indented`, `parse_indented`.
-/

namespace Framewise.Json

/-! ## Characters -/

/-- A hexadecimal digit, in either case. -/
def Hex (n : Nat) (c : Char) : Prop := n < 16 ∧ (c = n.digitChar ∨ c = n.digitChar.toUpper)

/-- The escape of a 16-bit unit by four hexadecimal digits. -/
inductive SpellsUnit : Nat → List Char → Prop where
  | mk {a b c d : Nat} {a' b' c' d' : Char} (ha : Hex a a') (hb : Hex b b') (hc : Hex c c')
      (hd : Hex d d') : SpellsUnit (16 * (16 * (16 * a + b) + c) + d) ['\\', 'u', a', b', c', d']

/-- The characters behind a backslash, and what they stand for. -/
def shortcuts : List (Char × Char) :=
  [('"', '"'), ('\\', '\\'), ('/', '/'), ('b', Char.ofNat 8), ('f', Char.ofNat 12), ('n', '\n'),
    ('r', '\r'), ('t', '\t')]

/-- How a character of a text may be spelled. -/
inductive SpellsChar : Char → List Char → Prop where
  | plain {c : Char} (hprint : 32 ≤ c.toNat) (hquote : c ≠ '"') (hslash : c ≠ '\\') :
      SpellsChar c [c]
  | short {e c : Char} (h : (e, c) ∈ shortcuts) : SpellsChar c ['\\', e]
  | unit {c : Char} {t : List Char} (h : SpellsUnit c.toNat t) : SpellsChar c t
  /-- A character above `U+FFFF`, by a surrogate pair. -/
  | pair {c : Char} {n : Nat} {t t' : List Char} (hn : c.toNat = 0x10000 + n)
      (h : SpellsUnit (0xD800 + n / 0x400) t) (h' : SpellsUnit (0xDC00 + n % 0x400) t') :
      SpellsChar c (t ++ t')

/-- How a text may be spelled between its quotes. -/
inductive SpellsText : List Char → List Char → Prop where
  | nil : SpellsText [] []
  | cons {c : Char} {cs t ts : List Char} (h : SpellsChar c t) (hrest : SpellsText cs ts) :
      SpellsText (c :: cs) (t ++ ts)

/-! ## Values -/

/-- White space. -/
def Blank (ws : List Char) : Prop := ∀ c ∈ ws, c = ' ' ∨ c = '\t' ∨ c = '\n' ∨ c = '\r'

/-- How the key of a member may be spelled, with the colon behind it. -/
inductive SpellsKey : String → List Char → Prop where
  | mk {key : String} {ws t ws' : List Char} (hbefore : Blank ws) (h : SpellsText key.toList t)
      (hbehind : Blank ws') : SpellsKey key (ws ++ '"' :: (t ++ '"' :: (ws' ++ [':'])))

mutual

/-- How a value may be spelled. -/
inductive Spells : Value → List Char → Prop where
  | null : Spells .null ['n', 'u', 'l', 'l']
  | true : Spells (.bool true) ['t', 'r', 'u', 'e']
  | false : Spells (.bool false) ['f', 'a', 'l', 's', 'e']
  | int (i : Int) : Spells (.int i) (toString i).toList
  | text {s : String} {t : List Char} (h : SpellsText s.toList t) :
      Spells (.text s) ('"' :: (t ++ ['"']))
  | emptyList {ws : List Char} (h : Blank ws) : Spells (.list []) ('[' :: (ws ++ [']']))
  | list {vs : List Value} {t : List Char} (h : SpellsItems vs t) :
      Spells (.list vs) ('[' :: (t ++ [']']))
  | emptyTable {ws : List Char} (h : Blank ws) : Spells (.table []) ('\x7b' :: (ws ++ ['\x7d']))
  | table {es : List (String × Value)} {t : List Char} (h : SpellsMembers es t) :
      Spells (.table es) ('\x7b' :: (t ++ ['\x7d']))

/-- How the items of a list may be spelled, at least one. -/
inductive SpellsItems : List Value → List Char → Prop where
  | one {v : Value} {ws t ws' : List Char} (hbefore : Blank ws) (h : Spells v t)
      (hbehind : Blank ws') : SpellsItems [v] (ws ++ (t ++ ws'))
  | more {v : Value} {vs : List Value} {ws t ws' ts : List Char} (hbefore : Blank ws)
      (h : Spells v t) (hbehind : Blank ws') (hrest : SpellsItems vs ts) :
      SpellsItems (v :: vs) (ws ++ (t ++ (ws' ++ ',' :: ts)))

/-- How the members of an object may be spelled, at least one. -/
inductive SpellsMembers : List (String × Value) → List Char → Prop where
  | one {key : String} {v : Value} {k t : List Char} (hkey : SpellsKey key k)
      {ws ws' : List Char} (hbefore : Blank ws) (h : Spells v t) (hbehind : Blank ws') :
      SpellsMembers [(key, v)] (k ++ (ws ++ (t ++ ws')))
  | more {key : String} {v : Value} {es : List (String × Value)} {k t ts : List Char}
      (hkey : SpellsKey key k) {ws ws' : List Char} (hbefore : Blank ws) (h : Spells v t)
      (hbehind : Blank ws') (hrest : SpellsMembers es ts) :
      SpellsMembers ((key, v) :: es) (k ++ (ws ++ (t ++ (ws' ++ ',' :: ts))))

end

/-! ## Reading texts -/

section Texts

variable {fuel : Nat} {rest : List Char}

theorem hexValue?_four {a b c d : Nat} {a' b' c' d' : Char} (ha : Hex a a') (hb : Hex b b')
    (hc : Hex c c') (hd : Hex d d') :
    hexValue? [a', b', c', d'] = some (16 * (16 * (16 * a + b) + c) + d) := by
  -- one digit adds its value to sixteen times the value so far
  have hstep : ∀ {v : Nat} {c : Char} (n : Nat), Hex v c →
      (if c.isDigit then some (16 * n + (c.toNat - 48))
        else if 'a' ≤ c && c ≤ 'f' then some (16 * n + (c.toNat - 87))
        else if 'A' ≤ c && c ≤ 'F' then some (16 * n + (c.toNat - 55))
        else none) = some (16 * n + v) := by
    intro v c n h
    obtain ⟨hlt, hcase⟩ := h
    interval_cases v <;> rcases hcase with rfl | rfl <;> rfl
  simp only [hexValue?, List.foldlM_cons, List.foldlM_nil, hstep _ ha, hstep _ hb, hstep _ hc,
    hstep _ hd, Option.bind_eq_bind, Option.bind_some]
  simp

/-- What stands behind `\u` is read as the unit it spells. -/
theorem unit_of_spells {n : Nat} {t : List Char} (h : SpellsUnit n t) (rest : List Char) :
    ∃ ds, t = '\\' :: 'u' :: ds ∧ unit (ds ++ rest) = some (n, rest) := by
  cases h with
  | @mk a b c d a' b' c' d' ha hb hc hd =>
    refine ⟨[a', b', c', d'], rfl, ?_⟩
    simp [unit, hexValue?_four ha hb hc hd]

/-- A character is no surrogate. -/
theorem joinUnits_char (c : Char) : joinUnits c.toNat rest = (c, rest) := by
  have hvalid : c.toNat < 0xD800 ∨ 0xDFFF < c.toNat ∧ c.toNat < 0x110000 := c.valid
  unfold joinUnits
  have hfirst : ¬ ((0xD800 ≤ c.toNat && c.toNat < 0xDC00 : Bool) = true) := by simp; omega
  have hsecond : ¬ ((0xDC00 ≤ c.toNat && c.toNat < 0xE000 : Bool) = true) := by simp; omega
  rw [if_neg hfirst, if_neg hsecond, Char.ofNat_toNat]

theorem textTail_unit {n : Nat} {ds : List Char} {c : Char} {after : List Char}
    (hunit : unit (ds ++ rest) = some (n, rest)) (hjoin : joinUnits n rest = (c, after)) :
    textTail (fuel + 1) ('\\' :: 'u' :: (ds ++ rest)) =
      (textTail fuel after).map fun p => (c :: p.1, p.2) := by
  simp only [textTail, hunit, hjoin]

/-- A character is read from any of its spellings. -/
theorem textTail_char {c : Char} {t : List Char} (h : SpellsChar c t) :
    textTail (fuel + 1) (t ++ rest) = (textTail fuel rest).map fun p => (c :: p.1, p.2) := by
  cases h with
  | plain hprint hquote hslash =>
    simp [textTail, hslash]
  | short h =>
    simp only [shortcuts, List.mem_cons, Prod.mk.injEq, List.not_mem_nil, or_false] at h
    rcases h with ⟨rfl, rfl⟩ | ⟨rfl, rfl⟩ | ⟨rfl, rfl⟩ | ⟨rfl, rfl⟩ | ⟨rfl, rfl⟩ | ⟨rfl, rfl⟩ |
      ⟨rfl, rfl⟩ | ⟨rfl, rfl⟩ <;> simp [textTail, shortEscape]
  | unit h =>
    obtain ⟨ds, rfl, hunit⟩ := unit_of_spells h rest
    exact textTail_unit hunit (joinUnits_char c)
  | @pair _ n t t' hn h h' =>
    obtain ⟨ds', rfl, hunit'⟩ := unit_of_spells h' rest
    obtain ⟨ds, rfl, hunit⟩ := unit_of_spells h ('\\' :: 'u' :: (ds' ++ rest))
    have hvalid : c.toNat < 0xD800 ∨ 0xDFFF < c.toNat ∧ c.toNat < 0x110000 := c.valid
    -- the two units together give back the code point
    have hjoin : joinUnits (0xD800 + n / 0x400) ('\\' :: 'u' :: (ds' ++ rest)) = (c, rest) := by
      have hfirst : (0xD800 ≤ 0xD800 + n / 0x400 && 0xD800 + n / 0x400 < 0xDC00 : Bool) = true := by
        simp
        omega
      have hsecond : (0xDC00 ≤ 0xDC00 + n % 0x400 && 0xDC00 + n % 0x400 < 0xE000 : Bool) = true := by
        simp
        omega
      have hcode : 0x10000 + (0xD800 + n / 0x400 - 0xD800) * 0x400 +
          (0xDC00 + n % 0x400 - 0xDC00) = c.toNat := by omega
      simp only [joinUnits, hfirst, hunit', hsecond, if_true, hcode, Char.ofNat_toNat]
    rw [List.append_assoc]
    exact textTail_unit hunit hjoin

theorem SpellsChar.ne_nil {c : Char} {t : List Char} (h : SpellsChar c t) : t ≠ [] := by
  cases h with
  | plain hprint hquote hslash => simp
  | short h => simp
  | unit h =>
    obtain ⟨ds, rfl, -⟩ := unit_of_spells h []
    simp
  | pair hn h h' =>
    obtain ⟨ds, rfl, -⟩ := unit_of_spells h []
    simp

/-- A text is read up to its closing quote. A step is needed for each character and for the
    quote. -/
theorem textTail_of_spells {cs t : List Char} (h : SpellsText cs t)
    (hfuel : t.length + 1 ≤ fuel) : textTail fuel (t ++ '"' :: rest) = some (cs, rest) := by
  induction h generalizing fuel with
  | nil =>
    obtain ⟨fuel, rfl⟩ : ∃ k, fuel = k + 1 := ⟨fuel - 1, by simp at hfuel; omega⟩
    simp [textTail]
  | @cons c cs t ts hchar hrest ih =>
    have hpos : 0 < t.length := List.length_pos_iff.mpr hchar.ne_nil
    rw [List.length_append] at hfuel
    obtain ⟨fuel, rfl⟩ : ∃ k, fuel = k + 1 := ⟨fuel - 1, by omega⟩
    rw [List.append_assoc, textTail_char hchar, ih (by omega)]
    rfl

theorem text_of_spells {s : String} {t : List Char} (h : SpellsText s.toList t) :
    text (t ++ '"' :: rest) = some (s, rest) := by
  have hread : textTail ((t ++ '"' :: rest).length + 1) (t ++ '"' :: rest) =
      some (s.toList, rest) := by
    apply textTail_of_spells h
    simp
  show (textTail ((t ++ '"' :: rest).length + 1) (t ++ '"' :: rest)).map _ = _
  rw [hread]
  simp

end Texts

/-! ## Reading values -/

section Spaces

variable {ws cs rest : List Char}

/-- White space in front makes no difference. -/
theorem skipSpace_append (h : Blank ws) : skipSpace (ws ++ cs) = skipSpace cs := by
  unfold skipSpace
  apply List.dropWhile_append_of_pos
  intro c hc
  rcases h c hc with rfl | rfl | rfl | rfl <;> rfl

theorem skipSpace_skipSpace : skipSpace (skipSpace cs) = skipSpace cs :=
  List.dropWhile_idempotent _ _

/-- The rest cannot continue a number. -/
def Ends (rest : List Char) : Prop :=
  ∀ c ∈ rest.head?, c.isDigit = false ∧ c ≠ '.' ∧ c ≠ 'e' ∧ c ≠ 'E'

theorem Ends.blank_append (h : Blank ws) (hrest : Ends rest) : Ends (ws ++ rest) := by
  cases ws with
  | nil => exact hrest
  | cons c ws =>
    obtain ⟨hc, -⟩ := List.forall_mem_cons.mp h
    rintro d ⟨⟩
    rcases hc with rfl | rfl | rfl | rfl <;> decide

end Spaces

section Numbers

variable {fuel : Nat} {rest : List Char}

theorem digits_append {ds : List Char} (hds : ∀ c ∈ ds, c.isDigit = true) (hrest : Ends rest) :
    digits (ds ++ rest) = (ds, rest) := by
  have hstop : rest.takeWhile Char.isDigit = [] ∧ rest.dropWhile Char.isDigit = rest := by
    cases rest with
    | nil => exact ⟨rfl, rfl⟩
    | cons c rest =>
      obtain ⟨hc, -⟩ := hrest c rfl
      simp [hc]
  unfold digits
  rw [List.takeWhile_append_of_pos hds, List.dropWhile_append_of_pos hds, hstop.1, hstop.2,
    List.append_nil]

theorem fraction_of_ends (h : Ends rest) : fraction rest = (none, rest) := by
  cases rest with
  | nil => rfl
  | cons c rest =>
    obtain ⟨-, hc, -⟩ := h c rfl
    simp [fraction, hc]

theorem exponent_of_ends (h : Ends rest) : exponent rest = (none, rest) := by
  cases rest with
  | nil => rfl
  | cons c rest =>
    obtain ⟨-, -, hc, hc'⟩ := h c rfl
    simp [exponent, hc, hc']

/-- A number is read from its decimal digits. -/
theorem unsigned_toDigits (negative : Bool) (n : Nat) (hrest : Ends rest) :
    unsigned negative (Nat.toDigits 10 n ++ rest) =
      some (.int (if negative then -n else n), rest) := by
  have hdigits : ∀ c ∈ Nat.toDigits 10 n, c.isDigit = true :=
    fun c hc => Nat.isDigit_of_mem_toDigits (by decide) (by decide) hc
  have hvalue : digitsValue (Nat.toDigits 10 n) = n := Nat.ofDigitChars_ten_toDigits
  simp [unsigned, digits_append hdigits hrest, fraction_of_ends hrest, exponent_of_ends hrest,
    hvalue]

/-- A digit begins a number, and nothing else. -/
theorem value_digit {c : Char} (hc : c.isDigit = true) :
    value (fuel + 1) (c :: rest) = unsigned false (c :: rest) := by
  have hne : ∀ d : Char, d.isDigit = false → c ≠ d := by
    rintro d hd rfl
    rw [hc] at hd
    cases hd
  have hskip : skipSpace (c :: rest) = c :: rest := by
    simp [skipSpace, hne ' ' rfl, hne '\t' rfl, hne '\n' rfl, hne '\r' rfl]
  have hquote := hne '"' rfl
  have hbracket := hne '[' rfl
  have hbrace := hne '\x7b' rfl
  have hminus := hne '-' rfl
  simp [value, hskip, hbrace, hminus, hc]

theorem toDigits_eq_cons (n : Nat) :
    ∃ d ds, Nat.toDigits 10 n = d :: ds ∧ d.isDigit = true := by
  cases hds : Nat.toDigits 10 n with
  | nil => exact absurd hds Nat.toDigits_ne_nil
  | cons d ds =>
    have hmem : d ∈ Nat.toDigits 10 n := hds ▸ List.mem_cons_self
    exact ⟨d, ds, rfl, Nat.isDigit_of_mem_toDigits (by decide) (by decide) hmem⟩

theorem value_int (i : Int) (hrest : Ends rest) :
    value (fuel + 1) ((toString i).toList ++ rest) = some (.int i, rest) := by
  rw [Int.toString_eq_repr, Int.repr_eq_if]
  by_cases hi : 0 ≤ i
  · rw [if_pos hi, Nat.toList_repr]
    -- the first digit decides that a number follows
    obtain ⟨d, ds, hds, hd⟩ := toDigits_eq_cons i.toNat
    have hread := unsigned_toDigits false i.toNat hrest
    rw [hds, List.cons_append] at hread ⊢
    rw [value_digit hd, hread]
    simp [Int.toNat_of_nonneg hi]
  · rw [if_neg hi, String.toList_append, Nat.toList_repr]
    have hread : unsigned true (Nat.toDigits 10 (-i).toNat ++ rest) = some (.int i, rest) := by
      rw [unsigned_toDigits true _ hrest, if_pos rfl]
      have hneg : (-((-i).toNat : Int)) = i := by omega
      rw [hneg]
    have hnot : dropWord "Infinity".toList (Nat.toDigits 10 (-i).toNat ++ rest) = none := by
      obtain ⟨d, ds, hds, hd⟩ := toDigits_eq_cons (-i).toNat
      have hne : 'I' ≠ d := by
        rintro rfl
        exact absurd hd (by decide)
      simp [hds, dropWord, hne]
    have hword : "Infinity".toList = ['I', 'n', 'f', 'i', 'n', 'i', 't', 'y'] := rfl
    rw [hword] at hnot
    simp [value, skipSpace, hread, hnot]

end Numbers

section Values

variable {fuel : Nat} {ws cs rest : List Char}

theorem value_blank (h : Blank ws) : value fuel (ws ++ cs) = value fuel cs := by
  cases fuel with
  | zero => rfl
  | succ fuel => simp only [value, skipSpace_append h]

theorem items_skipSpace : items fuel (skipSpace cs) = items fuel cs := by
  have hvalue : ∀ fuel, value fuel (skipSpace cs) = value fuel cs := by
    intro fuel
    cases fuel with
    | zero => rfl
    | succ fuel => simp only [value, skipSpace_skipSpace]
  cases fuel with
  | zero => rfl
  | succ fuel => simp only [items, hvalue]

theorem members_skipSpace : members fuel (skipSpace cs) = members fuel cs := by
  cases fuel with
  | zero => rfl
  | succ fuel => simp only [members, skipSpace_skipSpace]

/-- No item begins with the closing bracket. -/
theorem items_of_bracket (h : skipSpace cs = ']' :: rest) : items fuel cs = none := by
  have hvalue : ∀ fuel, value fuel (']' :: rest) = none := by
    intro fuel
    cases fuel with
    | zero => rfl
    | succ fuel => simp [value, skipSpace, dropWord]
  rw [← items_skipSpace, h]
  cases fuel with
  | zero => rfl
  | succ fuel => simp only [items, hvalue]

theorem members_of_brace (h : skipSpace cs = '\x7d' :: rest) : members fuel cs = none := by
  cases fuel with
  | zero => rfl
  | succ fuel => simp [members, h]

theorem value_list {vs : List Value} (h : items fuel cs = some (vs, rest)) :
    value (fuel + 1) ('[' :: cs) = some (.list vs, rest) := by
  have hopen : skipSpace ('[' :: cs) = '[' :: cs := rfl
  have hclose : ∀ tail, skipSpace cs ≠ ']' :: tail := by
    intro tail htail
    rw [items_of_bracket htail] at h
    cases h
  simp [value, hopen, items_skipSpace, h]

theorem value_table {es : List (String × Value)} (h : members fuel cs = some (es, rest)) :
    value (fuel + 1) ('\x7b' :: cs) = some (.table es, rest) := by
  have hopen : skipSpace ('\x7b' :: cs) = '\x7b' :: cs := rfl
  cases hskip : skipSpace cs with
  | nil =>
    rw [← members_skipSpace, hskip] at h
    cases fuel <;> cases h
  | cons d tail =>
    have hclose : d ≠ '\x7d' := by
      rintro rfl
      rw [members_of_brace hskip] at h
      cases h
    have hread : members fuel (d :: tail) = some (es, rest) := by
      rw [← hskip, members_skipSpace, h]
    simp [value, hopen, hskip, hclose, hread]

theorem value_emptyList (h : Blank ws) :
    value (fuel + 1) ('[' :: (ws ++ ']' :: rest)) = some (.list [], rest) := by
  have hopen : skipSpace ('[' :: (ws ++ ']' :: rest)) = '[' :: (ws ++ ']' :: rest) := rfl
  have hclose : skipSpace (']' :: rest) = ']' :: rest := rfl
  simp [value, hopen, skipSpace_append h, hclose]

theorem value_emptyTable (h : Blank ws) :
    value (fuel + 1) ('\x7b' :: (ws ++ '\x7d' :: rest)) = some (.table [], rest) := by
  have hopen : skipSpace ('\x7b' :: (ws ++ '\x7d' :: rest)) = '\x7b' :: (ws ++ '\x7d' :: rest) :=
    rfl
  have hclose : skipSpace ('\x7d' :: rest) = '\x7d' :: rest := rfl
  simp [value, hopen, skipSpace_append h, hclose]

theorem value_text {s : String} {t : List Char} (h : SpellsText s.toList t) :
    value (fuel + 1) ('"' :: (t ++ '"' :: rest)) = some (.text s, rest) := by
  have hopen : skipSpace ('"' :: (t ++ '"' :: rest)) = '"' :: (t ++ '"' :: rest) := rfl
  simp [value, hopen, text_of_spells h]

/-- Behind a key, a member is read as its value is. -/
theorem members_key {key : String} {k : List Char} (h : SpellsKey key k) {v : Value}
    {left : List Char} (hvalue : value fuel cs = some (v, left)) :
    (∀ {rest es after}, skipSpace left = ',' :: rest → members fuel rest = some (es, after) →
      members (fuel + 1) (k ++ cs) = some ((key, v) :: es, after)) ∧
    (∀ {rest}, skipSpace left = '\x7d' :: rest →
      members (fuel + 1) (k ++ cs) = some ([(key, v)], rest)) := by
  cases h with
  | @mk ws t ws' hbefore h hbehind =>
    simp only [List.append_assoc, List.cons_append, List.nil_append]
    have hopen : skipSpace (ws ++ '"' :: (t ++ '"' :: (ws' ++ ':' :: cs))) =
        '"' :: (t ++ '"' :: (ws' ++ ':' :: cs)) := skipSpace_append hbefore
    have hcolon : skipSpace (ws' ++ ':' :: cs) = ':' :: cs := skipSpace_append hbehind
    constructor
    · intro rest es after hcomma hmembers
      simp [members, hopen, text_of_spells h, hcolon, hvalue, hcomma, hmembers]
    · intro rest hbrace
      simp [members, hopen, text_of_spells h, hcolon, hvalue, hbrace]

end Values

mutual

/-- A value is read from any of its spellings, and what follows it is left. -/
theorem value_of_spells {v : Value} {t : List Char} (h : Spells v t) {fuel : Nat}
    {rest : List Char} (hfuel : t.length + 1 ≤ fuel) (hrest : Ends rest) :
    value fuel (t ++ rest) = some (v, rest) := by
  obtain ⟨fuel, rfl⟩ : ∃ k, fuel = k + 1 := ⟨fuel - 1, by omega⟩
  cases h with
  | null => simp [value, skipSpace, dropWord]
  | true => simp [value, skipSpace, dropWord]
  | false => simp [value, skipSpace, dropWord]
  | int i => exact value_int i hrest
  | text h =>
    simp only [List.cons_append, List.append_assoc, List.nil_append]
    exact value_text h
  | emptyList h =>
    simp only [List.cons_append, List.append_assoc, List.nil_append]
    exact value_emptyList h
  | list h =>
    simp only [List.cons_append, List.append_assoc, List.nil_append]
    apply value_list
    apply items_of_spells h
    simp at hfuel
    omega
  | emptyTable h =>
    simp only [List.cons_append, List.append_assoc, List.nil_append]
    exact value_emptyTable h
  | table h =>
    simp only [List.cons_append, List.append_assoc, List.nil_append]
    apply value_table
    apply members_of_spells h
    simp at hfuel
    omega

theorem items_of_spells {vs : List Value} {t : List Char} (h : SpellsItems vs t) {fuel : Nat}
    {rest : List Char} (hfuel : t.length + 2 ≤ fuel) :
    items fuel (t ++ ']' :: rest) = some (vs, rest) := by
  obtain ⟨fuel, rfl⟩ : ∃ k, fuel = k + 1 := ⟨fuel - 1, by omega⟩
  cases h with
  | @one v ws t ws' hbefore h hbehind =>
    simp only [List.length_append] at hfuel
    have hends : Ends (ws' ++ ']' :: rest) := Ends.blank_append hbehind (by simp [Ends])
    have hlen : t.length + 1 ≤ fuel := by omega
    have hvalue := value_of_spells h hlen hends
    have hclose : skipSpace (ws' ++ ']' :: rest) = ']' :: rest := skipSpace_append hbehind
    simp [items, value_blank hbefore, hvalue, hclose]
  | @more v vs ws t ws' ts hbefore h hbehind hitems =>
    simp only [List.length_append, List.length_cons] at hfuel
    have hends : Ends (ws' ++ ',' :: (ts ++ ']' :: rest)) :=
      Ends.blank_append hbehind (by simp [Ends])
    have hlen : t.length + 1 ≤ fuel := by omega
    have hvalue := value_of_spells h hlen hends
    have hcomma : skipSpace (ws' ++ ',' :: (ts ++ ']' :: rest)) = ',' :: (ts ++ ']' :: rest) :=
      skipSpace_append hbehind
    have hread : items fuel (ts ++ ']' :: rest) = some (vs, rest) :=
      items_of_spells hitems (by omega)
    simp [items, value_blank hbefore, hvalue, hcomma, hread]

theorem members_of_spells {es : List (String × Value)} {t : List Char} (h : SpellsMembers es t)
    {fuel : Nat} {rest : List Char} (hfuel : t.length + 2 ≤ fuel) :
    members fuel (t ++ '\x7d' :: rest) = some (es, rest) := by
  obtain ⟨fuel, rfl⟩ : ∃ k, fuel = k + 1 := ⟨fuel - 1, by omega⟩
  cases h with
  | @one key v k t hkey ws ws' hbefore h hbehind =>
    simp only [List.length_append] at hfuel
    have hends : Ends (ws' ++ '\x7d' :: rest) := Ends.blank_append hbehind (by simp [Ends])
    have hlen : t.length + 1 ≤ fuel := by omega
    have hvalue := value_of_spells h hlen hends
    rw [← value_blank hbefore] at hvalue
    simp only [List.append_assoc]
    exact (members_key hkey hvalue).2 (skipSpace_append hbehind)
  | @more key v es k t ts hkey ws ws' hbefore h hbehind hmembers =>
    simp only [List.length_append, List.length_cons] at hfuel
    have hends : Ends (ws' ++ ',' :: (ts ++ '\x7d' :: rest)) :=
      Ends.blank_append hbehind (by simp [Ends])
    have hlen : t.length + 1 ≤ fuel := by omega
    have hvalue := value_of_spells h hlen hends
    rw [← value_blank hbefore] at hvalue
    have hread : members fuel (ts ++ '\x7d' :: rest) = some (es, rest) :=
      members_of_spells hmembers (by omega)
    simp only [List.append_assoc, List.cons_append]
    exact (members_key hkey hvalue).1 (skipSpace_append hbehind) hread

end

/-- A document is read from any spelling of its value, with white space around it. -/
theorem parse_of_spells {v : Value} {s : String} {ws t ws' : List Char} (hbefore : Blank ws)
    (h : Spells v t) (hbehind : Blank ws') (hs : s.toList = ws ++ (t ++ ws')) :
    parse s = some v := by
  have hends : Ends ws' := by
    rw [← List.append_nil ws']
    exact Ends.blank_append hbehind (by simp [Ends])
  have hfuel : t.length + 1 ≤ 2 * s.toList.length + 2 := by
    rw [hs]
    simp only [List.length_append]
    omega
  have hvalue : value (2 * s.toList.length + 2) s.toList = some (v, ws') := by
    have hread := value_of_spells h hfuel hends
    rw [← value_blank hbefore, ← hs] at hread
    exact hread
  have hleft : skipSpace ws' = [] := by
    rw [← List.append_nil ws', skipSpace_append hbehind]
    rfl
  simp only [parse, hvalue, hleft, List.isEmpty_nil, if_true]

/-! ## Writing texts -/

/-- Characters of ASCII only. -/
def Ascii (cs : List Char) : Prop := ∀ c ∈ cs, c.toNat < 128

section Writing

variable {cs cs' : List Char}

@[simp] theorem ascii_nil : Ascii [] := by simp [Ascii]

@[simp] theorem ascii_cons {c : Char} : Ascii (c :: cs) ↔ c.toNat < 128 ∧ Ascii cs := by
  simp [Ascii]

@[simp] theorem ascii_append : Ascii (cs ++ cs') ↔ Ascii cs ∧ Ascii cs' := by
  simp [Ascii, or_imp, forall_and]

theorem digitChar_lt (n : Nat) (h : n < 16) : n.digitChar.toNat < 128 := by
  interval_cases n <;> decide

theorem unitEscape_eq (n : Nat) : unitEscape n = ['\\', 'u', (n / 16 / 16 / 16 % 16).digitChar,
    (n / 16 / 16 % 16).digitChar, (n / 16 % 16).digitChar, (n % 16).digitChar] := rfl

theorem ascii_unitEscape (n : Nat) : Ascii (unitEscape n) := by
  have hdigit : ∀ k : Nat, (k % 16).digitChar.toNat < 128 := fun k =>
    digitChar_lt _ (Nat.mod_lt _ (by decide))
  simp [unitEscape_eq, hdigit]

theorem spellsUnit_unitEscape {n : Nat} (h : n < 0x10000) : SpellsUnit n (unitEscape n) := by
  have hdigit : ∀ k : Nat, Hex (k % 16) (k % 16).digitChar := fun k =>
    ⟨Nat.mod_lt _ (by decide), .inl rfl⟩
  have hn : 16 * (16 * (16 * (n / 16 / 16 / 16 % 16) + n / 16 / 16 % 16) + n / 16 % 16) + n % 16 =
      n := by omega
  have hspell := SpellsUnit.mk (hdigit (n / 16 / 16 / 16)) (hdigit (n / 16 / 16)) (hdigit (n / 16))
    (hdigit n)
  rw [hn] at hspell
  exact hspell

/-- A character is written as it may be spelled, in ASCII. -/
theorem escapeChar_spec (c : Char) : SpellsChar c (escapeChar c) ∧ Ascii (escapeChar c) := by
  have hcode : ∀ n, c.toNat = n → c = Char.ofNat n := by
    rintro n rfl
    rw [Char.ofNat_toNat]
  unfold escapeChar
  split
  next h =>
    simp only [Bool.or_eq_true, decide_eq_true_eq] at h
    rcases h with rfl | rfl <;> exact ⟨.short (by decide), by simp⟩
  next h =>
    simp only [Bool.or_eq_true, decide_eq_true_eq, not_or] at h
    split_ifs with hn hr ht hb hf hplain hsmall
    · exact ⟨hn ▸ .short (by decide), by simp⟩
    · exact ⟨hr ▸ .short (by decide), by simp⟩
    · exact ⟨ht ▸ .short (by decide), by simp⟩
    · exact ⟨hcode 8 hb ▸ .short (by decide), by simp⟩
    · exact ⟨hcode 12 hf ▸ .short (by decide), by simp⟩
    · simp only [Bool.and_eq_true, decide_eq_true_eq] at hplain
      have hascii : c.toNat < 128 := by omega
      exact ⟨.plain hplain.1 h.1 h.2, by simp [hascii]⟩
    · exact ⟨.unit (spellsUnit_unitEscape hsmall), ascii_unitEscape _⟩
    · have hvalid : c.toNat < 0xD800 ∨ 0xDFFF < c.toNat ∧ c.toNat < 0x110000 := c.valid
      have hpair : SpellsChar c (unitEscape (0xD800 + (c.toNat - 0x10000) / 0x400) ++
          unitEscape (0xDC00 + (c.toNat - 0x10000) % 0x400)) := by
        apply SpellsChar.pair (n := c.toNat - 0x10000)
        · omega
        · exact spellsUnit_unitEscape (by omega)
        · exact spellsUnit_unitEscape (by omega)
      exact ⟨hpair, ascii_append.mpr ⟨ascii_unitEscape _, ascii_unitEscape _⟩⟩

theorem flatMap_escapeChar_spec (cs : List Char) :
    SpellsText cs (cs.flatMap escapeChar) ∧ Ascii (cs.flatMap escapeChar) := by
  induction cs with
  | nil => exact ⟨.nil, ascii_nil⟩
  | cons c cs ih =>
    obtain ⟨hchar, hascii⟩ := escapeChar_spec c
    rw [List.flatMap_cons]
    exact ⟨.cons hchar ih.1, ascii_append.mpr ⟨hascii, ih.2⟩⟩

theorem toList_quote (s : String) :
    (quote s).toList = '"' :: (s.toList.flatMap escapeChar ++ ['"']) := by
  simp [quote]

theorem ascii_quote (s : String) : Ascii (quote s).toList := by
  have hbody := (flatMap_escapeChar_spec s.toList).2
  simp [toList_quote, hbody]

theorem ascii_toString (i : Int) : Ascii (toString i).toList := by
  have hdigits : ∀ n : Nat, Ascii (Nat.toDigits 10 n) := by
    intro n c hc
    have hdigit := Nat.isDigit_of_mem_toDigits (by decide) (by decide) hc
    simp only [Char.isDigit, Bool.and_eq_true, decide_eq_true_eq] at hdigit
    have hle : c.toNat ≤ 57 := hdigit.2
    omega
  rw [Int.toString_eq_repr, Int.repr_eq_if]
  split_ifs
  · simpa using hdigits i.toNat
  · simpa using hdigits (-i).toNat

/-! ## Writing values -/

/-- The values that are written without loss: those in which every number is whole, and that
    JSON has. -/
inductive Plain : Value → Prop where
  | null : Plain .null
  | bool (b : Bool) : Plain (.bool b)
  | int (i : Int) : Plain (.int i)
  | text (s : String) : Plain (.text s)
  | list {vs : List Value} (h : ∀ v ∈ vs, Plain v) : Plain (.list vs)
  | table {es : List (String × Value)} (h : ∀ e ∈ es, Plain e.2) : Plain (.table es)

theorem blank_newline (depth : Nat) : Blank (newline depth).toList := by
  intro c hc
  simp only [newline, String.toList_ofList, List.mem_cons, List.mem_replicate] at hc
  rcases hc with rfl | ⟨-, rfl⟩ <;> simp

theorem ascii_newline (depth : Nat) : Ascii (newline depth).toList := by
  intro c hc
  rcases blank_newline depth c hc with rfl | rfl | rfl | rfl <;> decide

theorem blank_nil : Blank [] := by simp [Blank]

theorem indentedItems_eq_map (depth : Nat) (vs : List Value) :
    indentedItems depth vs = vs.map (indentedAt depth) := by
  induction vs with
  | nil => rfl
  | cons v vs ih => simp [indentedItems, ih]

theorem indentedEntries_eq_map (depth : Nat) (es : List (String × Value)) :
    indentedEntries depth es = es.map fun e => quote e.1 ++ ": " ++ indentedAt depth e.2 := by
  induction es with
  | nil => rfl
  | cons e es ih => simp [indentedEntries, ih]

/-- Items at one depth, each on a line of its own. -/
theorem spellsItems_lines {depth : Nat} {ws ws' : List Char} (hws : Blank ws) (hws' : Blank ws')
    {v : Value} {vs : List Value} (h : ∀ u ∈ v :: vs, Spells u (indentedAt depth u).toList) :
    SpellsItems (v :: vs) (ws ++ ((String.intercalate ("," ++ newline depth)
      ((v :: vs).map (indentedAt depth))).toList ++ ws')) := by
  induction vs generalizing v ws with
  | nil =>
    have hv := h v (by simp)
    simp only [List.map_cons, List.map_nil, String.intercalate_singleton]
    exact .one hws hv hws'
  | cons u us ih =>
    obtain ⟨hv, hrest⟩ := List.forall_mem_cons.mp h
    have hitems := ih (blank_newline depth) hrest
    have hspell := SpellsItems.more hws hv blank_nil hitems
    simpa [String.intercalate_cons_cons] using hspell

theorem spellsKey_quote {ws : List Char} (hws : Blank ws) (key : String) :
    SpellsKey key (ws ++ ((quote key).toList ++ [':'])) := by
  have hkey := SpellsKey.mk hws (flatMap_escapeChar_spec key.toList).1 blank_nil
  simpa [toList_quote] using hkey

/-- Members at one depth, each on a line of its own. -/
theorem spellsMembers_lines {depth : Nat} {ws ws' : List Char} (hws : Blank ws)
    (hws' : Blank ws') {e : String × Value} {es : List (String × Value)}
    (h : ∀ e' ∈ e :: es, Spells e'.2 (indentedAt depth e'.2).toList) :
    SpellsMembers (e :: es) (ws ++ ((String.intercalate ("," ++ newline depth)
      ((e :: es).map fun e' => quote e'.1 ++ ": " ++ indentedAt depth e'.2)).toList ++ ws')) := by
  have hblank : Blank [' '] := by simp [Blank]
  have hkey := spellsKey_quote hws e.1
  induction es generalizing e ws with
  | nil =>
    have hspell := SpellsMembers.one hkey hblank (h e (by simp)) hws'
    simpa using hspell
  | cons e' es ih =>
    obtain ⟨he, hrest⟩ := List.forall_mem_cons.mp h
    have hnext := spellsKey_quote (blank_newline depth) e'.1
    have hmembers := ih (blank_newline depth) hrest hnext
    have hspell := SpellsMembers.more hkey hblank he blank_nil hmembers
    simpa [String.intercalate_cons_cons] using hspell

theorem ascii_intercalate {sep : String} {parts : List String} (hsep : Ascii sep.toList)
    (h : ∀ s ∈ parts, Ascii s.toList) : Ascii (String.intercalate sep parts).toList := by
  induction parts with
  | nil => simp
  | cons s parts ih =>
    obtain ⟨hs, hparts⟩ := List.forall_mem_cons.mp h
    cases parts with
    | nil => simpa using hs
    | cons s' parts =>
      simp only [String.intercalate_cons_cons, String.toList_append, ascii_append]
      exact ⟨⟨hs, hsep⟩, ih hparts⟩

theorem ascii_lines {α : Type} (depth : Nat) {xs : List α} {f : α → String}
    (h : ∀ x ∈ xs, Ascii (f x).toList) :
    Ascii (String.intercalate ("," ++ newline depth) (xs.map f)).toList := by
  apply ascii_intercalate
  · simp [ascii_newline]
  · intro s hs
    obtain ⟨x, hx, rfl⟩ := List.mem_map.mp hs
    exact h x hx

/-- What is written of a value spells it, in ASCII. -/
theorem indentedAt_spec {v : Value} (h : Plain v) (depth : Nat) :
    Spells v (indentedAt depth v).toList ∧ Ascii (indentedAt depth v).toList := by
  induction h generalizing depth with
  | null => simpa [indentedAt, scalar] using Spells.null
  | bool b =>
    cases b with
    | true => simpa [indentedAt, scalar] using Spells.true
    | false => simpa [indentedAt, scalar] using Spells.false
  | int i => exact ⟨.int i, ascii_toString i⟩
  | text s =>
    have htext : (indentedAt depth (.text s)).toList =
        '"' :: (s.toList.flatMap escapeChar ++ ['"']) := toList_quote s
    exact ⟨htext ▸ .text (flatMap_escapeChar_spec _).1, ascii_quote s⟩
  | @list vs h ih =>
    cases vs with
    | nil => simpa [indentedAt] using Spells.emptyList blank_nil
    | cons v vs =>
      have hitems := spellsItems_lines (blank_newline (depth + 1)) (blank_newline depth)
        fun u hu => (ih u hu (depth + 1)).1
      have hascii := ascii_lines (depth + 1) fun u hu => (ih u hu (depth + 1)).2
      constructor
      · simpa [indentedAt, indentedItems_eq_map] using Spells.list hitems
      · simpa [indentedAt, indentedItems_eq_map, ascii_newline] using hascii
  | @table es h ih =>
    cases es with
    | nil => simpa [indentedAt] using Spells.emptyTable blank_nil
    | cons e es =>
      have hmembers := spellsMembers_lines (blank_newline (depth + 1)) (blank_newline depth)
        fun e' he' => (ih e' he' (depth + 1)).1
      have hline : ∀ e' ∈ e :: es,
          Ascii (quote e'.1 ++ ": " ++ indentedAt (depth + 1) e'.2).toList := by
        intro e' he'
        simp [ascii_quote, (ih e' he' (depth + 1)).2]
      have hascii := ascii_lines (depth + 1) hline
      constructor
      · simpa [indentedAt, indentedEntries_eq_map] using Spells.table hmembers
      · simpa [indentedAt, indentedEntries_eq_map, ascii_newline] using hascii

theorem spells_indented {v : Value} (h : Plain v) : Spells v (indented v).toList :=
  (indentedAt_spec h 0).1

theorem ascii_indented {v : Value} (h : Plain v) : Ascii (indented v).toList :=
  (indentedAt_spec h 0).2

/-- A value is read back from what is written of it. -/
theorem parse_indented {v : Value} (h : Plain v) : parse (indented v) = some v :=
  parse_of_spells blank_nil (spells_indented h) blank_nil (by simp)

end Writing

end Framewise.Json
