import Framewise.Proofs.Silencing

/-! # Codes listed in comments

  A comment lists the codes of rules behind `noqa:` or `disable=`, with commas between
  them and white space where it is allowed. However many codes there are and however
  they are spaced, the comment switches off these rules and no others: the list never
  counts as missing, which would make it a bare marker that switches off every rule.

  Main definitions:
  - `Marker.Code`: letters and then digits.
  - `Marker.Listing`: codes with what stands between them.

  Main results: `Marker.codes?_listing`, `Marker.listed_codes_read_back`.
-/

namespace Framewise.Marker

/-! ## Listings -/

/-- A code: letters and then digits, at least one of each. -/
structure Code where
  letters : List Char
  digits : List Char
  letters_ne_nil : letters ≠ [] := by decide
  digits_ne_nil : digits ≠ [] := by decide
  letters_all : letters.all Char.isAlpha = true := by decide
  digits_all : digits.all Char.isDigit = true := by decide

/-- A run of white space, which may be empty. -/
structure Gap where
  chars : List Char
  chars_all : chars.all Text.isBlank = true := by decide

/-- A code behind a comma, with white space on both sides of the comma. -/
structure FurtherCode extends Code where
  before : Gap
  after : Gap

/-- Codes with commas between them. -/
structure Listing where
  first : Code
  more : List FurtherCode

/-- The characters of a code. -/
def Code.chars (code : Code) : List Char := code.letters ++ code.digits

/-- A code in upper case. -/
def Code.upper (code : Code) : String := String.ofList (code.chars.map Char.toUpper)

/-- The characters of codes behind commas. -/
def furtherChars (more : List FurtherCode) : List Char :=
  more.flatMap fun code => code.before.chars ++ ',' :: (code.after.chars ++ code.chars)

/-- The characters of a list of codes. -/
def Listing.chars (listing : Listing) : List Char := listing.first.chars ++ furtherChars listing.more

/-- The codes of a listing in upper case. -/
def Listing.ids (listing : Listing) : List String :=
  listing.first.upper :: listing.more.map fun code => code.upper

theorem Code.isAlpha_of_mem (code : Code) : ∀ c ∈ code.letters, c.isAlpha = true :=
  List.all_eq_true.mp code.letters_all

theorem Code.isDigit_of_mem (code : Code) : ∀ c ∈ code.digits, c.isDigit = true :=
  List.all_eq_true.mp code.digits_all

theorem Gap.isBlank_of_mem (gap : Gap) : ∀ c ∈ gap.chars, Text.isBlank c = true :=
  List.all_eq_true.mp gap.chars_all

/-! ## Characters -/

section Characters

variable {c : Char}

/-- The code points of ASCII letters. -/
theorem toNat_of_isAlpha (h : c.isAlpha = true) :
    65 ≤ c.toNat ∧ c.toNat ≤ 90 ∨ 97 ≤ c.toNat ∧ c.toNat ≤ 122 := by
  have hletter : (decide (c.val ≥ 65 ∧ c.val ≤ 90) || c.val ≥ 97 && c.val ≤ 122) = true := h
  simp only [Bool.or_eq_true, Bool.and_eq_true, decide_eq_true_eq, ge_iff_le,
    UInt32.le_iff_toNat_le] at hletter
  exact hletter

theorem toNat_of_isDigit (h : c.isDigit = true) : 48 ≤ c.toNat ∧ c.toNat ≤ 57 := by
  simp only [Char.isDigit, Bool.and_eq_true, decide_eq_true_eq, ge_iff_le,
    UInt32.le_iff_toNat_le] at h
  exact h

/-- What is blank is neither a letter nor a digit. -/
theorem not_isBlank (h : 33 ≤ c.toNat) (h' : c.toNat ≤ 127) : Text.isBlank c = false := by
  simp only [Text.isBlank, Text.isSpacing, Bool.or_eq_false_iff, Bool.and_eq_false_iff,
    decide_eq_false_iff_not]
  omega

theorem isBlank_of_isAlpha (h : c.isAlpha = true) : Text.isBlank c = false := by
  have := toNat_of_isAlpha h
  exact not_isBlank (by omega) (by omega)

theorem not_isAlpha_of_isDigit (h : c.isDigit = true) : isLatinAnyCase c = false := by
  have hdigit := toNat_of_isDigit h
  have halpha : ¬c.isAlpha = true := fun h' => by
    have := toNat_of_isAlpha h'
    omega
  have hother : c.toNat ∉ otherCases := by
    simp only [otherCases, List.mem_cons, List.not_mem_nil, or_false]
    omega
  simp only [isLatinAnyCase, isLatin, Bool.or_eq_false_iff]
  exact ⟨by simpa using halpha, by simpa using hother⟩

theorem not_isDigit_of_isBlank (h : Text.isBlank c = true) : c.isDigit = false := by
  rw [← Bool.not_eq_true]
  intro hdigit
  have := toNat_of_isDigit hdigit
  rw [not_isBlank (by omega) (by omega)] at h
  cases h

/-- White space has no other case. -/
theorem toLower_of_isBlank (h : Text.isBlank c = true) : c.toLower = c := by
  have hrange : ¬(65 ≤ c.toNat ∧ c.toNat ≤ 90) := by
    rintro ⟨hlow, hhigh⟩
    rw [not_isBlank (by omega) (by omega)] at h
    cases h
  exact dif_neg hrange

/-- ASCII letters and digits have one character as their upper case. -/
theorem upperChar_of_lt (h : c.toNat < 128) : Text.upperChar c = [c.toUpper] := if_pos h

end Characters

theorem takeWhile_of_head {p : Char → Bool} {cs : List Char} (h : ∀ c ∈ cs.head?, p c = false) :
    cs.takeWhile p = [] ∧ cs.dropWhile p = cs := by
  cases cs with
  | nil => exact ⟨rfl, rfl⟩
  | cons c cs => simp [h c rfl]

/-- White space is skipped up to the next character. -/
theorem dropWhile_gap (gap : Gap) {cs : List Char} (h : ∀ c ∈ cs.head?, Text.isBlank c = false) :
    (gap.chars ++ cs).dropWhile Text.isBlank = cs := by
  rw [List.dropWhile_append_of_pos gap.isBlank_of_mem, (takeWhile_of_head h).2]

/-! ## Codes -/

/-- A test that all ASCII letters pass and no digit does. -/
structure TellsLetters (letter : Char → Bool) : Prop where
  of_isAlpha : ∀ c, c.isAlpha = true → letter c = true
  of_isDigit : ∀ c, c.isDigit = true → letter c = false

theorem tellsLetters_isLatinAnyCase : TellsLetters isLatinAnyCase where
  of_isAlpha c h := by simp [isLatinAnyCase, isLatin, h]
  of_isDigit c h := not_isAlpha_of_isDigit h

theorem tellsLetters_isLatin : TellsLetters isLatin where
  of_isAlpha c h := h
  of_isDigit c h := by
    have hnot := not_isAlpha_of_isDigit h
    simp only [isLatinAnyCase, Bool.or_eq_false_iff] at hnot
    exact hnot.1

section Reading

variable {letter : Char → Bool} (hletter : TellsLetters letter)
include hletter

/-- A code is read if no digit follows it. -/
theorem code?_append (code : Code) {rest : List Char}
    (hrest : ∀ c ∈ rest.head?, c.isDigit = false) :
    code? letter (code.chars ++ rest) = some (code.chars, rest) := by
  have hletters : ∀ c ∈ code.letters, letter c = true :=
    fun c hc => hletter.of_isAlpha c (code.isAlpha_of_mem c hc)
  have hnext : ∀ c ∈ (code.digits ++ rest).head?, letter c = false := by
    intro c hc
    rw [List.head?_append_of_ne_nil _ code.digits_ne_nil] at hc
    exact hletter.of_isDigit c (code.isDigit_of_mem c (List.mem_of_head? hc))
  obtain ⟨htake, hdrop⟩ := takeWhile_of_head hnext
  obtain ⟨htakeRest, hdropRest⟩ := takeWhile_of_head hrest
  have hchars : code.chars ++ rest = code.letters ++ (code.digits ++ rest) :=
    List.append_assoc _ _ _
  unfold code?
  simp only [hchars, List.takeWhile_append_of_pos hletters, List.dropWhile_append_of_pos hletters,
    htake, hdrop, List.takeWhile_append_of_pos code.isDigit_of_mem,
    List.dropWhile_append_of_pos code.isDigit_of_mem, htakeRest, hdropRest, List.append_nil]
  simp [code.letters_ne_nil, code.digits_ne_nil, Code.chars]

omit hletter in
/-- Behind a code of a listing stand blanks, a comma or nothing. -/
theorem head_furtherChars (more : List FurtherCode) :
    ∀ c ∈ (furtherChars more).head?, c.isDigit = false := by
  cases more with
  | nil => exact fun c hc => absurd hc (by simp [furtherChars])
  | cons code more =>
    intro c hc
    rw [furtherChars, List.flatMap_cons, List.append_assoc, List.head?_append] at hc
    cases hblank : code.before.chars with
    | nil =>
      rw [hblank] at hc
      cases hc
      rfl
    | cons b bs =>
      rw [hblank] at hc
      cases hc
      exact not_isDigit_of_isBlank (code.before.isBlank_of_mem _ (hblank ▸ List.mem_cons_self))

omit hletter in
/-- No blank begins a code. -/
theorem head_code (code : Code) (rest : List Char) :
    ∀ c ∈ (code.chars ++ rest).head?, Text.isBlank c = false := by
  intro c hc
  rw [Code.chars, List.append_assoc, List.head?_append_of_ne_nil _ code.letters_ne_nil] at hc
  exact isBlank_of_isAlpha (code.isAlpha_of_mem c (List.mem_of_head? hc))

/-- The codes behind commas are all read. -/
theorem moreCodes_further (more : List FurtherCode) {n : Nat} (hn : more.length ≤ n) :
    moreCodes letter n (furtherChars more) = more.map fun code => code.chars := by
  induction more generalizing n with
  | nil => cases n <;> simp [moreCodes, furtherChars]
  | cons code more ih =>
    cases n with
    | zero => simp at hn
    | succ n =>
      have hcomma : (furtherChars (code :: more)).dropWhile Text.isBlank =
          ',' :: (code.after.chars ++ (code.chars ++ furtherChars more)) := by
        have hchars : furtherChars (code :: more) = code.before.chars ++
            ',' :: (code.after.chars ++ (code.chars ++ furtherChars more)) := by
          simp [furtherChars]
        rw [hchars, dropWhile_gap]
        rintro c ⟨⟩
        decide
      rw [moreCodes, hcomma]
      simp only [dropWhile_gap code.after (head_code code.toCode _),
        code?_append hletter code.toCode (head_furtherChars more), List.map_cons]
      rw [ih (by simpa using hn)]

omit hletter in
/-- A listing has a character for each code behind a comma. -/
theorem length_le_furtherChars (more : List FurtherCode) :
    more.length ≤ (furtherChars more).length := by
  induction more with
  | nil => exact Nat.zero_le _
  | cons code more ih =>
    simp only [furtherChars, List.flatMap_cons, List.length_append, List.length_cons] at ih ⊢
    omega

omit hletter in
theorem upper_chars (code : Code) : Text.upper (String.ofList code.chars) = code.upper := by
  have hascii : ∀ c ∈ code.chars, Text.upperChar c = [c.toUpper] := by
    intro c hc
    refine upperChar_of_lt ?_
    rcases List.mem_append.mp hc with hc | hc
    · have := toNat_of_isAlpha (code.isAlpha_of_mem c hc)
      omega
    · have := toNat_of_isDigit (code.isDigit_of_mem c hc)
      omega
  rw [Text.upper, String.toList_ofList, List.flatMap_congr hascii, Code.upper, List.map_eq_flatMap]

/-- A listing is read as its codes in upper case. -/
theorem codes?_listing (listing : Listing) : codes? letter listing.chars = some listing.ids := by
  unfold codes? Listing.chars
  rw [code?_append hletter _ (head_furtherChars _)]
  simp only [Option.map_some, List.map_cons, upper_chars, Listing.ids,
    moreCodes_further hletter _ (length_le_furtherChars _), List.map_map, Function.comp_def]

end Reading

/-! ## Comments -/

theorem dropWord?_append {same : Char → Char → Bool} {word cs : List Char}
    (h : List.Forall₂ (fun w c => same w c = true) word cs) (rest : List Char) :
    dropWord? same word (cs ++ rest) = some rest := by
  induction h with
  | nil => rfl
  | cons hsame _ ih => rw [List.cons_append, dropWord?, if_pos hsame, ih]

/-- A text without number signs has no markers. -/
theorem all_eq_nil {cs : List Char} (h : '#' ∉ cs) : all cs = [] := by
  induction cs with
  | nil => rfl
  | cons c cs ih =>
    obtain ⟨hc, hcs⟩ : c ≠ '#' ∧ '#' ∉ cs := by simpa [eq_comm] using h
    rw [all, if_neg hc, ih hcs]

/-- A comment whose only number sign stands in front has the codes of its one marker. -/
theorem codesOf?_of_marker {cs : List Char} {ids : List String} (h : '#' ∉ cs)
    (hmarker : (disable? cs).toList ++ (noqa? cs).toList = [ids]) :
    codesOf? (String.ofList ('#' :: cs)) = some (Text.sortUnique ids) := by
  have hall : all ('#' :: cs) = [ids] := by rw [all, if_pos rfl, all_eq_nil h, hmarker, List.append_nil]
  unfold codesOf?
  rw [String.toList_ofList, hall]
  simp

theorem Gap.hash_not_mem (gap : Gap) : '#' ∉ gap.chars :=
  fun h => absurd (gap.isBlank_of_mem _ h) (by decide)

theorem Code.hash_not_mem (code : Code) : '#' ∉ code.chars := by
  intro h
  rcases List.mem_append.mp h with h | h
  · exact absurd (code.isAlpha_of_mem _ h) (by decide)
  · exact absurd (code.isDigit_of_mem _ h) (by decide)

theorem Listing.hash_not_mem (listing : Listing) : '#' ∉ listing.chars := by
  simp only [Listing.chars, furtherChars, List.mem_append, List.mem_flatMap, List.mem_cons, not_or,
    not_exists, not_and]
  refine ⟨listing.first.hash_not_mem, fun code _ => ⟨code.before.hash_not_mem, by decide,
    code.after.hash_not_mem, code.toCode.hash_not_mem⟩⟩

/-- The comment `# noqa:` with a listing, the word in any case. -/
def noqaComment (gap gap' : Gap) (word : List Char) (listing : Listing) : List Char :=
  gap.chars ++ (word ++ ':' :: (gap'.chars ++ listing.chars))

/-- The comment `# framelint: disable=` with a listing. -/
def disableComment (gap gap' : Gap) (listing : Listing) : List Char :=
  gap.chars ++ ("framelint:".toList ++ (gap'.chars ++ ("disable=".toList ++ listing.chars)))

section Comments

variable (gap gap' : Gap) (listing : Listing)

/-! ### The marker `disable` -/

theorem skip_framelint (rest : List Char) :
    (gap.chars ++ ("framelint:".toList ++ rest)).dropWhile Text.isBlank =
      "framelint:".toList ++ rest := by
  refine dropWhile_gap gap ?_
  rintro c ⟨⟩
  decide

theorem skip_disable (rest : List Char) :
    (gap.chars ++ ("disable=".toList ++ rest)).dropWhile Text.isBlank =
      "disable=".toList ++ rest := by
  refine dropWhile_gap gap ?_
  rintro c ⟨⟩
  decide

theorem disable?_disableComment :
    disable? (disableComment gap gap' listing) = some listing.ids := by
  have hsame : ∀ word : List Char, List.Forall₂ (fun w c : Char => (w == c) = true) word word :=
    fun word => List.forall₂_same.mpr fun c _ => beq_self_eq_true c
  unfold disable? disableComment
  simp only [skip_framelint, dropWord?_append (hsame _), Option.bind_eq_bind, Option.bind_some,
    skip_disable]
  exact codes?_listing tellsLetters_isLatin listing

theorem noqa?_disableComment : noqa? (disableComment gap gap' listing) = none := by
  unfold noqa? disableComment
  rw [skip_framelint]
  rfl

theorem codesOf?_disableComment :
    codesOf? (String.ofList ('#' :: disableComment gap gap' listing)) =
      some (Text.sortUnique listing.ids) := by
  refine codesOf?_of_marker ?_ (by rw [disable?_disableComment, noqa?_disableComment]; rfl)
  simp only [disableComment, List.mem_append, not_or]
  exact ⟨gap.hash_not_mem, by decide, gap'.hash_not_mem, by decide, listing.hash_not_mem⟩

/-! ### The marker `noqa` -/

variable {word : List Char} (hword : word.map Char.toLower = "noqa".toList)
include hword

/-- The first letter, in whichever case. -/
theorem exists_first_letter : ∃ n rest, word = n :: rest ∧ n.toLower = 'n' := by
  have hspelt : word.map Char.toLower = ['n', 'o', 'q', 'a'] := hword
  obtain ⟨n, rest, hcons, hn, -⟩ := List.map_eq_cons_iff.mp hspelt
  exact ⟨n, rest, hcons, hn⟩

theorem skip_noqa :
    (noqaComment gap gap' word listing).dropWhile Text.isBlank =
      word ++ ':' :: (gap'.chars ++ listing.chars) := by
  obtain ⟨n, rest, rfl, hn⟩ := exists_first_letter hword
  refine dropWhile_gap gap ?_
  rintro c ⟨⟩
  rw [← Bool.not_eq_true]
  intro hblank
  rw [toLower_of_isBlank hblank] at hn
  rw [hn] at hblank
  exact absurd hblank (by decide)

theorem disable?_noqaComment : disable? (noqaComment gap gap' word listing) = none := by
  have hskip := skip_noqa gap gap' listing hword
  obtain ⟨n, rest, rfl, hn⟩ := exists_first_letter hword
  have hf : ¬('f' == n) = true := by
    rw [beq_iff_eq]
    rintro rfl
    exact absurd hn (by decide)
  have hother : ∀ w, dropWord? (fun a b => a == b) ('f' :: w)
      (n :: rest ++ ':' :: (gap'.chars ++ listing.chars)) = none := by
    intro w
    rw [List.cons_append, dropWord?, if_neg hf]
  unfold disable?
  rw [hskip]
  exact Option.bind_eq_none_iff.mpr fun _ h => absurd ((hother _).symm.trans h) (by simp)

theorem noqa?_noqaComment : noqa? (noqaComment gap gap' word listing) = some listing.ids := by
  have hsame : List.Forall₂ (fun w c : Char => (w == c.toLower) = true) "noqa".toList word := by
    rw [← hword, List.forall₂_map_left_iff, List.forall₂_same]
    exact fun c _ => beq_self_eq_true _
  have hhead : ∀ c ∈ listing.chars.head?, Text.isBlank c = false := head_code listing.first _
  have hends : Text.endsWord (':' :: (gap'.chars ++ listing.chars)) = true := by
    have hcolon : Text.isWordChar ':' = false := by decide +kernel
    rw [Text.endsWord, hcolon]
    rfl
  unfold noqa?
  simp only [skip_noqa gap gap' listing hword, dropWord?_append hsame, Option.bind_eq_bind,
    Option.bind_some, hends, if_true, dropWhile_gap gap' hhead,
    codes?_listing tellsLetters_isLatinAnyCase, Option.getD_some, Option.pure_def]

theorem codesOf?_noqaComment :
    codesOf? (String.ofList ('#' :: noqaComment gap gap' word listing)) =
      some (Text.sortUnique listing.ids) := by
  have hhash : '#' ∉ word := by
    intro h
    have hmem := List.mem_map_of_mem (f := Char.toLower) h
    rw [hword] at hmem
    exact absurd hmem (by decide)
  refine codesOf?_of_marker ?_
    (by rw [disable?_noqaComment gap gap' listing hword, noqa?_noqaComment gap gap' listing hword]; rfl)
  simp only [noqaComment, List.mem_append, List.mem_cons, not_or]
  exact ⟨gap.hash_not_mem, hhash, by decide, gap'.hash_not_mem, listing.hash_not_mem⟩

omit hword

/-! ### What is switched off -/

/-- No code is the mark of every rule: it has two characters at least. -/
theorem everyRule_not_mem_ids : everyRule ∉ listing.ids := by
  have hcode : ∀ code : Code, code.upper ≠ everyRule := by
    intro code h
    have hlength := congrArg (List.length ∘ String.toList) h
    have hletters := List.length_pos_iff.mpr code.letters_ne_nil
    have hdigits := List.length_pos_iff.mpr code.digits_ne_nil
    have hone : everyRule.toList.length = 1 := by decide
    simp only [Function.comp, Code.upper, String.toList_ofList, List.length_map, Code.chars,
      List.length_append, hone] at hlength
    omega
  intro h
  rcases List.mem_cons.mp h with h | h
  · exact hcode _ h.symm
  · obtain ⟨code, -, hupper⟩ := List.mem_map.mp h
    exact hcode _ hupper

/-- What marks answer that hold one line of codes, none of which stands for every rule. -/
theorem suppresses_line {codes : List String} (hevery : everyRule ∉ codes) (line line' : Int)
    (id : String) :
    LineMarks.suppresses ⟨[(line, codes)]⟩ line' id = true ↔ line' = line ∧ id ∈ codes := by
  have hcodes : LineMarks.codesAt ⟨[(line, codes)]⟩ line' = if line = line' then codes else [] := by
    by_cases h : line = line' <;> simp [LineMarks.codesAt, h]
  unfold LineMarks.suppresses
  rw [hcodes]
  by_cases h : line = line'
  · simp [h, hevery]
  · simp [h, Ne.symm h]

/-- A comment that lists codes behind `noqa:`, in any case, or behind `disable=` switches off these
    codes in upper case and never every rule, and marks that hold them for a line switch them off on
    that line alone. -/
theorem listed_codes_read_back (hword : word.map Char.toLower = "noqa".toList) :
    ∀ comment ∈ [noqaComment gap gap' word listing, disableComment gap gap' listing],
      ∃ codes, codesOf? (String.ofList ('#' :: comment)) = some codes ∧
        (∀ id, id ∈ codes ↔ id ∈ listing.ids) ∧ everyRule ∉ codes ∧
        ∀ line line' id, LineMarks.suppresses ⟨[(line, codes)]⟩ line' id = true ↔
          line' = line ∧ id ∈ listing.ids := by
  have hmem : ∀ id, id ∈ Text.sortUnique listing.ids ↔ id ∈ listing.ids := by
    intro id
    simp [Text.sortUnique, mem_eraseReps]
  have hevery : everyRule ∉ Text.sortUnique listing.ids :=
    fun h => everyRule_not_mem_ids listing ((hmem _).mp h)
  have hcodes : ∀ comment ∈ [noqaComment gap gap' word listing, disableComment gap gap' listing],
      codesOf? (String.ofList ('#' :: comment)) = some (Text.sortUnique listing.ids) := by
    simp only [List.forall_mem_cons, List.not_mem_nil, false_imp_iff, implies_true, and_true]
    exact ⟨codesOf?_noqaComment gap gap' listing hword, codesOf?_disableComment gap gap' listing⟩
  intro comment hcomment
  refine ⟨_, hcodes comment hcomment, hmem, hevery, fun line line' id => ?_⟩
  rw [suppresses_line hevery, hmem]

end Comments

/-- Two codes with a tab and a no-break space around their comma. -/
def spacedListing : Listing where
  first := { letters := ['f', 'L'], digits := ['0', '1'] }
  more := [{ letters := ['x'], digits := ['9'], before := ⟨['\t'], by decide⟩,
             after := ⟨['\u00a0', ' '], by decide⟩ }]

theorem spacedListing_read_back :
    String.ofList ('#' :: noqaComment ⟨[], by decide⟩ ⟨[' '], by decide⟩ ['N', 'o', 'Q', 'a']
        spacedListing) = "#NoQa: fL01\t,\u00a0 x9" ∧
      ∃ codes, codesOf? "#NoQa: fL01\t,\u00a0 x9" = some codes ∧
        (∀ id, id ∈ codes ↔ id ∈ ["FL01", "X9"]) ∧ everyRule ∉ codes ∧
        ∀ line line' id, LineMarks.suppresses ⟨[(line, codes)]⟩ line' id = true ↔
          line' = line ∧ id ∈ ["FL01", "X9"] := by
  have hids : spacedListing.ids = ["FL01", "X9"] := by decide
  have hword : ['N', 'o', 'Q', 'a'].map Char.toLower = "noqa".toList := by decide
  have hread := listed_codes_read_back ⟨[], by decide⟩ ⟨[' '], by decide⟩ spacedListing hword _
    List.mem_cons_self
  rw [hids] at hread
  exact ⟨by decide, hread⟩

end Framewise.Marker
