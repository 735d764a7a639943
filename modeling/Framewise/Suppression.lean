import Framewise.Diagnostic.Resolve
import Framewise.Text.Blank
import Framewise.Text.Upper
import Framewise.Text.Word

/-! # Suppression comments

  A comment can switch rules off for its line:

  - `# noqa` switches off every rule;
  - `# noqa: FL001, FL004` and `# framelint: disable=FL006` those listed.

  A marker may stand anywhere in a comment, and a comment can hold several.
  `noqa` may be in any case and must end a word; a list after it that does not
  begin with a code counts as none, so the bare marker applies.

  Main definitions:
  - `codesOf?`: the rules a comment switches off, `none` if it has no marker.
  - `LineMarks.suppresses`: whether a line switches off a rule.
-/

namespace Framewise

/-- The code that stands for every rule. -/
def everyRule : String := "*"

namespace Marker

/-! ### Codes -/

/-- True for `A` to `Z` and `a` to `z`. -/
def isLatin (c : Char) : Bool := c.isAlpha

/-- The letters beyond `isLatin` that have one of its letters as another case: the capital `I`
    with a dot, the small one without, the long `s` and the Kelvin sign. -/
def otherCases : List Nat := [0x130, 0x131, 0x17F, 0x212A]

/-- `isLatin` when case is ignored. -/
def isLatinAnyCase (c : Char) : Bool := isLatin c || otherCases.contains c.toNat

/-- Reads one code, letters and then digits; gives what follows it too. -/
def code? (letter : Char → Bool) (cs : List Char) : Option (List Char × List Char) :=
  let afterLetters := cs.dropWhile letter
  let digits := afterLetters.takeWhile Char.isDigit
  if (cs.takeWhile letter).isEmpty || digits.isEmpty then none
  else some (cs.takeWhile letter ++ digits, afterLetters.dropWhile Char.isDigit)

/-- Reads further codes, each after a comma; `n` bounds their number. -/
def moreCodes (letter : Char → Bool) : Nat → List Char → List (List Char)
  | 0, _ => []
  | n + 1, cs =>
    match cs.dropWhile Text.isBlank with
    | ',' :: rest =>
      match code? letter (rest.dropWhile Text.isBlank) with
      | some (code, rest) => code :: moreCodes letter n rest
      | none => []
    | _ => []

/-- Reads a list of codes, at least one. -/
def codes? (letter : Char → Bool) (cs : List Char) : Option (List String) :=
  (code? letter cs).map fun (code, rest) =>
    (code :: moreCodes letter rest.length rest).map fun cs => Text.upper (String.ofList cs)

/-! ### Markers -/

/-- Drops a word from the front. -/
def dropWord? (same : Char → Char → Bool) : List Char → List Char → Option (List Char)
  | [], cs => some cs
  | w :: ws, c :: cs => if same w c then dropWord? same ws cs else none
  | _ :: _, [] => none

/-- The codes of a `disable` marker that begins after the number sign. -/
def disable? (cs : List Char) : Option (List String) := do
  let exactly := fun (a b : Char) => a == b
  let cs ← dropWord? exactly "framelint:".toList (cs.dropWhile Text.isBlank)
  let cs ← dropWord? exactly "disable=".toList (cs.dropWhile Text.isBlank)
  codes? isLatin cs

/-- The codes of a `noqa` marker that begins after the number sign. -/
def noqa? (cs : List Char) : Option (List String) := do
  let anyCase := fun (a b : Char) => a == b.toLower
  let cs ← dropWord? anyCase "noqa".toList (cs.dropWhile Text.isBlank)
  if Text.endsWord cs then
    match cs with
    | ':' :: rest =>
      return (codes? isLatinAnyCase (rest.dropWhile Text.isBlank)).getD [everyRule]
    | _ => return [everyRule]
  else none

/-- The codes of every marker in a text, one list for each. -/
def all : List Char → List (List String)
  | [] => []
  | c :: cs => if c = '#' then (disable? cs).toList ++ (noqa? cs).toList ++ all cs else all cs

/-- The codes that a comment switches off, sorted; `none` if it has no marker. -/
def codesOf? (comment : String) : Option (List String) :=
  match all comment.toList with
  | [] => none
  | found => some (Text.sortUnique found.flatten)

end Marker

/-! ### Marks of a file -/

/-- The codes that comments switch off, by line. -/
structure LineMarks where
  /-- Lines with codes; each line stands once. -/
  byLine : List (Int × List String) := []
  deriving DecidableEq, Repr, Inhabited

namespace LineMarks

/-- The codes of a line. -/
def codesAt (marks : LineMarks) (line : Int) : List String :=
  ((marks.byLine.find? fun entry => entry.1 = line).map (·.2)).getD []

/-- The marks with the codes of a line replaced. -/
def put (marks : LineMarks) (line : Int) (codes : List String) : LineMarks :=
  ⟨marks.byLine.filter (fun entry => entry.1 != line) ++ [(line, codes)]⟩

/-- The marks with more codes on a line. -/
def insert (marks : LineMarks) (line : Int) (codes : List String) : LineMarks :=
  marks.put line (Text.sortUnique (marks.codesAt line ++ codes))

/-- The marks of the comments of a file, each with its line. -/
def ofComments (comments : List (Int × String)) : LineMarks :=
  comments.foldl (fun marks (line, comment) =>
    match Marker.codesOf? comment with
    | some codes => marks.insert line codes
    | none => marks) {}

/-- True if a line switches off a rule. -/
def suppresses (marks : LineMarks) : Suppression := fun line ruleId =>
  let codes := marks.codesAt line
  codes.contains everyRule || codes.contains ruleId

/-- The entries in the order of their lines. -/
def sorted (marks : LineMarks) : List (Int × List String) :=
  marks.byLine.mergeSort fun a b => a.1 ≤ b.1

end LineMarks

end Framewise
