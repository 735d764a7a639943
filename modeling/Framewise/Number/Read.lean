import Framewise.Number.Double
import Framewise.Text.Blank
import Framewise.Text.Numeral

/-! # Numbers from text

  Whole numbers and doubles are read from text in one grammar with two degrees
  of freedom: which characters count as digits and which may surround the
  number. A whole number is a sign and digits; a double has a fraction, an
  exponent, or is one of the words for infinity and NaN in any case. Single
  underscores may stand between digits.
-/

namespace Framewise.Number

/-! ### Digits -/

/-- A class of digits: the value of a character that is one. -/
abbrev DigitClass := Char → Option Nat

/-- The digits `0` to `9`. -/
def asciiDigit : DigitClass := fun c => if c.isDigit then some (c.toNat - 48) else none

/-- Decimal digits of every script. -/
def anyDigit : DigitClass := Text.digitValue?

/-- The values of a run of digits with single underscores between them, and what follows.
    `inside` says that a digit has just been read, so that an underscore may come; one that
    is not between digits ends the run. -/
def digitRunAfter (digit : DigitClass) : (inside : Bool) → List Char → List Nat × List Char
  | _, [] => ([], [])
  | inside, c :: cs =>
    match digit c with
    | some d =>
      let (ds, rest) := digitRunAfter digit true cs
      (d :: ds, rest)
    | none =>
      if inside && c = '_' then
        match digitRunAfter digit false cs with
        | ([], _) => ([], c :: cs)
        | run => run
      else ([], c :: cs)

/-- A run of digits at the head of a text. -/
def digitRun (digit : DigitClass) (cs : List Char) : List Nat × List Char :=
  digitRunAfter digit false cs

/-- The number that digits write. -/
def ofDigits (ds : List Nat) : Nat := ds.foldl (fun n d => 10 * n + d) 0

/-- A sign, if there is one. -/
def sign : List Char → Bool × List Char
  | '-' :: cs => (true, cs)
  | '+' :: cs => (false, cs)
  | cs => (false, cs)

/-- A number with its sign. -/
def signed (negative : Bool) (n : Nat) : Int := if negative then -(n : Int) else n

/-! ### Whole numbers -/

/-- A whole number in a text without surrounding space. -/
def readInt (digit : DigitClass) (cs : List Char) : Option Int :=
  let (negative, cs) := sign cs
  match digitRun digit cs with
  | ([], _) => none
  | (ds, []) => some (signed negative (ofDigits ds))
  | (_, _ :: _) => none

/-! ### Doubles -/

/-- A word in any case. -/
def isWord (word : String) (cs : List Char) : Bool := cs.map Char.toLower = word.toList

/-- The exponent of a number: its value, or `none` inside if it is malformed. -/
def readExponent (digit : DigitClass) : List Char → Option Int
  | [] => some 0
  | c :: cs =>
    if c = 'e' || c = 'E' then readInt digit cs else none

/-- The digits after a decimal point, and what follows. -/
def readFraction (digit : DigitClass) : List Char → List Nat × List Char
  | '.' :: cs => digitRun digit cs
  | cs => ([], cs)

/-- A double in a text without surrounding space. -/
def readDouble (digit : DigitClass) (cs : List Char) : Option Double :=
  let (negative, cs) := sign cs
  if isWord "inf" cs || isWord "infinity" cs then some (.infinite negative)
  else if isWord "nan" cs then some .nan
  else
    let (whole, cs) := digitRun digit cs
    let (frac, cs) := readFraction digit cs
    if whole.isEmpty && frac.isEmpty then none
    else
      (readExponent digit cs).map fun e =>
        Double.ofDecimal negative (ofDigits (whole ++ frac)) (e - frac.length)

end Framewise.Number
