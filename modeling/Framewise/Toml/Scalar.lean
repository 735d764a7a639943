import Framewise.Toml.Lexeme
import Framewise.Value

/-! # Numbers, dates and times of a TOML document

  A value that is no string, list or table is the longest thing at its place
  that is written like a date, a time or a number, tried in this order. A date
  must exist in the calendar. Only the kind of a date or time is kept.
-/

namespace Framewise.Toml

/-! ### Dates and times -/

/-- A number of exactly `width` digits. -/
def readFixed (width : Nat) (cs : List Char) : Option (Nat × Rest) :=
  let digits := cs.take width
  if digits.length = width && digits.all Char.isDigit then
    some (Number.ofDigits (digits.map fun c => c.toNat - 48), cs.drop width)
  else none

/-- A number of two digits between two bounds. -/
def readTwo (low high : Nat) (cs : List Char) : Option (Nat × Rest) := do
  let (n, cs) ← readFixed 2 cs
  if low ≤ n && n ≤ high then return (n, cs) else none

/-- A given character. -/
def readChar (c : Char) : List Char → Option (List Char)
  | d :: cs => if d = c then some cs else none
  | [] => none

/-- A fraction of a second, if there is one. -/
def skipFraction : List Char → List Char
  | '.' :: c :: cs => if c.isDigit then cs.dropWhile Char.isDigit else '.' :: c :: cs
  | cs => cs

/-- A time of day. -/
def readTime (cs : List Char) : Option (List Char) := do
  let (_, cs) ← readTwo 0 23 cs
  let cs ← readChar ':' cs
  let (_, cs) ← readTwo 0 59 cs
  let cs ← readChar ':' cs
  let (_, cs) ← readTwo 0 59 cs
  return skipFraction cs

/-- An offset from universal time. -/
def readOffset : List Char → Option (List Char)
  | c :: cs =>
    if c = 'Z' || c = 'z' then some cs
    else if c = '+' || c = '-' then do
      let (_, cs) ← readTwo 0 23 cs
      let cs ← readChar ':' cs
      let (_, cs) ← readTwo 0 59 cs
      return cs
    else none
  | [] => none

/-- True for a year with a 29th of February. -/
def isLeap (year : Nat) : Bool := year % 4 = 0 && (year % 100 != 0 || year % 400 = 0)

/-- The number of days of a month. -/
def daysIn (year month : Nat) : Nat :=
  if month = 2 then (if isLeap year then 29 else 28)
  else if [4, 6, 9, 11].contains month then 30
  else 31

/-- The parts of a date: year, month and day, the last two in range. -/
def readDateParts (cs : List Char) : Option ((Nat × Nat × Nat) × Rest) := do
  let (year, cs) ← readFixed 4 cs
  let cs ← readChar '-' cs
  let (month, cs) ← readTwo 1 12 cs
  let cs ← readChar '-' cs
  let (day, cs) ← readTwo 1 31 cs
  return ((year, month, day), cs)

/-- The time of a date, with its offset. -/
def readDateTime : List Char → Option (List Char)
  | c :: cs =>
    if c = 'T' || c = 't' || c = ' ' then
      (readTime cs).map fun rest => (readOffset rest).getD rest
    else none
  | [] => none

/-- What stands behind a date: nothing that belongs to it, or a time. -/
def readMoment (cs : List Char) : Moment × List Char :=
  match readDateTime cs with
  | some rest => (.datetime, rest)
  | none => (.date, cs)

/-! ### Numbers -/

/-- The digits of a number in base 2, 8 or 16. -/
def baseDigit (base : Nat) : Number.DigitClass := fun c =>
  (hexValue? c).bind fun d => if d < base then some d else none

/-- The base that a letter behind a zero stands for. -/
def base? : Char → Option Nat
  | 'x' => some 16
  | 'o' => some 8
  | 'b' => some 2
  | _ => none

/-- A whole number in base 2, 8 or 16. -/
def readBased : List Char → Option (Value × Rest)
  | '0' :: c :: cs => do
    let base ← base? c
    match Number.digitRun (baseDigit base) cs with
    | ([], _) => none
    | (digits, rest) => return (.int (digits.foldl (fun n d => base * n + d) 0 : Nat), rest)
  | _ => none

/-- The whole part of a decimal number: a zero alone, or digits that do not begin with one. -/
def readWhole : List Char → Option (List Nat × Rest)
  | '0' :: cs => some ([0], cs)
  | cs =>
    match Number.digitRun Number.asciiDigit cs with
    | ([], _) => none
    | run => some run

/-- Digits behind a point, if there are any. -/
def readFraction : List Char → Option (List Nat × Rest)
  | '.' :: cs =>
    match Number.digitRun Number.asciiDigit cs with
    | ([], _) => none
    | run => some run
  | _ => none

/-- An exponent, if there is one. -/
def readExponent : List Char → Option (Int × Rest)
  | c :: cs =>
    if c = 'e' || c = 'E' then
      let (negative, cs) := Number.sign cs
      match Number.digitRun Number.asciiDigit cs with
      | ([], _) => none
      | (digits, rest) => some (Number.signed negative (Number.ofDigits digits), rest)
    else none
  | [] => none

/-- A decimal number: whole without fraction and exponent. -/
def readDecimal (cs : List Char) : Option (Value × Rest) := do
  let (negative, cs) := Number.sign cs
  let (whole, cs) ← readWhole cs
  match readFraction cs, readExponent cs with
  | some (frac, cs), _ =>
    let (e, cs) := (readExponent cs).getD (0, cs)
    return (.float (Double.ofDecimal negative (Number.ofDigits (whole ++ frac)) (e - frac.length)),
      cs)
  | none, some (e, cs) =>
    return (.float (Double.ofDecimal negative (Number.ofDigits whole) e), cs)
  | none, none => return (.int (Number.signed negative (Number.ofDigits whole)), cs)

/-- Infinity or NaN with an optional sign. -/
def readSpecial (cs : List Char) : Option (Value × Rest) :=
  let (negative, rest) := Number.sign cs
  match rest with
  | 'i' :: 'n' :: 'f' :: rest => some (.float (.infinite negative), rest)
  | 'n' :: 'a' :: 'n' :: rest => some (.float .nan, rest)
  | _ => none

/-! ### Scalars -/

/-- A truth value. -/
def readBool : List Char → Option (Value × Rest)
  | 't' :: 'r' :: 'u' :: 'e' :: cs => some (.bool true, cs)
  | 'f' :: 'a' :: 'l' :: 's' :: 'e' :: cs => some (.bool false, cs)
  | _ => none

/-- A number, in the first of its forms that fits. -/
def readNumber (cs : List Char) : Option (Value × Rest) :=
  (readBased cs).orElse fun _ => (readDecimal cs).orElse fun _ => readSpecial cs

/-- A value that is no string, list or table. What is written like a date must be one. -/
def readScalar (cs : List Char) : Option (Value × Rest) :=
  match readBool cs with
  | some read => some read
  | none =>
    match readDateParts cs with
    | some ((year, month, day), rest) =>
      let (kind, rest) := readMoment rest
      if 1 ≤ year && day ≤ daysIn year month then some (.moment kind, rest) else none
    | none =>
      match readTime cs with
      | some rest => some (.moment .time, rest)
      | none => readNumber cs

end Framewise.Toml
