import Framewise.Value

/-! # Reading JSON

  A document is read into a `Value`. A number without a fraction and an
  exponent is whole, any other is a double; objects keep the order of their
  members. Escapes in texts may name a surrogate pair; a surrogate alone is
  read as the replacement character.
-/

namespace Framewise.Json

/-- A reader takes a beginning of the text and returns the rest. -/
abbrev Reader (α : Type) := List Char → Option (α × List Char)

/-- Drops white space. -/
def skipSpace : List Char → List Char :=
  List.dropWhile fun c => c = ' ' || c = '\t' || c = '\n' || c = '\r'

/-- Drops a fixed beginning. -/
def dropWord : (word : List Char) → List Char → Option (List Char)
  | [], cs => some cs
  | w :: ws, c :: cs => if w = c then dropWord ws cs else none
  | _ :: _, [] => none

/-! ### Numbers -/

/-- The number that decimal digits write. -/
def digitsValue (ds : List Char) : Nat :=
  ds.foldl (fun n d => 10 * n + (d.toNat - 48)) 0

/-- A run of decimal digits, possibly empty. -/
def digits (cs : List Char) : List Char × List Char :=
  (cs.takeWhile Char.isDigit, cs.dropWhile Char.isDigit)

/-- The digits after a decimal point, if there is one. -/
def fraction : List Char → Option (List Char) × List Char
  | '.' :: cs => let (ds, rest) := digits cs; (some ds, rest)
  | cs => (none, cs)

/-- The exponent of a number, if there is one. -/
def exponent : List Char → Option Int × List Char
  | c :: cs =>
    if c = 'e' || c = 'E' then
      let (negative, cs) :=
        match cs with
        | '-' :: rest => (true, rest)
        | '+' :: rest => (false, rest)
        | _ => (false, cs)
      let (ds, rest) := digits cs
      let n : Int := digitsValue ds
      (some (if negative then -n else n), rest)
    else (none, c :: cs)
  | [] => (none, [])

/-- A number after its sign. -/
def unsigned (negative : Bool) : Reader Value := fun cs =>
  let (whole, cs) := digits cs
  if whole.isEmpty then none
  else
    let (frac, cs) := fraction cs
    let (exp, cs) := exponent cs
    match frac, exp with
    | none, none =>
      let n : Int := digitsValue whole
      some (.int (if negative then -n else n), cs)
    | _, _ =>
      let frac := frac.getD []
      let scale : Int := exp.getD 0 - frac.length
      some (.float (Double.ofDecimal negative (digitsValue (whole ++ frac)) scale), cs)

/-! ### Texts -/

/-- The number that four hexadecimal digits write. -/
def hexValue? (ds : List Char) : Option Nat :=
  ds.foldlM (fun n d =>
    if d.isDigit then some (16 * n + (d.toNat - 48))
    else if 'a' ≤ d && d ≤ 'f' then some (16 * n + (d.toNat - 87))
    else if 'A' ≤ d && d ≤ 'F' then some (16 * n + (d.toNat - 55))
    else none) 0

/-- The unit a `\u` escape names, after the `u`. -/
def unit : Reader Nat := fun cs =>
  if cs.length < 4 then none else (hexValue? (cs.take 4)).map fun n => (n, cs.drop 4)

/-- The character named by a first unit and possibly a second escape. -/
def joinUnits (first : Nat) (cs : List Char) : Char × List Char :=
  if 0xD800 ≤ first && first < 0xDC00 then
    match cs with
    | '\\' :: 'u' :: rest =>
      match unit rest with
      | some (second, rest) =>
        if 0xDC00 ≤ second && second < 0xE000 then
          (Char.ofNat (0x10000 + (first - 0xD800) * 0x400 + (second - 0xDC00)), rest)
        else (Char.ofNat 0xFFFD, cs)
      | none => (Char.ofNat 0xFFFD, cs)
    | _ => (Char.ofNat 0xFFFD, cs)
  else if 0xDC00 ≤ first && first < 0xE000 then (Char.ofNat 0xFFFD, cs)
  else (Char.ofNat first, cs)

/-- The character of a short escape. -/
def shortEscape : Char → Option Char
  | '"' => some '"'
  | '\\' => some '\\'
  | '/' => some '/'
  | 'b' => some (Char.ofNat 8)
  | 'f' => some (Char.ofNat 12)
  | 'n' => some '\n'
  | 'r' => some '\r'
  | 't' => some '\t'
  | _ => none

/-- The characters of a text up to its closing quote. -/
def textTail : (fuel : Nat) → Reader (List Char)
  | 0, _ => none
  | fuel + 1, cs =>
    match cs with
    | [] => none
    | '"' :: rest => some ([], rest)
    | '\\' :: 'u' :: rest =>
      match unit rest with
      | none => none
      | some (first, rest) =>
        let (c, rest) := joinUnits first rest
        (textTail fuel rest).map fun (tail, rest) => (c :: tail, rest)
    | '\\' :: e :: rest =>
      match shortEscape e with
      | none => none
      | some c => (textTail fuel rest).map fun (tail, rest) => (c :: tail, rest)
    | c :: rest => (textTail fuel rest).map fun (tail, rest) => (c :: tail, rest)

/-- A text after its opening quote. -/
def text : Reader String := fun cs =>
  (textTail (cs.length + 1) cs).map fun (tail, rest) => (String.ofList tail, rest)

/-! ### Documents -/

mutual

/-- A value, after white space. -/
def value : (fuel : Nat) → Reader Value
  | 0, _ => none
  | fuel + 1, cs =>
    match skipSpace cs with
    | [] => none
    | '"' :: rest => (text rest).map fun (s, rest) => (.text s, rest)
    | '[' :: rest =>
      match skipSpace rest with
      | ']' :: rest => some (.list [], rest)
      | rest => (items fuel rest).map fun (vs, rest) => (.list vs, rest)
    | c :: rest =>
      if c = '\x7b' then
        match skipSpace rest with
        | [] => none
        | d :: tail =>
          if d = '\x7d' then some (.table [], tail)
          else (members fuel (d :: tail)).map fun (es, rest) => (.table es, rest)
      else if c = '-' then
        match dropWord "Infinity".toList rest with
        | some rest => some (.float (.infinite true), rest)
        | none => unsigned true rest
      else if c.isDigit then unsigned false (c :: rest)
      else
        (dropWord "true".toList (c :: rest)).map (fun r => (Value.bool true, r)) <|>
        (dropWord "false".toList (c :: rest)).map (fun r => (Value.bool false, r)) <|>
        (dropWord "null".toList (c :: rest)).map (fun r => (Value.null, r)) <|>
        (dropWord "NaN".toList (c :: rest)).map (fun r => (Value.float .nan, r)) <|>
        (dropWord "Infinity".toList (c :: rest)).map
          fun r => (Value.float (.infinite false), r)

/-- The items of a list up to its closing bracket. -/
def items : (fuel : Nat) → Reader (List Value)
  | 0, _ => none
  | fuel + 1, cs =>
    match value fuel cs with
    | none => none
    | some (v, rest) =>
      match skipSpace rest with
      | ',' :: rest => (items fuel rest).map fun (vs, rest) => (v :: vs, rest)
      | ']' :: rest => some ([v], rest)
      | _ => none

/-- The members of an object up to its closing brace. -/
def members : (fuel : Nat) → Reader (List (String × Value))
  | 0, _ => none
  | fuel + 1, cs =>
    match skipSpace cs with
    | '"' :: rest =>
      match text rest with
      | none => none
      | some (key, rest) =>
        match skipSpace rest with
        | ':' :: rest =>
          match value fuel rest with
          | none => none
          | some (v, rest) =>
            match skipSpace rest with
            | ',' :: rest => (members fuel rest).map fun (es, rest) => ((key, v) :: es, rest)
            | c :: rest => if c = '\x7d' then some ([(key, v)], rest) else none
            | [] => none
        | _ => none
    | _ => none

end

/-- Reads a whole document. -/
def parse (s : String) : Option Value :=
  let cs := s.toList
  match value (2 * cs.length + 2) cs with
  | some (v, rest) => if (skipSpace rest).isEmpty then some v else none
  | none => none

end Framewise.Json
