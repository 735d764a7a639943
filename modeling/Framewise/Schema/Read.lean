import Framewise.Number.Read
import Framewise.Schema.Problem
import Framewise.Value

/-! # Reading fields

  Fields of data from outside are read leniently: a whole number may be given
  as a truth value, as a double without a fraction or as text, the latter two up
  to a size; a truth value as a number or a word. What cannot be read is reported
  with its cause.
-/

namespace Framewise.Schema

/-- The result of reading one value. -/
abbrev Read (α : Type) := Except Cause α

/-! ### Scalars -/

/-- Text, as it is. -/
def text : Value → Read String
  | .text s => .ok s
  | _ => .error .notText

/-- True for a text of zeros, at least one. -/
def isZeros (cs : List Char) : Bool := !cs.isEmpty && cs.all (· = '0')

/-- The text of a whole number, without a fraction of zeros. -/
def dropZeroFraction (cs : List Char) : List Char :=
  if isZeros (cs.reverse.takeWhile (· != '.')) && cs.contains '.' then
    ((cs.reverse.dropWhile (· != '.')).drop 1).reverse
  else cs

/-- A whole number that is given as a double, with 64 bits at most. -/
def wholeDouble : Double → Read Int
  | .finite negative m e =>
    match (Double.finite negative m e).toInt? with
    | some i => if i.natAbs < Nat.pow 2 63 then .ok i else .error .tooLarge
    | none => .error .fractional
  | _ => .error .notFinite

/-- A whole number that is given as text. -/
def wholeText (s : String) : Read Int :=
  let digits := dropZeroFraction (Text.stripBy Text.isSpacing s.toList)
  match Number.readInt Number.asciiDigit digits with
  | some i => if Number.digitLimit < digits.length then .error .tooLarge else .ok i
  | none => .error .intText

/-- A whole number. -/
def int : Value → Read Int
  | .number (.int i) => .ok i
  | .bool b => .ok (if b then 1 else 0)
  | .number (.float x) => wholeDouble x
  | .text s => wholeText s
  | _ => .error .notInt

/-- A whole number that is at least 1. -/
def positiveInt (v : Value) : Read Int := do
  let i ← int v
  if i < 1 then throw .belowOne else return i

/-- A double. -/
def double : Value → Read Double
  | .number (.int i) => .ok (Double.ofInt i)
  | .number (.float x) => .ok x
  | .bool b => .ok (Double.ofInt (if b then 1 else 0))
  | .text s =>
    match Number.readDouble Number.asciiDigit (Text.stripBy Text.isSpacing s.toList) with
    | some x => .ok x
    | none => .error .floatText
  | _ => .error .notFloat

/-- A double above 0. -/
def positiveDouble (v : Value) : Read Double := do
  let x ← double v
  if (Double.signedZero false).lt x then return x else throw .notPositive

/-- The words for `false`. -/
def falseWords : List String := ["0", "off", "f", "false", "n", "no"]

/-- The words for `true`. -/
def trueWords : List String := ["1", "on", "t", "true", "y", "yes"]

/-- A truth value. -/
def bool : Value → Read Bool
  | .bool b => .ok b
  | .number (.int i) =>
    if i = 0 then .ok false else if i = 1 then .ok true else .error .boolText
  | .number (.float x) =>
    match x.toInt? with
    | some 0 => .ok false
    | some 1 => .ok true
    | _ => .error .notBool
  | .text s =>
    let word := String.ofList (s.toList.map Char.toLower)
    if falseWords.contains word then .ok false
    else if trueWords.contains word then .ok true
    else .error .boolText
  | _ => .error .notBool

/-- One of a list of named things. -/
def listed {α : Type} (all : List α) (label : α → String) (v : Value) : Read α :=
  match v with
  | .text s =>
    match all.find? fun a => label a = s with
    | some a => .ok a
    | none => .error (.notListed (all.map label))
  | _ => .error (.notListed (all.map label))

/-- A value that may be null. -/
def optional {α : Type} (read : Value → Read α) : Value → Read (Option α)
  | .null => .ok none
  | v => (read v).map some

/-! ### Fields and problems -/

/-- The result of checking a value: what it holds, or every problem in order. -/
abbrev Checked (α : Type) := Except (List Problem) α

/-- Reads a value in place. -/
def here {α : Type} (read : Value → Read α) (v : Value) : Checked α :=
  (read v).mapError fun cause => [⟨[], cause⟩]

/-- Sees problems from one step further out. -/
def under {α : Type} (step : Step) (c : Checked α) : Checked α :=
  c.mapError fun problems => problems.map (Problem.under step)

/-- Both results, or the problems of both in order. -/
def both {α β : Type} : Checked α → Checked β → Checked (α × β)
  | .ok a, .ok b => .ok (a, b)
  | .error p, .ok _ => .error p
  | .ok _, .error q => .error q
  | .error p, .error q => .error (p ++ q)

/-- Checks the items of a list from a number on. -/
def itemsFrom {α : Type} (check : Value → Checked α) : Nat → List Value → Checked (List α)
  | _, [] => .ok []
  | i, v :: vs =>
    (both (under (.item i) (check v)) (itemsFrom check (i + 1) vs)).map fun (a, as) => a :: as

/-- A list of things. -/
def list {α : Type} (check : Value → Checked α) : Value → Checked (List α)
  | .list vs => itemsFrom check 0 vs
  | _ => .error [⟨[], .notList⟩]

/-- A table with any values. -/
def table : Value → Checked (List (String × Value))
  | .table entries => .ok entries
  | _ => .error [⟨[], .notTable⟩]

/-- A field that must be there. -/
def required {α : Type} (entries : List (String × Value)) (key : String)
    (check : Value → Checked α) : Checked α :=
  match Value.lookup entries key with
  | some v => under (.key key) (check v)
  | none => .error [⟨[.key key], .missing⟩]

/-- A field with a default. -/
def defaulted {α : Type} (entries : List (String × Value)) (key : String) (fallback : α)
    (check : Value → Checked α) : Checked α :=
  match Value.lookup entries key with
  | some v => under (.key key) (check v)
  | none => .ok fallback

/-- A value that may be null, checked. -/
def nullable {α : Type} (check : Value → Checked α) : Value → Checked (Option α)
  | .null => .ok none
  | v => (check v).map some

end Framewise.Schema
