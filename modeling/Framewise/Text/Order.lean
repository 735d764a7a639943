/-! # Order of texts

  Texts are compared character by character, by code point; a proper beginning
  of a text comes before it. This is the order in which names and rule ids are
  sorted in every report.
-/

namespace Framewise.Text

/-- Compares two lists of characters by code point. -/
def compareChars : List Char → List Char → Ordering
  | [], [] => .eq
  | [], _ :: _ => .lt
  | _ :: _, [] => .gt
  | a :: as, b :: bs =>
    if a.toNat < b.toNat then .lt
    else if b.toNat < a.toNat then .gt
    else compareChars as bs

/-- Compares two texts by code point. -/
def compare (a b : String) : Ordering := compareChars a.toList b.toList

/-- `a` comes before `b` or equals it. -/
def le (a b : String) : Bool := (compare a b).isLE

/-- Sorts texts by code point, without repetitions of equal neighbours. -/
def sortUnique (xs : List String) : List String := (xs.mergeSort le).eraseReps

end Framewise.Text
