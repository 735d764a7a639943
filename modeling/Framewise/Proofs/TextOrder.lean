import Framewise.Text.Order
import Mathlib.Data.String.Basic

/-! # The order of texts

  Comparing texts by code point is a linear order: the usual order of texts as lists
  of characters. So what is sorted by a text is sorted in that order.

  Main results:
  - `Text.compare_eq_iff`, `Text.compare_lt_iff`: comparisons by the usual order.
  - `Text.le_iff`, `Text.le_trans`, `Text.le_total`.
-/

namespace Framewise.Text

theorem compareChars_eq (a b : List Char) :
    compareChars a b = List.compareLex (compareOn Char.toNat) a b := by
  induction a generalizing b with
  | nil => cases b <;> rfl
  | cons c cs ih =>
    cases b with
    | nil => rfl
    | cons d ds =>
      -- both compare code points first and go on only if they are equal
      rw [compareChars, List.compareLex_cons_cons, ih, compareOn, Nat.compare_eq_ite_lt]
      split
      · rfl
      · split <;> rfl

/-- The order by code point is a linear order. -/
instance : Std.TransCmp Text.compare where
  eq_swap := by
    intro a b
    simp only [compare, compareChars_eq]
    exact Std.OrientedCmp.eq_swap
  isLE_trans := by
    intro a b c
    simp only [compare, compareChars_eq]
    exact Std.TransCmp.isLE_trans

theorem compare_eq_iff {a b : String} : compare a b = .eq ↔ a = b := by
  have hchars : Std.LawfulEqCmp (compareOn Char.toNat) :=
    ⟨fun {c d} h => Char.toNat_inj.mp (Nat.compare_eq_eq.mp h)⟩
  rw [compare, compareChars_eq, Std.LawfulEqCmp.compare_eq_iff_eq, String.toList_inj]

/-- Texts are compared as lists of code points. -/
theorem compareChars_lt_iff (as bs : List Char) : compareChars as bs = .lt ↔ as < bs := by
  induction as generalizing bs with
  | nil => cases bs <;> simp [compareChars]
  | cons a as ih =>
    cases bs with
    | nil => simp [compareChars]
    | cons b bs =>
      have hlt : a < b ↔ a.toNat < b.toNat := Iff.rfl
      rw [compareChars, List.cons_lt_cons_iff, hlt]
      rcases Nat.lt_trichotomy a.toNat b.toNat with h | h | h
      · simp [h]
      · have hab : a = b := Char.toNat_inj.mp h
        simp [hab, ih]
      · have hne : a ≠ b := fun heq => by simp [heq] at h
        simp [h, Nat.lt_asymm h, hne]

theorem compare_lt_iff {a b : String} : compare a b = .lt ↔ a < b := by
  rw [compare, compareChars_lt_iff, String.lt_iff_toList_lt]

theorem le_iff {a b : String} : le a b = true ↔ a ≤ b := by
  rw [le_iff_lt_or_eq, ← compare_lt_iff, ← compare_eq_iff, le]
  cases compare a b <;> simp

theorem le_trans {a b c : String} (h : le a b = true) (h' : le b c = true) : le a c = true :=
  le_iff.mpr ((le_iff.mp h).trans (le_iff.mp h'))

theorem le_total (a b : String) : (le a b || le b a) = true := by
  simpa only [Bool.or_eq_true, le_iff] using LinearOrder.le_total a b

end Framewise.Text
