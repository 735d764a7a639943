/-! # White space

  Two classes of white space meet in this library. `isBlank` is the wide one,
  used when text is stripped and in comment markers: it holds the separators of
  Unicode and the information separators `U+001C` to `U+001F`. `isSpacing` is
  the property White_Space of Unicode, without the information separators; it
  is what a number given as text may be surrounded by.
-/

namespace Framewise.Text

/-! ### Classes -/

/-- White space of Unicode: spaces, line ends and separators. -/
def isSpacing (c : Char) : Bool :=
  let n := c.toNat
  (9 ≤ n && n ≤ 13) || n = 0x20 || n = 0x85 || n = 0xA0 || n = 0x1680 ||
    (0x2000 ≤ n && n ≤ 0x200A) || n = 0x2028 || n = 0x2029 || n = 0x202F ||
    n = 0x205F || n = 0x3000

/-- White space in the wide sense: `isSpacing` and the four information separators. -/
def isBlank (c : Char) : Bool :=
  isSpacing c || (0x1C ≤ c.toNat && c.toNat ≤ 0x1F)

/-! ### Stripping -/

/-- Drops the characters of a class from both ends. -/
def stripBy (drop : Char → Bool) (cs : List Char) : List Char :=
  ((cs.dropWhile drop).reverse.dropWhile drop).reverse

/-- Drops white space from both ends of a text. -/
def strip (s : String) : String := String.ofList (stripBy isBlank s.toList)

end Framewise.Text
