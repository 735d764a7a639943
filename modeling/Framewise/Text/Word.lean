import Framewise.Text.Letter
import Framewise.Text.Numeral

/-! # Words

  A word is a run of letters, numerals and underscores of any script. It ends
  where another character or the text's end follows.
-/

namespace Framewise.Text

/-- True for letters, numerals and the underscore. -/
def isWordChar (c : Char) : Bool := isLetter c || isNumeral c || c = '_'

/-- True if a word that stands before `rest` ends there. -/
def endsWord : List Char → Bool
  | [] => true
  | c :: _ => !isWordChar c

end Framewise.Text
