/-! # Lines of a text

  A text is cut into lines that keep their ends. A line ends at a line feed, a
  carriage return (with the line feed that may follow it), a vertical tab, a
  form feed, one of the information separators `U+001C` to `U+001E`, the next
  line character `U+0085`, or the line and paragraph separators `U+2028` and
  `U+2029`. The lines concatenate to the text.
-/

namespace Framewise.Text

/-- True for a character that ends a line. -/
def isLineEnd (c : Char) : Bool :=
  let n := c.toNat
  (10 ≤ n && n ≤ 13) || (0x1C ≤ n && n ≤ 0x1E) || n = 0x85 || n = 0x2028 || n = 0x2029

/-- Cuts a text into lines; `line` holds the current line, last character first. -/
def splitLinesFrom (line : List Char) : List Char → List (List Char)
  | [] => if line.isEmpty then [] else [line.reverse]
  | '\r' :: '\n' :: cs => ('\n' :: '\r' :: line).reverse :: splitLinesFrom [] cs
  | c :: cs =>
    if isLineEnd c then (c :: line).reverse :: splitLinesFrom [] cs
    else splitLinesFrom (c :: line) cs

/-- The lines of a text with their ends. -/
def splitLines (cs : List Char) : List (List Char) := splitLinesFrom [] cs

/-- Replaces `\r\n` and a lone `\r` by `\n`. -/
def unifyNewlines : List Char → List Char
  | [] => []
  | '\r' :: '\n' :: cs => '\n' :: unifyNewlines cs
  | c :: cs => (if c = '\r' then '\n' else c) :: unifyNewlines cs

end Framewise.Text
