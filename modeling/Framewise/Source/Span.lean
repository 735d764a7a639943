/-! # Spans

  A span is a range of a source text. Lines and columns count from 1, columns in
  characters; the end column is the first one after the range. Spans that come
  from outside may hold any whole numbers.
-/

namespace Framewise

/-- A range of a source text. -/
structure Span where
  /-- Line of the first character. -/
  startLine : Int
  /-- Column of the first character. -/
  startColumn : Int
  /-- Line on which the range ends. -/
  endLine : Int
  /-- Column after the last character. -/
  endColumn : Int
  deriving DecidableEq, Repr, Inhabited

namespace Span

/-- True if position `(l, c)` does not come after position `(l', c')`. -/
def posLE (l c l' c' : Int) : Bool := l < l' || (l = l' && c ≤ c')

/-- The smallest span that encloses both. -/
def covering (a b : Span) : Span :=
  let startsFirst := posLE a.startLine a.startColumn b.startLine b.startColumn
  let endsLast := posLE b.endLine b.endColumn a.endLine a.endColumn
  { startLine := if startsFirst then a.startLine else b.startLine
    startColumn := if startsFirst then a.startColumn else b.startColumn
    endLine := if endsLast then a.endLine else b.endLine
    endColumn := if endsLast then a.endColumn else b.endColumn }

end Span

end Framewise
