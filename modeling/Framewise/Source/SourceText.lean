import Framewise.Source.Span
import Framewise.Text.Lines

/-! # Source text by span

  The text of a file, held as lines, answers what a span covers. A span outside
  the lines covers nothing. Columns are offsets into a line counted from 1; an
  offset below the first column counts back from the end of the line, and one
  beyond the line stops at its end.
-/

namespace Framewise

/-- A source text as lines with their ends. -/
structure SourceText where
  /-- The lines. -/
  lines : List (List Char)

namespace SourceText

/-- The lines of a text. -/
def ofString (code : String) : SourceText := ⟨Text.splitLines code.toList⟩

/-- An offset into a list of `length` items: negative offsets count from the end, and the
    result stays within the list. -/
def clampOffset (length : Nat) (offset : Int) : Nat :=
  if offset < 0 then (offset + length).toNat
  else if offset.toNat < length then offset.toNat
  else length

/-- The part of a line between two offsets, empty if they are out of order. -/
def between (line : List Char) (start stop : Int) : List Char :=
  (line.take (clampOffset line.length stop)).drop (clampOffset line.length start)

/-- The part of a line from an offset on. -/
def suffixAt (line : List Char) (start : Int) : List Char :=
  line.drop (clampOffset line.length start)

/-- The part of a line before an offset. -/
def beforeAt (line : List Char) (stop : Int) : List Char :=
  line.take (clampOffset line.length stop)

/-- The characters a span covers, or `none` if the span lies outside the lines. -/
def sliceChars (source : SourceText) (span : Span) : Option (List Char) :=
  if span.startLine < 1 || (source.lines.length : Int) < span.endLine ||
      span.endLine < span.startLine then none
  else
    let first := source.lines.getD (span.startLine - 1).toNat []
    if span.startLine = span.endLine then
      some (between first (span.startColumn - 1) (span.endColumn - 1))
    else
      let last := source.lines.getD (span.endLine - 1).toNat []
      let inner := (source.lines.take (span.endLine - 1).toNat).drop span.startLine.toNat
      some (suffixAt first (span.startColumn - 1) ++ inner.flatten ++
        beforeAt last (span.endColumn - 1))

/-- The text a span covers. -/
def slice (source : SourceText) (span : Span) : Option String :=
  (source.sliceChars span).map String.ofList

end SourceText

end Framewise
