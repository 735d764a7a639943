import Framewise.Rule.Catalog

/-! # The table of rules

  The catalog is shown as a table with a title, a head in heavy lines and one
  row per rule. A column is as wide as its widest cell, with a blank on either
  side; the title is centred.
-/

namespace Framewise.Command

/-! ### Cells -/

/-- The characters of a horizontal line: left end, line, crossing, right end. -/
structure Rail where
  /-- The left end. -/
  left : String
  /-- The line itself. -/
  bar : Char
  /-- Where two columns meet. -/
  cross : String
  /-- The right end. -/
  right : String

/-- `n` times a character. -/
def times (n : Nat) (c : Char) : String := String.ofList (List.replicate n c)

/-- A text with blanks up to a width. -/
def padded (width : Nat) (s : String) : String := s ++ times (width - s.length) ' '

/-- A text centred in a width, nearer to the left. -/
def centred (width : Nat) (s : String) : String :=
  padded width (times ((width - s.length) / 2) ' ' ++ s)

/-- A horizontal line over columns of some widths. -/
def Rail.draw (r : Rail) (widths : List Nat) : String :=
  r.left ++ String.intercalate r.cross (widths.map fun w => times (w + 2) r.bar) ++ r.right

/-- A row of cells between vertical lines. -/
def row (bar : String) (widths : List Nat) (cells : List String) : String :=
  bar ++ String.intercalate bar
    ((widths.zip cells).map fun (w, cell) => " " ++ padded w cell ++ " ") ++ bar

/-! ### Tables -/

/-- The greater of two lengths. -/
def wider (m n : Nat) : Nat := if m ≤ n then n else m

/-- The widths of columns: the widest cell of each. -/
def widthsOf (rows : List (List String)) (columns : Nat) : List Nat :=
  (List.range columns).map fun i =>
    (rows.map fun cells => (cells.getD i "").length).foldl wider 0

/-- The lines of a table. -/
def tableLines (title : String) (head : List String) (rows : List (List String)) : List String :=
  let widths := widthsOf (head :: rows) head.length
  let top : Rail := { left := "┏", bar := '━', cross := "┳", right := "┓" }
  let middle : Rail := { left := "┡", bar := '━', cross := "╇", right := "┩" }
  let bottom : Rail := { left := "└", bar := '─', cross := "┴", right := "┘" }
  [centred (top.draw widths).length title, top.draw widths, row "┃" widths head,
    middle.draw widths] ++ rows.map (row "│" widths) ++ [bottom.draw widths]

/-- The table of some rules, every line with its end. -/
def ruleTable (rules : List Rule) : String :=
  String.join <|
    (tableLines "framelint rules" ["Id", "Title", "Severity"]
      (rules.map fun r => [r.id, r.title, r.severity.label])).map fun line => line ++ "\n"

end Framewise.Command
