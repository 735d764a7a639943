/-! # Cutting texts

  A text is cut at every occurrence of a character; the pieces, joined by the
  character, are the text again.
-/

namespace Framewise.Text

/-- Cuts a text at a character; `piece` holds the current piece, last character first. -/
def splitFrom (mark : Char) (piece : List Char) : List Char → List String
  | [] => [String.ofList piece.reverse]
  | c :: cs =>
    if c = mark then String.ofList piece.reverse :: splitFrom mark [] cs
    else splitFrom mark (c :: piece) cs

/-- The pieces of a text between the occurrences of a character. -/
def split (mark : Char) (s : String) : List String := splitFrom mark [] s.toList

/-- The text before the first occurrence of a character and the text behind it. -/
def cut? (mark : Char) (s : String) : Option (String × String) :=
  match s.toList.dropWhile fun c => c != mark with
  | [] => none
  | _ :: rest => some (String.ofList (s.toList.takeWhile fun c => c != mark), String.ofList rest)

/-- True if the second text begins with the first. -/
def begins (start s : String) : Bool := start.toList.isPrefixOf s.toList

end Framewise.Text
