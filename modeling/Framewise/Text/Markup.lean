/-! # Escaping for marked-up messages

  Log messages carry markup such as `[path]a.py[/path]`. Text put into them is
  escaped, so that a bracket it happens to hold is not taken for a tag: a tag
  is a `[`, one of `a` to `z`, `#`, `/` or `@`, then anything without a `[` up
  to the nearest `]`. Backslashes before a tag are doubled and one more is
  added. A text that ends in a single backslash gets a second one, so that it
  cannot escape what follows. A reader without colours is shown the text without
  its tags and with the escaped ones as they were.
-/

namespace Framewise.Text

/-- True for a character that can follow the `[` of a tag. -/
def startsTag (c : Char) : Bool := c.isLower || c = '#' || c = '/' || c = '@'

/-- The rest of a tag up to its `]`, and what follows; a `[` on the way means that
    there is no tag. -/
def takeTag : List Char → Option (List Char × List Char)
  | [] => none
  | c :: cs =>
    if c = ']' then some ([']'], cs)
    else if c = '[' then none
    else (takeTag cs).map fun (tag, rest) => (c :: tag, rest)

/-- A tag at the head of the text, and what follows it. -/
def tagAt : List Char → Option (List Char × List Char)
  | '[' :: c :: cs =>
    if startsTag c then (takeTag cs).map fun (tag, rest) => ('[' :: c :: tag, rest) else none
  | _ => none

/-- Escapes the tags of a text; `slashes` counts the backslashes just passed and `fuel`
    bounds the number of steps. -/
def escapeTags : (fuel slashes : Nat) → List Char → List Char
  | 0, slashes, cs => List.replicate slashes '\\' ++ cs
  | fuel + 1, slashes, cs =>
    match tagAt cs with
    | some (tag, rest) =>
      List.replicate (2 * slashes + 1) '\\' ++ tag ++ escapeTags fuel 0 rest
    | none =>
      match cs with
      | [] => List.replicate slashes '\\'
      | '\\' :: rest => escapeTags fuel (slashes + 1) rest
      | c :: rest => List.replicate slashes '\\' ++ c :: escapeTags fuel 0 rest

/-- Doubles a single backslash at the end of a text. -/
def closeBackslash (cs : List Char) : List Char :=
  match cs.reverse with
  | '\\' :: '\\' :: _ => cs
  | '\\' :: _ => cs ++ ['\\']
  | _ => cs

/-- The text with its tags escaped. -/
def escapeMarkup (s : String) : String :=
  String.ofList (closeBackslash (escapeTags (s.toList.length + 1) 0 s.toList))

/-- Drops the tags of a message and undoes the escapes; the arguments are those of
    `escapeTags`. -/
def dropTags : (fuel slashes : Nat) → List Char → List Char
  | 0, slashes, cs => List.replicate slashes '\\' ++ cs
  | fuel + 1, slashes, cs =>
    match tagAt cs with
    | some (tag, rest) =>
      List.replicate (slashes / 2) '\\' ++ (if slashes % 2 = 1 then tag else []) ++
        dropTags fuel 0 rest
    | none =>
      match cs with
      | [] => List.replicate slashes '\\'
      | '\\' :: rest => dropTags fuel (slashes + 1) rest
      | c :: rest => List.replicate slashes '\\' ++ c :: dropTags fuel 0 rest

/-- A message without markup. -/
def plainMarkup (s : String) : String :=
  String.ofList (dropTags (s.toList.length + 1) 0 s.toList)

end Framewise.Text
