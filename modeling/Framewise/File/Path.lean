import Framewise.Text.Order
import Framewise.Text.Split

/-! # Paths

  A path is a root and the names below it. Writing a path in another way (a
  doubled slash, a `.` on the way, a slash at the end) gives the same path; `..`
  is kept, since what it leads to depends on the files.
-/

namespace Framewise

/-- A path. -/
structure Path where
  /-- What the path starts from: `""` if it is relative, else `"/"` or `"//"`. -/
  root : String := ""
  /-- The names on the way. -/
  parts : List String := []
  deriving DecidableEq, Repr, Inhabited

namespace Path

/-- The name of the folder above. -/
def up : String := ".."

/-! ### Reading and writing -/

/-- The root that slashes at the head of a path stand for: two of them are kept. -/
def rootOf (slashes : Nat) : String :=
  if slashes = 0 then "" else if slashes = 2 then "//" else "/"

/-- A path from text. -/
def ofString (s : String) : Path :=
  { root := rootOf (s.toList.takeWhile fun c => c = '/').length
    parts := (Text.split '/' s).filter fun part => !(part = "" || part = ".") }

/-- A path as text; the empty path is `.`. -/
def display (p : Path) : String :=
  if p.root.isEmpty && p.parts.isEmpty then "."
  else p.root ++ String.intercalate "/" p.parts

/-- True for a path that does not start from the current folder. -/
def isAbsolute (p : Path) : Bool := !p.root.isEmpty

/-! ### Parts -/

/-- The path with names added at its end. -/
def append (p : Path) (names : List String) : Path := { p with parts := p.parts ++ names }

/-- Compares lists of names, name by name; a proper beginning comes first. -/
def compareNames : List String → List String → Ordering
  | [], [] => .eq
  | [], _ :: _ => .lt
  | _ :: _, [] => .gt
  | a :: as, b :: bs =>
    match Text.compare a b with
    | .eq => compareNames as bs
    | other => other

/-- Removes each `..` with the name before it. -/
def collapse (names : List String) : List String :=
  (names.foldl (fun (done : List String) name =>
    if name = up then done.tail else name :: done) []).reverse

end Path

end Framewise
