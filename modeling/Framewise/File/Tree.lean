import Framewise.File.Path
import Framewise.Text.Lines
import Framewise.Text.Utf8

/-! # File trees

  The files a run can see are a tree of folders with a current folder in it.
  Reading a file gives its text, decoded from UTF-8 and with its line ends
  unified, or says why there is none.

  Main definitions:
  - `FileTree.find`: what a path leads to.
  - `FileTree.scripts`: the scripts that a list of paths stands for.
  - `FileTree.readText`: the text of a file.
-/

namespace Framewise

/-! ### Entries -/

/-- A file with its bytes, or a folder with named entries. -/
inductive FileEntry where
  | file (data : List UInt8)
  | folder (entries : List (String × FileEntry))
  deriving Repr, Inhabited

namespace FileEntry

/-- True for a folder. -/
def isFolder : FileEntry → Bool
  | .folder _ => true
  | .file _ => false

/-- The entry of a name in a folder. -/
def child? : FileEntry → String → Option FileEntry
  | .folder entries, name => (entries.find? fun entry => entry.1 = name).map (·.2)
  | .file _, _ => none

/-- Puts an entry into a folder, in place of one of the same name. -/
def put (entries : List (String × FileEntry)) (name : String) (entry : FileEntry) :
    List (String × FileEntry) :=
  if entries.any fun e => e.1 = name then
    entries.map fun e => if e.1 = name then (name, entry) else e
  else entries ++ [(name, entry)]

/-- Puts an entry in place of another; a folder in place of a folder adds its entries to it. -/
def replacing (new old : FileEntry) : FileEntry :=
  match new, old with
  | .folder entries, .folder held =>
    .folder (entries.foldl (fun held entry => put held entry.1 entry.2) held)
  | _, _ => new

/-- Puts an entry where a list of names leads, with the folders on the way. A folder that is
    already there keeps what it holds. -/
def insert (new : FileEntry) : List String → FileEntry → FileEntry
  | [], old => new.replacing old
  | name :: names, old =>
    let entries := match old with
      | .folder entries => entries
      | .file _ => []
    .folder (put entries name (insert new names ((old.child? name).getD (.folder []))))

mutual

/-- The places of all entries below an entry, folders included. -/
def places : FileEntry → List (List String)
  | .file _ => []
  | .folder entries => placesOf entries

/-- The places of entries and of all entries below them. -/
def placesOf : List (String × FileEntry) → List (List String)
  | [] => []
  | (name, entry) :: rest => [name] :: ((places entry).map (name :: ·) ++ placesOf rest)

end

end FileEntry

/-! ### Trees -/

/-- The files a run can see. -/
structure FileTree where
  /-- The outermost folder. -/
  top : FileEntry := .folder []
  /-- The names that lead to the current folder. -/
  current : List String := []
  deriving Repr, Inhabited

/-- What a path leads to. -/
inductive Found where
  | entry (e : FileEntry)
  /-- A name on the way does not exist. -/
  | missing
  /-- A file stands where a folder should be. -/
  | blocked
  deriving Repr, Inhabited

namespace FileTree

/-- Follows names from a folder; `above` holds the folders passed, innermost first. -/
def follow (above : List FileEntry) (here : FileEntry) : List String → Found
  | [] => .entry here
  | name :: names =>
    if !here.isFolder then .blocked
    else if name = Path.up then
      match above with
      | [] => follow [] here names
      | folder :: above => follow above folder names
    else
      match here.child? name with
      | some next => follow (here :: above) next names
      | none => .missing

/-- The names that lead to a path from the outermost folder. -/
def fromTop (t : FileTree) (p : Path) : List String :=
  if p.isAbsolute then p.parts else t.current ++ p.parts

/-- What a path leads to. -/
def find (t : FileTree) (p : Path) : Found := follow [] t.top (t.fromTop p)

/-- True if a path leads to a file or folder. -/
def holds (t : FileTree) (p : Path) : Bool :=
  match t.find p with
  | .entry _ => true
  | _ => false

/-! ### Scripts -/

/-- True for the name of a script. -/
def isScriptName (name : String) : Bool :=
  (".py".toList.reverse).isPrefixOf name.toList.reverse

/-- The places of the scripts below a folder, in order. -/
def scriptPlaces (folder : FileEntry) : List (List String) :=
  (folder.places.filter fun place => isScriptName (place.getLast?.getD "")).mergeSort
    fun a b => (Path.compareNames a b).isLE

/-- The scripts that one path stands for: those below a folder, else the path itself. -/
def scriptsAt (t : FileTree) (p : Path) : List Path :=
  match t.find p with
  | .entry (.folder entries) => (scriptPlaces (.folder entries)).map p.append
  | _ => [p]

/-- Keeps the first of equal paths. -/
def firstOf (seen : List Path) : List Path → List Path
  | [] => []
  | p :: ps => if seen.contains p then firstOf seen ps else p :: firstOf (p :: seen) ps

/-- The scripts that paths stand for, each once, in the order of the paths. -/
def scripts (t : FileTree) (paths : List Path) : List Path :=
  firstOf [] (paths.flatMap t.scriptsAt)

end FileTree

/-! ### Reading -/

/-- Why a file has no text. -/
inductive ReadError where
  | missing (path : Path)
  /-- A file on the way stands where a folder should be. -/
  | blocked (path : Path)
  | isFolder (path : Path)
  /-- The bytes are no text. -/
  | undecodable (e : Text.Utf8.DecodeError)
  deriving DecidableEq, Repr, Inhabited

/-- The wording of an error. -/
def ReadError.message : ReadError → String
  | .missing p => "[Errno 2] No such file or directory: " ++ Text.quoted p.display
  | .blocked p => "[Errno 20] Not a directory: " ++ Text.quoted p.display
  | .isFolder p => "[Errno 21] Is a directory: " ++ Text.quoted p.display
  | .undecodable e => e.message

/-- The text of a file. -/
def FileTree.readText (t : FileTree) (p : Path) : Except ReadError String :=
  match t.find p with
  | .missing => .error (.missing p)
  | .blocked => .error (.blocked p)
  | .entry (.folder _) => .error (.isFolder p)
  | .entry (.file data) =>
    match Text.Utf8.decode data with
    | .ok cs => .ok (String.ofList (Text.unifyNewlines cs))
    | .error e => .error (.undecodable e)

end Framewise
