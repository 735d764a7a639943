import Framewise.Command.Program

/-! # Command line

  Reads the files that a request can see, runs the request on them and prints
  what it leaves behind. Log records go to the standard output, or to the
  standard error if the report is a document.
-/

namespace Framewise.CommandLine

open Command

/-! ### Files -/

/-- The names on the way to a path of the file system. -/
def namesTo (path : String) : List String := (Path.ofString path).parts

/-- The path of names from the root of the file system. -/
def pathOf (names : List String) : String := "/" ++ String.intercalate "/" names

/-- Reads a file, or a folder with everything below it. -/
partial def readEntry (path : String) : IO FileEntry := do
  let place := (← IO.currentDir) / path
  if ← place.isDir then
    let entries ← (← place.readDir).toList.mapM fun entry => do
      return (entry.fileName, ← readEntry entry.path.toString)
    return .folder entries
  else
    return .file (← IO.FS.readBinFile place).toList

/-- Adds the folder or file at some names, if it is there. -/
def addEntry (whole : Bool) (tree : FileEntry) (names : List String) : IO FileEntry := do
  let place := (← IO.currentDir) / pathOf names
  if !(← place.pathExists) then return tree
  if (← place.isDir) && !whole then return (FileEntry.folder []).insert names tree
  return (← readEntry (pathOf names)).insert names tree

/-- The files that paths lead to, and the settings files of the current folder and those
    above it. -/
def readTree (paths : List Path) : IO FileTree := do
  let current := namesTo (← IO.currentDir).toString
  let empty : FileTree := { current := current }
  let tree ← (Settings.upwards current).foldlM (fun tree folder => do
    addEntry true (← addEntry false tree folder) (folder ++ [Settings.fileName])) empty.top
  let tree ← paths.foldlM (fun tree path => do
    let names := empty.fromTop path
    let passed := (Settings.upwards names).map Path.collapse
    addEntry true (← passed.foldlM (addEntry false) tree) (Path.collapse names)) tree
  return { empty with top := tree }

/-! ### Running -/

/-- Looks at a file and measures how long that takes. -/
def runTimed (e : Engine) (t : FileTree) (path : Path) : IO Outcome := do
  let start ← IO.monoMsNow
  let outcome ← IO.lazyPure fun _ => e.runFile t path 0
  let stop ← IO.monoMsNow
  return e.timed (.float (Double.ofQuotient false (stop - start) 1000)) path outcome

/-- Looks at the files of a request. -/
def runCheck (r : CheckRequest) : IO (Except Failure Transcript) := do
  let t ← readTree r.paths
  match r.prepare t with
  | .error failure => return .error failure
  | .ok (.inl ended) => return .ok ended
  | .ok (.inr (e, files)) => return r.conclude e (← files.mapM (runTimed e t))

/-! ### Printing -/

/-- A log record as a line. -/
def recordLine (r : LogRecord) : String :=
  padded 8 r.level.label ++ " " ++ Text.plainMarkup r.message

/-- Prints log records. -/
def printRecords (json : Bool) (logs : List LogRecord) : IO Unit := do
  for r in logs do
    if json then IO.eprintln (recordLine r) else IO.println (recordLine r)

/-- Prints what a run leaves behind, the last log record behind the report, and gives its exit
    code. -/
def print (json : Bool) (t : Transcript) : IO UInt32 := do
  printRecords json t.logs.dropLast
  IO.print t.table
  IO.print t.stdout
  printRecords json t.logs.getLast?.toList
  IO.eprint t.stderr
  return UInt32.ofNat t.exitCode

/-- The wording of a failure. -/
def failureMessage : Failure → String
  | .load (.undecodable e) => e.message
  | .load (.toolNotTable v) => "the entry 'tool' of the settings is of kind " ++ kindName v
  | .load (.invalid problems) => Settings.firstReason problems
  | .run (.fault f) => f.message
  | .run .noSubject => "a finding has no subject"
  | .run .badLiteral => "a literal has no value"
  | .run .tooDeep => "the script is nested too deeply"

end Framewise.CommandLine

/-- The program. -/
def main (arguments : List String) : IO UInt32 := do
  match Framewise.Command.Request.ofArguments arguments with
  | .error stop => Framewise.CommandLine.print false stop.transcript
  | .ok .rules => Framewise.CommandLine.print false Framewise.Command.showRules
  | .ok (.check r) =>
    match ← Framewise.CommandLine.runCheck r with
    | .ok transcript => Framewise.CommandLine.print r.json transcript
    | .error failure =>
      IO.eprintln (Framewise.CommandLine.failureMessage failure)
      return 1
