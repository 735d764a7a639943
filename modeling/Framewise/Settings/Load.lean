import Framewise.File.Tree
import Framewise.Settings.Basic
import Framewise.Text.Upper
import Framewise.Toml.Document

/-! # Loading settings

  Settings come from the table `tool.framelint` of the nearest `pyproject.toml`:
  the one in the start folder or else in the nearest folder above it. Each entry
  of the table is checked on its own, so that a bad one is reported and the
  others still count. What the command line says replaces what the file says,
  except that rules to ignore are added to those the file disables.
-/

namespace Framewise

/-! ### The settings file -/

/-- Why the settings could not be loaded at all. -/
inductive LoadError where
  /-- The settings file is no text. -/
  | undecodable (e : Text.Utf8.DecodeError)
  /-- The entry `tool` of the settings file is no table. -/
  | toolNotTable (found : Value)
  /-- The settings do not have the shape they should. -/
  | invalid (problems : List Schema.Problem)
  deriving Repr, Inhabited

namespace Settings

/-- The name of the settings file. -/
def fileName : String := "pyproject.toml"

/-- The bytes of the settings file in the first of some folders that has one. -/
def nearest (t : FileTree) : List (List String) → Option (List UInt8)
  | [] => none
  | folder :: folders =>
    match FileTree.follow [] t.top (folder ++ [fileName]) with
    | .entry (.file data) => some data
    | _ => nearest t folders

/-- A folder and those above it, innermost first. -/
def upwards (folder : List String) : List (List String) :=
  (List.range (folder.length + 1)).reverse.map fun n => folder.take n

/-- The entries of `tool.framelint` in a settings file. A file that is not well-formed has
    none. -/
def fileEntries (data : List UInt8) : Except LoadError (List (String × Value)) :=
  match Text.Utf8.decode data with
  | .error e => .error (.undecodable e)
  | .ok cs =>
    match Toml.parse cs with
    | none => .ok []
    | some document =>
      match Value.lookup document "tool" with
      | none => .ok []
      | some (.table tool) =>
        match Value.lookup tool "framelint" with
        | some (.table entries) => .ok entries
        | _ => .ok []
      | some other => .error (.toolNotTable other)

/-- The entries of the settings file nearest to a folder. -/
def nearestEntries (t : FileTree) (start : Path) : Except LoadError (List (String × Value)) :=
  match nearest t (upwards (Path.collapse (t.fromTop start))) with
  | none => .ok []
  | some data => fileEntries data

/-! ### Checking entries one by one -/

/-- What is wrong with an entry, if anything. -/
def entryError (entry : String × Value) : Option SettingError :=
  if !keys.contains entry.1 then some (.unknownSetting entry.1)
  else
    match ofEntries [entry] with
    | .error problems => some (.invalidSetting entry.1 (firstReason problems))
    | .ok _ => none

/-- The entries that are in order. -/
def accepted (entries : List (String × Value)) : List (String × Value) :=
  entries.filter fun entry => (entryError entry).isNone

/-- One error per entry that is not. -/
def refused (entries : List (String × Value)) : List SettingError := entries.filterMap entryError

/-! ### Overrides -/

/-- What the command line says about the settings. -/
structure Overrides where
  /-- If given, only these rules are on. -/
  select : Option (List String) := none
  /-- More rules that are off. -/
  ignore : List String := []
  /-- Seconds that a file may take. -/
  deadline : Option Number := none
  /-- Files looked at side by side. -/
  jobs : Option Int := none
  deriving Repr, Inhabited

/-- A list of texts as a value. -/
def idsValue (ids : List String) : Value := .list (ids.map .text)

/-- An entry, if there is a value for it. -/
def entryIf (key : String) (value : Option Value) : List (String × Value) :=
  (value.map fun v => (key, v)).toList

/-- The items of an entry that is a list. -/
def listEntry (entries : List (String × Value)) (key : String) : List Value :=
  match Value.lookup entries key with
  | some (.list items) => items
  | _ => []

/-- The entries of a file with the overrides put in. -/
def overlay (entries : List (String × Value)) (o : Overrides) : List (String × Value) :=
  let given (key : String) (value : Option Value) : List (String × Value) :=
    entryIf key (value.orElse fun _ => Value.lookup entries key)
  given "rules" none ++ given "select" (o.select.map idsValue) ++
    [("disable", .list (listEntry entries "disable" ++ o.ignore.map .text))] ++
    given "deadline_seconds" (o.deadline.map .number) ++ given "jobs" (o.jobs.map .int)

/-- The settings for a start folder. -/
def load (t : FileTree) (start : Path) (o : Overrides) : Except LoadError Settings := do
  let entries ← nearestEntries t start
  let settings ← (ofEntries (overlay (accepted entries) o)).mapError LoadError.invalid
  return { settings with loadErrors := refused entries }

/-! ### Lists of rule ids -/

/-- The rule ids of a list with commas, in upper case; empty items do not count. -/
def ruleList (s : String) : List String :=
  ((Text.split ',' s).map Text.strip).filterMap fun item =>
    if item.isEmpty then none else some (Text.upper item)

end Settings

end Framewise
