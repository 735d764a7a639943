import Framewise.Diagnostic.Resolve
import Framewise.Schema.Read

/-! # Settings

  Settings say which rules are on, with what severity, how long a file may take
  and how many files are looked at side by side. Rule entries are kept as they
  were given: what is wrong with one is reported when the settings are applied
  to a catalog, and the rest still counts.

  Main definitions:
  - `Settings.ofEntries`: settings from the entries of an object, or all problems with it.
  - `Settings.resolve`: the policy for a catalog, and the entries refused.
-/

namespace Framewise

/-- An entry of the settings that was refused. -/
inductive SettingError where
  /-- A rule id that the catalog does not have; `place` is the setting that names it. -/
  | unknownRule (id place : String)
  /-- A rule entry that cannot be read. -/
  | invalidRule (id reason : String)
  /-- A setting that does not exist. -/
  | unknownSetting (key : String)
  /-- A setting that cannot be read. -/
  | invalidSetting (key reason : String)
  deriving DecidableEq, Repr, Inhabited

namespace SettingError

/-- The rule id or setting concerned. -/
def key : SettingError → String
  | .unknownRule id _ => id
  | .invalidRule id _ => id
  | .unknownSetting key => key
  | .invalidSetting key _ => key

/-- The wording. -/
def message : SettingError → String
  | .unknownRule id place => "Unknown rule id '" ++ id ++ "' in " ++ place
  | .invalidRule id reason => "Invalid settings for '" ++ id ++ "': " ++ reason
  | .unknownSetting key => "Unknown setting '" ++ key ++ "' in [tool.framelint]"
  | .invalidSetting key reason =>
    "Invalid value for '" ++ key ++ "' in [tool.framelint]: " ++ reason

end SettingError

/-- The settings of a run. -/
structure Settings where
  /-- Entries per rule id, as given. -/
  rules : List (String × Value) := []
  /-- If given, only these rules are on. -/
  select : Option (List String) := none
  /-- Rules that are off. -/
  disable : List String := []
  /-- Seconds that a file may take. -/
  deadline : Option Double := none
  /-- Files looked at side by side. -/
  jobs : Int := 1
  /-- Entries refused when the settings were loaded. -/
  loadErrors : List SettingError := []
  deriving Repr, Inhabited

/-! ### Reading -/

namespace Settings

open Schema (Checked)

/-- A list of rule ids. -/
def idList : Value → Checked (List String) := Schema.list (Schema.here Schema.text)

/-- The names of the settings. -/
def keys : List String := ["rules", "select", "disable", "deadline_seconds", "jobs"]

/-- Settings from the entries of an object; other entries are ignored. -/
def ofEntries (entries : List (String × Value)) : Checked Settings :=
  let rules := Schema.defaulted entries "rules" [] Schema.table
  let select := Schema.defaulted entries "select" none (Schema.nullable idList)
  let disable := Schema.defaulted entries "disable" [] idList
  let deadline := Schema.defaulted entries "deadline_seconds" none
    (Schema.nullable (Schema.here Schema.positiveDouble))
  let jobs := Schema.defaulted entries "jobs" 1 (Schema.here Schema.positiveInt)
  (Schema.both rules (Schema.both select (Schema.both disable (Schema.both deadline jobs)))).map
    fun (rules, select, disable, deadline, jobs) =>
      { rules := rules, select := select, disable := disable, deadline := deadline, jobs := jobs }

/-! ### Rule entries -/

/-- The settings of one rule. -/
structure RuleEntry where
  /-- Whether the rule is on. -/
  enabled : Bool := true
  /-- Severity that replaces the rule's own. -/
  severity : Option Severity := none
  deriving DecidableEq, Repr, Inhabited

/-- The settings of one rule from a value. -/
def RuleEntry.ofValue : Value → Checked RuleEntry
  | .table entries =>
    let enabled := Schema.defaulted entries "enabled" true (Schema.here Schema.bool)
    let severity := Schema.defaulted entries "severity" none
      (Schema.nullable (Schema.here (Schema.listed Severity.all Severity.label)))
    (Schema.both enabled severity).map fun (enabled, severity) => ⟨enabled, severity⟩
  | _ => .error [⟨[], .notModel "RuleSetting"⟩]

/-- The wording of the first problem. -/
def firstReason (problems : List Schema.Problem) : String :=
  (problems.head?.map fun p => p.cause.message).getD ""

/-! ### Applying settings to a catalog -/

/-- The ids of a list that the catalog does not have, as errors. -/
def unknownIds (known : List String) (place : String) (ids : List String) : List SettingError :=
  (ids.filter fun id => !known.contains id).map fun id => .unknownRule id place

/-- The rules that a selection turns off. -/
def unselected (known : List String) : Option (List String) → List String
  | none => []
  | some ids => known.filter fun id => !ids.contains id

/-- Applies one rule entry to a policy and the errors so far. -/
def applyEntry (known : List String) (state : Policy × List SettingError)
    (entry : String × Value) : Policy × List SettingError :=
  let (policy, errors) := state
  let (id, value) := entry
  if !known.contains id then (policy, errors ++ [.unknownRule id "rules"])
  else
    match RuleEntry.ofValue value with
    | .error problems => (policy, errors ++ [.invalidRule id (firstReason problems)])
    | .ok setting =>
      ({ disabled := if setting.enabled then policy.disabled else policy.disabled ++ [id]
         severities := policy.severities ++ (setting.severity.map fun s => (id, s)).toList },
        errors)

/-- The rule entries in the order of their ids. -/
def sortedRules (settings : Settings) : List (String × Value) :=
  settings.rules.mergeSort fun a b => Text.le a.1 b.1

/-- The policy for the rules of a catalog, and one error per entry refused. -/
def resolve (settings : Settings) (known : List String) : Policy × List SettingError :=
  let selectErrors := unknownIds known "select" (settings.select.getD [])
  let disableErrors := unknownIds known "disable" settings.disable
  let off := unselected known settings.select ++
    settings.disable.filter fun id => known.contains id
  settings.sortedRules.foldl (applyEntry known)
    ({ disabled := off }, settings.loadErrors ++ selectErrors ++ disableErrors)

end Settings

end Framewise
