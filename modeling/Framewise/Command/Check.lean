import Framewise.Command.Request
import Framewise.Diagnostic.Report
import Framewise.Engine.Script
import Framewise.Settings.Load

/-! # Looking at files

  A request to look at files goes through three stages: the paths must exist and
  the settings must load; then each script is looked at on its own; then the
  results are summed up. A script that cannot be read has a failed analysis and
  does not keep the others from being looked at.

  Main definitions:
  - `Engine.runFile`, `Engine.runFiles`: the analyses of files.
  - `CheckRequest.prepare`, `CheckRequest.conclude`: before and after them.
  - `CheckRequest.run`: the whole request.
-/

namespace Framewise

/-! ### Files -/

/-- The analysis of a file that has no text. -/
def unreadable (path : Path) (e : ReadError) (readings : Nat) : Outcome :=
  { result := .ok { path := some path.display, status := .failed, errors := [e.message] },
    logs := [{ level := .error,
               message := "Failed to read [path]" ++ Text.escapeMarkup path.display ++
                 "[/path]: " ++ Text.escapeMarkup e.message }],
    readings := readings }

namespace Engine

/-- Looks at a file. The clock has been read `readings` times before. -/
def runFile [Script.CharacterNames] (e : Engine) (t : FileTree) (path : Path) (readings : Nat) :
    Outcome :=
  match t.readText path with
  | .ok code => e.runScript code (some path.display) readings
  | .error error => unreadable path error readings

/-- Looks at files one after the other. -/
def runFiles [Script.CharacterNames] (e : Engine) (t : FileTree) (readings : Nat) :
    List Path → List Outcome
  | [] => []
  | path :: paths =>
    let outcome := e.runFile t path readings
    outcome :: runFiles e t outcome.readings paths

/-- The outcome for a file that took `elapsed` seconds: an analysis that took too long is
    incomplete and reports nothing. -/
def timed (e : Engine) (elapsed : Number) (path : Path) (o : Outcome) : Outcome :=
  match o.result, e.allowance with
  | .ok analysis, some seconds =>
    if analysis.isComplete && seconds.lt elapsed then
      let (analysis, record) := e.expired (some path.display)
      { o with result := .ok analysis, logs := o.logs ++ [record] }
    else o
  | _, _ => o

/-- Looks at every script that paths stand for. -/
def runPaths [Script.CharacterNames] (e : Engine) (t : FileTree) (paths : List Path) : List Outcome :=
  e.runFiles t 0 (t.scripts paths)

end Engine

namespace Command

/-! ### Transcripts -/

/-- What a run of the program leaves behind. -/
structure Transcript where
  /-- The exit code. -/
  exitCode : Nat
  /-- What it prints. -/
  stdout : String := ""
  /-- What it prints about wrong arguments. -/
  stderr : String := ""
  /-- What it shows as a table. -/
  table : String := ""
  /-- What it logs. -/
  logs : List LogRecord := []
  deriving DecidableEq, Repr, Inhabited

/-- Why a run of the program ends without an exit code of its own. -/
inductive Failure where
  /-- The settings could not be loaded. -/
  | load (e : LoadError)
  /-- A script has no analysis. -/
  | run (e : RunError)
  deriving Repr, Inhabited

/-! ### Problems with settings -/

/-- The name of the kind of a value in messages. -/
def kindName : Value → String
  | .null => "NoneType"
  | .bool _ => "bool"
  | .number (.int _) => "int"
  | .number (.float _) => "float"
  | .complex _ _ => "complex"
  | .text _ => "str"
  | .bytes _ => "bytes"
  | .list _ => "list"
  | .table _ => "dict"
  | .moment kind => "datetime." ++ kind.name

/-- The value at a place inside a value. -/
def valueAt (v : Value) : List Schema.Step → Value
  | [] => v
  | .key name :: path =>
    match v with
    | .table entries => valueAt ((Value.lookup entries name).getD .null) path
    | _ => v
  | .item index :: path =>
    match v with
    | .list items => valueAt (items.getD index .null) path
    | _ => v

/-- A problem of some settings in three lines. -/
def describeProblem (settings : Value) (p : Schema.Problem) : String :=
  let value := valueAt settings p.path
  "\n" ++ Schema.displayPath p.path ++ "\n  " ++ p.cause.message ++
    " [type=" ++ p.cause.code ++ ", input_value=" ++ value.quoted ++
    ", input_type=" ++ kindName value ++ "]\n" ++
    "    For further information visit https://errors.pydantic.dev/2.14/v/" ++ p.cause.code

/-- All problems of some settings. -/
def describeProblems (settings : Value) (problems : List Schema.Problem) : String :=
  let count := problems.length
  toString count ++ (if count = 1 then " validation error" else " validation errors") ++
    " for LintConfig" ++ String.join (problems.map (describeProblem settings))

/-! ### Stages of a check -/

namespace CheckRequest

/-- What the request says about the settings. -/
def overrides (r : CheckRequest) : Settings.Overrides where
  select := r.select.map Settings.ruleList
  ignore := (r.ignore.map Settings.ruleList).getD []
  deadline := r.deadline.map .float
  jobs := r.jobs

/-- The overrides as a value, to name them in messages. -/
def overridesValue (r : CheckRequest) : Value := .table (Settings.overlay [] r.overrides)

/-- The paths that lead nowhere. -/
def missing (r : CheckRequest) (t : FileTree) : List Path := r.paths.filter fun p => !t.holds p

/-- The record for a path that leads nowhere. -/
def missingRecord (p : Path) : LogRecord where
  level := .error
  message := "Path not found: [path]" ++ Text.escapeMarkup p.display ++ "[/path]"

/-- The record for settings that do not have the shape they should. -/
def invalidRecord (r : CheckRequest) (problems : List Schema.Problem) : LogRecord where
  level := .error
  message := "Invalid configuration: " ++
    Text.escapeMarkup (describeProblems r.overridesValue problems)

/-- A run that ends before any file is looked at. -/
def refused (logs : List LogRecord) : Transcript := { exitCode := 2, logs := logs }

/-- The engine for a request and the scripts to look at; or the run is over. -/
def prepare (r : CheckRequest) (t : FileTree) :
    Except Failure (Transcript ⊕ (Engine × List Path)) :=
  match r.missing t with
  | [] =>
    match Settings.load t {} r.overrides with
    | .ok settings => .ok (.inr ({ settings := settings }, t.scripts r.paths))
    | .error (.invalid problems) =>
      .ok (.inl (refused [r.invalidRecord problems]))
    | .error e => .error (.load e)
  | paths => .ok (.inl (refused (paths.map missingRecord)))

/-- The record that sums up a report. -/
def verdict (results : List Analysis) : LogRecord :=
  match Report.exitCode results with
  | 0 => { level := .success, message := "No issues found." }
  | 1 =>
    { level := .warning,
      message := "Found " ++ toString (results.flatMap Analysis.diagnostics).length ++
        " issue(s) in " ++ toString (results.filter Analysis.hasFindings).length ++ " file(s)." }
  | _ => { level := .error, message := "Some files could not be fully analysed." }

/-- What a request leaves behind once the files have been looked at. -/
def conclude (r : CheckRequest) (e : Engine) (outcomes : List Outcome) :
    Except Failure Transcript := do
  let results ← (outcomes.mapM Traced.result).mapError Failure.run
  let logs := e.settingRecords ++ outcomes.flatMap Traced.logs
  let exitCode := Report.exitCode results
  if r.json then
    return { exitCode := exitCode, stdout := Report.document results ++ "\n", logs := logs }
  else
    return { exitCode := exitCode,
             stdout := String.join ((Report.lines results).map fun line => line ++ "\n"),
             logs := logs ++
               [{ level := .info, message := "Checked " ++ toString results.length ++ " files" },
                 verdict results] }

/-- Looks at the files of a request. -/
def run [Script.CharacterNames] (r : CheckRequest) (t : FileTree) : Except Failure Transcript := do
  match ← r.prepare t with
  | .inl ended => return ended
  | .inr (e, files) => r.conclude e (e.runFiles t 0 files)

end CheckRequest

end Command

end Framewise
