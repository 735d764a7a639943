import Framewise.Engine.Stack
import Framewise.Engine.Traversal
import Framewise.Node.Mapping
import Framewise.Settings.Basic

/-! # Runs

  An engine is a catalog with settings applied to it, and can look at many
  trees. Each run starts from an empty tracker. With a deadline, the clock is
  read once at the start and once per node; a run that takes longer is
  incomplete and reports nothing. Everything a run does besides its result (log
  records, readings of the clock) is part of what it returns.

  Main definitions:
  - `Engine.run`: a run over a tree, on a stack of any size.
  - `Engine.runBounded`: the same on a stack with limited room, which a tree that
    is nested too deeply exhausts.
-/

namespace Framewise

/-! ### Engines -/

/-- A catalog with settings applied to it. -/
structure Engine where
  /-- The rules. -/
  rules : List Rule := catalog
  /-- The settings. -/
  settings : Settings := {}
  /-- Suppression used when a run is given none. -/
  suppressed : Option Suppression := none
  /-- Seconds that a run may take; replaces what the settings say. -/
  deadline : Option Number := none
  /-- The readings of the clock, by number. -/
  clock : Nat → Number := fun _ => .int 0
  /-- The nested calls that the stack has room for when a run begins. -/
  room : Nat := 990

namespace Engine

/-- What the settings say about the rules. -/
def policy (e : Engine) : Policy := (e.settings.resolve (ruleIds e.rules)).1

/-- The entries of the settings that were refused. -/
def settingErrors (e : Engine) : List SettingError := (e.settings.resolve (ruleIds e.rules)).2

/-- The log records for the entries that were refused. -/
def settingRecords (e : Engine) : List LogRecord :=
  e.settingErrors.map fun error =>
    { level := .warning,
      message := "Ignoring configuration entry: " ++ Text.escapeMarkup error.message }

/-- Seconds that a run may take. -/
def allowance (e : Engine) : Option Number :=
  match e.deadline with
  | some seconds => some seconds
  | none => e.settings.deadline.map .float

end Engine

/-! ### Results -/

/-- Why a run gave no result at all. -/
inductive RunError where
  /-- A name could not be resolved or ordered. -/
  | fault (f : Fault)
  /-- A finding had no subject. -/
  | noSubject
  /-- A literal of the script has no value. -/
  | badLiteral
  /-- The stack has no room for a tree that is nested so deeply. -/
  | tooDeep
  deriving DecidableEq, Repr, Inhabited

/-- A result with what was logged and how often the clock was read. -/
structure Traced (α : Type) where
  /-- The result. -/
  result : α
  /-- Log records in order. -/
  logs : List LogRecord := []
  /-- Number of clock readings, those before the run included. -/
  readings : Nat := 0

/-- The outcome of a run. -/
abbrev Outcome := Traced (Except RunError Analysis)

/-- A path as shown in log records. -/
def displayPath (path : Option String) : String :=
  match path with
  | some p => if p.isEmpty then "<input>" else p
  | none => "<input>"

/-- A log record about a file; `text` holds no markup that is not meant. -/
def fileRecord (level : LogLevel) (path : Option String) (text : String) : LogRecord :=
  { level := level,
    message := "[path]" ++ Text.escapeMarkup (displayPath path) ++ "[/path]: " ++ text }

/-- The analysis of a file that cannot be read as a tree. -/
def failedAnalysis (path : Option String) (reason : String) (readings : Nat) : Outcome :=
  { result := .ok { path := path, status := .failed, errors := [reason] },
    logs := [fileRecord .error path (Text.escapeMarkup reason)],
    readings := readings }

namespace Engine

/-- The wording for a run that took too long. -/
def deadlineMessage (seconds : Number) : String :=
  "Analysis exceeded the deadline of " ++ seconds.display ++ "s"

/-- The analysis of a run that took too long. -/
def expired (e : Engine) (path : Option String) : Analysis × LogRecord :=
  let message := deadlineMessage (e.allowance.getD (.int 0))
  ({ path := path, status := .incomplete, errors := [message] },
    fileRecord .warning path message)

/-- The fixed part of a walk that begins after `readings` clock readings. -/
def survey (e : Engine) (source : Option SourceText) (readings : Nat) : Survey × Nat :=
  match e.allowance with
  | none => ({ rules := e.rules, source := source, clock := e.clock }, readings)
  | some seconds =>
    ({ rules := e.rules, source := source, limit := some ((e.clock readings).add seconds),
       clock := e.clock }, readings + 1)

/-- Looks at one tree. The clock has been read `readings` times before. -/
def run (e : Engine) (root : Node) (source : Option SourceText) (path : Option String)
    (suppressed : Option Suppression) (readings : Nat) : Outcome :=
  let (survey, readings) := e.survey source readings
  match visit survey none root { readings := readings } with
  | .ok _ walk =>
    let suppressed := suppressed.orElse fun _ => e.suppressed
    { result := .ok { path := path,
                      diagnostics := Diagnostic.resolve e.policy suppressed crashRuleId
                        walk.raw.reverse },
      logs := walk.logs.reverse, readings := walk.readings }
  | .error halt walk =>
    match halt with
    | .deadline =>
      let (analysis, record) := e.expired path
      { result := .ok analysis, logs := (record :: walk.logs).reverse, readings := walk.readings }
    | .fault f =>
      { result := .error (.fault f), logs := walk.logs.reverse, readings := walk.readings }
    | .noSubject =>
      { result := .error .noSubject, logs := walk.logs.reverse, readings := walk.readings }

/-- Looks at one tree as far as the stack has room for it. -/
def runBounded (e : Engine) (root : Node) (source : Option SourceText) (path : Option String)
    (suppressed : Option Suppression) (readings : Nat) : Outcome :=
  if root.frames ≤ e.room then e.run root source path suppressed readings
  else { result := .error .tooDeep, readings := readings }

theorem of_runBounded_ok {e : Engine} {root : Node} {source : Option SourceText}
    {path : Option String} {suppressed : Option Suppression} {readings : Nat} {a : Analysis}
    (h : (e.runBounded root source path suppressed readings).result = .ok a) :
    (e.run root source path suppressed readings).result = .ok a := by
  unfold runBounded at h
  split at h
  · exact h
  · cases h

/-- Looks at a tree from outside. -/
def runTree (e : Engine) (data : Value) (source : Option String) (path : Option String)
    (suppressed : Option Suppression) (readings : Nat) : Outcome :=
  match Node.ofValue data with
  | .ok root => e.runBounded root (source.map SourceText.ofString) path suppressed readings
  | .error problem => failedAnalysis path (Node.problemMessage problem) readings

end Engine

end Framewise
