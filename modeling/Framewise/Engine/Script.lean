import Framewise.Engine.Run
import Framewise.Script.Tree
import Framewise.Suppression

/-! # Runs over scripts

  A script is read, made into a tree and looked at, with the comments in it that
  switch rules off. A script with wrong syntax fails; one with a literal that has
  no value gives no analysis at all.
-/

namespace Framewise

/-- The wording for a script that cannot be read. -/
def syntaxErrorMessage : String := "Syntax error"

/-- The marks that the comments of a script set; none if it cannot be read. -/
def LineMarks.ofScript (code : String) : LineMarks :=
  match Script.parse code with
  | some source => .ofComments source.comments
  | none => {}

/-- Looks at a script. The clock has been read `readings` times before. -/
def Engine.runScript [Script.CharacterNames] (e : Engine) (code : String) (path : Option String)
    (readings : Nat) : Outcome :=
  match Script.parse code with
  | none => failedAnalysis path syntaxErrorMessage readings
  | some source =>
    match source.node with
    | none => { result := .error .badLiteral, readings := readings }
    | some root =>
      e.runBounded root (some (SourceText.ofString code)) path
        (some (LineMarks.ofComments source.comments).suppresses) readings

/-- Why a check gives no diagnostics. -/
inductive CheckError where
  /-- The selection or the list of rules to ignore cannot be read. -/
  | settings (problems : List Schema.Problem)
  /-- The run gave no result. -/
  | run (e : RunError)
  /-- The script was not analysed to the end, for these reasons. -/
  | unfinished (errors : List String)
  deriving DecidableEq, Repr, Inhabited

/-- The wording for a check of a script that was not analysed to the end. -/
def unfinishedMessage (errors : List String) : String :=
  "Analysis failed:\n" ++ String.intercalate "\n" errors

/-- The diagnostics of a script with the full catalog. -/
def check [Script.CharacterNames] (code : String) (select ignored : Value) :
    Except CheckError (List Diagnostic) := do
  let entries := [("select", select), ("disable", if ignored.truthy then ignored else .list [])]
  let settings ← (Settings.ofEntries entries).mapError CheckError.settings
  let e : Engine := { settings := settings }
  let analysis ← ((e.runScript code none 0).result).mapError CheckError.run
  if analysis.isComplete then return analysis.diagnostics
  else throw (.unfinished analysis.errors)

end Framewise
