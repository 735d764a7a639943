import Framewise.Diagnostic.Basic
import Framewise.Json.Printer

/-! # Reports

  The analyses of a run are reported as lines of text or as one JSON document.
  The exit code sums them up: 2 if a file was not analysed to the end, else 1 if
  something was found, else 0.
-/

namespace Framewise.Report

/-! ### Text -/

/-- The path of an analysis as shown in a report. -/
def pathOf (a : Analysis) : String :=
  match a.path with
  | some p => if p.isEmpty then "<input>" else p
  | none => "<input>"

/-- The line of a diagnostic. -/
def diagnosticLine (path : String) (d : Diagnostic) : String :=
  path ++ ":" ++ toString d.span.startLine ++ ":" ++ toString d.span.startColumn ++ ": " ++
    d.ruleId ++ " [" ++ d.severity.label ++ "] " ++ d.message

/-- The line of an error. -/
def errorLine (path : String) (status : Status) (error : String) : String :=
  path ++ ": " ++ status.label ++ ": " ++ error

/-- The lines of an analysis: its diagnostics, then its errors unless it is complete. -/
def analysisLines (a : Analysis) : List String :=
  a.diagnostics.map (diagnosticLine (pathOf a)) ++
    (if a.isComplete then [] else a.errors.map (errorLine (pathOf a) a.status))

/-- The lines of a report. -/
def lines (results : List Analysis) : List String := results.flatMap analysisLines

/-! ### JSON -/

/-- A diagnostic as an object, without its replacement if it has none. -/
def diagnosticValue (d : Diagnostic) : Value :=
  .table <|
    [("ruleId", .text d.ruleId), ("severity", .text d.severity.label),
      ("startLine", .int d.span.startLine), ("startColumn", .int d.span.startColumn),
      ("endLine", .int d.span.endLine), ("endColumn", .int d.span.endColumn),
      ("message", .text d.message)] ++
    (d.fixText.map fun text => ("fixText", Value.text text)).toList ++
    [("subject", .text d.subject)]

/-- An analysis as an object. -/
def analysisValue (a : Analysis) : Value :=
  .table
    [("path", (a.path.map Value.text).getD .null), ("status", .text a.status.label),
      ("diagnostics", .list (a.diagnostics.map diagnosticValue)),
      ("errors", .list (a.errors.map .text))]

/-- The report as a document. -/
def document (results : List Analysis) : String :=
  Json.indented (.list (results.map analysisValue))

/-! ### Exit code -/

/-- 2 if a file was not analysed to the end, else 1 if something was found, else 0. -/
def exitCode (results : List Analysis) : Nat :=
  if results.any fun a => !a.isComplete then 2
  else if results.any Analysis.hasFindings then 1
  else 0

end Framewise.Report
