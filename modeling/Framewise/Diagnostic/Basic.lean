import Framewise.Diagnostic.Severity
import Framewise.Source.Span

/-! # Diagnostics

  A diagnostic is a reported violation: which rule, how grave, where, and what
  to do. An analysis is the outcome of looking at one file.
-/

namespace Framewise

/-- A reported violation. -/
structure Diagnostic where
  /-- Id of the rule. -/
  ruleId : String
  /-- How grave it is. -/
  severity : Severity
  /-- Where it is. -/
  span : Span
  /-- What is wrong, in words. -/
  message : String
  /-- Suggested replacement, if there is one. -/
  fixText : Option String := none
  /-- The binding or argument concerned. -/
  subject : String := ""
  deriving DecidableEq, Repr, Inhabited

/-- What tells two diagnostics apart: rule, span and subject. -/
structure Identity where
  /-- Id of the rule. -/
  ruleId : String
  /-- Where it is. -/
  span : Span
  /-- The binding or argument concerned. -/
  subject : String
  deriving DecidableEq, Repr, Inhabited

/-- The identity of a diagnostic. -/
def Diagnostic.identity (d : Diagnostic) : Identity := ⟨d.ruleId, d.span, d.subject⟩

/-- Whether a file was analysed to the end. -/
inductive Status where
  | complete
  | incomplete
  | failed
  deriving DecidableEq, Repr, Inhabited

namespace Status

/-- The name of a status in reports. -/
def label : Status → String
  | .complete => "complete"
  | .incomplete => "incomplete"
  | .failed => "failed"

/-- All statuses. -/
def all : List Status := [.complete, .incomplete, .failed]

end Status

/-- The outcome of looking at one file. -/
structure Analysis where
  /-- The file, if it has a name. -/
  path : Option String := none
  /-- Whether it was analysed to the end. -/
  status : Status := .complete
  /-- The diagnostics in order. -/
  diagnostics : List Diagnostic := []
  /-- Why it was not analysed to the end. -/
  errors : List String := []
  deriving DecidableEq, Repr, Inhabited

namespace Analysis

/-- True if the whole file was analysed. -/
def isComplete (a : Analysis) : Bool := a.status = .complete

/-- True if something was reported. -/
def hasFindings (a : Analysis) : Bool := !a.diagnostics.isEmpty

end Analysis

end Framewise
