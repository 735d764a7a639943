import Framewise.Diagnostic.Basic
import Framewise.Text.Order

/-! # From raw diagnostics to a report

  The raw diagnostics of a run are filtered, made unique and put in order:

  1. those of a disabled rule, and crashes of one, are dropped;
  2. those whose start line suppresses their rule are dropped;
  3. of those with the same identity the first stays;
  4. the severity is replaced where settings say so;
  5. they are sorted by start line, start column, rule and subject, and keep
     their order where all four agree.
-/

namespace Framewise

/-- What settings say about rules. -/
structure Policy where
  /-- Ids of the rules whose diagnostics are dropped. -/
  disabled : List String := []
  /-- Severities that replace those of the rules. -/
  severities : List (String × Severity) := []
  deriving DecidableEq, Repr, Inhabited

namespace Policy

/-- True unless a rule is disabled. -/
def enables (policy : Policy) (id : String) : Bool := !policy.disabled.contains id

/-- The severity set for a rule, or its own. -/
def severityOf (policy : Policy) (id : String) (own : Severity) : Severity :=
  ((policy.severities.find? fun entry => entry.1 = id).map (·.2)).getD own

end Policy

/-- Tells whether a line suppresses a rule. -/
abbrev Suppression := (line : Int) → (ruleId : String) → Bool

namespace Diagnostic

/-- True if a diagnostic is to be reported. -/
def isKept (policy : Policy) (suppressed : Option Suppression) (crashId : String)
    (d : Diagnostic) : Bool :=
  policy.enables d.ruleId &&
    (crashId.isEmpty || d.ruleId != crashId || policy.enables d.subject) &&
    !((suppressed.map fun suppresses => suppresses d.span.startLine d.ruleId).getD false)

/-- The first diagnostic of each identity that is not among `seen`. -/
def firsts (seen : List Identity) : List Diagnostic → List Diagnostic
  | [] => []
  | d :: ds =>
    if seen.contains d.identity then firsts seen ds
    else d :: firsts (d.identity :: seen) ds

/-- The diagnostic with the severity that settings give it. -/
def withPolicy (policy : Policy) (d : Diagnostic) : Diagnostic :=
  { d with severity := policy.severityOf d.ruleId d.severity }

/-- Compares by start line, start column, rule and subject. -/
def order (a b : Diagnostic) : Ordering :=
  if a.span.startLine < b.span.startLine then .lt
  else if b.span.startLine < a.span.startLine then .gt
  else if a.span.startColumn < b.span.startColumn then .lt
  else if b.span.startColumn < a.span.startColumn then .gt
  else (Text.compare a.ruleId b.ruleId).then (Text.compare a.subject b.subject)

/-- `a` may stand before `b` in a report. -/
def le (a b : Diagnostic) : Bool := (order a b).isLE

/-- The report made of raw diagnostics. -/
def resolve (policy : Policy) (suppressed : Option Suppression) (crashId : String)
    (raw : List Diagnostic) : List Diagnostic :=
  ((firsts [] (raw.filter (isKept policy suppressed crashId))).map (withPolicy policy)).mergeSort le

end Diagnostic

end Framewise
