/-! # Severities

  How grave a finding is. A rule has a severity of its own, which settings may
  replace.
-/

namespace Framewise

/-- How grave a finding is. -/
inductive Severity where
  | error
  | warning
  | info
  deriving DecidableEq, Repr, Inhabited

namespace Severity

/-- The name of a severity in reports. -/
def label : Severity → String
  | .error => "error"
  | .warning => "warning"
  | .info => "info"

/-- All severities, gravest first. -/
def all : List Severity := [.error, .warning, .info]

/-- The severity of a name. -/
def ofLabel? (s : String) : Option Severity := all.find? fun severity => severity.label = s

end Severity

end Framewise
