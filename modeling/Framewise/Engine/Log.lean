/-! # Log records

  What a run has to say besides its result: one record per event, in order.
-/

namespace Framewise

/-- How important a record is. -/
inductive LogLevel where
  | info
  | success
  | warning
  | error
  deriving DecidableEq, Repr, Inhabited

/-- The name of a level. -/
def LogLevel.label : LogLevel → String
  | .info => "INFO"
  | .success => "SUCCESS"
  | .warning => "WARNING"
  | .error => "ERROR"

/-- One record; the message may hold markup. -/
structure LogRecord where
  /-- How important it is. -/
  level : LogLevel
  /-- What happened. -/
  message : String
  deriving DecidableEq, Repr, Inhabited

end Framewise
