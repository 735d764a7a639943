import Framewise.Diagnostic.Basic
import Framewise.Schema.Read

/-! # Diagnostics from data

  Diagnostics and analyses can be given as objects. A field of a diagnostic has
  two spellings, `startLine` and `start_line`; if both are given the first
  counts. Problems name the spelling that was used, and the first if the field
  is missing.
-/

namespace Framewise

open Schema (Checked)

namespace Diagnostic

/-- A field of a diagnostic. -/
structure Field where
  /-- The usual spelling. -/
  joined : String
  /-- The spelling with underscores. -/
  spaced : String
  deriving DecidableEq, Repr, Inhabited

/-- The spelling under which a field is given, the usual one if it is not. -/
def Field.spelling (field : Field) (entries : List (String × Value)) : String :=
  if (Value.lookup entries field.joined).isNone && (Value.lookup entries field.spaced).isSome then
    field.spaced
  else field.joined

/-- A field that must be there. -/
def requiredField {α : Type} (entries : List (String × Value)) (field : Field)
    (check : Value → Checked α) : Checked α :=
  Schema.required entries (field.spelling entries) check

/-- A field with a default. -/
def defaultedField {α : Type} (entries : List (String × Value)) (field : Field) (fallback : α)
    (check : Value → Checked α) : Checked α :=
  Schema.defaulted entries (field.spelling entries) fallback check

/-- A diagnostic from a value. -/
def ofValue : Value → Checked Diagnostic
  | .table entries =>
    let text := Schema.here Schema.text
    let int := Schema.here Schema.int
    let ruleId := requiredField entries ⟨"ruleId", "rule_id"⟩ text
    let severity := requiredField entries ⟨"severity", "severity"⟩
      (Schema.here (Schema.listed Severity.all Severity.label))
    let startLine := requiredField entries ⟨"startLine", "start_line"⟩ int
    let startColumn := requiredField entries ⟨"startColumn", "start_column"⟩ int
    let endLine := requiredField entries ⟨"endLine", "end_line"⟩ int
    let endColumn := requiredField entries ⟨"endColumn", "end_column"⟩ int
    let message := requiredField entries ⟨"message", "message"⟩ text
    let fixText := defaultedField entries ⟨"fixText", "fix_text"⟩ none (Schema.nullable text)
    let subject := defaultedField entries ⟨"subject", "subject"⟩ "" text
    let span := Schema.both startLine (Schema.both startColumn (Schema.both endLine endColumn))
    let texts := Schema.both message (Schema.both fixText subject)
    (Schema.both ruleId (Schema.both severity (Schema.both span texts))).map
      fun (ruleId, severity, (startLine, startColumn, endLine, endColumn),
          message, fixText, subject) =>
        { ruleId := ruleId, severity := severity,
          span := ⟨startLine, startColumn, endLine, endColumn⟩,
          message := message, fixText := fixText, subject := subject }
  | _ => .error [⟨[], .notModel "Diagnostic"⟩]

end Diagnostic

/-- An analysis from a value. -/
def Analysis.ofValue : Value → Checked Analysis
  | .table entries =>
    let path := Schema.defaulted entries "path" none (Schema.nullable (Schema.here Schema.text))
    let status := Schema.defaulted entries "status" .complete
      (Schema.here (Schema.listed Status.all Status.label))
    let diagnostics := Schema.defaulted entries "diagnostics" [] (Schema.list Diagnostic.ofValue)
    let errors := Schema.defaulted entries "errors" [] (Schema.list (Schema.here Schema.text))
    (Schema.both path (Schema.both status (Schema.both diagnostics errors))).map
      fun (path, status, diagnostics, errors) =>
        { path := path, status := status, diagnostics := diagnostics, errors := errors }
  | _ => .error [⟨[], .notModel "AnalysisResult"⟩]

end Framewise
