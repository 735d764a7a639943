import Framewise.Diagnostic.Report
import Framewise.Diagnostic.Schema
import Framewise.Proofs.JsonGrammar

/-! # Reports read back

  The document of a report loses nothing: it is JSON, in ASCII, and reading it and
  checking each of its items gives the analyses that were reported. A diagnostic
  without a replacement has no such field, an analysis without a path has null for
  it; both are told apart from empty texts.

  Main results:
  - `Diagnostic.ofValue_diagnosticValue`, `Analysis.ofValue_analysisValue`: one record.
  - `document_reads_back`: the whole report.
-/

namespace Framewise

namespace Schema

variable {α : Type} {entries : List (String × Value)} {v : Value} {a : α}

theorem here_ok {read : Value → Read α} (h : read v = .ok a) : here read v = .ok a := by
  rw [here, h]
  rfl

theorem under_ok (step : Step) : under step (.ok a : Checked α) = .ok a := rfl

theorem required_ok {key : String} {check : Value → Checked α}
    (hlookup : Value.lookup entries key = some v) (hcheck : check v = .ok a) :
    required entries key check = .ok a := by
  simp only [required, hlookup, hcheck, under_ok]

theorem defaulted_ok {key : String} {fallback : α} {check : Value → Checked α}
    (hlookup : Value.lookup entries key = some v) (hcheck : check v = .ok a) :
    defaulted entries key fallback check = .ok a := by
  simp only [defaulted, hlookup, hcheck, under_ok]

theorem itemsFrom_map {β : Type} {check : Value → Checked β} {write : β → Value}
    (h : ∀ b, check (write b) = .ok b) (index : Nat) (bs : List β) :
    itemsFrom check index (bs.map write) = .ok bs := by
  induction bs generalizing index with
  | nil => rfl
  | cons b bs ih =>
    rw [List.map_cons, itemsFrom, h, ih]
    rfl

theorem list_map {β : Type} {check : Value → Checked β} {write : β → Value}
    (h : ∀ b, check (write b) = .ok b) (bs : List β) :
    list check (.list (bs.map write)) = .ok bs :=
  itemsFrom_map h 0 bs

end Schema

/-! ## Records -/

theorem Severity.listed_all (severity : Severity) :
    Schema.listed Severity.all Severity.label (.text severity.label) = .ok severity := by
  cases severity <;> rfl

theorem Status.listed_all (status : Status) :
    Schema.listed Status.all Status.label (.text status.label) = .ok status := by
  cases status <;> rfl

namespace Diagnostic

variable {α : Type} {entries : List (String × Value)} {field : Field} {v : Value} {a : α}

/-- A field counts under its usual spelling whenever it is given so. -/
theorem Field.spelling_joined (h : Value.lookup entries field.joined = some v) :
    field.spelling entries = field.joined := by
  simp [spelling, h]

theorem requiredField_ok {check : Value → Schema.Checked α}
    (hlookup : Value.lookup entries field.joined = some v) (hcheck : check v = .ok a) :
    requiredField entries field check = .ok a := by
  rw [requiredField, Field.spelling_joined hlookup]
  exact Schema.required_ok hlookup hcheck

theorem defaultedField_ok {fallback : α} {check : Value → Schema.Checked α}
    (hlookup : Value.lookup entries field.joined = some v) (hcheck : check v = .ok a) :
    defaultedField entries field fallback check = .ok a := by
  rw [defaultedField, Field.spelling_joined hlookup]
  exact Schema.defaulted_ok hlookup hcheck

theorem defaultedField_absent {fallback : α} {check : Value → Schema.Checked α}
    (hjoined : Value.lookup entries field.joined = none)
    (hspaced : Value.lookup entries field.spaced = none) :
    defaultedField entries field fallback check = .ok fallback := by
  simp [defaultedField, Field.spelling, Schema.defaulted, hjoined, hspaced]

/-- A diagnostic is read back from its object. -/
theorem ofValue_diagnosticValue (d : Diagnostic) : ofValue (Report.diagnosticValue d) = .ok d := by
  have htext : ∀ s, Schema.here Schema.text (.text s) = .ok s := fun s => rfl
  have hint : ∀ i, Schema.here Schema.int (.int i) = .ok i := fun i => rfl
  have hseverity := Schema.here_ok (Severity.listed_all d.severity)
  obtain ⟨entries, hentries⟩ : ∃ entries, Report.diagnosticValue d = .table entries := ⟨_, rfl⟩
  -- the replacement is the only field that may be missing
  have hfix : defaultedField entries ⟨"fixText", "fix_text"⟩ none
      (Schema.nullable (Schema.here Schema.text)) = .ok d.fixText := by
    cases hentries
    cases hd : d.fixText with
    | none => exact defaultedField_absent rfl rfl
    | some s => exact defaultedField_ok rfl rfl
  have hsubject : defaultedField entries ⟨"subject", "subject"⟩ "" (Schema.here Schema.text) =
      .ok d.subject := by
    cases hentries
    cases hd : d.fixText with
    | none => exact defaultedField_ok rfl (htext _)
    | some s => exact defaultedField_ok rfl (htext _)
  rw [hentries]
  simp only [ofValue]
  rw [hfix, hsubject]
  cases hentries
  rw [requiredField_ok rfl (htext d.ruleId), requiredField_ok rfl hseverity,
    requiredField_ok rfl (hint d.span.startLine), requiredField_ok rfl (hint d.span.startColumn),
    requiredField_ok rfl (hint d.span.endLine), requiredField_ok rfl (hint d.span.endColumn),
    requiredField_ok rfl (htext d.message)]
  rfl

end Diagnostic

/-- An analysis is read back from its object. -/
theorem Analysis.ofValue_analysisValue (a : Analysis) :
    ofValue (Report.analysisValue a) = .ok a := by
  have hpath : Schema.nullable (Schema.here Schema.text) ((a.path.map Value.text).getD .null) =
      .ok a.path := by
    cases a.path <;> rfl
  have hstatus := Schema.here_ok (Status.listed_all a.status)
  have hdiagnostics := Schema.list_map Diagnostic.ofValue_diagnosticValue a.diagnostics
  have htext : ∀ s, Schema.here Schema.text (.text s) = .ok s := fun s => rfl
  have herrors := Schema.list_map htext a.errors
  simp only [Report.analysisValue, ofValue]
  rw [Schema.defaulted_ok rfl hpath, Schema.defaulted_ok rfl hstatus,
    Schema.defaulted_ok rfl hdiagnostics, Schema.defaulted_ok rfl herrors]
  rfl

/-! ## Documents -/

theorem plain_list_map {α : Type} {write : α → Value} (h : ∀ a, Json.Plain (write a))
    (as : List α) : Json.Plain (.list (as.map write)) := by
  apply Json.Plain.list
  intro v hv
  obtain ⟨a, -, rfl⟩ := List.mem_map.mp hv
  exact h a

theorem plain_diagnosticValue (d : Diagnostic) : Json.Plain (Report.diagnosticValue d) := by
  apply Json.Plain.table
  intro e he
  simp only [List.mem_append, List.mem_cons, Option.mem_toList, Option.map_eq_some_iff,
    List.not_mem_nil, or_false] at he
  rcases he with (hfixed | ⟨s, -, rfl⟩) | rfl
  · rcases hfixed with rfl | rfl | rfl | rfl | rfl | rfl | rfl
    · exact .text _
    · exact .text _
    · exact .int _
    · exact .int _
    · exact .int _
    · exact .int _
    · exact .text _
  · exact .text s
  · exact .text _

theorem plain_analysisValue (a : Analysis) : Json.Plain (Report.analysisValue a) := by
  have hpath : Json.Plain ((a.path.map Value.text).getD .null) := by
    cases a.path with
    | none => exact .null
    | some s => exact .text s
  have hdiagnostics := plain_list_map plain_diagnosticValue a.diagnostics
  have herrors := plain_list_map Json.Plain.text a.errors
  apply Json.Plain.table
  simp only [List.forall_mem_cons]
  exact ⟨hpath, .text _, hdiagnostics, herrors, by simp⟩

theorem mapM_analysisValue (results : List Analysis) :
    (results.map Report.analysisValue).mapM Analysis.ofValue = .ok results := by
  induction results with
  | nil => rfl
  | cons a results ih =>
    rw [List.map_cons, List.mapM_cons, Analysis.ofValue_analysisValue, ih]
    rfl

/-- The document of a report is JSON in ASCII. It holds one item for each analysis, and checking
    the items gives back the analyses, in order. -/
theorem document_reads_back (results : List Analysis) :
    Json.Ascii (Report.document results).toList ∧
    ∃ items : List Value,
      Json.Spells (.list items) (Report.document results).toList ∧
      Json.parse (Report.document results) = some (.list items) ∧
      items.mapM Analysis.ofValue = .ok results := by
  have hplain := plain_list_map plain_analysisValue results
  refine ⟨Json.ascii_indented hplain, results.map Report.analysisValue, ?_, ?_, ?_⟩
  · exact Json.spells_indented hplain
  · exact Json.parse_indented hplain
  · exact mapM_analysisValue results

end Framewise
