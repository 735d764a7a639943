import Framewise.Command.Check
import Framewise.Proofs.Deadline
import Mathlib.Data.List.Forall2

/-! # Exit codes and reports

  The exit code of a run is computed from the statuses of the analyses, the lines
  of a report from their diagnostics and errors. The two fit together because of
  what every analysis has in common: a complete one has no errors, any other one
  has no diagnostics and exactly one error. An analysis that is not complete and
  has no error would change the exit code and leave no trace in the report.

  Main definitions:
  - `Analysis.Settled`: what every analysis has in common.
  - `Engine.Returns`: the ways to an analysis.
  - `Report.entries`: what a report has a line for.

  Main result: `exitCode_agrees_with_lines`.
-/

namespace Framewise

/-! ## Analyses -/

/-- A complete analysis has no errors. Any other one has no diagnostics and exactly one error. -/
structure Analysis.Settled (a : Analysis) : Prop where
  complete : a.status = .complete → a.errors = []
  unfinished : a.status ≠ .complete → a.diagnostics = [] ∧ ∃ reason, a.errors = [reason]

/-- The analyses that an engine returns: of a tree, of a script, of a tree from outside, of a
    file, and of a file that took some time. -/
inductive Engine.Returns (e : Engine) (a : Analysis) : Prop where
  | tree (root : Node) (source : Option SourceText) (path : Option String)
      (suppressed : Option Suppression) (readings : Nat)
      (h : (e.run root source path suppressed readings).result = .ok a)
  | script (code : String) (path : Option String) (readings : Nat)
      (h : (e.runScript code path readings).result = .ok a)
  | data (data : Value) (source path : Option String) (suppressed : Option Suppression)
      (readings : Nat) (h : (e.runTree data source path suppressed readings).result = .ok a)
  | file (t : FileTree) (path : Path) (readings : Nat)
      (h : (e.runFile t path readings).result = .ok a)
  | timed (t : FileTree) (path : Path) (readings : Nat) (elapsed : Number)
      (h : (e.timed elapsed path (e.runFile t path readings)).result = .ok a)

namespace Analysis.Settled

variable {a : Analysis}

theorem of_complete {path : Option String} {ds : List Diagnostic} :
    Settled { path := path, diagnostics := ds } where
  complete _ := rfl
  unfinished h := absurd rfl h

theorem of_unfinished {path : Option String} {status : Status} (hstatus : status ≠ .complete)
    (reason : String) : Settled { path := path, status := status, errors := [reason] } where
  complete h := absurd h hstatus
  unfinished _ := ⟨rfl, reason, rfl⟩

theorem of_expired (e : Engine) (path : Option String) : (e.expired path).1.Settled :=
  of_unfinished (by decide) _

theorem of_failedAnalysis {path : Option String} {reason : String} {readings : Nat}
    (h : (failedAnalysis path reason readings).result = .ok a) : a.Settled := by
  cases h
  exact of_unfinished (by decide) reason

theorem of_unreadable {path : Path} {error : ReadError} {readings : Nat}
    (h : (unreadable path error readings).result = .ok a) : a.Settled := by
  cases h
  exact of_unfinished (by decide) error.message

/-- A walk that ends gives a complete analysis, and one that the deadline cuts short an incomplete
    one. A walk that is cut short in another way gives none. -/
theorem of_run {e : Engine} {root : Node} {source : Option SourceText} {path : Option String}
    {suppressed : Option Suppression} {readings : Nat}
    (h : (e.run root source path suppressed readings).result = .ok a) : a.Settled := by
  obtain ⟨walk, -, rfl⟩ | rfl := Engine.of_run_ok h
  · exact of_complete
  · exact of_expired e path

theorem of_runTree {e : Engine} {data : Value} {source path : Option String}
    {suppressed : Option Suppression} {readings : Nat}
    (h : (e.runTree data source path suppressed readings).result = .ok a) : a.Settled := by
  unfold Engine.runTree at h
  cases hread : Node.ofValue data with
  | ok root =>
    rw [hread] at h
    exact of_run (Engine.of_runBounded_ok h)
  | error problem =>
    rw [hread] at h
    exact of_failedAnalysis h

theorem of_runScript {e : Engine} {code : String} {path : Option String} {readings : Nat}
    (h : (e.runScript code path readings).result = .ok a) : a.Settled := by
  unfold Engine.runScript at h
  cases hparse : Script.parse code with
  | none =>
    rw [hparse] at h
    exact of_failedAnalysis h
  | some script =>
    rw [hparse] at h
    dsimp only at h
    cases hroot : script.node with
    | none =>
      rw [hroot] at h
      cases h
    | some root =>
      rw [hroot] at h
      exact of_run (Engine.of_runBounded_ok h)

theorem of_runFile {e : Engine} {t : FileTree} {path : Path} {readings : Nat}
    (h : (e.runFile t path readings).result = .ok a) : a.Settled := by
  unfold Engine.runFile at h
  cases hread : t.readText path with
  | ok code =>
    rw [hread] at h
    exact of_runScript h
  | error error =>
    rw [hread] at h
    exact of_unreadable h

/-- A measured time replaces an analysis by an incomplete one, or leaves it as it is. -/
theorem of_timed {e : Engine} {elapsed : Number} {path : Path} {o : Outcome}
    (ho : ∀ a, o.result = .ok a → a.Settled) (h : (e.timed elapsed path o).result = .ok a) :
    a.Settled := by
  unfold Engine.timed at h
  split at h
  · split at h
    · cases h
      exact of_expired e (some path.display)
    · exact ho a h
  · exact ho a h

theorem of_returns {e : Engine} (h : e.Returns a) : a.Settled := by
  cases h with
  | tree root source path suppressed readings h => exact of_run h
  | script code path readings h => exact of_runScript h
  | data data source path suppressed readings h => exact of_runTree h
  | file t path readings h => exact of_runFile h
  | timed t path readings elapsed h => exact of_timed (fun _ => of_runFile) h

end Analysis.Settled

/-! ## Lines of a report -/

namespace Report

/-- What a report has a line for. -/
inductive Entry where
  /-- A diagnostic of an analysis. -/
  | diagnostic (a : Analysis) (d : Diagnostic)
  /-- An analysis that is not complete. -/
  | unfinished (a : Analysis)

/-- What a report has lines for, analysis by analysis. -/
def entries (results : List Analysis) : List Entry :=
  results.flatMap fun a =>
    a.diagnostics.map (.diagnostic a) ++ if a.status = .complete then [] else [.unfinished a]

/-- The line for an entry; an analysis that is not complete is shown by its error. -/
def Entry.ShownBy : Entry → String → Prop
  | .diagnostic a d, line => line = diagnosticLine (pathOf a) d
  | .unfinished a, line => ∃ reason, a.errors = [reason] ∧
      line = errorLine (pathOf a) a.status reason

theorem analysisLines_shown {a : Analysis} (h : a.Settled) :
    List.Forall₂ Entry.ShownBy
      (a.diagnostics.map (.diagnostic a) ++ if a.status = .complete then [] else [.unfinished a])
      (analysisLines a) := by
  have hdiagnostics : List.Forall₂ Entry.ShownBy (a.diagnostics.map (.diagnostic a))
      (a.diagnostics.map (diagnosticLine (pathOf a))) := by
    rw [List.forall₂_map_left_iff, List.forall₂_map_right_iff, List.forall₂_same]
    intro d _
    rfl
  unfold analysisLines Analysis.isComplete
  refine List.rel_append hdiagnostics ?_
  by_cases hstatus : a.status = .complete
  · simp [hstatus]
  · -- the one error of the analysis makes the one line
    obtain ⟨-, reason, hreason⟩ := h.unfinished hstatus
    simp [hstatus, hreason, Entry.ShownBy]

/-- One line per diagnostic and one per analysis that is not complete, in their order. -/
theorem lines_shown {results : List Analysis} (h : ∀ a ∈ results, a.Settled) :
    List.Forall₂ Entry.ShownBy (entries results) (lines results) := by
  induction results with
  | nil => exact .nil
  | cons a results ih =>
    obtain ⟨ha, hresults⟩ := List.forall_mem_cons.mp h
    exact List.rel_append (analysisLines_shown ha) (ih hresults)

/-- Nothing is left to show exactly if every analysis is complete and found nothing. -/
theorem lines_eq_nil_iff {results : List Analysis} (h : ∀ a ∈ results, a.Settled) :
    lines results = [] ↔ ∀ a ∈ results, a.status = .complete ∧ a.diagnostics = [] := by
  have hlength : (entries results).length = (lines results).length := (lines_shown h).length_eq
  have hentries : lines results = [] ↔ entries results = [] := by
    rw [← List.length_eq_zero_iff, ← hlength, List.length_eq_zero_iff]
  rw [hentries, entries, List.flatMap_eq_nil_iff]
  refine forall₂_congr fun a _ => ?_
  by_cases hstatus : a.status = .complete <;> simp [hstatus]

/-! ## Exit codes -/

theorem exitCode_le_two (results : List Analysis) : exitCode results ≤ 2 := by
  unfold exitCode
  split
  · omega
  · split <;> omega

theorem exitCode_eq_two_iff {results : List Analysis} :
    exitCode results = 2 ↔ ∃ a ∈ results, a.status ≠ .complete := by
  have hany : (results.any fun a => !a.isComplete) = true ↔
      ∃ a ∈ results, a.status ≠ .complete := by simp [Analysis.isComplete]
  rw [← hany]
  unfold exitCode
  cases results.any fun a => !a.isComplete with
  | true => simp
  | false =>
    cases results.any Analysis.hasFindings <;> simp

theorem exitCode_eq_zero_iff {results : List Analysis} :
    exitCode results = 0 ↔ ∀ a ∈ results, a.status = .complete ∧ a.diagnostics = [] := by
  have hall : (∀ a ∈ results, a.status = .complete ∧ a.diagnostics = []) ↔
      (results.any fun a => !a.isComplete) = false ∧ results.any Analysis.hasFindings = false := by
    simp [Analysis.isComplete, Analysis.hasFindings, forall_and]
  rw [hall]
  unfold exitCode
  cases results.any fun a => !a.isComplete with
  | true => simp
  | false =>
    cases results.any Analysis.hasFindings <;> simp

/-- The exit code of a report in two parts is the graver of theirs. -/
theorem exitCode_append (results more : List Analysis) :
    exitCode (results ++ more) = max (exitCode results) (exitCode more) := by
  unfold exitCode
  rw [List.any_append, List.any_append]
  cases results.any fun a => !a.isComplete <;> cases more.any fun a => !a.isComplete <;>
    cases results.any Analysis.hasFindings <;> cases more.any Analysis.hasFindings <;> rfl

end Report

/-! ## Agreement -/

open Report in
/-- Every analysis that an engine returns is settled. For settled analyses, the exit code is 0
    exactly if the report has no lines, 2 exactly if some analysis is not complete, and 1 in all
    other cases. The report has one line per diagnostic and one per analysis that is not complete,
    in the order of the analyses. The exit code of two reports taken together is the graver of
    theirs. -/
theorem exitCode_agrees_with_lines :
    (∀ (e : Engine) (a : Analysis), e.Returns a → a.Settled) ∧
    ∀ results : List Analysis, (∀ a ∈ results, a.Settled) →
      (exitCode results = 0 ↔ lines results = []) ∧
      (exitCode results = 2 ↔ ∃ a ∈ results, a.status ≠ .complete) ∧
      (exitCode results = 1 ↔ lines results ≠ [] ∧ ∀ a ∈ results, a.status = .complete) ∧
      List.Forall₂ Entry.ShownBy (entries results) (lines results) ∧
      ∀ more, exitCode (results ++ more) = max (exitCode results) (exitCode more) := by
  refine ⟨fun e a => .of_returns, fun results hsettled => ?_⟩
  have hzero : exitCode results = 0 ↔ lines results = [] := by
    rw [exitCode_eq_zero_iff, lines_eq_nil_iff hsettled]
  have hone : exitCode results = 1 ↔
      lines results ≠ [] ∧ ∀ a ∈ results, a.status = .complete := by
    have hle := exitCode_le_two results
    have htwo : (∀ a ∈ results, a.status = .complete) ↔ exitCode results ≠ 2 := by
      simp [exitCode_eq_two_iff]
    rw [htwo, Ne, ← hzero]
    omega
  exact ⟨hzero, exitCode_eq_two_iff, hone, lines_shown hsettled, exitCode_append results⟩

/-- A script with a finding makes the exit code 1, and together with one that cannot be read it
    makes it 2. The report of both has two lines. -/
theorem finding_and_failure_reported :
    ∃ found failed, ({} : Engine).Returns found ∧ ({} : Engine).Returns failed ∧
      Report.exitCode [found] = 1 ∧ Report.lines [found] ≠ [] ∧
      Report.exitCode [found, failed] = 2 ∧ (Report.lines [found, failed]).length = 2 := by
  have hfound : ((({} : Engine).runScript "df.price\n" (some "a.py") 0).result.toOption.map
      fun a => (a.status, a.diagnostics.length)) = some (.complete, 1) := by
    decide +kernel
  have hfailed : ((({} : Engine).runScript "x =\n" (some "b.py") 0).result.toOption.map
      fun a => a.status) = some .failed := by
    decide +kernel
  cases hrun : (({} : Engine).runScript "df.price\n" (some "a.py") 0).result with
  | error e => simp [hrun, Except.toOption] at hfound
  | ok found =>
    cases hrun' : (({} : Engine).runScript "x =\n" (some "b.py") 0).result with
    | error e => simp [hrun', Except.toOption] at hfailed
    | ok failed =>
      simp only [hrun, Except.toOption, Option.map_some, Option.some.injEq, Prod.mk.injEq]
        at hfound
      simp only [hrun', Except.toOption, Option.map_some, Option.some.injEq] at hfailed
      obtain ⟨hcomplete, hlength⟩ := hfound
      have hreturns : ({} : Engine).Returns found := .script _ _ _ hrun
      have hreturns' : ({} : Engine).Returns failed := .script _ _ _ hrun'
      obtain ⟨hsettled, hreport⟩ := exitCode_agrees_with_lines
      have hfirst : Report.exitCode [found] = 1 := by
        have hsome : found.diagnostics ≠ [] := by
          intro hnil
          simp [hnil] at hlength
        simp [Report.exitCode, Analysis.isComplete, Analysis.hasFindings, hcomplete, hsome]
      obtain ⟨-, -, hone, -⟩ := hreport [found] (by simpa using hsettled _ _ hreturns)
      obtain ⟨-, htwo, -, hshown, -⟩ := hreport [found, failed] (by
        simpa using ⟨hsettled _ _ hreturns, hsettled _ _ hreturns'⟩)
      refine ⟨found, failed, hreturns, hreturns', hfirst, (hone.mp hfirst).1, ?_, ?_⟩
      · exact htwo.mpr ⟨failed, by simp, by simp [hfailed]⟩
      · have hempty : failed.diagnostics = [] :=
          ((hsettled _ _ hreturns').unfinished (by simp [hfailed])).1
        rw [← hshown.length_eq]
        simp [Report.entries, hcomplete, hfailed, hlength, hempty]

end Framewise
