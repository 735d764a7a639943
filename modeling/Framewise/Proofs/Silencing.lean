import Framewise.Engine.Run
import Framewise.Proofs.ReportContents
import Framewise.Proofs.Stores
import Framewise.Suppression

/-! # Silencing rules

  Rules can be silenced in two ways: settings turn a rule off, and a comment
  suppresses it on a line. Both drop diagnostics before the first of each identity
  is picked and before the report is sorted. Whether a diagnostic is dropped
  depends on its identity alone, so the same report is made by dropping from the
  finished report: silencing more never brings up, changes or moves a diagnostic.

  Main definitions:
  - `Policy.silencing`, `Suppression.either`: more rules off, more lines suppressed.
  - `Diagnostic.silenced`: what is dropped on account of the additions.

  Main results:
  - `LineMarks.ofComments_suppresses`: what the comments of a script suppress.
  - `silencing_only_filters`.
-/

namespace Framewise

/-! ## Marks -/

namespace LineMarks

variable {marks : LineMarks} {line line' : Int} {codes : List String} {code : String}

theorem codesAt_put :
    (marks.put line codes).codesAt line' = if line' = line then codes else marks.codesAt line' := by
  unfold codesAt put
  rw [List.find?_append]
  by_cases h : line' = line
  · -- no entry of the line is left but the new one
    have hnone : (marks.byLine.filter fun entry => entry.1 != line).find?
        (fun entry => entry.1 = line') = none := by
      rw [List.find?_eq_none]
      intro entry hentry
      simpa [h] using (List.mem_filter.mp hentry).2
    rw [hnone]
    simp [h]
  · have hsame : (marks.byLine.filter fun entry => entry.1 != line).find?
        (fun entry => entry.1 = line') = marks.byLine.find? fun entry => entry.1 = line' := by
      rw [List.find?_filter]
      congr 1
      funext entry
      by_cases hentry : entry.1 = line' <;> simp [hentry, h]
    have hother : ¬ line = line' := fun heq => h heq.symm
    rw [hsame]
    simp [h, hother]

theorem mem_codesAt_insert :
    code ∈ (marks.insert line codes).codesAt line' ↔
      code ∈ marks.codesAt line' ∨ line = line' ∧ code ∈ codes := by
  unfold insert
  rw [codesAt_put]
  by_cases h : line' = line
  · subst h
    simp [Text.sortUnique, mem_eraseReps]
  · have hother : ¬ line = line' := fun heq => h heq.symm
    simp [h, hother]

/-- The marks of one comment more. -/
def addComment (marks : LineMarks) (comment : Int × String) : LineMarks :=
  match Marker.codesOf? comment.2 with
  | some codes => marks.insert comment.1 codes
  | none => marks

theorem mem_codesAt_addComment {comment : Int × String} :
    code ∈ (marks.addComment comment).codesAt line ↔
      code ∈ marks.codesAt line ∨
        comment.1 = line ∧ ∃ codes, Marker.codesOf? comment.2 = some codes ∧ code ∈ codes := by
  unfold addComment
  cases Marker.codesOf? comment.2 with
  | none => simp
  | some codes => simp [mem_codesAt_insert]

theorem mem_codesAt_foldl {comments : List (Int × String)} :
    code ∈ (comments.foldl addComment marks).codesAt line ↔
      code ∈ marks.codesAt line ∨ ∃ comment ∈ comments, comment.1 = line ∧
        ∃ codes, Marker.codesOf? comment.2 = some codes ∧ code ∈ codes := by
  induction comments generalizing marks with
  | nil => simp
  | cons comment rest ih =>
    rw [List.foldl_cons, ih, mem_codesAt_addComment]
    simp only [List.exists_mem_cons_iff, or_assoc]

theorem mem_codesAt_ofComments {comments : List (Int × String)} :
    code ∈ (ofComments comments).codesAt line ↔ ∃ comment ∈ comments, comment.1 = line ∧
      ∃ codes, Marker.codesOf? comment.2 = some codes ∧ code ∈ codes := by
  have hfold : ofComments comments = comments.foldl addComment {} := rfl
  have hnone : code ∉ ({} : LineMarks).codesAt line := List.not_mem_nil
  rw [hfold, mem_codesAt_foldl]
  simp only [hnone, false_or]

/-- A line suppresses a rule if one of the comments on it names the rule, or every rule. -/
theorem ofComments_suppresses {comments : List (Int × String)} {id : String} :
    (ofComments comments).suppresses line id = true ↔ ∃ comment ∈ comments, comment.1 = line ∧
      ∃ codes, Marker.codesOf? comment.2 = some codes ∧ (everyRule ∈ codes ∨ id ∈ codes) := by
  unfold suppresses
  rw [Bool.or_eq_true, List.contains_iff_mem, List.contains_iff_mem, mem_codesAt_ofComments,
    mem_codesAt_ofComments]
  constructor
  · rintro (⟨comment, hcomment, hline, codes, hcodes, h⟩ |
      ⟨comment, hcomment, hline, codes, hcodes, h⟩)
    · exact ⟨comment, hcomment, hline, codes, hcodes, .inl h⟩
    · exact ⟨comment, hcomment, hline, codes, hcodes, .inr h⟩
  · rintro ⟨comment, hcomment, hline, codes, hcodes, h | h⟩
    · exact .inl ⟨comment, hcomment, hline, codes, hcodes, h⟩
    · exact .inr ⟨comment, hcomment, hline, codes, hcodes, h⟩

end LineMarks

/-! ## Silencing more -/

/-- A policy that turns further rules off. -/
def Policy.silencing (policy : Policy) (off : List String) : Policy :=
  { policy with disabled := policy.disabled ++ off }

/-- What one of two suppressions suppresses; the first may be absent. -/
def Suppression.either (suppressed : Option Suppression) (more : Suppression) : Suppression :=
  fun line id => ((suppressed.map fun suppresses => suppresses line id).getD false) || more line id

/-- A line suppresses one rule, and nothing else is suppressed. -/
def Suppression.mark (line : Int) (id : String) : Suppression :=
  fun line' id' => line' = line && id' = id

namespace Diagnostic

/-- What is dropped because further rules are off or suppressed: diagnostics of a rule that is
    off, crashes of one, and diagnostics that start on a line that suppresses their rule. Without
    a crash id nothing is a crash. -/
def silenced (off : List String) (more : Suppression) (crashId : String) (d : Diagnostic) : Bool :=
  off.contains d.ruleId || (crashId != "" && d.ruleId = crashId && off.contains d.subject) ||
    more d.span.startLine d.ruleId

section Reports

variable (policy : Policy) (off : List String) (suppressed : Option Suppression)
variable (more : Suppression) (crashId : String) (raw : List Diagnostic)

theorem not_silenced_iff (d : Diagnostic) :
    d.silenced off more crashId = false ↔ d.ruleId ∉ off ∧
      (crashId ≠ "" → d.ruleId = crashId → d.subject ∉ off) ∧
      more d.span.startLine d.ruleId = false := by
  unfold silenced
  simp only [Bool.or_eq_false_iff, Bool.and_eq_false_imp, Bool.and_eq_true, bne_iff_ne,
    decide_eq_true_eq, List.contains_eq_mem, decide_eq_false_iff_not, and_assoc, and_imp]

/-- Silencing more keeps what was kept and is not silenced. -/
theorem kept_silencing_iff (d : Diagnostic) :
    d.Kept (policy.silencing off) (some (.either suppressed more)) crashId ↔
      d.silenced off more crashId = false ∧ d.Kept policy suppressed crashId := by
  have hheard : Suppression.either suppressed more d.span.startLine d.ruleId = false ↔
      (∀ suppresses, suppressed = some suppresses →
        suppresses d.span.startLine d.ruleId = false) ∧
      more d.span.startLine d.ruleId = false := by
    cases suppressed <;> simp [Suppression.either]
  rw [not_silenced_iff]
  constructor
  · rintro ⟨henabled, hcrashed, hquiet⟩
    obtain ⟨hon, hoff⟩ := not_or.mp (mt List.mem_append.mpr henabled)
    obtain ⟨hold, hmore⟩ := hheard.mp (hquiet _ rfl)
    have hsubject : crashId ≠ "" → d.ruleId = crashId →
        d.subject ∉ policy.disabled ∧ d.subject ∉ off := by
      intro hid hrule
      exact not_or.mp (mt List.mem_append.mpr (hcrashed hid hrule))
    exact ⟨⟨hoff, fun hid hrule => (hsubject hid hrule).2, hmore⟩,
      hon, fun hid hrule => (hsubject hid hrule).1, hold⟩
  · rintro ⟨⟨hoff, hsubject, hmore⟩, hon, hcrashed, hold⟩
    refine ⟨?_, ?_, ?_⟩
    · exact mt List.mem_append.mp (not_or.mpr ⟨hon, hoff⟩)
    · intro hid hrule
      exact mt List.mem_append.mp (not_or.mpr ⟨hcrashed hid hrule, hsubject hid hrule⟩)
    · rintro suppresses ⟨⟩
      exact hheard.mpr ⟨hold, hmore⟩

theorem isKept_silencing (d : Diagnostic) :
    d.isKept (policy.silencing off) (some (.either suppressed more)) crashId =
      (d.isKept policy suppressed crashId && !d.silenced off more crashId) := by
  rw [Bool.eq_iff_iff, Bool.and_eq_true, isKept_iff, isKept_iff, kept_silencing_iff,
    Bool.not_eq_true', and_comm]

theorem silenced_congr {d d' : Diagnostic} (h : d.identity = d'.identity) :
    d.silenced off more crashId = d'.silenced off more crashId := by
  obtain ⟨hrule, hspan, hsubject⟩ := Identity.mk.inj h
  simp only [silenced, hrule, hspan, hsubject]

/-- A report with more silenced is made of the diagnostics that are not. -/
theorem prepare_silencing :
    prepare (policy.silencing off) (some (.either suppressed more)) crashId raw =
      prepare policy suppressed crashId (raw.filter fun d => !d.silenced off more crashId) := by
  have hkept : isKept (policy.silencing off) (some (.either suppressed more)) crashId =
      fun d => d.isKept policy suppressed crashId && !d.silenced off more crashId :=
    funext (isKept_silencing policy off suppressed more crashId)
  unfold prepare
  rw [hkept, List.filter_filter]
  rfl

theorem resolve_silencing :
    resolve (policy.silencing off) (some (.either suppressed more)) crashId raw =
      (resolve policy suppressed crashId raw).filter fun d => !d.silenced off more crashId := by
  rw [resolve_eq, prepare_silencing, ← resolve_eq]
  refine resolve_eq_filter ?_ (fun _ => rfl) (fun _ _ => rfl) (fun _ _ => rfl)
  intro d d' h
  rw [silenced_congr off more crashId h]

end Reports

end Diagnostic

/-! ## Comments that silence a rule -/

/-- A comment for one rule, wherever it stands among the comments of a script, suppresses that
    rule on its line in addition to what the others suppress. -/
theorem LineMarks.suppresses_with_comment {before after : List (Int × String)} {line : Int}
    {comment id : String} (hcodes : Marker.codesOf? comment = some [id]) (hid : id ≠ everyRule) :
    (LineMarks.ofComments (before ++ (line, comment) :: after)).suppresses =
      .either (some (LineMarks.ofComments (before ++ after)).suppresses) (.mark line id) := by
  funext line' id'
  have heither : Suppression.either (some (LineMarks.ofComments (before ++ after)).suppresses)
      (.mark line id) line' id' = true ↔
      (LineMarks.ofComments (before ++ after)).suppresses line' id' = true ∨
        line' = line ∧ id' = id := by
    simp [Suppression.either, Suppression.mark]
  rw [Bool.eq_iff_iff, heither, LineMarks.ofComments_suppresses, LineMarks.ofComments_suppresses]
  have hnew : (∃ codes, Marker.codesOf? comment = some codes ∧
      (everyRule ∈ codes ∨ id' ∈ codes)) ↔ id' = id := by
    simp [hcodes, Ne.symm hid]
  simp only [List.perm_middle.mem_iff, List.exists_mem_cons_iff, hnew]
  rw [or_comm, eq_comm]

/-- A diagnostic that a single mark silences. -/
theorem Diagnostic.silenced_mark (line : Int) (id crashId : String) (d : Diagnostic) :
    d.silenced [] (.mark line id) crashId = (d.span.startLine = line && d.ruleId = id) := by
  simp [silenced, Suppression.mark]

/-- Runs that differ in what they suppress walk the tree alike. -/
theorem Engine.run_suppressing (e : Engine) (root : Node) (source : Option SourceText)
    (path : Option String) (suppresses more : Suppression) (readings : Nat) :
    let plain := e.run root source path (some suppresses) readings
    e.run root source path (some (.either (some suppresses) more)) readings =
      { plain with
        result := plain.result.map fun a =>
          { a with diagnostics := a.diagnostics.filter fun d =>
              !d.silenced [] more crashRuleId } } := by
  have hpolicy : e.policy = e.policy.silencing [] := by
    unfold Policy.silencing
    rw [List.append_nil]
  have hreport : ∀ raw, Diagnostic.resolve e.policy (some (.either (some suppresses) more))
      crashRuleId raw = (Diagnostic.resolve e.policy (some suppresses) crashRuleId raw).filter
        fun d => !d.silenced [] more crashRuleId := by
    intro raw
    have h := Diagnostic.resolve_silencing e.policy [] (some suppresses) more crashRuleId raw
    rwa [← hpolicy] at h
  unfold run
  dsimp only
  cases visit (e.survey source readings).1 none root
      { readings := (e.survey source readings).2 } with
  | ok u walk =>
    dsimp only
    rw [Option.orElse_some, Option.orElse_some, hreport]
    rfl
  | error halt walk => cases halt <;> rfl

/-- Turning off more rules and suppressing more lines only deletes: the report is the one made
    without the additions, less the diagnostics of the rules that are off, the crashes of these
    rules, and those that start on a line that suppresses their rule. So a comment for one rule,
    in any run, removes the diagnostics of that rule that start on its line, and nothing else
    changes. -/
theorem silencing_only_filters :
    (∀ (policy : Policy) (off : List String) (suppressed : Option Suppression)
        (more : Suppression) (crashId : String) (raw : List Diagnostic),
      Diagnostic.resolve (policy.silencing off) (some (.either suppressed more)) crashId raw =
        (Diagnostic.resolve policy suppressed crashId raw).filter fun d =>
          !(off.contains d.ruleId ||
            (crashId != "" && d.ruleId = crashId && off.contains d.subject) ||
            more d.span.startLine d.ruleId)) ∧
    ∀ (e : Engine) (root : Node) (source : Option SourceText) (path : Option String)
        (readings : Nat) (before after : List (Int × String)) (line : Int)
        (comment id : String),
      Marker.codesOf? comment = some [id] → id ≠ everyRule →
      let plain := e.run root source path
        (some (LineMarks.ofComments (before ++ after)).suppresses) readings
      e.run root source path
          (some (LineMarks.ofComments (before ++ (line, comment) :: after)).suppresses) readings =
        { plain with
          result := plain.result.map fun a =>
            { a with diagnostics := a.diagnostics.filter fun d =>
                !(d.span.startLine = line && d.ruleId = id) } } := by
  refine ⟨Diagnostic.resolve_silencing, ?_⟩
  intro e root source path readings before after line comment id hcodes hid plain
  rw [LineMarks.suppresses_with_comment hcodes hid, Engine.run_suppressing]
  simp only [Diagnostic.silenced_mark]
  rfl

/-- An engine with one rule, which reports every name. -/
def nameReporter : Engine :=
  { rules := [{
      id := "N001"
      title := "names"
      severity := .warning
      matcher := fun site _ =>
        .ok (if site.node.kind = .name then [{ message := "a name" }] else []) }] }

/-- Uses of `a` and `b` on two lines. -/
def twoLines : Node :=
  { kind := .module, span := ⟨1, 1, 3, 1⟩, children :=
    [{ kind := .name, span := ⟨1, 1, 1, 2⟩, name := some "a" },
      { kind := .name, span := ⟨2, 1, 2, 2⟩, name := some "b" }] }

/-- The run over both lines with the given comments. -/
def commentedRun (comments : List (Int × String)) : Outcome :=
  nameReporter.run twoLines none none (some (LineMarks.ofComments comments).suppresses) 0

theorem comment_silences_second_line :
    Marker.codesOf? "# noqa: n001" = some ["N001"] ∧ "N001" ≠ everyRule ∧
      commentedRun [(1, "# a first line"), (2, "# noqa: n001")] =
        { commentedRun [(1, "# a first line")] with
          result := (commentedRun [(1, "# a first line")]).result.map fun a =>
            { a with diagnostics := a.diagnostics.filter fun d =>
                !(d.span.startLine = 2 && d.ruleId = "N001") } } := by
  have hcodes : Marker.codesOf? "# noqa: n001" = some ["N001"] := by decide +kernel
  have hid : "N001" ≠ everyRule := by decide
  refine ⟨hcodes, hid, ?_⟩
  exact silencing_only_filters.2 nameReporter twoLines none none 0 [(1, "# a first line")] [] 2
    "# noqa: n001" "N001" hcodes hid

end Framewise
