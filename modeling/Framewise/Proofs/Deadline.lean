import Framewise.Engine.Run
import Framewise.Proofs.Itinerary
import Mathlib.Data.Nat.Find

/-! # Deadlines

  A deadline cuts a run short or does nothing. The rules do not see the clock, and
  the clock does not see the rules: it is read once at the start and once at every
  stop, before the rules of that stop are applied. So a run with a deadline goes
  along with the run without one up to the first reading that is too late, and
  what it has found by then is thrown away.

  Main definitions:
  - `IgnoresClock`: a step that does the same whatever the number of readings.
  - `Engine.untimed`: an engine without its deadline.
  - `Engine.Late`: a reading that comes after the deadline.

  Main result: `deadline_only_cuts_short`.
-/

namespace Framewise

/-! ## Steps that do not see the clock -/

/-- A result with another number of readings. -/
def atReading {α : Type} (readings : Nat) :
    EStateM.Result Halt Walk α → EStateM.Result Halt Walk α
  | .ok a walk => .ok a { walk with readings := readings }
  | .error halt walk => .error halt { walk with readings := readings }

/-- A step that does the same whatever the number of readings, and makes none itself. -/
def IgnoresClock {α : Type} (step : Visit α) : Prop :=
  ∀ (walk : Walk) (readings : Nat),
    step { walk with readings := readings } = atReading readings (step walk)

namespace IgnoresClock

theorem pure {α : Type} (a : α) : IgnoresClock (Pure.pure a) := fun _ _ => rfl

theorem bind {α β : Type} {step : Visit α} {next : α → Visit β} (h : IgnoresClock step)
    (hnext : ∀ a, IgnoresClock (next a)) : IgnoresClock (step >>= next) := by
  intro walk readings
  rw [bind_apply, bind_apply, h walk readings]
  cases step walk with
  | ok a after => exact hnext a after readings
  | error halt after => rfl

theorem reportFindings (rule : Rule) (n : Node) (found : List Finding) :
    IgnoresClock (reportFindings rule n found) := by
  induction found with
  | nil => exact pure ()
  | cons finding rest ih =>
    intro walk readings
    rw [reportFindings_cons, reportFindings_cons]
    cases finding.subject with
    | none => rfl
    | some subject => exact ih { walk with raw := _ :: walk.raw } readings

theorem applyRule (survey : Survey) (site : Site) (rule : Rule) :
    IgnoresClock (applyRule survey site rule) := by
  intro walk readings
  rw [applyRule_apply, applyRule_apply]
  dsimp only
  cases rule.outcome site { tracker := walk.tracker, source := survey.source } with
  | ok found => exact reportFindings rule site.node found walk readings
  | error crash => rfl

theorem applyRules (survey : Survey) (site : Site) (rules : List Rule) :
    IgnoresClock (applyRules survey site rules) := by
  induction rules with
  | nil => exact pure ()
  | cons rule rest ih => exact bind (applyRule survey site rule) fun _ => ih

end IgnoresClock

/-! ## Steps that no deadline stops -/

/-- A step that is never stopped by a deadline. -/
def NeverLate {α : Type} (step : Visit α) : Prop :=
  ∀ walk cut : Walk, step walk ≠ .error .deadline cut

namespace NeverLate

theorem pure {α : Type} (a : α) : NeverLate (Pure.pure a) := by
  intro walk cut h
  cases h

theorem bind {α β : Type} {step : Visit α} {next : α → Visit β} (h : NeverLate step)
    (hnext : ∀ a, NeverLate (next a)) : NeverLate (step >>= next) := by
  intro walk cut hcut
  rw [bind_apply] at hcut
  cases hstep : step walk with
  | ok a after => rw [hstep] at hcut; exact hnext a after cut hcut
  | error halt after =>
    rw [hstep] at hcut
    injection hcut with hhalt
    exact h walk after (hhalt ▸ hstep)

theorem track (f : Tracker → Tracker) : NeverLate (track f) := by
  intro walk cut h
  rw [track_apply] at h
  cases h

theorem reportFindings (rule : Rule) (n : Node) (found : List Finding) :
    NeverLate (reportFindings rule n found) := by
  induction found with
  | nil => exact pure ()
  | cons finding rest ih =>
    intro walk cut h
    rw [reportFindings_cons] at h
    cases hsubject : finding.subject with
    | none => rw [hsubject] at h; cases h
    | some subject => rw [hsubject] at h; exact ih _ cut h

theorem applyRule (survey : Survey) (site : Site) (rule : Rule) :
    NeverLate (applyRule survey site rule) := by
  intro walk cut h
  rw [applyRule_apply] at h
  cases hfound : rule.outcome site { tracker := walk.tracker, source := survey.source } with
  | ok found => rw [hfound] at h; exact reportFindings rule site.node found walk cut h
  | error crash => rw [hfound] at h; cases h

theorem applyRules (survey : Survey) (site : Site) (rules : List Rule) :
    NeverLate (applyRules survey site rules) := by
  induction rules with
  | nil => exact pure ()
  | cons rule rest ih => exact bind (applyRule survey site rule) fun _ => ih

theorem checkDeadline {survey : Survey} (h : survey.limit = none) :
    NeverLate (checkDeadline survey) := by
  intro walk cut hcut
  rw [checkDeadline_apply, h] at hcut
  cases hcut

theorem attendAll {survey : Survey} (h : survey.limit = none) (stops : List Stop) :
    NeverLate (attendAll survey stops) := by
  induction stops with
  | nil => exact pure ()
  | cons stop rest ih =>
    have hattend : NeverLate (attend survey stop) :=
      bind (track _) fun _ => bind (checkDeadline h) fun _ => applyRules survey stop.site _
    exact bind hattend fun _ => ih

/-- Without a deadline a visit stops at a fault or at a finding without a subject, if at all. -/
theorem visit {survey : Survey} (h : survey.limit = none) (parent : Option Node) (n : Node) :
    NeverLate (visit survey parent n) := by
  intro walk cut hcut
  have hfollows := (visit_follows survey [] parent n).follows walk
  unfold Follows at hfollows
  rw [hcut] at hfollows
  cases hrun : Framewise.attendAll survey
      (tour (fun _ => .merged) [] parent n walk.tracker).stops walk with
  | error halt after =>
    rw [hrun] at hfollows
    obtain ⟨last, hlast, _⟩ := hfollows
    cases hlast
    exact attendAll h _ walk after hrun
  | ok u after =>
    rw [hrun] at hfollows
    cases hresult : (tour (fun _ => .merged) [] parent n walk.tracker).result with
    | error fault =>
      rw [hresult] at hfollows
      obtain ⟨last, hlast, _⟩ := hfollows
      cases hlast
    | ok t =>
      rw [hresult] at hfollows
      obtain ⟨_, last, hlast, _⟩ := hfollows
      cases hlast

end NeverLate

/-! ## Stops under a deadline -/

/-- The rules do not see the deadline either. -/
theorem applyRules_withLimit (survey : Survey) (limit : Option Number) (site : Site)
    (rules : List Rule) :
    applyRules { survey with limit := limit } site rules = applyRules survey site rules := by
  induction rules with
  | nil => rfl
  | cons rule rest ih =>
    rw [applyRules, applyRules, ih]
    rfl

section Stops

variable (survey : Survey) (limit : Number)

theorem attend_untimed (stop : Stop) (walk : Walk) :
    attend { survey with limit := none } stop walk =
      applyRules survey stop.site survey.rules { walk with tracker := stop.tracker } := by
  unfold attend
  rw [bind_apply, track_apply]
  dsimp only
  rw [bind_apply, checkDeadline_apply, applyRules_withLimit]

theorem attend_timed (stop : Stop) (walk : Walk) :
    attend { survey with limit := some limit } stop walk =
      if limit.lt (survey.clock walk.readings) then
        .error .deadline { walk with tracker := stop.tracker, readings := walk.readings + 1 }
      else
        applyRules survey stop.site survey.rules
          { walk with tracker := stop.tracker, readings := walk.readings + 1 } := by
  unfold attend
  rw [bind_apply, track_apply]
  dsimp only
  rw [bind_apply, checkDeadline_apply, applyRules_withLimit]
  dsimp only
  by_cases hlate : limit.lt (survey.clock walk.readings) = true
  · rw [if_pos hlate, if_pos hlate]
  · rw [if_neg hlate, if_neg hlate]

/-- A stop that is reached in time is attended as without a deadline. -/
theorem attend_in_time {stop : Stop} {walk after : Walk} (readings : Nat)
    (hafter : attend { survey with limit := none } stop walk = .ok () after)
    (htime : limit.lt (survey.clock readings) = false) :
    attend { survey with limit := some limit } stop { walk with readings := readings } =
      .ok () { after with readings := readings + 1 } := by
  rw [attend_untimed] at hafter
  have hsame := IgnoresClock.applyRules survey stop.site survey.rules
    { walk with tracker := stop.tracker } (readings + 1)
  rw [hafter] at hsame
  rw [attend_timed, if_neg (by simpa using htime)]
  exact hsame

/-- Stops that are all reached in time are attended as without a deadline. -/
theorem attendAll_in_time {stops : List Stop} {walk after : Walk} (readings : Nat)
    (hafter : attendAll { survey with limit := none } stops walk = .ok () after)
    (htime : ∀ k < stops.length, limit.lt (survey.clock (readings + k)) = false) :
    attendAll { survey with limit := some limit } stops { walk with readings := readings } =
      .ok () { after with readings := readings + stops.length } := by
  induction stops generalizing walk readings with
  | nil =>
    cases hafter
    rfl
  | cons stop rest ih =>
    rw [attendAll, bind_apply] at hafter ⊢
    cases hfirst : attend { survey with limit := none } stop walk with
    | error halt middle => rw [hfirst] at hafter; cases hafter
    | ok u middle =>
      rw [hfirst] at hafter
      have hnow : limit.lt (survey.clock readings) = false := htime 0 (by simp)
      have hlater : ∀ k < rest.length, limit.lt (survey.clock (readings + 1 + k)) = false := by
        intro k hk
        rw [show readings + 1 + k = readings + (k + 1) by omega]
        exact htime (k + 1) (by simpa using hk)
      rw [attend_in_time survey limit readings hfirst hnow]
      rw [show readings + (stop :: rest).length = readings + 1 + rest.length by
        simp only [List.length_cons]; omega]
      exact ih (readings + 1) hafter hlater

/-- The first stop that is reached too late is the last one for which the clock is read. -/
theorem attendAll_too_late {stops : List Stop} {walk after : Walk} (readings : Nat) {k : Nat}
    (hafter : attendAll { survey with limit := none } stops walk = .ok () after)
    (hk : k < stops.length) (hlate : limit.lt (survey.clock (readings + k)) = true)
    (htime : ∀ j < k, limit.lt (survey.clock (readings + j)) = false) :
    ∃ cut, attendAll { survey with limit := some limit } stops { walk with readings := readings } =
      .error .deadline cut ∧ cut.readings = readings + (k + 1) := by
  induction stops generalizing walk readings k with
  | nil => simp at hk
  | cons stop rest ih =>
    rw [attendAll, bind_apply] at hafter
    rw [attendAll, bind_apply]
    cases k with
    | zero =>
      rw [attend_timed, if_pos (by simpa using hlate)]
      exact ⟨_, rfl, rfl⟩
    | succ k =>
      cases hfirst : attend { survey with limit := none } stop walk with
      | error halt middle => rw [hfirst] at hafter; cases hafter
      | ok u middle =>
        rw [hfirst] at hafter
        have hnow : limit.lt (survey.clock readings) = false := htime 0 (by omega)
        have hlater : ∀ j < k, limit.lt (survey.clock (readings + 1 + j)) = false := by
          intro j hj
          rw [show readings + 1 + j = readings + (j + 1) by omega]
          exact htime (j + 1) (by omega)
        rw [attend_in_time survey limit readings hfirst hnow]
        rw [show readings + (k + 1) = readings + 1 + k by omega] at hlate
        obtain ⟨cut, hcut, hreadings⟩ := ih (readings + 1) hafter (by simpa using hk) hlate hlater
        exact ⟨cut, hcut, by omega⟩

end Stops

/-! ## Runs under a deadline -/

namespace Engine

/-- The engine without a deadline, neither its own nor one from the settings. -/
def untimed (e : Engine) : Engine :=
  { e with deadline := none, settings := { e.settings with deadline := none } }

/-- Reading number `k` after the first one comes later than the first one by more than the given
    time. -/
def Late (e : Engine) (seconds : Number) (readings k : Nat) : Prop :=
  ((e.clock readings).add seconds).lt (e.clock (readings + k)) = true

variable {e : Engine} {seconds : Number} {root : Node} {source : Option SourceText}
variable {path : Option String} {suppressed : Option Suppression} {readings : Nat}
variable {analysis : Analysis}

/-- Without a deadline, a run that gives a result has walked the whole tree. -/
theorem of_untimed_run
    (h : (e.untimed.run root source path suppressed readings).result = .ok analysis) :
    ∃ walk : Walk,
      visit { rules := e.rules, source := source, clock := e.clock } none root
        { readings := readings } = .ok () walk ∧
      analysis = { path := path
                   diagnostics := Diagnostic.resolve e.policy
                     (suppressed.orElse fun _ => e.suppressed) crashRuleId walk.raw.reverse } := by
  have hsurvey : e.untimed.survey source readings =
      ({ rules := e.rules, source := source, clock := e.clock }, readings) := rfl
  unfold run at h
  rw [hsurvey] at h
  dsimp only at h
  cases hvisit : visit { rules := e.rules, source := source, clock := e.clock } none root
      { readings := readings } with
  | ok u walk =>
    rw [hvisit] at h
    exact ⟨walk, rfl, (Except.ok.inj h).symm⟩
  | error halt walk =>
    rw [hvisit] at h
    cases halt with
    | deadline => exact absurd hvisit (NeverLate.visit rfl none root _ walk)
    | fault f => cases h
    | noSubject => cases h

/-- A walk under a deadline begins after the first reading. -/
theorem survey_timed (hseconds : e.allowance = some seconds) :
    e.survey source readings =
      ({ rules := e.rules, source := source, clock := e.clock,
         limit := some ((e.clock readings).add seconds) }, readings + 1) := by
  unfold survey
  rw [hseconds]

theorem run_of_visit_ok {survey : Survey} {start : Nat} {last : Walk}
    (hsurvey : e.survey source readings = (survey, start))
    (hvisit : visit survey none root { readings := start } = .ok () last) :
    e.run root source path suppressed readings =
      { result := .ok { path := path
                        diagnostics := Diagnostic.resolve e.policy
                          (suppressed.orElse fun _ => e.suppressed) crashRuleId last.raw.reverse }
        logs := last.logs.reverse, readings := last.readings } := by
  unfold run
  rw [hsurvey]
  dsimp only
  rw [hvisit]

theorem run_of_visit_late {survey : Survey} {start : Nat} {last : Walk}
    (hseconds : e.allowance = some seconds)
    (hsurvey : e.survey source readings = (survey, start))
    (hvisit : visit survey none root { readings := start } = .error .deadline last) :
    (e.run root source path suppressed readings).result =
        .ok { path := path, status := .incomplete, errors := [deadlineMessage seconds] } ∧
      (e.run root source path suppressed readings).readings = last.readings := by
  unfold run expired
  rw [hsurvey, hseconds]
  dsimp only
  rw [hvisit]
  exact ⟨rfl, rfl⟩

/-- A run that gives a result has walked the whole tree, or has been cut short by its deadline. -/
theorem of_run_ok (h : (e.run root source path suppressed readings).result = .ok analysis) :
    (∃ walk, visit (e.survey source readings).1 none root
        { readings := (e.survey source readings).2 } = .ok () walk ∧
      analysis = { path := path
                   diagnostics := Diagnostic.resolve e.policy
                     (suppressed.orElse fun _ => e.suppressed) crashRuleId walk.raw.reverse }) ∨
    analysis = (e.expired path).1 := by
  unfold run at h
  dsimp only at h
  cases hvisit : visit (e.survey source readings).1 none root
      { readings := (e.survey source readings).2 } with
  | ok u walk =>
    rw [hvisit] at h
    exact .inl ⟨walk, rfl, (Except.ok.inj h).symm⟩
  | error halt walk =>
    rw [hvisit] at h
    cases halt with
    | deadline => exact .inr (Except.ok.inj h).symm
    | fault f => cases h
    | noSubject => cases h

/-- What a run without a deadline finds is found at the stops of the itinerary. -/
theorem attendAll_of_visit {survey : Survey} {walk last : Walk} (hwalk : walk.tracker = .start)
    (hvisit : visit survey none root walk = .ok () last) :
    ∃ after, attendAll survey (itinerary root).stops walk = .ok () after ∧
      after.ledger = last.ledger := by
  have hsame := visit_sameLedgers survey (itinerary_result hwalk hvisit) hwalk
  rw [hvisit] at hsame
  cases hrun : attendAll survey (itinerary root).stops walk with
  | error halt after => rw [hrun] at hsame; exact hsame.elim
  | ok u after =>
    rw [hrun] at hsame
    exact ⟨after, rfl, hsame.symm⟩

/-- If no reading is too late, the deadline does nothing. -/
theorem run_in_time (hseconds : e.allowance = some seconds)
    (huntimed : (e.untimed.run root source path suppressed readings).result = .ok analysis)
    (htime : ∀ k, 1 ≤ k → k ≤ (itinerary root).stops.length → ¬ e.Late seconds readings k) :
    (e.run root source path suppressed readings).result = .ok analysis ∧
      (e.run root source path suppressed readings).readings =
        readings + (1 + (itinerary root).stops.length) := by
  obtain ⟨walk, hvisit, rfl⟩ := of_untimed_run huntimed
  obtain ⟨after, hafter, hledger⟩ := attendAll_of_visit rfl hvisit
  -- the same stops, with one reading made before and one at each of them
  have htimed := attendAll_in_time { rules := e.rules, source := source, clock := e.clock }
    ((e.clock readings).add seconds) (readings + 1) hafter fun k hk => by
      have hk' := htime (k + 1) (by omega) (by omega)
      rw [show readings + 1 + k = readings + (k + 1) by omega]
      simpa [Late] using hk'
  have hsame : SameLedgers (visit _ none root { readings := readings + 1 }) _ :=
    visit_sameLedgers { rules := e.rules, source := source, clock := e.clock,
                        limit := some ((e.clock readings).add seconds) }
      (itinerary_result rfl hvisit) rfl
  rw [htimed] at hsame
  generalize hrun : visit _ none root { readings := readings + 1 } = run at hsame
  cases run with
  | error halt cut => exact hsame.elim
  | ok u last =>
    have hfields := Walk.mk.inj hsame
    have hraw : last.raw = walk.raw := hfields.2.1.trans (Walk.mk.inj hledger).2.1
    have hreadings : last.readings = readings + 1 + (itinerary root).stops.length :=
      hfields.2.2.2
    rw [run_of_visit_ok (survey_timed hseconds) hrun]
    refine ⟨?_, ?_⟩
    · rw [hraw]
    · dsimp only
      omega

/-- The first reading that is too late ends the run. -/
theorem run_too_late {k : Nat} (hseconds : e.allowance = some seconds)
    (huntimed : (e.untimed.run root source path suppressed readings).result = .ok analysis)
    (hk : 1 ≤ k) (hk' : k ≤ (itinerary root).stops.length) (hlate : e.Late seconds readings k)
    (htime : ∀ j, 1 ≤ j → j < k → ¬ e.Late seconds readings j) :
    (e.run root source path suppressed readings).result =
        .ok { path := path, status := .incomplete, errors := [deadlineMessage seconds] } ∧
      (e.run root source path suppressed readings).readings = readings + (1 + k) := by
  obtain ⟨walk, hvisit, rfl⟩ := of_untimed_run huntimed
  obtain ⟨after, hafter, _⟩ := attendAll_of_visit rfl hvisit
  obtain ⟨k, rfl⟩ : ∃ i, k = i + 1 := ⟨k - 1, by omega⟩
  obtain ⟨cut, hcut, hreadings⟩ := attendAll_too_late
    { rules := e.rules, source := source, clock := e.clock } ((e.clock readings).add seconds)
    (readings + 1) hafter (show k < (itinerary root).stops.length by omega)
    (by rw [show readings + 1 + k = readings + (k + 1) by omega]; exact hlate)
    (fun j hj => by
      have hj' := htime (j + 1) (by omega) (by omega)
      rw [show readings + 1 + j = readings + (j + 1) by omega]
      simpa [Late] using hj')
  have hsame : SameLedgers (visit _ none root { readings := readings + 1 }) _ :=
    visit_sameLedgers { rules := e.rules, source := source, clock := e.clock,
                        limit := some ((e.clock readings).add seconds) }
      (itinerary_result rfl hvisit) rfl
  rw [hcut] at hsame
  generalize hrun : visit _ none root { readings := readings + 1 } = run at hsame
  cases run with
  | ok u last => exact hsame.elim
  | error halt last =>
    obtain ⟨rfl, hledger⟩ := hsame
    have hlast : last.readings = cut.readings := (Walk.mk.inj hledger).2.2.2
    obtain ⟨hresult, hcount⟩ := run_of_visit_late hseconds (survey_timed hseconds) hrun
    exact ⟨hresult, by omega⟩

end Engine

/-- A run with a deadline gives what the run without one gives, or an incomplete analysis that
    reports nothing and has one error. It is incomplete if and only if one of the readings of
    the clock, one for each stop after the first, is too late; and the clock is not read again
    after the first reading that is. -/
theorem deadline_only_cuts_short {e : Engine} {seconds : Number} {root : Node}
    {source : Option SourceText} {path : Option String} {suppressed : Option Suppression}
    {readings : Nat} {analysis : Analysis} (hseconds : e.allowance = some seconds)
    (huntimed : (e.untimed.run root source path suppressed readings).result = .ok analysis) :
    let outcome := e.run root source path suppressed readings
    let visited := (itinerary root).stops.length
    let late (k : Nat) : Prop := 1 ≤ k ∧ k ≤ visited ∧ e.Late seconds readings k
    analysis.status = .complete ∧
    (outcome.result = .ok analysis ∨ ∃ message, outcome.result =
      .ok { path := path, status := .incomplete, diagnostics := [], errors := [message] }) ∧
    ((∃ cut, outcome.result = .ok cut ∧ cut.status = .incomplete) ↔ ∃ k, late k) ∧
    (∀ k, late k → (∀ j, late j → k ≤ j) → outcome.readings = readings + (1 + k)) ∧
    ((∀ k, ¬ late k) → outcome.readings = readings + (1 + visited)) := by
  intro outcome visited late
  have hcomplete : analysis.status = .complete := by
    obtain ⟨walk, _, rfl⟩ := Engine.of_untimed_run huntimed
    rfl
  refine ⟨hcomplete, ?_⟩
  by_cases hlate : ∃ k, late k
  · -- some reading is too late, so there is a first one
    classical
    have hfirst := Nat.find_spec hlate
    have hbefore : ∀ j, late j → Nat.find hlate ≤ j := fun j hj => Nat.find_min' hlate hj
    obtain ⟨hresult, hreadings⟩ := Engine.run_too_late hseconds huntimed hfirst.1 hfirst.2.1
      hfirst.2.2 fun j hj hlt hj' => by
        have := hbefore j ⟨hj, by have := hfirst.2.1; omega, hj'⟩
        omega
    refine ⟨.inr ⟨_, hresult⟩, ⟨fun _ => hlate, fun _ => ⟨_, hresult, rfl⟩⟩, ?_, ?_⟩
    · intro k hk hleast
      have hle := hleast _ hfirst
      have hge := hbefore k hk
      rw [show k = Nat.find hlate by omega]
      exact hreadings
    · exact fun hnone => absurd hlate (by simpa using hnone)
  · have hnone : ∀ k, ¬ late k := by simpa using hlate
    obtain ⟨hresult, hreadings⟩ := Engine.run_in_time hseconds huntimed fun k hk hk' hl =>
      hnone k ⟨hk, hk', hl⟩
    refine ⟨.inl hresult, ⟨?_, fun h => absurd h hlate⟩, ?_, fun _ => hreadings⟩
    · rintro ⟨cut, hcut, hstatus⟩
      rw [hresult] at hcut
      rw [← Except.ok.inj hcut, hcomplete] at hstatus
      cases hstatus
    · exact fun k hk _ => absurd hk (hnone k)

/-- A class with a decorator `a` and a use of `b` in its body. -/
def decoratedClass : Node :=
  let span : Span := ⟨1, 1, 1, 1⟩
  { kind := .module, span := span, children :=
    [{ kind := .classDef, span := span, name := some "C", children :=
      [{ kind := .name, span := span, role := "decorator", name := some "a" },
        { kind := .name, span := span, role := "body", name := some "b" }] }] }

/-- An engine with two seconds, whose clock jumps at its fourth reading and then goes back. -/
def jumpingClock : Engine :=
  { rules := [], deadline := some (.int 2), clock := fun k => .int (if k = 3 then 9 else 0) }

theorem jump_cuts_short :
    (∃ analysis, (jumpingClock.untimed.run decoratedClass none none none 0).result =
        .ok analysis ∧ analysis.status = .complete) ∧
      (∃ cut, (jumpingClock.run decoratedClass none none none 0).result = .ok cut ∧
        cut.status = .incomplete) ∧
      (jumpingClock.run decoratedClass none none none 0).readings = 4 := by
  obtain ⟨analysis, huntimed⟩ : ∃ analysis,
      (jumpingClock.untimed.run decoratedClass none none none 0).result = .ok analysis := ⟨_, rfl⟩
  have hlate : 1 ≤ 3 ∧ 3 ≤ (itinerary decoratedClass).stops.length ∧
      jumpingClock.Late (.int 2) 0 3 := ⟨by decide, by decide, rfl⟩
  have hfirst : ∀ j, 1 ≤ j ∧ j ≤ (itinerary decoratedClass).stops.length ∧
      jumpingClock.Late (.int 2) 0 j → 3 ≤ j := by
    rintro j ⟨_, _, hj⟩
    by_contra hlt
    have hclock : jumpingClock.clock (0 + j) = .int 0 := by
      simp only [jumpingClock, Nat.zero_add, Number.int.injEq, ite_eq_right_iff]
      omega
    rw [Engine.Late, hclock] at hj
    cases hj
  obtain ⟨hcomplete, _, hincomplete, hreadings, _⟩ :=
    deadline_only_cuts_short (e := jumpingClock) rfl huntimed
  exact ⟨⟨analysis, huntimed, hcomplete⟩, hincomplete.mpr ⟨3, hlate⟩,
    hreadings 3 hlate hfirst⟩

end Framewise
