import Framewise.Engine.Run
import Framewise.Proofs.Itinerary
import Framewise.Proofs.Policies
import Framewise.Proofs.Report
import Mathlib.Data.List.Perm.Subperm

/-! # Independence of rules

  Rules do not see each other. The raw diagnostics of a run are put together stop
  by stop and rule by rule, so the diagnostics of one rule can be picked out of
  them again: those under its id, and the crashes with its id as subject. Nothing
  that happens afterwards mixes them. A report for some rules of a catalog is
  therefore part of the report for all of them, in whatever order the rules
  stand.

  Main definitions:
  - `Stop.reports`: what one rule reports at one stop.
  - `rawDiagnostics`: what rules report at stops.
  - `Diagnostic.owner`: the rule that is behind a diagnostic.

  Main result: `rules_are_independent`.
-/

namespace Framewise

/-! ## What a rule reports -/

namespace Stop

variable (source : Option SourceText) (stop : Stop) (rule : Rule)

/-- What a rule leads to at a stop. -/
def outcome : Except Crash (List Finding) :=
  rule.outcome stop.site { tracker := stop.tracker, source := source }

/-- The diagnostics of what a rule finds at a stop. -/
def findings : List Diagnostic :=
  match stop.outcome source rule with
  | .ok found => found.filterMap fun finding =>
      finding.subject.map (findingDiagnostic rule stop.site.node finding)
  | .error _ => []

/-- The diagnostic of a rule's crash at a stop. -/
def crash? : Option Diagnostic :=
  match stop.outcome source rule with
  | .ok _ => none
  | .error crash => some (crashDiagnostic rule stop.site.node crash)

/-- What a rule reports at a stop. -/
def reports : List Diagnostic := stop.findings source rule ++ (stop.crash? source rule).toList

/-- All that a rule finds at a stop has a subject. -/
def NamesSubjects : Prop :=
  ∀ found, stop.outcome source rule = .ok found → ∀ finding ∈ found, finding.subject.isSome = true

variable {source stop rule}

theorem ruleId_of_mem_findings {d : Diagnostic} (h : d ∈ stop.findings source rule) :
    d.ruleId = rule.id := by
  unfold findings at h
  split at h
  · obtain ⟨finding, _, hd⟩ := List.mem_filterMap.mp h
    obtain ⟨subject, _, rfl⟩ := Option.map_eq_some_iff.mp hd
    rfl
  · exact absurd h List.not_mem_nil

theorem of_crash? {d : Diagnostic} (h : stop.crash? source rule = some d) :
    d.ruleId = crashRuleId ∧ d.subject = rule.id := by
  unfold crash? at h
  split at h
  · cases h
  · obtain rfl := Option.some.inj h
    exact ⟨rfl, rfl⟩

end Stop

/-- What rules report at stops. -/
def rawDiagnostics (source : Option SourceText) (rules : List Rule) (stops : List Stop) :
    List Diagnostic :=
  stops.flatMap fun stop => rules.flatMap (stop.reports source)

/-! ## Steps that report -/

/-- A step, begun at `walk`, that adds diagnostics unless it is `cut` short. -/
def Adds (cut : Prop) (step : Visit Unit) (walk : Walk) (ds : List Diagnostic) : Prop :=
  match step walk with
  | .ok _ after => after.raw = ds.reverse ++ walk.raw
  | .error _ _ => cut

namespace Adds

variable {cut : Prop} {survey : Survey} {walk : Walk}

theorem pure (walk : Walk) : Adds cut (pure ()) walk [] := rfl

theorem bind {step next : Visit Unit} {ds more : List Diagnostic} (h : Adds cut step walk ds)
    (hnext : ∀ after, step walk = .ok () after → Adds cut next after more) :
    Adds cut (do step; next) walk (ds ++ more) := by
  unfold Adds at h ⊢
  rw [bind_apply]
  cases hstep : step walk with
  | error halt after => simpa [hstep] using h
  | ok u after =>
    have hmore := hnext after hstep
    unfold Adds at hmore
    rw [hstep] at h
    dsimp only at h ⊢
    cases hlast : next after with
    | error halt last => simpa [hlast] using hmore
    | ok u last =>
      rw [hlast] at hmore
      dsimp only at hmore ⊢
      rw [hmore, h, List.reverse_append, List.append_assoc]

/-- A finding without a subject cuts the walk short. -/
theorem reportFindings (rule : Rule) (n : Node) {found : List Finding}
    (hsubjects : cut ∨ ∀ finding ∈ found, finding.subject.isSome = true) (walk : Walk) :
    Adds cut (reportFindings rule n found) walk
      (found.filterMap fun finding => finding.subject.map (findingDiagnostic rule n finding)) := by
  induction found generalizing walk with
  | nil => exact .pure walk
  | cons finding rest ih =>
    have hrest := ih (hsubjects.imp_right fun h => (List.forall_mem_cons.mp h).2)
    unfold Adds at hrest ⊢
    rw [reportFindings_cons, List.filterMap_cons]
    cases hsubject : finding.subject with
    | none =>
      refine hsubjects.resolve_right fun h => ?_
      have hsome := h finding List.mem_cons_self
      rw [hsubject] at hsome
      cases hsome
    | some subject => simpa using hrest { walk with raw := findingDiagnostic rule n finding subject :: walk.raw }

/-- A rule adds what it reports at a stop, whether it crashes or not. -/
theorem applyRule {stop : Stop} {rule : Rule}
    (hsubjects : cut ∨ stop.NamesSubjects survey.source rule) (hwalk : walk.tracker = stop.tracker) :
    Adds cut (applyRule survey stop.site rule) walk (stop.reports survey.source rule) := by
  unfold Stop.reports Stop.findings Stop.crash? Adds
  rw [applyRule_apply, hwalk,
    show rule.outcome stop.site { tracker := stop.tracker, source := survey.source } =
      stop.outcome survey.source rule from rfl]
  cases hout : stop.outcome survey.source rule with
  | ok found =>
    have hfound := reportFindings rule stop.site.node (hsubjects.imp_right fun h => h found hout) walk
    simpa [Adds] using hfound
  | error crash => rfl

/-- A rule leaves the tracker as it is for the next one. -/
theorem applyRules {stop : Stop} {rules : List Rule}
    (hsubjects : cut ∨ ∀ rule ∈ rules, stop.NamesSubjects survey.source rule)
    (hwalk : walk.tracker = stop.tracker) :
    Adds cut (applyRules survey stop.site rules) walk
      (rules.flatMap (stop.reports survey.source)) := by
  induction rules generalizing walk with
  | nil => exact .pure walk
  | cons rule rest ih =>
    rw [List.flatMap_cons]
    refine (applyRule (hsubjects.imp_right fun h => h rule List.mem_cons_self) hwalk).bind fun after hafter =>
      ih (hsubjects.imp_right fun h => (List.forall_mem_cons.mp h).2) ?_
    -- the next rule sees the tracker of the stop as well
    have hleaves := LeavesTracker.applyRule survey stop.site rule walk
    rw [hafter] at hleaves
    exact hleaves.trans hwalk

theorem checkDeadline (hlimit : cut ∨ survey.limit = none) (walk : Walk) :
    Adds cut (checkDeadline survey) walk [] := by
  unfold Adds
  rw [checkDeadline_apply]
  cases hsome : survey.limit with
  | none => rfl
  | some limit =>
    dsimp only
    by_cases hlate : limit.lt (survey.clock walk.readings) = true
    · rw [if_pos hlate]
      exact hlimit.resolve_right (by simp [hsome])
    · rw [if_neg hlate]
      rfl

theorem attend {stop : Stop} (hlimit : cut ∨ survey.limit = none)
    (hsubjects : cut ∨ ∀ rule ∈ survey.rules, stop.NamesSubjects survey.source rule) (walk : Walk) :
    Adds cut (attend survey stop) walk (survey.rules.flatMap (stop.reports survey.source)) := by
  have htrack : Adds cut (track fun _ => stop.tracker) walk [] := rfl
  refine htrack.bind fun tracked htracked => (checkDeadline hlimit tracked).bind fun checked hchecked =>
    applyRules hsubjects ?_
  -- the rules see the tracker of the stop, whatever the clock said
  have hleaves := LeavesTracker.checkDeadline survey tracked
  rw [hchecked] at hleaves
  rw [track_apply] at htracked
  cases htracked
  exact hleaves

/-- Without a deadline, and if all findings have subjects, nothing stops the rules. -/
theorem attendAll {stops : List Stop} (hlimit : cut ∨ survey.limit = none)
    (hsubjects : cut ∨ ∀ stop ∈ stops, ∀ rule ∈ survey.rules, stop.NamesSubjects survey.source rule)
    (walk : Walk) :
    Adds cut (attendAll survey stops) walk (rawDiagnostics survey.source survey.rules stops) := by
  induction stops generalizing walk with
  | nil => exact .pure walk
  | cons stop rest ih =>
    rw [rawDiagnostics, List.flatMap_cons]
    exact (attend hlimit (hsubjects.imp_right fun h => h stop List.mem_cons_self) walk).bind fun after _ =>
      ih (hsubjects.imp_right fun h => (List.forall_mem_cons.mp h).2) after

/-- Without a deadline, on a tree that is walked without a fault, and if all findings have
    subjects, a visit ends and adds what the rules report at the stops. -/
theorem visit {root : Node} {last : Tracker} (hwalk : walk.tracker = .start)
    (hlimit : survey.limit = none) (hlast : (itinerary root).result = .ok last)
    (hsubjects : ∀ stop ∈ (itinerary root).stops, ∀ rule ∈ survey.rules,
      stop.NamesSubjects survey.source rule) :
    ∃ after, Framewise.visit survey none root walk = .ok () after ∧
      after.raw = (rawDiagnostics survey.source survey.rules (itinerary root).stops).reverse ++ walk.raw := by
  have hadds : Adds False (Framewise.attendAll survey (itinerary root).stops) walk _ :=
    attendAll (.inr hlimit) (.inr hsubjects) walk
  have hsame := visit_sameLedgers survey hlast hwalk
  unfold Adds at hadds
  generalize Framewise.attendAll survey (itinerary root).stops walk = attended at hadds hsame
  generalize Framewise.visit survey none root walk = visited at hsame ⊢
  cases attended with
  | error halt after => exact hadds.elim
  | ok u after =>
    cases visited with
    | error halt end_ => exact hsame.elim
    | ok u end_ => exact ⟨end_, rfl, (Walk.mk.inj hsame).2.1.trans hadds⟩

end Adds

/-! ## Diagnostics by rule -/

/-- The rule that is behind a diagnostic: the one that crashed, if it is a crash. -/
def Diagnostic.owner (d : Diagnostic) : String :=
  if d.ruleId = crashRuleId then d.subject else d.ruleId

theorem Stop.owner_of_mem_reports {source : Option SourceText} {stop : Stop} {rule : Rule}
    {d : Diagnostic} (hcrash : rule.id ≠ crashRuleId) (h : d ∈ stop.reports source rule) :
    d.owner = rule.id := by
  unfold Diagnostic.owner
  rcases List.mem_append.mp h with hfound | hd
  · have hrule := ruleId_of_mem_findings hfound
    rw [if_neg (hrule ▸ hcrash), hrule]
  · obtain ⟨hrule, hsubject⟩ := of_crash? (Option.mem_toList.mp hd)
    rw [if_pos hrule, hsubject]

/-- A diagnostic belongs to a rule of a catalog exactly if it is under the id of one, or is the
    crash of one. -/
theorem Diagnostic.contains_owner {ids : List String} (hcrash : crashRuleId ∉ ids)
    (d : Diagnostic) :
    ids.contains d.owner =
      (ids.contains d.ruleId || (d.ruleId = crashRuleId && ids.contains d.subject)) := by
  unfold owner
  by_cases hd : d.ruleId = crashRuleId
  · simp [hd, hcrash]
  · simp [hd]

section Catalogs

variable {rules rules' : List Rule} {source : Option SourceText} {stops : List Stop}

theorem nodup_ruleIds (hrules : rules'.Subperm rules) (hids : (ruleIds rules).Nodup) :
    (ruleIds rules').Nodup := by
  obtain ⟨part, hperm, hpart⟩ := hrules
  exact (hperm.map _).nodup_iff.mp ((hpart.map _).nodup hids)

theorem ruleIds_subset (hrules : rules'.Subperm rules) : ruleIds rules' ⊆ ruleIds rules :=
  List.map_subset _ hrules.subset

/-- The rules with the id of a rule are that rule alone. -/
theorem filter_id_eq (hids : (ruleIds rules).Nodup) {rule : Rule} (hrule : rule ∈ rules) :
    rules.filter (fun r => r.id = rule.id) = [rule] := by
  induction rules with
  | nil => exact absurd hrule List.not_mem_nil
  | cons first rest ih =>
    obtain ⟨hfirst, hrest⟩ := List.nodup_cons.mp hids
    rcases List.mem_cons.mp hrule with rfl | hrule
    · have hnone : rest.filter (fun r => r.id = rule.id) = [] := by
        refine List.filter_eq_nil_iff.mpr fun r hr heq => hfirst ?_
        exact List.mem_map.mpr ⟨r, hr, of_decide_eq_true heq⟩
      rw [List.filter_cons_of_pos (by simp), hnone]
    · have hne : first.id ≠ rule.id := fun heq =>
        hfirst (List.mem_map.mpr ⟨rule, hrule, heq.symm⟩)
      rw [List.filter_cons_of_neg (by simpa using hne), ih hrest hrule]

/-- What belongs to one rule is reported by the rules with its id. -/
theorem filter_rawDiagnostics (hcrash : crashRuleId ∉ ruleIds rules) {p : Diagnostic → Bool}
    {id : String} (hp : ∀ d, p d = true → d.owner = id) :
    (rawDiagnostics source rules stops).filter p =
      (rawDiagnostics source (rules.filter fun r => r.id = id) stops).filter p := by
  unfold rawDiagnostics
  rw [List.filter_flatMap, List.filter_flatMap]
  refine List.flatMap_congr fun stop _ => ?_
  induction rules with
  | nil => rfl
  | cons rule rest ih =>
    obtain ⟨hfirst, hrest⟩ := not_or.mp (mt List.mem_cons.mpr hcrash)
    by_cases hrule : rule.id = id
    · rw [List.filter_cons_of_pos (by simpa using hrule), List.flatMap_cons, List.flatMap_cons,
        List.filter_append, List.filter_append, ih hrest]
    · -- what another rule reports has another owner
      have hnone : (stop.reports source rule).filter p = [] := by
        refine List.filter_eq_nil_iff.mpr fun d hd hpd => hrule ?_
        rw [← Stop.owner_of_mem_reports (Ne.symm hfirst) hd, hp d hpd]
      rw [List.filter_cons_of_neg (by simpa using hrule), List.flatMap_cons, List.filter_append,
        hnone, List.nil_append, ih hrest]

theorem exists_of_mem_rawDiagnostics {d : Diagnostic}
    (h : d ∈ rawDiagnostics source rules stops) :
    ∃ stop ∈ stops, ∃ rule ∈ rules, d ∈ stop.reports source rule := by
  simpa only [rawDiagnostics, List.mem_flatMap] using h

theorem owner_mem_ruleIds (hcrash : crashRuleId ∉ ruleIds rules) {d : Diagnostic}
    (h : d ∈ rawDiagnostics source rules stops) : d.owner ∈ ruleIds rules := by
  obtain ⟨stop, _, rule, hrule, hd⟩ := exists_of_mem_rawDiagnostics h
  have hid : rule.id ∈ ruleIds rules := List.mem_map_of_mem hrule
  rw [Stop.owner_of_mem_reports (fun heq => hcrash (heq ▸ hid)) hd]
  exact hid

/-- A rule reports the same in both catalogs that have it. -/
theorem filter_rawDiagnostics_eq (hids : (ruleIds rules).Nodup)
    (hcrash : crashRuleId ∉ ruleIds rules) (hrules : rules'.Subperm rules)
    {p : Diagnostic → Bool} {id : String} (hid : id ∈ ruleIds rules')
    (hp : ∀ d, p d = true → d.owner = id) :
    (rawDiagnostics source rules' stops).filter p =
      (rawDiagnostics source rules stops).filter p := by
  obtain ⟨rule, hrule, rfl⟩ := List.mem_map.mp hid
  rw [filter_rawDiagnostics hcrash hp,
    filter_rawDiagnostics (fun h => hcrash (ruleIds_subset hrules h)) hp,
    filter_id_eq hids (hrules.subset hrule), filter_id_eq (nodup_ruleIds hrules hids) hrule]

/-- Under every sort key, the diagnostics of some rules of a catalog are those of the catalog that
    belong to them: a key belongs to one rule. -/
theorem filter_sortKey_rawDiagnostics (hids : (ruleIds rules).Nodup)
    (hcrash : crashRuleId ∉ ruleIds rules) (hrules : rules'.Subperm rules)
    (k : Diagnostic.SortKey) :
    (rawDiagnostics source rules' stops).filter (fun d => d.sortKey = k) =
      ((rawDiagnostics source rules stops).filter
        fun d => (ruleIds rules').contains d.owner).filter fun d => d.sortKey = k := by
  obtain ⟨id, hp⟩ : ∃ id, ∀ d : Diagnostic, decide (d.sortKey = k) = true → d.owner = id := by
    refine ⟨if k.ruleId = crashRuleId then k.subject else k.ruleId, fun d hd => ?_⟩
    rw [← of_decide_eq_true hd]
    rfl
  by_cases hid : id ∈ ruleIds rules'
  · -- a rule that stays: everything under the key belongs to it
    rw [filter_rawDiagnostics_eq hids hcrash hrules hid hp, List.filter_comm]
    refine (List.filter_eq_self.mpr fun d hd => ?_).symm
    rw [hp d (List.mem_filter.mp hd).2]
    exact List.contains_iff_mem.mpr hid
  · -- a rule that is gone: nothing under the key is left on either side
    have hcrash' : crashRuleId ∉ ruleIds rules' := fun h => hcrash (ruleIds_subset hrules h)
    have hnone : (rawDiagnostics source rules' stops).filter (fun d => d.sortKey = k) = [] := by
      refine List.filter_eq_nil_iff.mpr fun d hd hk => hid ?_
      exact hp d hk ▸ owner_mem_ruleIds hcrash' hd
    rw [hnone]
    refine (List.filter_eq_nil_iff.mpr fun d hd hk => hid ?_).symm
    exact hp d hk ▸ List.contains_iff_mem.mp (List.mem_filter.mp hd).2

/-- A rule crashes at a stop at most once, and the crash is reported there and nowhere else. -/
theorem rawDiagnostics_crashes (hids : (ruleIds rules).Nodup)
    (hcrash : crashRuleId ∉ ruleIds rules) {rule : Rule} (hrule : rule ∈ rules) :
    (rawDiagnostics source rules stops).filter
        (fun d => d.ruleId = crashRuleId && d.subject = rule.id) =
      stops.filterMap (·.crash? source rule) := by
  have hown : ∀ d : Diagnostic, (d.ruleId = crashRuleId && d.subject = rule.id : Bool) = true →
      d.owner = rule.id := by
    intro d hd
    simp only [Bool.and_eq_true, decide_eq_true_eq] at hd
    rw [Diagnostic.owner, if_pos hd.1, hd.2]
  have hne : rule.id ≠ crashRuleId := fun heq => hcrash (heq ▸ List.mem_map_of_mem hrule)
  rw [filter_rawDiagnostics hcrash hown, filter_id_eq hids hrule, rawDiagnostics,
    List.filter_flatMap, List.filterMap_eq_flatMap_toList]
  refine List.flatMap_congr fun stop _ => ?_
  -- a finding stands under the id of its rule, which is not that of crashes
  have hfindings : (stop.findings source rule).filter
      (fun d => d.ruleId = crashRuleId && d.subject = rule.id) = [] := by
    refine List.filter_eq_nil_iff.mpr fun d hd hp => hne ?_
    simp only [Bool.and_eq_true, decide_eq_true_eq] at hp
    rw [← Stop.ruleId_of_mem_findings hd, hp.1]
  rw [List.flatMap_singleton, Stop.reports, List.filter_append, hfindings, List.nil_append]
  refine List.filter_eq_self.mpr fun d hd => ?_
  simpa using Stop.of_crash? (Option.mem_toList.mp hd)

/-- What stands under the id of a rule is what the rule finds. -/
theorem rawDiagnostics_findings (hids : (ruleIds rules).Nodup)
    (hcrash : crashRuleId ∉ ruleIds rules) {rule : Rule} (hrule : rule ∈ rules) :
    (rawDiagnostics source rules stops).filter (fun d => d.ruleId = rule.id) =
      stops.flatMap (·.findings source rule) := by
  have hne : rule.id ≠ crashRuleId := fun heq => hcrash (heq ▸ List.mem_map_of_mem hrule)
  have hown : ∀ d : Diagnostic, decide (d.ruleId = rule.id) = true → d.owner = rule.id := by
    intro d hd
    have hid := of_decide_eq_true hd
    rw [Diagnostic.owner, if_neg (hid ▸ hne), hid]
  rw [filter_rawDiagnostics hcrash hown, filter_id_eq hids hrule, rawDiagnostics,
    List.filter_flatMap]
  refine List.flatMap_congr fun stop _ => ?_
  have hcrashes : (stop.crash? source rule).toList.filter (fun d => d.ruleId = rule.id) = [] := by
    refine List.filter_eq_nil_iff.mpr fun d hd hp => hne ?_
    rw [← of_decide_eq_true hp, (Stop.of_crash? (Option.mem_toList.mp hd)).1]
  rw [List.flatMap_singleton, Stop.reports, List.filter_append, hcrashes, List.append_nil]
  refine List.filter_eq_self.mpr fun d hd => ?_
  simpa using Stop.ruleId_of_mem_findings hd

/-! ## Reports by rule -/

/-- The policies for two catalogs treat the diagnostics of rules that are in both alike. -/
theorem agreeOn_of_mem_rawDiagnostics (hcrash : crashRuleId ∉ ruleIds rules)
    (hrules : rules'.Subperm rules) (settings : Settings) {d : Diagnostic}
    (h : d ∈ rawDiagnostics source rules' stops) :
    Policy.AgreeOn d.ruleId (settings.resolve (ruleIds rules')).1
        (settings.resolve (ruleIds rules)).1 ∧
      (d.ruleId = crashRuleId → Policy.AgreeOn d.subject (settings.resolve (ruleIds rules')).1
        (settings.resolve (ruleIds rules)).1) := by
  obtain ⟨stop, _, rule, hrule, hd⟩ := exists_of_mem_rawDiagnostics h
  have hin : rule.id ∈ ruleIds rules' := List.mem_map_of_mem hrule
  have hsub := ruleIds_subset hrules
  have hboth := settings.resolve_agreeOn (iff_of_true hin (hsub hin))
  rcases List.mem_append.mp hd with hfound | hd
  · rw [Stop.ruleId_of_mem_findings hfound]
    exact ⟨hboth, fun heq => absurd (hsub hin) (heq ▸ hcrash)⟩
  · obtain ⟨hid, hsubject⟩ := Stop.of_crash? (Option.mem_toList.mp hd)
    rw [hid, hsubject]
    -- no catalog has the id under which crashes are reported
    exact ⟨settings.resolve_agreeOn (iff_of_false (mt (@hsub _) hcrash) hcrash), fun _ => hboth⟩

/-- The report for some rules of a catalog is the part of the report for the catalog that belongs
    to these rules. -/
theorem resolve_rawDiagnostics (hids : (ruleIds rules).Nodup)
    (hcrash : crashRuleId ∉ ruleIds rules) (hrules : rules'.Subperm rules) (settings : Settings)
    (suppressed : Option Suppression) (source : Option SourceText) (stops : List Stop) :
    Diagnostic.resolve (settings.resolve (ruleIds rules')).1 suppressed crashRuleId
        (rawDiagnostics source rules' stops) =
      (Diagnostic.resolve (settings.resolve (ruleIds rules)).1 suppressed crashRuleId
        (rawDiagnostics source rules stops)).filter
          fun d => (ruleIds rules').contains d.owner := by
  refine Diagnostic.resolve_eq_filter ?_ ?_ ?_ ?_
  · intro d d' h
    obtain ⟨hrule, _, hsubject⟩ := Identity.mk.inj h
    simp only [Diagnostic.owner, hrule, hsubject]
  · exact filter_sortKey_rawDiagnostics hids hcrash hrules
  · intro d hd
    obtain ⟨hrule, hsubject⟩ := agreeOn_of_mem_rawDiagnostics hcrash hrules settings hd
    exact hrule.isKept hsubject suppressed
  · intro d hd
    exact (agreeOn_of_mem_rawDiagnostics hcrash hrules settings hd).1.withPolicy

end Catalogs

/-! ## Runs -/

/-- Without a deadline, on a tree that is walked without a fault, and if all findings have
    subjects, a run ends and reports what its rules report at the stops. -/
theorem Engine.run_reports {e : Engine} {root : Node} {source : Option SourceText} {last : Tracker}
    (hdeadline : e.allowance = none) (hlast : (itinerary root).result = .ok last)
    (hsubjects : ∀ stop ∈ (itinerary root).stops, ∀ rule ∈ e.rules,
      stop.NamesSubjects source rule)
    (path : Option String) (suppressed : Option Suppression) (readings : Nat) :
    ∃ walk, visit (e.survey source readings).1 none root { readings := readings } = .ok () walk ∧
      walk.raw.reverse = rawDiagnostics source e.rules (itinerary root).stops ∧
      (e.run root source path suppressed readings).result = .ok
        { path := path,
          diagnostics := Diagnostic.resolve e.policy (suppressed.orElse fun _ => e.suppressed)
            crashRuleId (rawDiagnostics source e.rules (itinerary root).stops) } := by
  have hsurvey : e.survey source readings =
      ({ rules := e.rules, source := source, clock := e.clock }, readings) := by
    unfold Engine.survey
    rw [hdeadline]
  obtain ⟨walk, hvisit, hraw⟩ : ∃ walk, visit { rules := e.rules, source := source, clock := e.clock } none root
      { readings := readings } = .ok () walk ∧ _ := Adds.visit rfl rfl hlast hsubjects
  have hwalk : walk.raw.reverse = rawDiagnostics source e.rules (itinerary root).stops := by
    rw [hraw, List.append_nil, List.reverse_reverse]
  refine ⟨walk, by rw [hsurvey]; exact hvisit, hwalk, ?_⟩
  unfold Engine.run
  rw [hsurvey]
  dsimp only
  rw [hvisit]
  dsimp only
  rw [hwalk]

/-- A run with some rules of a catalog, in any order, reports what a run with the whole catalog
    reports under their ids, and their crashes. A catalog in another order leads to the same
    analysis. Each rule adds to the raw diagnostics of a run one crash for each stop at which it
    crashes, and what it finds, which is the same whatever the other rules do. What is found has
    a subject: a finding without one would end the run. -/
theorem rules_are_independent {e : Engine} {rules' : List Rule} {root : Node}
    {source : Option SourceText} (hdeadline : e.allowance = none)
    (hids : (ruleIds e.rules).Nodup) (hcrash : crashRuleId ∉ ruleIds e.rules)
    (hrules : rules'.Subperm e.rules)
    (htracker : ∃ last, visit { rules := [] } none root {} = .ok () last)
    (hsubjects : ∀ stop ∈ (itinerary root).stops, ∀ rule ∈ e.rules,
      stop.NamesSubjects source rule)
    (path : Option String) (suppressed : Option Suppression) (readings : Nat) :
    ∃ analysis analysis' walk,
      (e.run root source path suppressed readings).result = .ok analysis ∧
      ({ e with rules := rules' }.run root source path suppressed readings).result =
        .ok analysis' ∧
      analysis'.diagnostics = analysis.diagnostics.filter (fun d =>
        (ruleIds rules').contains d.ruleId ||
          (d.ruleId = crashRuleId && (ruleIds rules').contains d.subject)) ∧
      (rules'.Perm e.rules → analysis' = analysis) ∧
      visit (e.survey source readings).1 none root { readings := readings } = .ok () walk ∧
      ∀ rule ∈ e.rules,
        walk.raw.reverse.filter (fun d => d.ruleId = crashRuleId && d.subject = rule.id) =
          (itinerary root).stops.filterMap (·.crash? source rule) ∧
        walk.raw.reverse.filter (fun d => d.ruleId = rule.id) =
          (itinerary root).stops.flatMap (·.findings source rule) := by
  -- the tracker does the same whatever the rules are
  obtain ⟨end_, hend⟩ := htracker
  have hlast := itinerary_result rfl hend
  obtain ⟨walk, hvisit, hraw, hrun⟩ :=
    Engine.run_reports hdeadline hlast hsubjects path suppressed readings
  have hsubjects' : ∀ stop ∈ (itinerary root).stops, ∀ rule ∈ rules',
      stop.NamesSubjects source rule :=
    fun stop hstop rule hrule => hsubjects stop hstop rule (hrules.subset hrule)
  obtain ⟨_, _, _, hrun'⟩ :=
    Engine.run_reports (e := { e with rules := rules' }) hdeadline hlast hsubjects' path
      suppressed readings
  have hcrash' : crashRuleId ∉ ruleIds rules' := fun h => hcrash (ruleIds_subset hrules h)
  refine ⟨_, _, walk, hrun, hrun', ?_, fun hperm => ?_, hvisit, fun rule hrule => ?_⟩
  · rw [← funext (Diagnostic.contains_owner hcrash')]
    exact resolve_rawDiagnostics hids hcrash hrules e.settings _ source _
  · -- each of the two reports is part of the other
    have hpart := resolve_rawDiagnostics hids hcrash hrules e.settings
      (suppressed.orElse fun _ => e.suppressed) source (itinerary root).stops
    have hpart' := resolve_rawDiagnostics (nodup_ruleIds hrules hids) hcrash'
      hperm.symm.subperm e.settings
      (suppressed.orElse fun _ => e.suppressed) source (itinerary root).stops
    congr 1
    exact (hpart ▸ List.filter_sublist).antisymm (hpart' ▸ List.filter_sublist)
  · rw [hraw]
    exact ⟨rawDiagnostics_crashes hids hcrash hrule, rawDiagnostics_findings hids hcrash hrule⟩

/-- A rule that crashes at every name. -/
def nameCrash : Rule where
  id := "N001"
  title := "crashes"
  severity := .error
  matcher site _ :=
    if site.node.kind = .name then .error (.raised "ValueError" "a name") else .ok []

/-- A rule that reports every name. -/
def nameUse : Rule where
  id := "N002"
  title := "names"
  severity := .warning
  matcher site _ := .ok (if site.node.kind = .name then [{ message := "a name" }] else [])

/-- Two names, one below the other. -/
def nestedNames : Node :=
  { kind := .module, span := ⟨1, 1, 1, 1⟩, children :=
    [{ kind := .name, span := ⟨1, 1, 1, 1⟩, name := some "a", children :=
      [{ kind := .name, span := ⟨2, 1, 2, 1⟩, name := some "b" }] }] }

theorem crashes_leave_other_rule_alone :
    ∃ analysis analysis' walk,
      ({ rules := [nameCrash, nameUse] : Engine }.run nestedNames none none none 0).result =
        .ok analysis ∧
      ({ rules := [nameUse] : Engine }.run nestedNames none none none 0).result = .ok analysis' ∧
      analysis'.diagnostics = analysis.diagnostics.filter (fun d =>
        ["N002"].contains d.ruleId || (d.ruleId = "FL000" && ["N002"].contains d.subject)) ∧
      visit { rules := [nameCrash, nameUse] } none nestedNames {} = .ok () walk ∧
      (walk.raw.reverse.filter fun d => d.ruleId = "FL000" && d.subject = "N001").length = 2 := by
  have hsubjects : ∀ stop ∈ (itinerary nestedNames).stops, ∀ rule ∈ [nameCrash, nameUse],
      stop.NamesSubjects none rule := by
    intro stop _ rule hrule found hfound finding hfinding
    simp only [List.mem_cons, List.not_mem_nil, or_false] at hrule
    have hfound := (Rule.outcome_eq_ok.mp hfound).1
    rcases hrule with rfl | rfl
    · simp only [nameCrash] at hfound
      split at hfound
      · cases hfound
      · cases hfound
        exact absurd hfinding List.not_mem_nil
    · simp only [nameUse] at hfound
      cases hfound
      split at hfinding
      · rw [List.mem_singleton.mp hfinding]
        rfl
      · exact absurd hfinding List.not_mem_nil
  have hrules : [nameUse].Subperm [nameCrash, nameUse] := ⟨[nameUse], .refl _, by simp⟩
  obtain ⟨analysis, analysis', walk, hrun, hrun', hpart, _, hvisit, hraw⟩ :=
    rules_are_independent (e := { rules := [nameCrash, nameUse] }) rfl (by decide) (by decide)
      hrules ⟨_, rfl⟩ hsubjects none none 0
  refine ⟨analysis, analysis', walk, hrun, hrun', hpart, hvisit, ?_⟩
  rw [show ("N001" : String) = nameCrash.id from rfl,
    show ("FL000" : String) = crashRuleId from rfl, (hraw nameCrash (by simp)).1]
  rfl

end Framewise
