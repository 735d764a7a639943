import Framewise.Settings.Basic
import Mathlib.Data.List.Basic

/-! # Policies

  Settings are applied to a catalog entry by entry, and an entry concerns one
  rule. What a policy says about a rule therefore depends on the catalog only in
  so far as the catalog has that rule or has it not.

  Main definition: `Policy.AgreeOn`, two policies that treat a rule alike.

  Main result: `Settings.resolve_agreeOn`.
-/

namespace Framewise

/-- Two policies that treat a rule alike. -/
structure Policy.AgreeOn (id : String) (policy policy' : Policy) : Prop where
  disabled : id ∈ policy.disabled ↔ id ∈ policy'.disabled
  severities : policy.severities.find? (fun entry => entry.1 = id) =
    policy'.severities.find? fun entry => entry.1 = id

namespace Policy.AgreeOn

variable {id : String} {policy policy' policy'' : Policy}

theorem symm (h : AgreeOn id policy policy') : AgreeOn id policy' policy :=
  ⟨h.disabled.symm, h.severities.symm⟩

theorem trans (h : AgreeOn id policy policy') (h' : AgreeOn id policy' policy'') :
    AgreeOn id policy policy'' :=
  ⟨h.disabled.trans h'.disabled, h.severities.trans h'.severities⟩

theorem enables (h : AgreeOn id policy policy') : policy.enables id = policy'.enables id := by
  simp only [Policy.enables, List.contains_eq_mem, h.disabled]

theorem severityOf (h : AgreeOn id policy policy') (own : Severity) :
    policy.severityOf id own = policy'.severityOf id own := by
  unfold Policy.severityOf
  rw [h.severities]

theorem withPolicy {d : Diagnostic} (h : AgreeOn d.ruleId policy policy') :
    d.withPolicy policy = d.withPolicy policy' := by
  unfold Diagnostic.withPolicy
  rw [h.severityOf]

/-- Whether a diagnostic is kept depends on its rule, and for a crash on the rule that crashed. -/
theorem isKept {d : Diagnostic} {crashId : String} (h : AgreeOn d.ruleId policy policy')
    (hcrash : d.ruleId = crashId → AgreeOn d.subject policy policy')
    (suppressed : Option Suppression) :
    d.isKept policy suppressed crashId = d.isKept policy' suppressed crashId := by
  unfold Diagnostic.isKept
  by_cases hd : d.ruleId = crashId
  · rw [h.enables, (hcrash hd).enables]
  · have hne : (d.ruleId != crashId) = true := by simpa using hd
    rw [h.enables, hne, Bool.or_true, Bool.true_or, Bool.true_or]

/-- Agreement lasts if the same is added to both. -/
theorem add (h : AgreeOn id policy policy') (off : List String)
    (severities : List (String × Severity)) :
    AgreeOn id
      { disabled := policy.disabled ++ off, severities := policy.severities ++ severities }
      { disabled := policy'.disabled ++ off, severities := policy'.severities ++ severities } where
  disabled := by simp only [List.mem_append, h.disabled]
  severities := by simp only [List.find?_append, h.severities]

/-- What is added about other rules makes no difference. -/
theorem add_other (policy : Policy) {off : List String} {severities : List (String × Severity)}
    (hoff : id ∉ off) (hseverities : ∀ entry ∈ severities, entry.1 ≠ id) :
    AgreeOn id
      { disabled := policy.disabled ++ off, severities := policy.severities ++ severities }
      policy where
  disabled := by simp only [List.mem_append, hoff, or_false]
  severities := by
    have hnone : severities.find? (fun entry => entry.1 = id) = none := by
      simpa using hseverities
    rw [List.find?_append, hnone, Option.or_none]

end Policy.AgreeOn

namespace Settings

open Policy (AgreeOn)

variable {known known' : List String} {id : String}

/-- What an entry that can be read adds to a policy. -/
theorem applyEntry_known {entry : String × Value} {setting : RuleEntry}
    (hknown : entry.1 ∈ known) (hvalue : RuleEntry.ofValue entry.2 = .ok setting)
    (state : Policy × List SettingError) :
    (applyEntry known state entry).1 =
      { disabled := state.1.disabled ++ if setting.enabled then [] else [entry.1]
        severities := state.1.severities ++
          (setting.severity.map fun s => (entry.1, s)).toList } := by
  obtain ⟨own, value⟩ := entry
  have hin : (!known.contains own) = false := by simpa using hknown
  simp only [applyEntry, hin, hvalue]
  cases setting.enabled with
  | true => simp
  | false => simp

theorem applyEntry_unknown {entry : String × Value} (hknown : entry.1 ∉ known)
    (state : Policy × List SettingError) : (applyEntry known state entry).1 = state.1 := by
  obtain ⟨own, value⟩ := entry
  have hout : (!known.contains own) = true := by simpa using hknown
  simp only [applyEntry, hout, if_true]

theorem applyEntry_invalid {entry : String × Value} {problems : List Schema.Problem}
    (hvalue : RuleEntry.ofValue entry.2 = .error problems)
    (state : Policy × List SettingError) : (applyEntry known state entry).1 = state.1 := by
  obtain ⟨own, value⟩ := entry
  simp only [applyEntry, hvalue]
  split <;> rfl

/-- An entry says nothing about other rules than its own. -/
theorem applyEntry_other {entry : String × Value} (hother : entry.1 ≠ id)
    (state : Policy × List SettingError) :
    AgreeOn id (applyEntry known state entry).1 state.1 := by
  by_cases hknown : entry.1 ∈ known
  · cases hvalue : RuleEntry.ofValue entry.2 with
    | error problems =>
      rw [applyEntry_invalid hvalue]
      exact ⟨.rfl, rfl⟩
    | ok setting =>
      rw [applyEntry_known hknown hvalue]
      refine .add_other state.1 ?_ ?_
      · split
        · exact List.not_mem_nil
        · simpa using hother.symm
      · intro pair hpair
        obtain ⟨s, _, rfl⟩ := Option.map_eq_some_iff.mp (Option.mem_toList.mp hpair)
        exact hother
  · rw [applyEntry_unknown hknown]
    exact ⟨.rfl, rfl⟩

/-- An entry does the same to what two policies say about a rule, if both catalogs have the rule
    or neither has it. -/
theorem applyEntry_agreeOn (hknown : id ∈ known ↔ id ∈ known') (entry : String × Value)
    {state state' : Policy × List SettingError} (h : AgreeOn id state.1 state'.1) :
    AgreeOn id (applyEntry known state entry).1 (applyEntry known' state' entry).1 := by
  by_cases hown : entry.1 = id
  · -- the entry of the rule itself is known to both catalogs or to neither
    subst hown
    by_cases hin : entry.1 ∈ known
    · cases hvalue : RuleEntry.ofValue entry.2 with
      | error problems =>
        rw [applyEntry_invalid hvalue, applyEntry_invalid hvalue]
        exact h
      | ok setting =>
        rw [applyEntry_known hin hvalue, applyEntry_known (hknown.mp hin) hvalue]
        exact h.add _ _
    · rw [applyEntry_unknown hin, applyEntry_unknown (mt hknown.mpr hin)]
      exact h
  · exact (applyEntry_other hown state).trans (h.trans (applyEntry_other hown state').symm)

theorem mem_unselected {select : Option (List String)} :
    id ∈ unselected known select ↔ id ∈ known ∧ ∃ ids, select = some ids ∧ id ∉ ids := by
  cases select with
  | none => simp [unselected]
  | some ids => simp [unselected]

/-- Settings treat a rule alike in two catalogs if both have it or neither has it. -/
theorem resolve_agreeOn (settings : Settings) (hknown : id ∈ known ↔ id ∈ known') :
    AgreeOn id (settings.resolve known).1 (settings.resolve known').1 := by
  unfold resolve
  refine List.foldl_rel (r := fun (state state' : Policy × List SettingError) =>
    AgreeOn id state.1 state'.1) ⟨?_, rfl⟩ ?_
  · -- at the start only selection and the list of disabled rules count
    simp only [List.mem_append, mem_unselected, List.mem_filter, List.contains_iff_mem, hknown]
  · intro entry _ state state' h
    exact applyEntry_agreeOn hknown entry h

end Settings

end Framewise
