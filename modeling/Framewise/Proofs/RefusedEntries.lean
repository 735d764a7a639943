import Framewise.Proofs.Policies
import Framewise.Proofs.ReportContents
import Framewise.Rule.Catalog
import Mathlib.Data.List.Forall2

/-! # Refused entries

  Settings name rules in three places: in the selection, in the list of rules that
  are off, and in the entries per rule. An entry is refused if the catalog does not
  have its rule, and a rule entry also if its value cannot be read. A refused entry
  is reported once and changes nothing else. Without the refused entries the same
  policy comes out, and it is built from what the other entries say.

  Main definitions:
  - `Settings.Mention`: an entry that names a rule.
  - `Settings.Refuses`: the error with which an entry is refused.
  - `Settings.cleaned`: settings without the entries that are refused.

  Main result: `refused_entries_change_nothing`.
-/

namespace Framewise

/-! ## Checks that fail -/

namespace Schema

variable {α β : Type}

/-- A check that fails names a problem. -/
def NamesProblem (c : Checked α) : Prop := ∀ problems, c = .error problems → problems ≠ []

theorem NamesProblem.here (read : Value → Read α) (v : Value) : NamesProblem (here read v) := by
  intro problems h
  unfold Schema.here at h
  cases hread : read v with
  | ok a =>
    rw [hread] at h
    cases h
  | error cause =>
    rw [hread] at h
    cases h
    simp

theorem NamesProblem.under {c : Checked α} (h : NamesProblem c) (step : Step) :
    NamesProblem (under step c) := by
  intro problems hunder
  unfold Schema.under at hunder
  cases c with
  | ok a => cases hunder
  | error problems' =>
    cases hunder
    simpa using h problems' rfl

theorem NamesProblem.nullable {check : Value → Checked α} (h : ∀ v, NamesProblem (check v))
    (v : Value) : NamesProblem (nullable check v) := by
  intro problems hnull
  unfold Schema.nullable at hnull
  split at hnull
  · cases hnull
  · cases hcheck : check v with
    | ok a =>
      rw [hcheck] at hnull
      cases hnull
    | error problems' =>
      rw [hcheck] at hnull
      cases hnull
      exact h v problems hcheck

theorem NamesProblem.defaulted {check : Value → Checked α} (h : ∀ v, NamesProblem (check v))
    (entries : List (String × Value)) (key : String) (fallback : α) :
    NamesProblem (defaulted entries key fallback check) := by
  unfold Schema.defaulted
  split
  · exact (h _).under _
  · intro problems hdefault
    cases hdefault

theorem NamesProblem.both {c : Checked α} {d : Checked β} (hc : NamesProblem c)
    (hd : NamesProblem d) : NamesProblem (both c d) := by
  intro problems hboth
  cases c with
  | ok a =>
    cases d with
    | ok b => cases hboth
    | error q =>
      cases hboth
      exact hd _ rfl
  | error p =>
    have hp : p ≠ [] := hc p rfl
    cases d with
    | ok b =>
      cases hboth
      exact hp
    | error q =>
      cases hboth
      simp [hp]

end Schema

namespace Settings

/-! ## Entries -/

/-- An entry of the settings that names a rule. -/
inductive Mention where
  /-- In the selection. -/
  | select (id : String)
  /-- In the list of rules that are off. -/
  | disable (id : String)
  /-- In the entries per rule. -/
  | rule (entry : String × Value)

/-- The error with which an entry is refused. -/
inductive Refuses (known : List String) : Mention → SettingError → Prop where
  | select {id : String} (h : id ∉ known) : Refuses known (.select id) (.unknownRule id "select")
  | disable {id : String} (h : id ∉ known) :
      Refuses known (.disable id) (.unknownRule id "disable")
  | rule {id : String} {value : Value} (h : id ∉ known) :
      Refuses known (.rule (id, value)) (.unknownRule id "rules")
  /-- The rule is known; the first problem of the value is reported. -/
  | value {id : String} {value : Value} {problem : Schema.Problem} {more : List Schema.Problem}
      (h : id ∈ known) (hvalue : RuleEntry.ofValue value = .error (problem :: more)) :
      Refuses known (.rule (id, value)) (.invalidRule id problem.cause.message)

/-- True for a rule entry that is not refused: its rule is known and its value can be read. -/
def accepts (known : List String) (entry : String × Value) : Bool :=
  known.contains entry.1 && (RuleEntry.ofValue entry.2).isOk

/-- The settings without the entries that are refused. -/
def cleaned (settings : Settings) (known : List String) : Settings :=
  { settings with
    rules := settings.rules.filter (accepts known)
    select := settings.select.map fun ids => ids.filter fun id => known.contains id
    disable := settings.disable.filter fun id => known.contains id }

end Settings

/-- The policy with what rule entries say added to it. -/
def Policy.heed (policy : Policy) (said : List (String × Settings.RuleEntry)) : Policy where
  disabled := policy.disabled ++ (said.filter fun p => !p.2.enabled).map (·.1)
  severities := policy.severities ++ said.filterMap fun p => p.2.severity.map (p.1, ·)

theorem Policy.heed_append (policy : Policy) (said more : List (String × Settings.RuleEntry)) :
    policy.heed (said ++ more) = (policy.heed said).heed more := by
  simp [heed]

namespace Settings

variable {known : List String}

/-- What a rule entry says, if it is not refused. -/
def said? (known : List String) (entry : String × Value) : Option (String × RuleEntry) :=
  if entry.1 ∈ known then (RuleEntry.ofValue entry.2).toOption.map (entry.1, ·) else none

/-- The error for a rule entry that is refused. -/
def refusal? (known : List String) (entry : String × Value) : Option SettingError :=
  if entry.1 ∈ known then
    match RuleEntry.ofValue entry.2 with
    | .ok _ => none
    | .error problems => some (.invalidRule entry.1 (firstReason problems))
  else some (.unknownRule entry.1 "rules")

/-- A rule entry is heeded or refused. -/
theorem applyEntry_eq (policy : Policy) (errors : List SettingError) (entry : String × Value) :
    applyEntry known (policy, errors) entry =
      (policy.heed (said? known entry).toList, errors ++ (refusal? known entry).toList) := by
  obtain ⟨id, value⟩ := entry
  by_cases hknown : id ∈ known
  · cases hvalue : RuleEntry.ofValue value with
    | error problems =>
      simp [applyEntry, said?, refusal?, Policy.heed, hknown, hvalue, Except.toOption]
    | ok setting =>
      cases henabled : setting.enabled <;> cases hseverity : setting.severity <;>
        simp [applyEntry, said?, refusal?, Policy.heed, hknown, hvalue, henabled, hseverity,
          Except.toOption]
  · simp [applyEntry, said?, refusal?, Policy.heed, hknown]

/-- What is heeded and what is refused of rule entries, in their order. -/
theorem foldl_applyEntry (policy : Policy) (errors : List SettingError)
    (entries : List (String × Value)) :
    entries.foldl (applyEntry known) (policy, errors) =
      (policy.heed (entries.filterMap (said? known)),
        errors ++ entries.filterMap (refusal? known)) := by
  induction entries generalizing policy errors with
  | nil => simp [Policy.heed]
  | cons entry entries ih =>
    rw [List.foldl_cons, applyEntry_eq, ih, ← Policy.heed_append]
    simp only [List.filterMap_eq_flatMap_toList, List.flatMap_cons, List.append_assoc]

/-- What the rule entries that are not refused say, in the order of their ids. -/
def heeded (settings : Settings) (known : List String) : List (String × RuleEntry) :=
  settings.sortedRules.filterMap (said? known)

theorem resolve_eq (settings : Settings) :
    settings.resolve known =
      (Policy.heed
        { disabled := unselected known settings.select ++
            settings.disable.filter fun id => known.contains id }
        (settings.heeded known),
        settings.loadErrors ++ unknownIds known "select" (settings.select.getD []) ++
          unknownIds known "disable" settings.disable ++
          settings.sortedRules.filterMap (refusal? known)) := by
  unfold resolve
  exact foldl_applyEntry _ _ _

/-! ## What is left without the refused entries -/

theorem said?_eq_some {entry : String × Value} {id : String} {setting : RuleEntry} :
    said? known entry = some (id, setting) ↔
      entry.1 = id ∧ id ∈ known ∧ RuleEntry.ofValue entry.2 = .ok setting := by
  obtain ⟨own, value⟩ := entry
  by_cases hknown : own ∈ known
  · cases hvalue : RuleEntry.ofValue value with
    | error problems => simp [said?, hknown, hvalue, Except.toOption]
    | ok setting' =>
      simp only [said?, hknown, hvalue, Except.toOption, if_true, Option.map_some,
        Option.some.injEq, Prod.mk.injEq, Except.ok.injEq]
      constructor
      · rintro ⟨rfl, rfl⟩
        exact ⟨rfl, hknown, rfl⟩
      · rintro ⟨rfl, -, rfl⟩
        exact ⟨rfl, rfl⟩
  · simp only [said?, hknown, if_false]
    constructor
    · intro h
      cases h
    · rintro ⟨rfl, h, -⟩
      exact absurd h hknown

/-- A rule entry is accepted if it says something, and then there is no error. -/
theorem accepts_eq_isSome (entry : String × Value) :
    accepts known entry = (said? known entry).isSome := by
  obtain ⟨id, value⟩ := entry
  by_cases hknown : id ∈ known
  · cases hvalue : RuleEntry.ofValue value <;>
      simp [accepts, said?, hknown, hvalue, Except.toOption, Except.isOk, Except.toBool]
  · simp [accepts, said?, hknown]

theorem accepts_eq_isNone (entry : String × Value) :
    accepts known entry = (refusal? known entry).isNone := by
  obtain ⟨id, value⟩ := entry
  by_cases hknown : id ∈ known
  · cases hvalue : RuleEntry.ofValue value <;>
      simp [accepts, refusal?, hknown, hvalue, Except.isOk, Except.toBool]
  · simp [accepts, refusal?, hknown]

theorem sortedRules_cleaned (settings : Settings) :
    (settings.cleaned known).sortedRules = settings.sortedRules.filter (accepts known) := by
  have hkey : ∀ a b : String × Value, a.1 = b.1 → Text.le a.1 b.1 = true := by
    intro a b hab
    exact Text.le_iff.mpr hab.le
  have hanti : ∀ a b : String × Value, Text.le a.1 b.1 = true → Text.le b.1 a.1 = true →
      a.1 = b.1 := by
    intro a b hab hba
    exact le_antisymm (Text.le_iff.mp hab) (Text.le_iff.mp hba)
  unfold sortedRules cleaned
  apply mergeSort_filter _ _ hkey hanti
  · exact fun a b c => Text.le_trans
  · exact fun a b => Text.le_total a.1 b.1

/-- Entries that are not in the catalog make no difference to a selection. -/
theorem unselected_cleaned (select : Option (List String)) :
    unselected known (select.map fun ids => ids.filter fun id => known.contains id) =
      unselected known select := by
  cases select with
  | none => rfl
  | some ids =>
    refine List.filter_congr fun id hid => ?_
    simp [hid]

/-- Without the refused entries the policy is the same, and only the errors of loading are left. -/
theorem resolve_cleaned (settings : Settings) :
    (settings.cleaned known).resolve known =
      ((settings.resolve known).1, settings.loadErrors) := by
  have hsaid : (settings.cleaned known).heeded known = settings.heeded known := by
    unfold heeded
    rw [sortedRules_cleaned, List.filterMap_filter]
    refine List.filterMap_congr fun entry _ => ?_
    rw [accepts_eq_isSome]
    cases said? known entry <;> rfl
  have hrefused : (settings.sortedRules.filter (accepts known)).filterMap (refusal? known) =
      [] := by
    rw [List.filterMap_eq_nil_iff]
    intro entry hentry
    have haccepts := (List.mem_filter.mp hentry).2
    rw [accepts_eq_isNone] at haccepts
    exact Option.isNone_iff_eq_none.mp haccepts
  have hselect : unknownIds known "select" ((settings.cleaned known).select.getD []) = [] := by
    cases hids : settings.select <;> simp [unknownIds, cleaned, hids]
  have hdisable : unknownIds known "disable" (settings.cleaned known).disable = [] := by
    simp [unknownIds, cleaned]
  have hoff : unselected known (settings.cleaned known).select ++
      (settings.cleaned known).disable.filter (fun id => known.contains id) =
        unselected known settings.select ++
          settings.disable.filter fun id => known.contains id := by
    rw [← unselected_cleaned settings.select]
    simp [cleaned]
  rw [resolve_eq, resolve_eq, sortedRules_cleaned, hsaid, hrefused, hselect, hdisable, hoff]
  simp [cleaned]

/-! ## Errors -/

/-- A value that cannot be read as a rule entry has a first problem. -/
theorem RuleEntry.ofValue_namesProblem (value : Value) :
    Schema.NamesProblem (RuleEntry.ofValue value) := by
  intro problems h
  unfold ofValue at h
  split at h
  next entries =>
    have hboth := Schema.NamesProblem.both
      (Schema.NamesProblem.defaulted (Schema.NamesProblem.here Schema.bool) entries "enabled" true)
      (Schema.NamesProblem.defaulted
        (Schema.NamesProblem.nullable
          (Schema.NamesProblem.here (Schema.listed Severity.all Severity.label)))
        entries "severity" none)
    cases hchecked : Schema.both
        (Schema.defaulted entries "enabled" true (Schema.here Schema.bool))
        (Schema.defaulted entries "severity" none
          (Schema.nullable (Schema.here (Schema.listed Severity.all Severity.label)))) with
    | ok fields =>
      simp only [hchecked] at h
      cases h
    | error problems' =>
      simp only [hchecked] at h
      cases h
      exact hboth _ hchecked
  · cases h
    simp

theorem refuses_of_refusal? {entry : String × Value} {error : SettingError}
    (h : refusal? known entry = some error) : Refuses known (.rule entry) error := by
  obtain ⟨id, value⟩ := entry
  unfold refusal? at h
  by_cases hknown : id ∈ known
  · rw [if_pos hknown] at h
    cases hvalue : RuleEntry.ofValue value with
    | ok setting => simp [hvalue] at h
    | error problems =>
      simp only [hvalue, Option.some.injEq] at h
      subst h
      cases problems with
      | nil => exact absurd rfl (RuleEntry.ofValue_namesProblem value [] hvalue)
      | cons problem more => exact .value hknown hvalue
  · rw [if_neg hknown] at h
    cases h
    exact .rule hknown

/-- One error per rule entry that is refused. -/
theorem refusals_refuse (known : List String) (entries : List (String × Value)) :
    List.Forall₂ (Refuses known)
      ((entries.filter fun entry => !accepts known entry).map .rule)
      (entries.filterMap (refusal? known)) := by
  induction entries with
  | nil => exact .nil
  | cons entry entries ih =>
    have haccepts : accepts known entry = (refusal? known entry).isNone :=
      accepts_eq_isNone entry
    cases hrefusal : refusal? known entry with
    | none =>
      rw [hrefusal] at haccepts
      rw [List.filterMap_cons_none hrefusal, List.filter_cons_of_neg (by simp [haccepts])]
      exact ih
    | some error =>
      rw [hrefusal] at haccepts
      rw [List.filterMap_cons_some hrefusal, List.filter_cons_of_pos (by simp [haccepts])]
      exact .cons (refuses_of_refusal? hrefusal) ih

/-- One error per id that the catalog does not have. -/
theorem unknownIds_refuse {place : String} {mention : String → Mention}
    (h : ∀ id, id ∉ known → Refuses known (mention id) (.unknownRule id place))
    (ids : List String) :
    List.Forall₂ (Refuses known) ((ids.filter (· ∉ known)).map mention)
      (unknownIds known place ids) := by
  have hunknown : unknownIds known place ids =
      (ids.filter (· ∉ known)).map fun id => .unknownRule id place := by
    simp [unknownIds]
  rw [hunknown, List.forall₂_map_left_iff, List.forall₂_map_right_iff, List.forall₂_same]
  intro id hid
  exact h id (by simpa using (List.mem_filter.mp hid).2)

/-! ## What a policy says -/

theorem mem_heeded {settings : Settings} {id : String} {setting : RuleEntry} :
    (id, setting) ∈ settings.heeded known ↔
      id ∈ known ∧ ∃ value, (id, value) ∈ settings.rules ∧
        RuleEntry.ofValue value = .ok setting := by
  simp only [heeded, List.mem_filterMap, said?_eq_some, sortedRules, List.mem_mergeSort, Prod.exists]
  constructor
  · rintro ⟨own, value, hentry, rfl, hknown, hvalue⟩
    exact ⟨hknown, value, hentry, hvalue⟩
  · rintro ⟨hknown, value, hentry, hvalue⟩
    exact ⟨id, value, hentry, rfl, hknown, hvalue⟩

theorem mem_disabled {settings : Settings} {id : String} :
    id ∈ (settings.resolve known).1.disabled ↔
      id ∈ known ∧ ((∃ ids, settings.select = some ids ∧ id ∉ ids) ∨ id ∈ settings.disable ∨
        ∃ value setting, (id, value) ∈ settings.rules ∧ RuleEntry.ofValue value = .ok setting ∧
          setting.enabled = false) := by
  have hrules : id ∈ ((settings.heeded known).filter fun p => !p.2.enabled).map (·.1) ↔
      id ∈ known ∧ ∃ value setting, (id, value) ∈ settings.rules ∧
        RuleEntry.ofValue value = .ok setting ∧ setting.enabled = false := by
    simp only [List.mem_map, List.mem_filter, Prod.exists, mem_heeded]
    constructor
    · rintro ⟨own, setting, ⟨⟨hknown, value, hentry, hvalue⟩, hoff⟩, rfl⟩
      exact ⟨hknown, value, setting, hentry, hvalue, by simpa using hoff⟩
    · rintro ⟨hknown, value, setting, hentry, hvalue, hoff⟩
      exact ⟨id, setting, ⟨⟨hknown, value, hentry, hvalue⟩, by simpa using hoff⟩, rfl⟩
  rw [resolve_eq]
  simp only [Policy.heed, List.mem_append, mem_unselected, List.mem_filter, List.contains_iff_mem,
    hrules]
  by_cases hknown : id ∈ known <;> simp [hknown, or_assoc]

theorem mem_severities {settings : Settings} {id : String} {severity : Severity} :
    (id, severity) ∈ (settings.resolve known).1.severities ↔
      id ∈ known ∧ ∃ value setting, (id, value) ∈ settings.rules ∧
        RuleEntry.ofValue value = .ok setting ∧ setting.severity = some severity := by
  rw [resolve_eq]
  simp only [Policy.heed, List.nil_append, List.mem_filterMap, Prod.exists, mem_heeded,
    Option.map_eq_some_iff, Prod.mk.injEq]
  constructor
  · rintro ⟨own, setting, ⟨hknown, value, hentry, hvalue⟩, severity', hseverity, rfl, rfl⟩
    exact ⟨hknown, value, setting, hentry, hvalue, hseverity⟩
  · rintro ⟨hknown, value, setting, hentry, hvalue, hseverity⟩
    exact ⟨id, setting, ⟨hknown, value, hentry, hvalue⟩, severity, hseverity, rfl, rfl⟩

theorem sortedRules_pairwise (settings : Settings) :
    settings.sortedRules.Pairwise fun a b => a.1 ≤ b.1 := by
  have hsorted : settings.sortedRules.Pairwise fun a b => Text.le a.1 b.1 := by
    apply List.pairwise_mergeSort
    · exact fun _ _ _ => Text.le_trans
    · exact fun _ _ => Text.le_total _ _
  exact hsorted.imp Text.le_iff.mp

end Settings

open Settings in
/-- Settings without the entries that are refused lead to the same policy, and of the errors only
    those of loading are left. With them there is one more error for each of these entries, those
    of the selection first, then those of the rules that are off, then the rule entries in the
    order of their ids. A known rule is on exactly if it is selected, where there is a selection,
    is not listed as off, and is not turned off by its own entry. Severities come from the entries
    of known rules. Nothing is said about a rule that is not known, such as the one for crashes. -/
theorem refused_entries_change_nothing (settings : Settings) (known : List String) :
    (settings.cleaned known).resolve known =
      ((settings.resolve known).1, settings.loadErrors) ∧
    (∃ (rejected : List (String × Value)) (errors : List SettingError),
      rejected.Perm (settings.rules.filter fun entry => !accepts known entry) ∧
      rejected.Pairwise (fun a b => a.1 ≤ b.1) ∧
      List.Forall₂ (Refuses known)
        (((settings.select.getD []).filter (· ∉ known)).map .select ++
          (settings.disable.filter (· ∉ known)).map .disable ++ rejected.map .rule) errors ∧
      (settings.resolve known).2 = settings.loadErrors ++ errors) ∧
    (∀ id ∈ known, (settings.resolve known).1.enables id = true ↔
      (∀ ids, settings.select = some ids → id ∈ ids) ∧ id ∉ settings.disable ∧
      ∀ value setting, (id, value) ∈ settings.rules →
        RuleEntry.ofValue value = .ok setting → setting.enabled = true) ∧
    (∀ id severity, (id, severity) ∈ (settings.resolve known).1.severities ↔
      id ∈ known ∧ ∃ value setting, (id, value) ∈ settings.rules ∧
        RuleEntry.ofValue value = .ok setting ∧ setting.severity = some severity) ∧
    (∀ id, id ∉ known → (settings.resolve known).1.enables id = true ∧
      ∀ own, (settings.resolve known).1.severityOf id own = own) ∧
    crashRuleId ∉ ruleIds catalog := by
  have henables : ∀ id, (settings.resolve known).1.enables id = true ↔
      id ∉ (settings.resolve known).1.disabled := by
    intro id
    simp [Policy.enables]
  refine ⟨resolve_cleaned settings, ?_, ?_, fun id severity => mem_severities, ?_, by decide⟩
  · have herrors := List.rel_append
      (List.rel_append (unknownIds_refuse (fun _ => .select) (settings.select.getD []))
        (unknownIds_refuse (fun _ => .disable) settings.disable))
      (refusals_refuse known settings.sortedRules)
    have hperm : settings.sortedRules.Perm settings.rules := List.mergeSort_perm _ _
    refine ⟨_, _, hperm.filter _, settings.sortedRules_pairwise.filter _, herrors, ?_⟩
    rw [resolve_eq]
    simp only [List.append_assoc]
  · intro id hid
    rw [henables, mem_disabled]
    simp only [hid, true_and, not_or, not_exists, not_and, Decidable.not_not,
      Bool.not_eq_false]
  · intro id hid
    have hnone : (settings.resolve known).1.severities.find? (fun entry => entry.1 = id) = none := by
      rw [List.find?_eq_none]
      rintro ⟨own, severity⟩ hentry
      have hown := (mem_severities.mp hentry).1
      simpa using fun heq : own = id => hid (heq ▸ hown)
    refine ⟨?_, fun own => ?_⟩
    · rw [henables, mem_disabled]
      simp [hid]
    · rw [Policy.severityOf, hnone]
      rfl

/-- Settings with entries of every kind that is refused: ids that are not in the catalog, one of
    them twice, and a severity that does not exist. -/
def untidySettings : Settings where
  rules := [("FL009", .table []), ("FL002", .table [("severity", .text "loud")]),
    ("FL001", .table [("severity", .text "error")])]
  select := some ["FL001", "FL009", "FL009"]
  disable := ["FL000"]

/-- Five entries are refused. The rule that is selected is on, with the severity of its entry; the
    other rule is off, and nothing is said about crashes. -/
theorem untidySettings_resolved :
    let known := ["FL001", "FL002"]
    let policy := (untidySettings.resolve known).1
    ((untidySettings.cleaned known).resolve known).2 = [] ∧
      (untidySettings.resolve known).2.length = 5 ∧
      policy.enables "FL001" = true ∧ policy.enables "FL002" = false ∧
      ("FL001", Severity.error) ∈ policy.severities ∧ policy.enables "FL000" = true := by
  intro known policy
  have hread : Settings.RuleEntry.ofValue (.table [("severity", .text "error")]) =
      .ok { severity := some .error } := by rfl
  obtain ⟨hcleaned, ⟨rejected, errors, hperm, -, hrefused, herrors⟩, henabled, hseverity, hunknown,
    -⟩ := refused_entries_change_nothing untidySettings known
  refine ⟨by rw [hcleaned]; rfl, ?_, ?_, ?_, ?_, (hunknown "FL000" (by decide)).1⟩
  · have hrejected : rejected.length = 2 := hperm.length_eq.trans (by rfl)
    rw [herrors, List.length_append, ← hrefused.length_eq]
    simp [untidySettings, known, hrejected]
  · rw [henabled "FL001" (by decide)]
    refine ⟨by simp [untidySettings], by decide, ?_⟩
    intro value setting hentry hvalue
    simp only [untidySettings, List.mem_cons, Prod.mk.injEq, List.not_mem_nil, or_false] at hentry
    obtain ⟨h, -⟩ | ⟨h, -⟩ | ⟨-, rfl⟩ := hentry
    · exact absurd h (by decide)
    · exact absurd h (by decide)
    · rw [hread] at hvalue
      cases hvalue
      rfl
  · rw [← Bool.not_eq_true, henabled "FL002" (by decide)]
    rintro ⟨hselected, -⟩
    exact absurd (hselected _ rfl) (by decide)
  · exact (hseverity _ _).mpr ⟨by decide, _, _, by simp [untidySettings], hread, rfl⟩

end Framewise
