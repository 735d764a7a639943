import Framewise.Proofs.RefusedEntries
import Framewise.Proofs.ReportDocument
import Framewise.Proofs.RoundTrip
import Framewise.Proofs.Success
import Framewise.Settings.Load

/-! # Settings loaded from a file

  The entries of a settings file are checked one by one, and those that are in order are
  then read together with what the command line says. Nothing goes wrong in the second
  reading: a field is read off its own entry only, so an entry that can be read alone can
  be read among others. So a bad entry is reported once and makes no other difference.

  Main definitions:
  - `Settings.Stands`: an entry that is known and can be read on its own.
  - `Settings.alone`: what the settings would be with one entry of the file only.
  - `Settings.Overrides.Valid`: values that the command line may give.

  Main results:
  - `Settings.ofEntries_ok_iff`: settings are read field by field.
  - `bad_entries_stand_alone`.
-/

namespace Framewise

namespace Schema

variable {α β : Type} {check : Value → Checked α}

theorem both_ok_iff {c : Checked α} {d : Checked β} {a : α} {b : β} :
    both c d = .ok (a, b) ↔ c = .ok a ∧ d = .ok b := by
  cases c <;> cases d <;> simp [both]

theorem under_ok_iff {c : Checked α} {step : Step} {a : α} : under step c = .ok a ↔ c = .ok a := by
  cases c <;> simp [under, Except.mapError]

theorem defaulted_some {entries : List (String × Value)} {key : String} {fallback a : α} {v : Value}
    (h : Value.lookup entries key = some v) :
    defaulted entries key fallback check = .ok a ↔ check v = .ok a := by
  rw [defaulted, h]
  exact under_ok_iff

theorem defaulted_none {entries : List (String × Value)} {key : String} {fallback : α}
    (h : Value.lookup entries key = none) :
    defaulted entries key fallback check = .ok fallback := by
  rw [defaulted, h]

/-- A field is read off its own entry. -/
theorem defaulted_congr {entries entries' : List (String × Value)} {key : String} (fallback : α)
    (check : Value → Checked α) (h : Value.lookup entries key = Value.lookup entries' key) :
    defaulted entries key fallback check = defaulted entries' key fallback check := by
  rw [defaulted, defaulted, h]

/-- Items that can be read, followed by others that can. -/
theorem itemsFrom_append {xs ys : List Value} {as bs : List α} {i : Nat}
    (hxs : itemsFrom check i xs = .ok as)
    (hys : ∀ j, itemsFrom check j ys = .ok bs) : itemsFrom check i (xs ++ ys) = .ok (as ++ bs) := by
  induction xs generalizing i as with
  | nil =>
    cases hxs
    exact hys i
  | cons x xs ih =>
    rw [itemsFrom] at hxs
    obtain ⟨⟨a, rest⟩, hboth, rfl⟩ := of_map_ok hxs
    obtain ⟨ha, hrest⟩ := both_ok_iff.mp hboth
    rw [List.cons_append, itemsFrom, both_ok_iff.mpr ⟨ha, ih hrest⟩]
    rfl

end Schema

namespace Settings

open Schema (Checked)

/-! ## Field by field -/

/-- Settings are read field by field, each off its own entry. -/
theorem ofEntries_ok_iff {entries : List (String × Value)} {s : Settings} :
    ofEntries entries = .ok s ↔
      Schema.defaulted entries "rules" [] Schema.table = .ok s.rules ∧
      Schema.defaulted entries "select" none (Schema.nullable idList) = .ok s.select ∧
      Schema.defaulted entries "disable" [] idList = .ok s.disable ∧
      Schema.defaulted entries "deadline_seconds" none
        (Schema.nullable (Schema.here Schema.positiveDouble)) = .ok s.deadline ∧
      Schema.defaulted entries "jobs" 1 (Schema.here Schema.positiveInt) = .ok s.jobs ∧
      s.loadErrors = [] := by
  constructor
  · intro h
    obtain ⟨⟨rules, select, disable, deadline, jobs⟩, hread, rfl⟩ := of_map_ok h
    simpa [Schema.both_ok_iff] using hread
  · rintro ⟨hrules, hselect, hdisable, hdeadline, hjobs, herrors⟩
    unfold ofEntries
    dsimp only
    rw [hrules, hselect, hdisable, hdeadline, hjobs]
    cases s
    cases herrors
    rfl

/-- An entry that is known and can be read on its own. -/
def Stands (entry : String × Value) : Prop :=
  entry.1 ∈ keys ∧ ∃ s, ofEntries [entry] = .ok s

theorem entryError_eq_none_iff (entry : String × Value) : entryError entry = none ↔ Stands entry := by
  unfold entryError Stands
  by_cases hkey : entry.1 ∈ keys
  · cases hread : ofEntries [entry] with
    | ok s => simp [hkey]
    | error problems => simp [hkey]
  · simp [hkey]

instance (entry : String × Value) : Decidable (Stands entry) :=
  decidable_of_iff _ (entryError_eq_none_iff entry)

/-- The entries that are known and can be read on their own. -/
def standing (entries : List (String × Value)) : List (String × Value) :=
  entries.filter fun entry => Stands entry

theorem accepted_eq_standing (entries : List (String × Value)) :
    accepted entries = standing entries := by
  refine List.filter_congr fun entry _ => ?_
  rw [Bool.eq_iff_iff, decide_eq_true_eq, Option.isNone_iff_eq_none]
  exact entryError_eq_none_iff entry

theorem standing_standing (entries : List (String × Value)) :
    standing (standing entries) = standing entries := by
  simp [standing]

/-- The error with which an entry is refused when the settings are loaded. -/
def RefusedWith (entry : String × Value) (error : SettingError) : Prop :=
  (entry.1 ∉ keys ∧ error = .unknownSetting entry.1) ∨
    entry.1 ∈ keys ∧ ∃ problems, ofEntries [entry] = .error problems ∧
      error = .invalidSetting entry.1 (firstReason problems)

/-- The error names the entry. -/
theorem RefusedWith.key_eq {entry : String × Value} {error : SettingError}
    (h : RefusedWith entry error) : error.key = entry.1 := by
  rcases h with ⟨-, rfl⟩ | ⟨-, problems, -, rfl⟩
  · rfl
  · rfl

theorem map_key_eq {entries : List (String × Value)} {errors : List SettingError}
    (h : List.Forall₂ RefusedWith entries errors) :
    errors.map SettingError.key = entries.map Prod.fst := by
  induction h with
  | nil => rfl
  | cons hfirst _ ih => rw [List.map_cons, List.map_cons, hfirst.key_eq, ih]

theorem refusedWith_of_entryError {entry : String × Value} {error : SettingError}
    (h : entryError entry = some error) : RefusedWith entry error := by
  unfold entryError at h
  by_cases hkey : entry.1 ∈ keys
  · cases hread : ofEntries [entry] with
    | ok s => simp [hkey, hread] at h
    | error problems =>
      simp only [List.contains_eq_mem, hkey, decide_true, Bool.not_true, Bool.false_eq_true,
        if_false, hread, Option.some.injEq] at h
      exact .inr ⟨hkey, problems, hread, h.symm⟩
  · simp only [List.contains_eq_mem, hkey, decide_false, Bool.not_false, if_true,
      Option.some.injEq] at h
    exact .inl ⟨hkey, h.symm⟩

/-- One error for each entry that does not stand, in the order of the entries. -/
theorem refused_each (entries : List (String × Value)) :
    List.Forall₂ RefusedWith (entries.filter fun entry => ¬Stands entry) (refused entries) := by
  unfold refused
  induction entries with
  | nil => exact .nil
  | cons entry entries ih =>
    cases herror : entryError entry with
    | none =>
      have hstands := (entryError_eq_none_iff entry).mp herror
      simpa [hstands, herror] using ih
    | some error =>
      have hnot : ¬Stands entry := by
        rw [← entryError_eq_none_iff, herror]
        simp
      rw [List.filter_cons_of_pos (by simpa using hnot), List.filterMap_cons_some herror]
      exact .cons (refusedWith_of_entryError herror) ih

/-! ## What the entries of a file say -/

/-- The settings that one entry of a file makes on its own; the defaults if the file has no such
    entry, or none that stands. -/
def alone (entries : List (String × Value)) (key : String) : Settings :=
  ((Value.lookup (standing entries) key).bind fun v => (ofEntries [(key, v)]).toOption).getD {}

section Alone

variable {entries : List (String × Value)} {key : String}

theorem lookup_mem {v : Value} (h : Value.lookup entries key = some v) : (key, v) ∈ entries := by
  unfold Value.lookup at h
  obtain ⟨entry, hfound, rfl⟩ := Option.map_eq_some_iff.mp h
  have hkey := List.find?_some hfound
  rw [← of_decide_eq_true hkey]
  exact List.mem_of_find?_eq_some hfound

theorem lookup_singleton (key : String) (v : Value) : Value.lookup [(key, v)] key = some v := by
  simp [Value.lookup]

/-- An entry that stands is read among all that stand as it is read alone. -/
theorem alone_of_lookup {v : Value} (h : Value.lookup (standing entries) key = some v) :
    ofEntries [(key, v)] = .ok (alone entries key) := by
  obtain ⟨-, s, hs⟩ : Stands (key, v) := by
    simpa [standing] using (List.mem_filter.mp (lookup_mem h)).2
  rw [alone, h, Option.bind_some, hs]
  rfl

theorem alone_of_absent (h : Value.lookup (standing entries) key = none) :
    alone entries key = {} := by
  rw [alone, h]
  rfl

/-- A field of the entries that stand is that of its own entry alone. -/
theorem field_alone {α : Type} {fallback : α} {check : Value → Checked α} {field : Settings → α}
    (hfield : ∀ entries s, ofEntries entries = .ok s →
      Schema.defaulted entries key fallback check = .ok (field s))
    (hfallback : field {} = fallback) :
    Schema.defaulted (standing entries) key fallback check = .ok (field (alone entries key)) := by
  cases hlookup : Value.lookup (standing entries) key with
  | some v =>
    rw [Schema.defaulted_congr fallback check (hlookup.trans (lookup_singleton key v).symm)]
    exact hfield _ _ (alone_of_lookup hlookup)
  | none => rw [Schema.defaulted_none hlookup, alone_of_absent hlookup, hfallback]

end Alone

/-! ## What the command line says -/

/-- Values that the command line may give: a time above 0 and a number of at least 1. -/
structure Overrides.Valid (o : Overrides) : Prop where
  deadline : ∀ d, o.deadline = some d → ∃ x, Schema.positiveDouble (.number d) = .ok x
  jobs : ∀ j, o.jobs = some j → 1 ≤ j

section Overlay

variable (entries : List (String × Value)) (o : Overrides)

theorem lookup_append (es fs : List (String × Value)) (key : String) :
    Value.lookup (es ++ fs) key = (Value.lookup es key).or (Value.lookup fs key) := by
  simp only [Value.lookup, List.find?_append, Option.map_or]

theorem lookup_entryIf (key key' : String) (v : Option Value) :
    Value.lookup (entryIf key v) key' = if key = key' then v else none := by
  cases v <;> by_cases h : key = key' <;> simp [entryIf, Value.lookup, h]

/-- The entries that are read in the end, one for each field. -/
theorem overlay_eq :
    overlay entries o =
      entryIf "rules" (Value.lookup entries "rules") ++
      entryIf "select" ((o.select.map idsValue).or (Value.lookup entries "select")) ++
      entryIf "disable" (some (.list (listEntry entries "disable" ++ o.ignore.map .text))) ++
      entryIf "deadline_seconds"
        ((o.deadline.map .number).or (Value.lookup entries "deadline_seconds")) ++
      entryIf "jobs" ((o.jobs.map .int).or (Value.lookup entries "jobs")) := by
  simp only [overlay, Option.orElse_eq_or]
  rfl

theorem lookup_overlay_rules :
    Value.lookup (overlay entries o) "rules" = Value.lookup entries "rules" := by
  simp [overlay_eq, lookup_append, lookup_entryIf]

theorem lookup_overlay_select :
    Value.lookup (overlay entries o) "select" =
      (o.select.map idsValue).or (Value.lookup entries "select") := by
  simp [overlay_eq, lookup_append, lookup_entryIf]

theorem lookup_overlay_disable :
    Value.lookup (overlay entries o) "disable" =
      some (.list (listEntry entries "disable" ++ o.ignore.map .text)) := by
  simp [overlay_eq, lookup_append, lookup_entryIf]

theorem lookup_overlay_deadline :
    Value.lookup (overlay entries o) "deadline_seconds" =
      (o.deadline.map .number).or (Value.lookup entries "deadline_seconds") := by
  simp [overlay_eq, lookup_append, lookup_entryIf]

theorem lookup_overlay_jobs :
    Value.lookup (overlay entries o) "jobs" =
      (o.jobs.map .int).or (Value.lookup entries "jobs") := by
  simp [overlay_eq, lookup_append, lookup_entryIf]

end Overlay

section Fields

variable (entries : List (String × Value)) {o : Overrides}

theorem here_text (s : String) : Schema.here Schema.text (.text s) = .ok s := rfl

theorem overlay_rules :
    Schema.defaulted (overlay (standing entries) o) "rules" [] Schema.table =
      .ok (alone entries "rules").rules := by
  rw [Schema.defaulted_congr _ _ (lookup_overlay_rules _ o)]
  exact field_alone (fun _ _ h => (ofEntries_ok_iff.mp h).1) rfl

theorem overlay_select :
    Schema.defaulted (overlay (standing entries) o) "select" none (Schema.nullable idList) =
      .ok (o.select.or (alone entries "select").select) := by
  have hlookup := lookup_overlay_select (standing entries) o
  cases hselect : o.select with
  | some ids =>
    rw [hselect] at hlookup
    have hids : idList (idsValue ids) = .ok ids := Schema.list_map here_text ids
    rw [Schema.defaulted_some hlookup]
    show (idList (idsValue ids)).map some = _
    rw [hids]
    rfl
  | none =>
    rw [hselect, Option.map_none, Option.none_or] at hlookup
    rw [Schema.defaulted_congr _ _ hlookup]
    exact field_alone (fun _ _ h => (ofEntries_ok_iff.mp h).2.1) rfl

/-- The rules that a file disables, as they stand in its entry. -/
theorem listEntry_disable :
    idList (.list (listEntry (standing entries) "disable")) =
      .ok (alone entries "disable").disable := by
  have halone : Schema.defaulted (standing entries) "disable" [] idList =
      .ok (alone entries "disable").disable :=
    field_alone (fun _ _ h => (ofEntries_ok_iff.mp h).2.2.1) rfl
  unfold listEntry
  cases hlookup : Value.lookup (standing entries) "disable" with
  | none =>
    rw [Schema.defaulted_none hlookup] at halone
    exact halone
  | some v =>
    rw [Schema.defaulted_some hlookup] at halone
    cases v with
    | list items => exact halone
    | _ => cases halone

theorem overlay_disable :
    Schema.defaulted (overlay (standing entries) o) "disable" [] idList =
      .ok ((alone entries "disable").disable ++ o.ignore) := by
  rw [Schema.defaulted_some (lookup_overlay_disable _ o)]
  exact Schema.itemsFrom_append (listEntry_disable entries)
    fun j => Schema.itemsFrom_map here_text j o.ignore

theorem overlay_deadline (ho : o.Valid) :
    ∃ deadline, Schema.defaulted (overlay (standing entries) o) "deadline_seconds" none
        (Schema.nullable (Schema.here Schema.positiveDouble)) = .ok deadline ∧
      (∀ d, o.deadline = some d →
        ∃ x, Schema.positiveDouble (.number d) = .ok x ∧ deadline = some x) ∧
      (o.deadline = none → deadline = (alone entries "deadline_seconds").deadline) := by
  have hlookup := lookup_overlay_deadline (standing entries) o
  cases hdeadline : o.deadline with
  | some d =>
    obtain ⟨x, hx⟩ := ho.deadline d hdeadline
    rw [hdeadline] at hlookup
    refine ⟨some x, ?_, ?_, by rintro ⟨⟩⟩
    · rw [Schema.defaulted_some hlookup]
      show (Schema.here Schema.positiveDouble (.number d)).map some = _
      rw [Schema.here_ok hx]
      rfl
    · rintro d' ⟨⟩
      exact ⟨x, hx, rfl⟩
  | none =>
    rw [hdeadline, Option.map_none, Option.none_or] at hlookup
    refine ⟨_, ?_, by rintro d ⟨⟩, fun _ => rfl⟩
    rw [Schema.defaulted_congr _ _ hlookup]
    exact field_alone (fun _ _ h => (ofEntries_ok_iff.mp h).2.2.2.1) rfl

theorem overlay_jobs (ho : o.Valid) :
    Schema.defaulted (overlay (standing entries) o) "jobs" 1 (Schema.here Schema.positiveInt) =
      .ok (o.jobs.getD (alone entries "jobs").jobs) := by
  have hlookup := lookup_overlay_jobs (standing entries) o
  cases hjobs : o.jobs with
  | some j =>
    rw [hjobs] at hlookup
    rw [Schema.defaulted_some hlookup]
    exact Schema.here_ok (Node.positiveInt_int (ho.jobs j hjobs))
  | none =>
    rw [hjobs, Option.map_none, Option.none_or] at hlookup
    rw [Schema.defaulted_congr _ _ hlookup]
    exact field_alone (fun _ _ h => (ofEntries_ok_iff.mp h).2.2.2.2.1) rfl

end Fields

theorem load_eq {t : FileTree} {start : Path} {entries : List (String × Value)} (o : Overrides)
    (h : nearestEntries t start = .ok entries) {settings : Settings}
    (hread : ofEntries (overlay (standing entries) o) = .ok settings) :
    load t start o = .ok { settings with loadErrors := refused entries } := by
  unfold load
  rw [h]
  show ((ofEntries (overlay (accepted entries) o)).mapError LoadError.invalid >>= fun settings =>
    pure { settings with loadErrors := refused entries }) = _
  rw [accepted_eq_standing, hread]
  rfl

end Settings

open Settings

/-- Whatever the entries of the settings file are, they are loaded, with any values that the command
    line may give. A field is what its own entry makes it, or its default if that entry is missing
    or does not stand; the command line replaces it, or adds to the rules that are off. Each entry
    that does not stand is reported once, in the order of the file, and the other settings are
    those that are loaded without it. -/
theorem bad_entries_stand_alone (t : FileTree) (start : Path) (o : Overrides) (ho : o.Valid)
    (entries : List (String × Value)) (hentries : nearestEntries t start = .ok entries) :
    ∃ settings, load t start o = .ok settings ∧
      settings.rules = (alone entries "rules").rules ∧
      settings.select = o.select.or (alone entries "select").select ∧
      settings.disable = (alone entries "disable").disable ++ o.ignore ∧
      (∀ d, o.deadline = some d →
        ∃ x, Schema.positiveDouble (.number d) = .ok x ∧ settings.deadline = some x) ∧
      (o.deadline = none → settings.deadline = (alone entries "deadline_seconds").deadline) ∧
      settings.jobs = o.jobs.getD (alone entries "jobs").jobs ∧
      List.Forall₂ RefusedWith (entries.filter fun entry => ¬Stands entry) settings.loadErrors ∧
      ∀ t' start', nearestEntries t' start' = .ok (standing entries) →
        load t' start' o = .ok { settings with loadErrors := [] } := by
  obtain ⟨deadline, hdeadline, hgiven, hfile⟩ := overlay_deadline entries ho
  have hread : ∀ es, standing es = standing entries → ofEntries (overlay (standing es) o) =
      .ok { rules := (alone entries "rules").rules
            select := o.select.or (alone entries "select").select
            disable := (alone entries "disable").disable ++ o.ignore
            deadline := deadline
            jobs := o.jobs.getD (alone entries "jobs").jobs } := by
    intro es hes
    rw [hes, ofEntries_ok_iff]
    exact ⟨overlay_rules entries, overlay_select entries, overlay_disable entries, hdeadline,
      overlay_jobs entries ho, rfl⟩
  refine ⟨_, load_eq o hentries (hread entries rfl), rfl, rfl, rfl, hgiven, hfile, rfl,
    refused_each entries, fun t' start' h' => ?_⟩
  -- without the entries that do not stand there is nothing to refuse
  have hrefused : refused (standing entries) = [] := by
    unfold refused
    rw [List.filterMap_eq_nil_iff]
    intro entry hentry
    exact (entryError_eq_none_iff entry).mpr (by simpa [standing] using (List.mem_filter.mp hentry).2)
  rw [load_eq o h' (hread _ (standing_standing entries)), hrefused]

/-! ### A file with bad entries -/

/-- A settings file with two entries that cannot be read and one that is not known. -/
def carelessFile : FileTree where
  top := .folder [(fileName, .file (("[tool.framelint]\ndisable = \"FL003\"\n" ++
    "select = [\"FL001\"]\njobs = 0\ncolour = true\n").toList.map fun c => c.toNat.toUInt8))]

theorem carelessFile_loaded :
    ∃ settings, load carelessFile {} { ignore := ["FL002"] } = .ok settings ∧
      settings.select = some ["FL001"] ∧ settings.disable = ["FL002"] ∧ settings.jobs = 1 ∧
      settings.loadErrors.map SettingError.key = ["disable", "jobs", "colour"] := by
  have hfile : (nearestEntries carelessFile {}).toOption.map (fun entries =>
      ((alone entries "select").select, (alone entries "disable").disable,
        (alone entries "jobs").jobs, (entries.filter fun e => ¬Stands e).map Prod.fst)) =
      some (some ["FL001"], [], 1, ["disable", "jobs", "colour"]) := by
    decide +kernel
  have hvalid : Overrides.Valid { ignore := ["FL002"] } := ⟨by rintro d ⟨⟩, by rintro j ⟨⟩⟩
  cases hentries : nearestEntries carelessFile {} with
  | error e =>
    rw [hentries] at hfile
    cases hfile
  | ok entries =>
    rw [hentries] at hfile
    simp only [Except.toOption, Option.map_some, Option.some.injEq, Prod.mk.injEq] at hfile
    obtain ⟨hselect, hdisable, hjobs, hkeys⟩ := hfile
    obtain ⟨settings, hload, -, hselect', hdisable', -, -, hjobs', herrors, -⟩ :=
      bad_entries_stand_alone carelessFile {} _ hvalid entries hentries
    refine ⟨settings, hload, ?_, ?_, ?_, ?_⟩
    · simpa [hselect] using hselect'
    · simpa [hdisable] using hdisable'
    · simpa [hjobs] using hjobs'
    · rw [← hkeys]
      exact map_key_eq herrors

end Framewise
