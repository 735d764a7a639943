import Framewise.Proofs.Stores
import Framewise.Proofs.Success
import Framewise.Proofs.TextOrder
import Mathlib.Data.List.Forall2
import Mathlib.Data.List.Perm.Basic

/-! # Merging in any order and grouping

  A merge asks two things about a name: whether some path knows it, and whether all
  paths hold the same binding. Neither depends on the order of the paths or on how
  often one of them is counted, and a path may stand for several that have been
  merged before: what these disagree on it holds as unknown, which is what the whole
  comes to hold as well.

  Main definitions:
  - `Store.Alike`: paths that give the same answers to both questions.
  - `Store.StandsFor`: a store that answers for several paths.

  Main results:
  - `Store.merge_congr`, `Store.merge_of_mem_iff`: the answers decide the merge, so order
    and repetitions do not count.
  - `Store.merge_groups`, `Store.merge_cons_merge`: groups may be merged first.
-/

namespace Framewise

/-! ## Lists of computations -/

section Lists

variable {ε α β : Type} {f : α → Except ε β}

theorem of_mapM_ok {items : List α} {results : List β} (h : items.mapM f = .ok results) :
    List.Forall₂ (fun a b => f a = .ok b) items results := by
  induction items generalizing results with
  | nil =>
    cases h
    exact .nil
  | cons a items ih =>
    rw [List.mapM_cons] at h
    obtain ⟨b, hb, h⟩ := of_bind_ok h
    obtain ⟨rest, hrest, h⟩ := of_bind_ok h
    cases h
    exact .cons hb (ih hrest)

theorem of_mapM_error {items : List α} {e : ε} (h : items.mapM f = .error e) :
    ∃ a ∈ items, f a = .error e := by
  induction items with
  | nil => cases h
  | cons a items ih =>
    rw [List.mapM_cons] at h
    cases hfirst : f a with
    | error e' =>
      rw [hfirst] at h
      cases h
      exact ⟨a, List.mem_cons_self, hfirst⟩
    | ok b =>
      rw [hfirst] at h
      cases hrest : items.mapM f with
      | error e' =>
        have he : e' = e := by
          rw [hrest] at h
          exact Except.error.inj h
        obtain ⟨a', ha', herror⟩ := ih (he ▸ hrest)
        exact ⟨a', List.mem_cons_of_mem _ ha', herror⟩
      | ok results =>
        rw [hrest] at h
        cases h

end Lists

/-! ## Sorted names -/

/-- In a sorted list equal elements are neighbours, so none is left twice. -/
theorem eraseReps_strict {α : Type} [BEq α] [LawfulBEq α] {le : α → α → Prop}
    (htrans : ∀ a b c, le a b → le b c → le a c) (hanti : ∀ a b, le a b → le b a → a = b)
    {items : List α} (h : items.Pairwise le) :
    items.eraseReps.Pairwise fun a b => le a b ∧ a ≠ b := by
  -- the loop holds the elements it has passed in reverse, each of them before the last one
  have hloop : ∀ (rest : List α) (last : α) (passed : List α), (last :: rest).Pairwise le →
      (last :: passed).Pairwise (fun a b => le b a ∧ b ≠ a) →
      (List.eraseRepsBy.loop (· == ·) last rest passed).Pairwise fun a b => le a b ∧ a ≠ b := by
    intro rest
    induction rest with
    | nil =>
      intro last passed _ hpassed
      unfold List.eraseRepsBy.loop
      rw [List.pairwise_reverse]
      exact hpassed
    | cons next rest ih =>
      intro last passed hsorted hpassed
      obtain ⟨hlast, hrest⟩ := List.pairwise_cons.mp hsorted
      unfold List.eraseRepsBy.loop
      split
      next heq =>
        obtain rfl : last = next := eq_of_beq heq
        exact ih last passed hrest hpassed
      next hne =>
        have hlt : le last next := hlast next List.mem_cons_self
        have hdiff : last ≠ next := by simpa using hne
        refine ih next (last :: passed) hrest (List.pairwise_cons.mpr ⟨?_, hpassed⟩)
        intro p hp
        rcases List.mem_cons.mp hp with rfl | hp
        · exact ⟨hlt, hdiff⟩
        · obtain ⟨hle, _⟩ := (List.pairwise_cons.mp hpassed).1 p hp
          refine ⟨htrans p last next hle hlt, ?_⟩
          rintro rfl
          exact hdiff (hanti last p hlt hle)
  cases items with
  | nil => exact .nil
  | cons first rest => exact hloop rest first [] h (List.pairwise_singleton _ _)

namespace Store

theorem nameLE_trans (a b c : Ident) (h : nameLE a b = true) (h' : nameLE b c = true) :
    nameLE a c = true := by
  cases a with
  | none => rfl
  | some s =>
    cases b with
    | none => cases h
    | some s' =>
      cases c with
      | none => cases h'
      | some s'' => exact Text.le_trans h h'

theorem nameLE_total (a b : Ident) : (nameLE a b || nameLE b a) = true := by
  cases a with
  | none => rfl
  | some s =>
    cases b with
    | none => rfl
    | some s' => exact Text.le_total s s'

theorem nameLE_antisymm (a b : Ident) (h : nameLE a b = true) (h' : nameLE b a = true) :
    a = b := by
  cases a with
  | none =>
    cases b with
    | none => rfl
    | some s => cases h'
  | some s =>
    cases b with
    | none => cases h
    | some s' => exact congrArg some (le_antisymm (Text.le_iff.mp h) (Text.le_iff.mp h'))

theorem sortNames_strict (names : List Ident) :
    (sortNames names).Pairwise fun a b => nameLE a b = true ∧ a ≠ b :=
  eraseReps_strict nameLE_trans nameLE_antisymm
    (List.pairwise_mergeSort nameLE_trans nameLE_total names)

/-- The sorted names depend only on which names there are. -/
theorem sortNames_congr {names names' : List Ident} (h : ∀ name, name ∈ names ↔ name ∈ names') :
    sortNames names = sortNames names' := by
  have hstrict := sortNames_strict names
  have hstrict' := sortNames_strict names'
  have hperm : (sortNames names).Perm (sortNames names') := by
    rw [List.perm_ext_iff_of_nodup (hstrict.imp And.right) (hstrict'.imp And.right)]
    intro name
    rw [mem_sortNames, mem_sortNames, h]
  refine hperm.eq_of_pairwise ?_ hstrict hstrict'
  intro a b _ _ hab hba
  exact nameLE_antisymm a b hab.1 hba.1

theorem unorderable_congr {names names' : List Ident} (h : ∀ name, name ∈ names ↔ name ∈ names') :
    unorderable names = unorderable names' := by
  have hnone : names.contains none = names'.contains none := by simp [h]
  have hsome : names.any Option.isSome = names'.any Option.isSome := by
    rw [Bool.eq_iff_iff]
    simp only [List.any_eq_true, h]
  rw [unorderable, unorderable, hnone, hsome]

/-! ## What a merge asks about a name -/

/-- What a merge holds for a name on which the paths disagree. -/
def forgotten (name : Ident) : Binding := { name := name, origin := .unknown }

/-- Anything else is held after a merge only if every path holds it. -/
theorem mergeBinding_eq_iff {name : Ident} {candidates : List (Option Binding)} {b : Binding}
    (hne : candidates ≠ []) (hb : b ≠ forgotten name) :
    mergeBinding name candidates = b ↔ ∀ c ∈ candidates, c = some b := by
  obtain ⟨first, rest, rfl⟩ := List.exists_cons_of_ne_nil hne
  cases first with
  | none =>
    constructor
    · intro h
      exact absurd h.symm hb
    · intro h
      exact absurd (h none List.mem_cons_self) nofun
  | some first =>
    unfold mergeBinding
    dsimp only
    split
    next hall =>
      have hall' : ∀ c ∈ rest, c = some first := by simpa using hall
      rw [List.forall_mem_cons]
      constructor
      · rintro rfl
        exact ⟨rfl, hall'⟩
      · rintro ⟨hfirst, _⟩
        exact Option.some.inj hfirst
    next hnot =>
      constructor
      · intro h
        exact absurd h.symm hb
      · intro h
        obtain ⟨hfirst, hrest⟩ := List.forall_mem_cons.mp h
        cases hfirst
        exact absurd (by simpa using hrest) hnot

theorem mergeBinding_congr {name : Ident} {candidates candidates' : List (Option Binding)}
    (hne : candidates ≠ []) (hne' : candidates' ≠ [])
    (h : ∀ b, b ≠ forgotten name → ((∀ c ∈ candidates, c = some b) ↔ ∀ c ∈ candidates', c = some b)) :
    mergeBinding name candidates = mergeBinding name candidates' := by
  by_cases hforgot : mergeBinding name candidates = forgotten name
  · by_contra hdiff
    have hb : mergeBinding name candidates' ≠ forgotten name :=
      fun heq => hdiff (hforgot.trans heq.symm)
    have hall' := (mergeBinding_eq_iff hne' hb).mp rfl
    exact hdiff ((mergeBinding_eq_iff hne hb).mpr ((h _ hb).mpr hall'))
  · have hall := (mergeBinding_eq_iff hne hforgot).mp rfl
    exact ((mergeBinding_eq_iff hne' hforgot).mpr ((h _ hforgot).mp hall)).symm

/-- The first paths know the names that the second know, and hold for certain what those hold. -/
structure Alike (stores stores' : List Store) : Prop where
  known : ∀ name, (∃ s ∈ stores, s.get? name ≠ none) ↔ ∃ s ∈ stores', s.get? name ≠ none
  held : ∀ name b, b ≠ forgotten name →
    ((∀ s ∈ stores, s.get? name = some b) ↔ ∀ s ∈ stores', s.get? name = some b)

/-- A merge depends only on what the paths know and what all of them hold. -/
theorem merge_congr {stores stores' : List Store} (h : Alike stores stores') (hne : stores ≠ [])
    (hne' : stores' ≠ []) : merge stores = merge stores' := by
  have hnames : ∀ name, name ∈ stores.flatMap names ↔ name ∈ stores'.flatMap names := by
    intro name
    simpa only [List.mem_flatMap, mem_names_iff] using h.known name
  have hbindings : ∀ name, mergeBinding name (stores.map fun s => s.get? name) =
      mergeBinding name (stores'.map fun s => s.get? name) := by
    intro name
    refine mergeBinding_congr (by simpa using hne) (by simpa using hne') fun b hb => ?_
    simpa using h.held name b hb
  simp only [merge, unorderable_congr hnames, sortNames_congr hnames, hbindings]

/-! ## Groups of paths -/

/-- A store that says what several say together. -/
structure StandsFor (merged : Store) (stores : List Store) : Prop where
  known : ∀ name, merged.get? name ≠ none ↔ ∃ s ∈ stores, s.get? name ≠ none
  held : ∀ name b, b ≠ forgotten name →
    (merged.get? name = some b ↔ ∀ s ∈ stores, s.get? name = some b)

namespace StandsFor

theorem single (s : Store) : s.StandsFor [s] where
  known name := by simp
  held name b _ := by simp

theorem of_merge {stores : List Store} {merged : Store} (hne : stores ≠ [])
    (hmerge : merge stores = .ok merged) : merged.StandsFor stores where
  known name := by
    rw [Ne, get?_merge_none hmerge]
    simp
  held name b hb := by
    constructor
    · intro hget
      rw [get?_merge hmerge] at hget
      split at hget
      next =>
        have hall := (mergeBinding_eq_iff (by simpa using hne) hb).mp (Option.some.inj hget)
        simpa using hall
      next => cases hget
    · exact get?_merge_eq hmerge hne

/-- Stores that each stand for a group say together what all groups say. -/
theorem alike {stores : List Store} {groups : List (List Store)}
    (h : List.Forall₂ StandsFor stores groups) : Alike stores groups.flatten where
  known name := by
    induction h with
    | nil => simp
    | cons hfirst _ ih => simp [hfirst.known name, ih, or_and_right, exists_or]
  held name b hb := by
    induction h with
    | nil => simp
    | cons hfirst _ ih => simp [hfirst.held name b hb, ih, or_imp, forall_and]

end StandsFor

theorem merge_of_standsFor {stores : List Store} {groups : List (List Store)}
    (h : List.Forall₂ StandsFor stores groups) (hne : ∀ group ∈ groups, group ≠ []) :
    merge stores = merge groups.flatten := by
  cases h with
  | nil => rfl
  | @cons s group stores groups hs hrest =>
    have hgroup : group ≠ [] := hne group List.mem_cons_self
    refine merge_congr (StandsFor.alike (.cons hs hrest)) (List.cons_ne_nil _ _) ?_
    simp [hgroup]

/-- Paths whose names cannot be put in order spoil every merge they are part of. -/
theorem merge_error_of_subset {stores more : List Store} (hsubset : stores ⊆ more) {fault : Fault}
    (h : merge stores = .error fault) : merge more = .error fault := by
  have hnames : stores.flatMap names ⊆ more.flatMap names := by
    intro name hname
    obtain ⟨s, hs, hname⟩ := List.mem_flatMap.mp hname
    exact List.mem_flatMap.mpr ⟨s, hsubset hs, hname⟩
  have hpart : unorderable (stores.flatMap names) = true ∧ fault = .unordered := by
    unfold merge at h
    dsimp only at h
    split at h
    next hnames =>
      cases h
      exact ⟨hnames, rfl⟩
    next => cases h
  have hwhole : unorderable (more.flatMap names) = true := by
    by_contra hnot
    have hfalse := unorderable_of_subset hnames (Bool.eq_false_iff.mpr hnot)
    rw [hpart.1] at hfalse
    cases hfalse
  simp only [merge, hwhole, if_true, hpart.2]

/-- Neither the order of the paths counts nor how often one of them is there. -/
theorem merge_of_mem_iff {stores stores' : List Store} (h : ∀ s, s ∈ stores ↔ s ∈ stores') :
    merge stores = merge stores' := by
  by_cases hne : stores = []
  · have hne' : stores' = [] := List.eq_nil_iff_forall_not_mem.mpr fun s hs => by
      have hmem := (h s).mpr hs
      simp [hne] at hmem
    rw [hne, hne']
  · have hne' : stores' ≠ [] := by
      obtain ⟨s, hs⟩ := List.exists_mem_of_ne_nil stores hne
      exact List.ne_nil_of_mem ((h s).mp hs)
    refine merge_congr ⟨fun name => ?_, fun name b _ => ?_⟩ hne hne'
    · simp only [h]
    · simp only [h]

/-- Groups of paths may be merged first. -/
theorem merge_groups {groups : List (List Store)} (hne : ∀ group ∈ groups, group ≠ []) :
    (groups.mapM merge >>= merge) = merge groups.flatten := by
  cases hmerges : groups.mapM merge with
  | error fault =>
    obtain ⟨group, hgroup, herror⟩ := of_mapM_error hmerges
    have hsubset : group ⊆ groups.flatten := fun s hs => List.mem_flatten_of_mem hgroup hs
    exact (merge_error_of_subset hsubset herror).symm
  | ok merges =>
    refine merge_of_standsFor ?_ hne
    have hall := of_mapM_ok hmerges
    clear hmerges
    induction hall with
    | nil => exact .nil
    | @cons group merged groups merges hmerge _ ih =>
      obtain ⟨hgroup, hrest⟩ := List.forall_mem_cons.mp hne
      exact .cons (.of_merge hgroup hmerge) (ih hrest)

/-- So may all paths but one. -/
theorem merge_cons_merge (s : Store) {stores : List Store} (hne : stores ≠ []) :
    (merge stores >>= fun merged => merge [s, merged]) = merge (s :: stores) := by
  cases hmerge : merge stores with
  | error fault => exact (merge_error_of_subset (List.subset_cons_self s stores) hmerge).symm
  | ok merged =>
    have hgroups := merge_of_standsFor (.cons (.single s) (.cons (.of_merge hne hmerge) .nil))
      (by simp [hne])
    show merge [s, merged] = _
    simpa using hgroups

end Store

end Framewise
