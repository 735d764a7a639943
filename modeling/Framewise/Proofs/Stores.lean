import Framewise.Binding.Store

/-! # Stores as maps

  What a store holds for a name after a binding and after a merge. A merge knows
  every name that some path knows, and holds a frame for it only if every path
  holds that very binding.

  Main results:
  - `Store.get?_put`: the latest binding of a name counts.
  - `Store.get?_merge`: what a merge holds, name by name.
  - `Store.get?_merge_frame`: a frame after a merge is a frame on every path.
  - `Store.All.merge`: a merge keeps what holds of every binding.
-/

namespace Framewise

/-- Dropping repetitions loses no element. -/
theorem mem_eraseReps {α : Type} [BEq α] [LawfulBEq α] {items : List α} {a : α} :
    a ∈ items.eraseReps ↔ a ∈ items := by
  -- the loop holds the elements it has passed, and the last of them apart
  have hloop : ∀ (last : α) (rest passed : List α),
      a ∈ List.eraseRepsBy.loop (· == ·) last rest passed ↔
        a = last ∨ a ∈ rest ∨ a ∈ passed := by
    intro last rest
    induction rest generalizing last with
    | nil => simp [List.eraseRepsBy.loop, or_comm]
    | cons next rest ih =>
      intro passed
      unfold List.eraseRepsBy.loop
      split
      next heq =>
        rw [ih, List.mem_cons, eq_of_beq heq]
        grind
      next =>
        rw [ih, List.mem_cons, List.mem_cons]
        grind
  cases items with
  | nil => rfl
  | cons first rest =>
    unfold List.eraseReps List.eraseRepsBy
    simp [hloop]

namespace Store

/-! ## Bindings -/

/-- The latest binding of a name counts, and no other name is touched. -/
theorem get?_put (store : Store) (name name' : Ident) (b : Binding) :
    (store.put name b).get? name' = if name' = name then some b else store.get? name' := by
  obtain ⟨entries⟩ := store
  unfold put get?
  induction entries with
  | nil =>
    by_cases h : name' = name
    · simp [putEntry, h]
    · simp [putEntry, h, Ne.symm h]
  | cons entry rest ih =>
    simp only [putEntry]
    -- the entry is replaced where it stands, or lies before the one that is
    by_cases hentry : entry.1 = name
    · by_cases h : name' = name
      · simp [hentry, h]
      · simp [hentry, h, Ne.symm h]
    · by_cases h' : entry.1 = name'
      · have hne : ¬ name' = name := fun heq => hentry (h'.trans heq)
        simp [h', hne]
      · simpa [hentry, h'] using ih

theorem mem_names_iff (store : Store) (name : Ident) :
    name ∈ store.names ↔ store.get? name ≠ none := by
  unfold names get?
  simp [List.find?_eq_none]

/-! ## Merges -/

theorem mem_sortNames {names : List Ident} {name : Ident} :
    name ∈ sortNames names ↔ name ∈ names := by
  unfold sortNames
  rw [mem_eraseReps, List.mem_mergeSort]

/-- A frame that survives a merge is what every path holds. -/
theorem mergeBinding_frame {name : Ident} {candidates : List (Option Binding)}
    (h : (mergeBinding name candidates).isFrame = true) :
    ∀ c ∈ candidates, c = some (mergeBinding name candidates) := by
  unfold mergeBinding at h ⊢
  split at h
  next first rest =>
    split at h
    next hall =>
      -- the candidates agree, and the result is their common value
      simp only [hall, if_true, List.forall_mem_cons, true_and]
      intro c hc
      simpa using List.all_eq_true.mp hall c hc
    next => simp [Binding.isFrame] at h
  next => simp [Binding.isFrame] at h

theorem not_unorderable {stores : List Store} (h : ∀ s ∈ stores, s.get? none = none) :
    unorderable (stores.flatMap names) = false := by
  have hnone : none ∉ stores.flatMap names := by
    intro hmem
    obtain ⟨s, hs, hname⟩ := List.mem_flatMap.mp hmem
    exact (s.mem_names_iff none).mp hname (h s hs)
  simp [unorderable, hnone]

theorem unorderable_of_subset {names more : List Ident} (h : names ⊆ more)
    (hmore : unorderable more = false) : unorderable names = false := by
  unfold unorderable at hmore ⊢
  simp only [Bool.and_eq_false_iff, List.contains_eq_mem, decide_eq_false_iff_not,
    List.any_eq_false] at hmore ⊢
  rcases hmore with hnone | hsome
  · exact .inl fun hmem => hnone (h hmem)
  · exact .inr fun name hname => hsome name (h hname)

theorem get?_mk_map (names : List Ident) (held : Ident → Binding) (name : Ident) :
    get? ⟨names.map fun name => (name, held name)⟩ name =
      if name ∈ names then some (held name) else none := by
  unfold get?
  induction names with
  | nil => rfl
  | cons first rest ih =>
    by_cases hfirst : first = name
    · simp [hfirst]
    · simpa [hfirst, Ne.symm hfirst] using ih

section Merge

variable {stores : List Store} {merged : Store}

/-- Names that can be put in order can be merged. -/
theorem merge_ok (h : unorderable (stores.flatMap names) = false) :
    ∃ merged, merge stores = .ok merged := ⟨_, by simp only [merge, h]; rfl⟩

theorem of_merge (hmerge : merge stores = .ok merged) :
    unorderable (stores.flatMap names) = false ∧
      merged = ⟨(sortNames (stores.flatMap names)).map fun name =>
        (name, mergeBinding name (stores.map fun s => s.get? name))⟩ := by
  unfold merge at hmerge
  dsimp only at hmerge
  split at hmerge
  next => cases hmerge
  next h => exact ⟨Bool.eq_false_iff.mpr h, (Except.ok.inj hmerge).symm⟩

/-- What a merge holds, name by name. -/
theorem get?_merge (hmerge : merge stores = .ok merged) (name : Ident) :
    merged.get? name =
      if name ∈ stores.flatMap names then
        some (mergeBinding name (stores.map fun s => s.get? name)) else none := by
  rw [(of_merge hmerge).2, get?_mk_map]
  simp only [mem_sortNames]

/-- A name that no path knows is not known after a merge. -/
theorem get?_merge_none (hmerge : merge stores = .ok merged) {name : Ident} :
    merged.get? name = none ↔ ∀ s ∈ stores, s.get? name = none := by
  rw [get?_merge hmerge]
  simp [mem_names_iff]

/-- A frame after a merge is that frame on every path. -/
theorem get?_merge_frame (hmerge : merge stores = .ok merged) {name : Ident} {b : Binding}
    (hb : merged.get? name = some b) (hframe : b.isFrame = true) :
    ∀ s ∈ stores, s.get? name = some b := by
  rw [get?_merge hmerge] at hb
  split at hb
  next =>
    cases hb
    intro s hs
    exact mergeBinding_frame hframe _ (List.mem_map_of_mem hs)
  next => cases hb

/-- What every path holds is held after a merge. -/
theorem get?_merge_eq (hmerge : merge stores = .ok merged) (hne : stores ≠ []) {name : Ident}
    {held : Option Binding} (h : ∀ s ∈ stores, s.get? name = held) :
    merged.get? name = held := by
  cases held with
  | none => exact (get?_merge_none hmerge).mpr h
  | some b =>
    obtain ⟨first, rest, rfl⟩ := List.exists_cons_of_ne_nil hne
    obtain ⟨hfirst, hrest⟩ := List.forall_mem_cons.mp h
    have hmem : name ∈ (first :: rest).flatMap names :=
      List.mem_flatMap.mpr ⟨first, List.mem_cons_self, by simp [mem_names_iff, hfirst]⟩
    rw [get?_merge hmerge, if_pos hmem, List.map_cons, hfirst]
    have hall : ((rest.map fun s => s.get? name).all fun c => c = some b) = true := by
      simpa using hrest
    simp only [mergeBinding, hall, if_true]

end Merge

/-! ## Properties of all bindings -/

/-- A property of every entry of a store. -/
def All (P : Ident → Binding → Prop) (store : Store) : Prop :=
  ∀ entry ∈ store.entries, P entry.1 entry.2

namespace All

variable {P : Ident → Binding → Prop} {store : Store}

theorem empty : Store.empty.All P := nofun

theorem get? (h : store.All P) {name : Ident} {b : Binding} (hb : store.get? name = some b) :
    P name b := by
  obtain ⟨entry, hentry, rfl⟩ := Option.map_eq_some_iff.mp hb
  have hname : entry.1 = name := by simpa using List.find?_some hentry
  exact hname ▸ h entry (List.mem_of_find?_eq_some hentry)

theorem put (h : store.All P) {name : Ident} {b : Binding} (hb : P name b) :
    (store.put name b).All P := by
  obtain ⟨entries⟩ := store
  unfold Store.put All at *
  induction entries with
  | nil => simpa [putEntry] using hb
  | cons entry rest ih =>
    obtain ⟨hentry, hrest⟩ := List.forall_mem_cons.mp h
    simp only [putEntry]
    split
    · exact List.forall_mem_cons.mpr ⟨hb, hrest⟩
    · exact List.forall_mem_cons.mpr ⟨hentry, ih hrest⟩

theorem foldl_put {α : Type} (h : store.All P) {items : List α} {name : α → Ident}
    {b : α → Binding} (hb : ∀ a ∈ items, P (name a) (b a)) :
    (items.foldl (fun store a => store.put (name a) (b a)) store).All P := by
  induction items generalizing store with
  | nil => exact h
  | cons a rest ih =>
    obtain ⟨hfirst, hrest⟩ := List.forall_mem_cons.mp hb
    exact ih (h.put hfirst) hrest

theorem mem_names (h : store.All P) {name : Ident} (hname : name ∈ store.names) :
    ∃ b, P name b := by
  obtain ⟨entry, hentry, rfl⟩ := List.mem_map.mp hname
  exact ⟨entry.2, h entry hentry⟩

/-- A merge keeps a binding of a path or forgets it, so a property survives that does. -/
theorem merge {stores : List Store} {merged : Store} (hmerge : Store.merge stores = .ok merged)
    (hforget : ∀ name b, P name b → P name { name := name, origin := .unknown })
    (h : ∀ s ∈ stores, s.All P) : merged.All P := by
  rw [(of_merge hmerge).2]
  intro entry hentry
  obtain ⟨name, hname, rfl⟩ := List.mem_map.mp hentry
  obtain ⟨s, hs, hmem⟩ := List.mem_flatMap.mp (mem_sortNames.mp hname)
  obtain ⟨b, hb⟩ := (h s hs).mem_names hmem
  have hforgotten := hforget name b hb
  dsimp only
  unfold mergeBinding
  split
  next first rest hcandidates =>
    split
    next =>
      -- the candidates agree, and the first of them stands in a store
      have hfirst : some first ∈ stores.map fun s => s.get? name := by
        rw [hcandidates]
        exact List.mem_cons_self
      obtain ⟨s', hs', hget⟩ := List.mem_map.mp hfirst
      exact (h s' hs').get? hget
    next => exact hforgotten
  next => exact hforgotten

end All

end Store

end Framewise
