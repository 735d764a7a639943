import Framewise.Proofs.Abstraction
import Framewise.Proofs.Writes

/-! # Coherent bindings

  Whether the columns of a frame have been listed depends on where it came from:
  they have after a selection, they may have if it was made from another frame,
  and else they have not. Every way of reading facts off an expression respects
  this, so it is an invariant of trackers: each binding stands under its own name,
  with coherent facts. Which names occur is part of the invariant, as a parameter;
  it is needed where a missing identifier has to be excluded.

  Main definitions:
  - `Facts.Coherent`.
  - `Tracker.Proper`: every binding of every scope is coherent, under its own name.

  Main results:
  - `classify_coherent`: so are the facts of every expression.
  - `Tracker.Proper.write`, `.enter`, `.exit`, `.join`: every change of a tracker
    keeps the invariant.
  - `Summary.bodyState_proper`: it holds of the body of a function that is read.
-/

namespace Framewise

/-! ## Facts -/

/-- The columns have been listed after a selection, and only a selection or a frame made from
    another can have them listed. -/
structure Facts.Coherent (f : Facts) : Prop where
  selected : f.origin = .selection → f.pinned = true
  unpinned : f.origin ≠ .selection → f.origin ≠ .derived → f.pinned = false

namespace Facts.Coherent

theorem unlisted {origin : Origin} (h : origin ≠ .selection) : Coherent { origin := origin } :=
  ⟨fun heq => absurd heq h, fun _ _ => rfl⟩

theorem unknown : Coherent .unknown := unlisted nofun

theorem derived (pinned : Bool) : Coherent { origin := .derived, pinned := pinned } :=
  ⟨nofun, fun _ h => absurd rfl h⟩

theorem selection : Coherent { origin := .selection, pinned := true } :=
  ⟨fun _ => rfl, fun h => absurd rfl h⟩

end Facts.Coherent

theorem origins_ne_selection : ∀ row ∈ Frame.origins, row.origin ≠ .selection := by
  simp [Frame.origins]

/-- A reading lists columns only for a selection, whatever it is read off. -/
theorem Reading.coherent {read : Option Facts → Facts} (h : Reading read) (o : Option Facts) :
    (read o).Coherent := by
  cases h with
  | call n callee =>
    unfold callFacts
    dsimp only
    split
    next row hrow => exact .unlisted (origins_ne_selection row (List.mem_of_find?_eq_some hrow))
    next =>
      cases o with
      | none => exact .unknown
      | some facts =>
        dsimp only
        split
        · split
          · exact .unknown
          · exact .derived _
        · exact .unknown
  | rows accessor index =>
    unfold accessorFacts
    cases o with
    | none => exact .unknown
    | some facts =>
      dsimp only
      split
      · exact .unknown
      · split
        · split
          · split
            · exact .selection
            · split
              · exact .unknown
              · exact .derived _
          · exact .derived _
        · exact .derived _
  | columns index =>
    unfold selectionFacts
    cases o with
    | none => exact .unknown
    | some facts =>
      dsimp only
      split
      · exact .selection
      · split
        · exact .derived _
        · exact .unknown

/-- Only what a resolver says of names can make facts incoherent. -/
theorem classify_coherent {r : Resolver} (h : ∀ name b, r name = .ok (some b) → b.facts.Coherent)
    {n : Node} {facts : Facts} (hfacts : classify r n = .ok facts) : facts.Coherent := by
  refine classify_induction (P := fun c => ∀ facts, c r = .ok facts → facts.Coherent)
    ?_ ?_ ?_ ?_ facts hfacts
  · rintro _ ⟨⟩
    exact .unknown
  · intro m _ _ facts hfacts
    obtain ⟨b, hb, rfl⟩ := of_map_ok hfacts
    cases b with
    | none => exact .unknown
    | some b => exact h m.name b hb
  · rintro read hread _ ⟨⟩
    exact hread.coherent none
  · intro read hread m _ facts hfacts
    obtain ⟨f, _, rfl⟩ := of_map_ok hfacts
    exact hread.coherent f.frame?

/-! ## Bindings -/

/-- A binding under its own name, which is one of those allowed, with coherent facts. -/
structure Binding.Proper (allowed : Ident → Prop) (name : Ident) (b : Binding) : Prop where
  allowed : allowed name
  name : b.name = name
  coherent : b.facts.Coherent

/-- The name of a write is allowed, and its facts are coherent. -/
structure Write.Proper (allowed : Ident → Prop) (w : Write) : Prop where
  allowed : allowed w.1
  coherent : w.2.Coherent

/-- The names that occur in a tree are allowed. -/
def Node.NamesIn (allowed : Ident → Prop) (n : Node) : Prop :=
  ∀ m ∈ n.preorder, m.kind = .name → allowed m.name

/-- Every binding of every scope is proper. -/
def Tracker.Proper (allowed : Ident → Prop) (t : Tracker) : Prop :=
  ∀ scope ∈ t.scopes, scope.store.All (Binding.Proper allowed)

section Invariant

variable {allowed : Ident → Prop}

theorem Binding.Proper.forget {name : Ident} {b : Binding} (h : b.Proper allowed name) :
    Binding.Proper allowed name { name := name, origin := .unknown } :=
  ⟨h.allowed, rfl, .unknown⟩

namespace Node.NamesIn

variable {n : Node}

theorem child (h : n.NamesIn allowed) {c : Node} (hc : c ∈ n.children) : c.NamesIn allowed :=
  fun m hm => h m (mem_preorder_of_child hc hm)

theorem targetWrites (h : n.NamesIn allowed) {facts : Facts} (hfacts : facts.Coherent) :
    ∀ w ∈ n.targetWrites facts, w.Proper allowed := by
  intro w hw
  obtain ⟨name, hname, rfl⟩ := List.mem_map.mp hw
  obtain ⟨m, hm, hkind, rfl⟩ := mem_preorder_of_mem_targetNames hname
  refine ⟨h m hm hkind, ?_⟩
  dsimp only
  split
  · exact hfacts
  · exact .unknown

theorem assignedWrites (h : n.NamesIn allowed) {facts : Facts} (hfacts : facts.Coherent) :
    ∀ w ∈ n.assignedWrites facts, w.Proper allowed := by
  intro w hw
  obtain ⟨target, htarget, hw⟩ := List.mem_flatMap.mp hw
  exact (h.child (mem_of_mem_childrenIn htarget)).targetWrites hfacts w hw

end Node.NamesIn

theorem Node.definedWrites_proper (hsome : ∀ s, allowed (some s)) (n : Node) :
    ∀ w ∈ n.definedWrites, w.Proper allowed := by
  intro w hw
  unfold definedWrites at hw
  split at hw
  next s _ =>
    split at hw
    · exact absurd hw List.not_mem_nil
    · rw [List.mem_singleton.mp hw]
      exact ⟨hsome s, .unknown⟩
  next => exact absurd hw List.not_mem_nil

theorem Summary.parameterOrigin_ne_selection (frames : List String) (name : String) :
    parameterOrigin frames name ≠ .selection := by
  unfold parameterOrigin
  split <;> exact nofun

theorem Summary.parameterWrites_proper (hsome : ∀ s, allowed (some s)) (summary : Summary) :
    ∀ w ∈ summary.parameterWrites, w.Proper allowed := by
  intro w hw
  obtain ⟨name, _, rfl⟩ := List.mem_map.mp hw
  exact ⟨hsome name, .unlisted (parameterOrigin_ne_selection _ name)⟩

/-! ## Trackers -/

namespace Tracker.Proper

variable {t t' : Tracker}

theorem start : Tracker.start.Proper allowed := by
  intro scope hscope
  rw [List.mem_singleton.mp hscope]
  exact .empty

theorem current (h : t.Proper allowed) : t.current.store.All (Binding.Proper allowed) :=
  h t.current List.mem_cons_self

theorem outer (h : t.Proper allowed) :
    ∀ scope ∈ t.outer, scope.store.All (Binding.Proper allowed) :=
  fun scope hscope => h scope (List.mem_cons_of_mem _ hscope)

theorem withStore (h : t.Proper allowed) {store : Store}
    (hstore : store.All (Binding.Proper allowed)) : (t.withStore store).Proper allowed :=
  List.forall_mem_cons.mpr ⟨hstore, h.outer⟩

theorem write (h : t.Proper allowed) {w : Write} (hw : w.Proper allowed) :
    (t.write w).Proper allowed :=
  h.withStore (h.current.put ⟨hw.allowed, rfl, hw.coherent⟩)

theorem enter (h : t.Proper allowed) (name : String) (summary : Option Summary) :
    (t.enter name summary).Proper allowed :=
  List.forall_mem_cons.mpr ⟨.empty, h⟩

theorem exit (h : t.Proper allowed) : t.exit.Proper allowed := by
  unfold Tracker.exit
  split
  next scope rest houter =>
    have hscopes := h.outer
    rw [houter] at hscopes
    exact hscopes
  next => exact h

/-- A merge keeps a binding of an arm, or forgets it. -/
theorem join (h : t.Proper allowed) {start : Store} {outcomes : List Store} {fallthrough : Bool}
    (hstart : start.All (Binding.Proper allowed))
    (houtcomes : ∀ s ∈ outcomes, s.All (Binding.Proper allowed))
    (hjoin : t.join start outcomes fallthrough = .ok t') : t'.Proper allowed := by
  rw [Tracker.join_eq] at hjoin
  obtain ⟨merged, hmerge, rfl⟩ := of_map_ok hjoin
  refine h.withStore (.merge hmerge (fun _ _ hb => hb.forget) fun s hs => ?_)
  rcases mem_pathStores hs with hs | rfl
  · exact houtcomes s hs
  · exact hstart

theorem lookup (h : t.Proper allowed) {name : Ident} {b : Binding}
    (hb : t.lookup name = some b) : b.Proper allowed name := by
  obtain ⟨scope, hscope, hget⟩ := List.exists_of_findSome?_eq_some hb
  exact (h scope hscope).get? hget

/-- What a tracker resolves is coherent and goes by the name that was asked for. -/
theorem resolve (h : t.Proper allowed) {name : Ident} {b : Binding}
    (hb : t.resolve name = .ok (some b)) : b.name = name ∧ b.facts.Coherent := by
  unfold Tracker.resolve at hb
  split at hb
  next known hknown =>
    have hproper := h.lookup hknown
    split at hb
    · cases hb
      exact ⟨hproper.name, hproper.coherent⟩
    · cases hb
  next =>
    split at hb
    next s =>
      split at hb
      · cases hb
        exact ⟨rfl, .unlisted nofun⟩
      · cases hb
    next => cases hb

/-- Only a name that is bound, or one that is there, resolves to a frame. -/
theorem resolve_allowed (h : t.Proper allowed) (hsome : ∀ s, allowed (some s)) {name : Ident}
    {b : Binding} (hb : t.resolve name = .ok (some b)) : allowed name := by
  cases name with
  | some s => exact hsome s
  | none =>
    unfold Tracker.resolve at hb
    split at hb
    next known hknown => exact (h.lookup hknown).allowed
    next => cases hb

theorem classify (h : t.Proper allowed) {n : Node} {facts : Facts}
    (hfacts : t.classify n = .ok facts) : facts.Coherent :=
  classify_coherent (fun _ _ hb => (h.resolve hb).2) hfacts

theorem assignedFacts (h : t.Proper allowed) {n : Node} {facts : Facts}
    (hfacts : t.assignedFacts n = .ok facts) : facts.Coherent := by
  unfold Tracker.assignedFacts at hfacts
  split at hfacts
  · cases hfacts
    exact .unknown
  · split at hfacts
    · exact h.classify hfacts
    · cases hfacts
      exact .unknown

end Tracker.Proper

end Invariant

/-! ## Bodies of functions -/

namespace Summary

variable {outer : Resolver}

/-- What is bound in a function, and whether a frame has been returned, once the first `k` nodes
    of its body have been read. -/
def bodyState (function : Node) (outer : Resolver) (k : Nat) : Except Fault (Store × Bool) :=
  (function.localNodes.take k).foldlM (readNode outer)
    (parameterStore (parametersOf function) (frameParametersOf function), false)

theorem resolveIn_coherent (houter : ∀ name b, outer name = .ok (some b) → b.facts.Coherent)
    {store : Store} (hstore : store.All (Binding.Proper fun _ => True)) :
    ∀ name b, resolveIn store outer name = .ok (some b) → b.facts.Coherent := by
  intro name b hb
  unfold resolveIn at hb
  split at hb
  next known hknown =>
    split at hb
    · cases hb
      exact (hstore.get? hknown).coherent
    · cases hb
  next => exact houter name b hb

theorem parameterStore_proper (parameters frames : List String) :
    (parameterStore parameters frames).All (Binding.Proper fun _ => True) :=
  .foldl_put .empty fun name _ =>
    ⟨trivial, rfl, .unlisted (parameterOrigin_ne_selection frames name)⟩

/-- One node of a body binds its names to what the body has bound so far. -/
theorem readNode_proper (houter : ∀ name b, outer name = .ok (some b) → b.facts.Coherent)
    {state after : Store × Bool} (hstate : state.1.All (Binding.Proper fun _ => True)) {n : Node}
    (h : readNode outer state n = .ok after) : after.1.All (Binding.Proper fun _ => True) := by
  have hput : ∀ facts : Facts, facts.Coherent → ∀ names : List Ident,
      (names.foldl (fun store name => store.put name
        { name := name, origin := facts.origin, pinned := facts.pinned }) state.1).All
        (Binding.Proper fun _ => True) :=
    fun facts hfacts names => hstate.foldl_put fun name _ => ⟨trivial, rfl, hfacts⟩
  have hclassify : ∀ value facts, classify (resolveIn state.1 outer) value = .ok facts →
      facts.Coherent :=
    fun value facts => classify_coherent (resolveIn_coherent houter hstate)
  unfold readNode at h
  dsimp only at h
  split at h
  · -- an assignment is the only node that binds
    split at h
    next value _ =>
      cases hfacts : classify (resolveIn state.1 outer) value with
      | error fault => rw [hfacts] at h; cases h
      | ok facts =>
        rw [hfacts] at h
        cases h
        exact hput facts (hclassify value facts hfacts) _
    next =>
      cases h
      exact hput .unknown .unknown _
  · split at h
    · split at h
      next value _ =>
        cases hfacts : classify (resolveIn state.1 outer) value with
        | error fault => rw [hfacts] at h; cases h
        | ok facts =>
          rw [hfacts] at h
          cases h
          exact hstate
      next =>
        cases h
        exact hstate
    · cases h
      exact hstate

theorem bodyState_proper (houter : ∀ name b, outer name = .ok (some b) → b.facts.Coherent)
    {function : Node} {k : Nat} {state : Store × Bool}
    (h : bodyState function outer k = .ok state) :
    state.1.All (Binding.Proper fun _ => True) := by
  have hstart : (parameterStore (parametersOf function) (frameParametersOf function)).All
      (Binding.Proper fun _ => True) := parameterStore_proper _ _
  refine foldlM_invariant (P := fun state : Store × Bool =>
    state.1.All (Binding.Proper fun _ => True)) hstart ?_ h
  exact fun _ _ _ _ hstate => readNode_proper houter hstate

end Summary

end Framewise
