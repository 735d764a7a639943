import Framewise.Proofs.Classification
import Framewise.Proofs.Itinerary
import Framewise.Proofs.Stores

/-! # Trackers that know less

  A merge forgets what the paths that lead to it do not agree on. The tracker of
  a walk with merges therefore knows less than the tracker of a single path, but
  what it knows is right: it has the same scopes, knows every name that the path
  knows, and a frame it holds for a name is the frame that the path holds. Every
  change of a tracker keeps this relation, and a merge establishes it for each of
  the paths that are merged.

  Main definitions:
  - `Store.Abstracts`, `Scope.Abstracts`, `Tracker.Abstracts`.

  Main results:
  - `Tracker.Abstracts.resolve`: what a weaker tracker resolves is right.
  - `Tracker.Abstracts.enterFunction`, `.bindAssignment`, `.bindTarget`, `.define`:
    the changes keep the relation.
  - `Tracker.join_abstracts`: so does a merge, for every path.
-/

namespace Framewise

/-! ## Stores -/

/-- The first store knows every name that the second knows, and its frames are right. -/
structure Store.Abstracts (s s' : Store) : Prop where
  unnamed : s.get? none = none
  absent : ∀ {name}, s.get? name = none → s'.get? name = none
  frame : ∀ {name b}, s.get? name = some b → b.isFrame = true → s'.get? name = some b

namespace Store.Abstracts

theorem empty : Store.empty.Abstracts Store.empty := ⟨rfl, fun _ => rfl, nofun⟩

theorem put {s s' : Store} (h : s.Abstracts s') (name : String) {f g : Facts}
    (hfacts : f.Abstracts g) :
    (s.put (some name) { name := some name, origin := f.origin, pinned := f.pinned }).Abstracts
      (s'.put (some name) { name := some name, origin := g.origin, pinned := g.pinned }) where
  unnamed := by simpa [get?_put] using h.unnamed
  absent := by
    intro name' hnone
    rw [get?_put] at hnone ⊢
    split at hnone
    next => cases hnone
    next hne => rw [if_neg hne]; exact h.absent hnone
  frame := by
    intro name' b hb hframe
    rw [get?_put] at hb ⊢
    split at hb
    next heq =>
      cases hb
      rw [if_pos heq, hfacts hframe]
    next hne => rw [if_neg hne]; exact h.frame hb hframe

/-- A merge knows less than any of the stores that are merged. -/
theorem merge {s s' : Store} (h : s.Abstracts s') {stores : List Store} {merged : Store}
    (hmerge : Store.merge stores = .ok merged) (hunnamed : ∀ s ∈ stores, s.get? none = none)
    (hs : s ∈ stores) : merged.Abstracts s' where
  unnamed := (get?_merge_none hmerge).mpr hunnamed
  absent hnone := h.absent ((get?_merge_none hmerge).mp hnone s hs)
  frame hb hframe := h.frame (get?_merge_frame hmerge hb hframe s hs) hframe

end Store.Abstracts

/-! ## Scopes and trackers -/

/-- The same function, but the first summary may miss that it returns a frame. -/
structure Summary.Abstracts (s s' : Summary) : Prop where
  name : s'.name = s.name
  parameters : s'.parameters = s.parameters
  frameParameters : s'.frameParameters = s.frameParameters
  returnsFrame : s.returnsFrame = true → s'.returnsFrame = true

/-- The same scope, of which the first knows less. -/
structure Scope.Abstracts (s s' : Scope) : Prop where
  name : s'.name = s.name
  summary : Option.Rel Summary.Abstracts s.summary s'.summary
  store : s.store.Abstracts s'.store

/-- The same scopes, of which the first knows less. -/
structure Tracker.Abstracts (t t' : Tracker) : Prop where
  current : t.current.Abstracts t'.current
  outer : List.Forall₂ Scope.Abstracts t.outer t'.outer

/-- What scopes hold for a name, from the inside out. -/
theorem Scope.Abstracts.lookup {scopes scopes' : List Scope}
    (h : List.Forall₂ Scope.Abstracts scopes scopes') (name : Ident) :
    ((scopes.findSome? fun scope => scope.store.get? name) = none →
      (scopes'.findSome? fun scope => scope.store.get? name) = none) ∧
    ∀ b, (scopes.findSome? fun scope => scope.store.get? name) = some b → b.isFrame = true →
      (scopes'.findSome? fun scope => scope.store.get? name) = some b := by
  induction h with
  | nil => exact ⟨id, nofun⟩
  | @cons scope scope' scopes scopes' hscope _ ih =>
    rw [List.findSome?_cons, List.findSome?_cons]
    cases hget : scope.store.get? name with
    | none =>
      rw [hscope.store.absent hget]
      exact ih
    | some b =>
      -- the innermost scope that knows the name decides, and the second tracker knows it there too
      refine ⟨nofun, ?_⟩
      rintro _ ⟨⟩ hframe
      rw [hscope.store.frame hget hframe]

theorem Scope.Abstracts.unnamed {scopes scopes' : List Scope}
    (h : List.Forall₂ Scope.Abstracts scopes scopes') :
    (scopes.findSome? fun scope => scope.store.get? none) = none := by
  induction h with
  | nil => rfl
  | cons hscope _ ih =>
    rw [List.findSome?_cons, hscope.store.unnamed]
    exact ih

namespace Tracker.Abstracts

variable {t t' : Tracker}

theorem start : Tracker.start.Abstracts Tracker.start := ⟨⟨rfl, .none, .empty⟩, .nil⟩

theorem local? (h : t.Abstracts t') {name : Ident} {b : Binding} (hb : t.local? name = some b)
    (hframe : b.isFrame = true) : t'.local? name = some b :=
  h.current.store.frame hb hframe

theorem scopes (h : t.Abstracts t') : List.Forall₂ Scope.Abstracts t.scopes t'.scopes :=
  .cons h.current h.outer

theorem lookup_absent (h : t.Abstracts t') {name : Ident} (hnone : t.lookup name = none) :
    t'.lookup name = none := (Scope.Abstracts.lookup h.scopes name).1 hnone

theorem lookup_frame (h : t.Abstracts t') {name : Ident} {b : Binding}
    (hb : t.lookup name = some b) (hframe : b.isFrame = true) : t'.lookup name = some b :=
  (Scope.Abstracts.lookup h.scopes name).2 b hb hframe

/-- What a weaker tracker resolves is right, and both trackers answer for every name. -/
theorem resolve (h : t.Abstracts t') : t.resolve.Abstracts t'.resolve := by
  intro s
  unfold Tracker.resolve
  cases hlookup : t.lookup (some s) with
  | none =>
    rw [h.lookup_absent hlookup]
    exact .pure fun _ hx => hx
  | some b =>
    by_cases hframe : b.isFrame = true
    · rw [h.lookup_frame hlookup hframe]
      exact .pure fun _ hx => hx
    · -- a binding that is no frame resolves to nothing, which holds of any answer
      simp only [hframe]
      cases t'.lookup (some s) with
      | none => exact .pure nofun
      | some b' => exact .pure nofun

/-- A missing identifier is bound nowhere. -/
theorem lookup_unnamed (h : t.Abstracts t') : t.lookup none = none :=
  Scope.Abstracts.unnamed h.scopes

/-- A frame that a weaker tracker resolves is resolved alike. -/
theorem resolve_frame (h : t.Abstracts t') {name : Ident} {b : Binding}
    (hb : t.resolve name = .ok (some b)) : t'.resolve name = .ok (some b) := by
  cases name with
  | none =>
    unfold Tracker.resolve at hb
    rw [h.lookup_unnamed] at hb
    cases hb
  | some s =>
    obtain ⟨known, answer, hknown, hanswer, hheld⟩ := h.resolve s
    rw [hb] at hknown
    rw [hanswer, hheld b (Except.ok.inj hknown).symm]

/-! ## Bindings -/

theorem bind (h : t.Abstracts t') (name : String) {f g : Facts} (hfacts : f.Abstracts g) :
    (t.bind (some name) f).Abstracts (t'.bind (some name) g) :=
  ⟨⟨h.current.name, h.current.summary, h.current.store.put name hfacts⟩, h.outer⟩

theorem define (h : t.Abstracts t') (n : Node) : (t.define n).Abstracts (t'.define n) := by
  unfold Tracker.define
  split
  next s _ =>
    split
    · exact h
    · exact h.bind s (.refl _)
  next => exact h

theorem bindTarget (h : t.Abstracts t') {f g : Facts} (hfacts : f.Abstracts g) {n : Node}
    (hn : n.Named) : (t.bindTarget f n).Abstracts (t'.bindTarget g n) := by
  induction n using Node.induction generalizing t t' f g with
  | step n ih =>
    rw [bindTarget_eq, bindTarget_eq]
    split
    next hkind =>
      obtain ⟨s, hs⟩ := hn.name hkind
      rw [hs]
      exact h.bind s hfacts
    next => exact List.foldl_rel h fun c hc _ _ ht => ih c hc ht (.refl _) (hn.child hc)
    next => exact h

theorem classify (h : t.Abstracts t') {n : Node} (hn : n.Named) :
    BothOk Facts.Abstracts (t.classify n) (t'.classify n) := classify_abstracts h.resolve hn

theorem assignedFacts (h : t.Abstracts t') {n : Node} (hn : n.Named) :
    BothOk Facts.Abstracts (t.assignedFacts n) (t'.assignedFacts n) := by
  unfold Tracker.assignedFacts
  split
  · exact .pure (.refl _)
  · split
    next value hvalue => exact h.classify (hn.below (Node.below_of_child? hvalue))
    next => exact .pure (.refl _)

theorem bindAssignment (h : t.Abstracts t') {n : Node} (hn : n.Named) :
    BothOk Tracker.Abstracts (t.bindAssignment n) (t'.bindAssignment n) := by
  unfold Tracker.bindAssignment
  refine (h.assignedFacts hn).bind fun f g hfacts => .pure ?_
  refine List.foldl_rel h fun target htarget _ _ ht => ht.bindTarget hfacts (hn.child ?_)
  exact Node.mem_of_mem_childrenIn htarget

end Tracker.Abstracts

/-! ## Summaries of functions -/

namespace Summary

variable {r r' : Resolver}

theorem resolveIn_abstracts {s s' : Store} (hs : s.Abstracts s') (hr : r.Abstracts r') :
    Resolver.Abstracts (resolveIn s r) (resolveIn s' r') := by
  intro name
  unfold resolveIn
  cases hget : s.get? (some name) with
  | none =>
    rw [hs.absent hget]
    exact hr name
  | some b =>
    by_cases hframe : b.isFrame = true
    · rw [hs.frame hget hframe]
      exact .pure fun _ hx => hx
    · simp only [hframe]
      -- the second context may have to ask the scopes around, which do answer
      cases s'.get? (some name) with
      | none =>
        obtain ⟨_, answer, _, hanswer, _⟩ := hr name
        exact ⟨none, answer, rfl, hanswer, nofun⟩
      | some b' => exact .pure nofun

theorem parameterStore_abstracts (parameters frames : List String) :
    (parameterStore parameters frames).Abstracts (parameterStore parameters frames) :=
  List.foldl_rel .empty fun name _ _ _ hs =>
    hs.put name (.refl { origin := parameterOrigin frames name })

/-- The state of a summary: what is bound so far, and whether a frame has been returned. -/
def StateAbstracts (state state' : Store × Bool) : Prop :=
  state.1.Abstracts state'.1 ∧ (state.2 = true → state'.2 = true)

/-- The names that an assignment binds in a body, in their order. -/
def boundNames (n : Node) : List Ident :=
  ((n.childrenIn Role.target).filter fun t => t.kind = .name).map (·.name)

theorem boundNames_named {n : Node} (hn : n.Named) {name : Ident} (h : name ∈ boundNames n) :
    ∃ s, name = some s := by
  obtain ⟨target, htarget, rfl⟩ := List.mem_map.mp h
  obtain ⟨hchild, hkind⟩ := List.mem_filter.mp htarget
  exact (hn.child (Node.mem_of_mem_childrenIn hchild)).name (of_decide_eq_true hkind)

theorem readNode_abstracts (hr : r.Abstracts r') {state state' : Store × Bool}
    (h : StateAbstracts state state') {n : Node} (hn : n.Named) :
    BothOk StateAbstracts (readNode r state n) (readNode r' state' n) := by
  obtain ⟨hstore, hreturns⟩ := h
  have hclassify : ∀ value, n.child? Role.value = some value →
      BothOk Facts.Abstracts (classify (resolveIn state.1 r) value)
        (classify (resolveIn state'.1 r') value) :=
    fun value hvalue => classify_abstracts (resolveIn_abstracts hstore hr)
      (hn.below (Node.below_of_child? hvalue))
  have hput : ∀ f g : Facts, f.Abstracts g →
      ((boundNames n).foldl (fun store name => store.put name
        { name := name, origin := f.origin, pinned := f.pinned }) state.1).Abstracts
      ((boundNames n).foldl (fun store name => store.put name
        { name := name, origin := g.origin, pinned := g.pinned }) state'.1) := by
    intro f g hfg
    refine List.foldl_rel hstore fun name hname _ _ hs => ?_
    obtain ⟨s, rfl⟩ := boundNames_named hn hname
    exact hs.put s hfg
  unfold readNode
  dsimp only
  -- an assignment binds, a return is noted, and all else is passed over
  split
  · split
    next value hvalue =>
      exact (hclassify value hvalue).bind fun f g hfg => .pure ⟨hput f g hfg, hreturns⟩
    next => exact .pure ⟨hput .unknown .unknown (.refl _), hreturns⟩
  · split
    · split
      next value hvalue =>
        refine (hclassify value hvalue).bind fun f g hfacts => .pure ⟨hstore, ?_⟩
        simp only [Bool.or_eq_true]
        rintro (hbefore | hframe)
        · exact .inl (hreturns hbefore)
        · exact .inr (hfacts hframe ▸ hframe)
      next => exact .pure ⟨hstore, hreturns⟩
    · exact .pure ⟨hstore, hreturns⟩

/-- The summaries of a function in two contexts, of which the first knows less. -/
theorem of_abstracts (hr : r.Abstracts r') {function : Node} (hn : function.Named) :
    BothOk Summary.Abstracts (Summary.of function r) (Summary.of function r') := by
  unfold Summary.of
  refine BothOk.bind (R := StateAbstracts) (.foldlM ⟨parameterStore_abstracts _ _, id⟩ ?_) ?_
  · intro n hmem _ _ h
    exact readNode_abstracts hr h (hn.of_mem (Node.localNodes_subset_preorder function hmem))
  · exact fun _ _ h => .pure ⟨rfl, rfl, rfl, h.2⟩

end Summary

/-! ## Scopes -/

namespace Tracker.Abstracts

variable {t t' : Tracker}

theorem enter (h : t.Abstracts t') (name : String) {summary summary' : Option Summary}
    (hsummary : Option.Rel Summary.Abstracts summary summary') :
    (t.enter name summary).Abstracts (t'.enter name summary') :=
  ⟨⟨rfl, hsummary, .empty⟩, .cons h.current h.outer⟩

theorem enterFunction (h : t.Abstracts t') {n : Node} (hn : n.Named) :
    BothOk Tracker.Abstracts (t.enterFunction n) (t'.enterFunction n) := by
  unfold Tracker.enterFunction
  -- the summaries agree on the parameters, so the same names are bound in both scopes
  refine (Summary.of_abstracts h.resolve hn).bind fun summary summary' hsummary => .pure ?_
  rw [hsummary.name, hsummary.parameters, hsummary.frameParameters]
  refine List.foldl_rel (h.enter summary.name (.some hsummary)) ?_
  exact fun name _ _ _ ht => ht.bind name (.refl _)

theorem exit (h : t.Abstracts t') : t.exit.Abstracts t'.exit := by
  unfold Tracker.exit
  have houter := h.outer
  cases hscopes : t.outer with
  | nil =>
    rw [hscopes] at houter
    rw [List.forall₂_nil_left_iff.mp houter]
    exact h
  | cons scope scopes =>
    rw [hscopes] at houter
    obtain ⟨scope', scopes', hscope, hrest, hscopes'⟩ := List.forall₂_cons_left_iff.mp houter
    rw [hscopes']
    exact ⟨hscope, hrest⟩

end Tracker.Abstracts

/-! ## Merges -/

/-- The stores at which a fork can end: those of the arms, and the one it began with if it may
    fall through. -/
def pathStores (start : Store) (outcomes : List Store) (fallthrough : Bool) : List Store :=
  if fallthrough || outcomes.isEmpty then outcomes ++ [start] else outcomes

section PathStores

variable {start : Store} {outcomes : List Store} {fallthrough : Bool}

theorem mem_pathStores {s : Store} (h : s ∈ pathStores start outcomes fallthrough) :
    s ∈ outcomes ∨ s = start := by
  unfold pathStores at h
  split at h
  · rcases List.mem_append.mp h with h | h
    · exact .inl h
    · exact .inr (List.mem_singleton.mp h)
  · exact .inl h

theorem subset_pathStores : outcomes ⊆ pathStores start outcomes fallthrough := by
  unfold pathStores
  split
  · exact List.subset_append_left _ _
  · exact List.Subset.refl _

theorem pathStores_ne_nil : pathStores start outcomes fallthrough ≠ [] := by
  unfold pathStores
  split
  · simp
  next hskip =>
    intro hnil
    exact hskip (by simp [hnil])

theorem Tracker.join_eq (t : Tracker) :
    t.join start outcomes fallthrough =
      (Store.merge (pathStores start outcomes fallthrough)).map t.withStore := rfl

end PathStores

/-- After a merge the tracker knows less than any path that is merged. -/
theorem Tracker.join_abstracts {t : Tracker} {start : Store} {outcomes : List Store}
    {fallthrough : Bool}
    (h : ∀ s ∈ pathStores start outcomes fallthrough, s.get? none = none) :
    ∃ joined, t.join start outcomes fallthrough = .ok joined ∧
      ∀ arm arm' : Tracker, t.SameScopes arm → arm.Abstracts arm' →
        arm.current.store ∈ pathStores start outcomes fallthrough → joined.Abstracts arm' := by
  obtain ⟨merged, hmerge⟩ := Store.merge_ok (Store.not_unorderable h)
  refine ⟨t.withStore merged, ?_, ?_⟩
  · rw [join_eq, hmerge]
    rfl
  · intro arm arm' hscopes habstracts hmem
    -- the arm left the scopes of the fork alone: only the stores need the merge
    refine ⟨⟨?_, ?_, habstracts.current.store.merge hmerge h hmem⟩, ?_⟩
    · rw [habstracts.current.name]
      exact hscopes.name
    · show Option.Rel Summary.Abstracts t.current.summary arm'.current.summary
      rw [← hscopes.summary]
      exact habstracts.current.summary
    · show List.Forall₂ Scope.Abstracts t.outer arm'.outer
      rw [← hscopes.outer]
      exact habstracts.outer

end Framewise
