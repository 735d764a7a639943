import Framewise.Proofs.BoundNames
import Framewise.Proofs.Chronicle
import Framewise.Proofs.MergeOrder

/-! # Alternatives in a chain and side by side

  A chain of alternatives, each nested in the one before, merges two paths at a
  time, from the inside out. It leads where one fork with all the alternatives
  leads, since a merge takes no notice of grouping; and a fork leads to the same
  tracker in whatever order its arms are run.

  Main definitions:
  - `Leg.Like`: legs that lead to the same tracker.
  - `visitAll`: an arm that visits nodes in order.
  - `Node.Chain`: a chain of alternatives, with the arms of the fork it amounts to.
  - `trackerAfter`: where a step leads.

  Main results:
  - `Leg.merged_nested`, `Leg.andThen_merged`: forks inside forks, and what comes before.
  - `Node.Chain.flat`: a chain leads where the one fork leads.
  - `merge_ignores_order_and_grouping`.
-/

namespace Framewise

/-! ## Where forks lead -/

theorem Tracker.join_of_ne_nil (t : Tracker) (start : Store) {stores : List Store}
    (hne : stores ≠ []) : t.join start stores false = (Store.merge stores).map t.withStore := by
  rw [join_eq, pathStores]
  simp [hne]

namespace Leg

/-- Two legs that lead to the same tracker, or into the same fault, from wherever they begin. -/
def Like (a b : Leg) : Prop := ∀ t, (a t).result = (b t).result

theorem andThen_result (a b : Leg) (t : Tracker) :
    (a.andThen b t).result = (a t).result >>= fun m => (b m).result := by
  cases hmid : (a t).result with
  | error fault => rw [andThen_error hmid]; rfl
  | ok m => rw [andThen_ok hmid]; rfl

theorem merged_result (arms : List Leg) (fallthrough : Bool) (t : Tracker) :
    (merged arms fallthrough t).result =
      ((outcomes t arms).2 >>= fun stores => t.join t.current.store stores fallthrough) := rfl

/-- A fork with arms leads to a store for each of them. -/
theorem outcomes_ne_nil {arms : List Leg} (hne : arms ≠ []) {t : Tracker} {stores : List Store}
    (h : (outcomes t arms).2 = .ok stores) : stores ≠ [] := by
  obtain ⟨first, rest, rfl⟩ := List.exists_cons_of_ne_nil hne
  obtain ⟨e, later, _, _, rfl⟩ := of_outcomes_ok h
  exact List.cons_ne_nil _ _

namespace Like

variable {a a' b b' : Leg} {arms arms' : List Leg}

theorem refl (a : Leg) : a.Like a := fun _ => rfl

theorem symm (h : a.Like b) : b.Like a := fun t => (h t).symm

theorem trans {c : Leg} (h : a.Like b) (h' : b.Like c) : a.Like c := fun t => (h t).trans (h' t)

theorem andThen (h : a.Like a') (h' : b.Like b') : (a.andThen b).Like (a'.andThen b') := by
  intro t
  rw [andThen_result, andThen_result, h t]
  exact congrArg ((a' t).result >>= ·) (funext h')

theorem note_andThen (place : Place) (a : Leg) : ((note place).andThen a).Like a := fun _ => rfl

theorem andThen_idle (a : Leg) : (a.andThen idle).Like a := by
  intro t
  rw [andThen_result]
  cases (a t).result <;> rfl

theorem outcomes (h : List.Forall₂ Like arms arms') (t : Tracker) :
    (Leg.outcomes t arms).2 = (Leg.outcomes t arms').2 := by
  induction h with
  | nil => rfl
  | @cons arm arm' _ _ harm _ ih =>
    cases hend : (arm t).result with
    | error fault => rw [outcomes_error hend, outcomes_error ((harm t).symm.trans hend)]
    | ok e => rw [outcomes_ok hend, outcomes_ok ((harm t).symm.trans hend), ih]

theorem merged (h : List.Forall₂ Like arms arms') (fallthrough : Bool) :
    (Leg.merged arms fallthrough).Like (Leg.merged arms' fallthrough) := by
  intro t
  rw [merged_result, merged_result, outcomes h t]

end Like

/-- To fall through is to take an arm in which nothing happens. -/
theorem merged_fallthrough (body : Leg) :
    (merged [body] true).Like (merged [body, idle] false) := by
  intro t
  cases hend : (body t).result with
  | error fault => rw [merged_result, merged_result, outcomes_error hend, outcomes_error hend]; rfl
  | ok e => rw [merged_result, merged_result, outcomes_ok hend, outcomes_ok hend]; rfl

theorem outcomes_andThen {before : Leg} {t m : Tracker} (h : (before t).result = .ok m)
    (arms : List Leg) :
    (outcomes t (arms.map before.andThen)).2 = (outcomes m arms).2 := by
  induction arms with
  | nil => rfl
  | cons arm arms ih =>
    have harm : (before.andThen arm t).result = (arm m).result := by rw [andThen_ok h]
    rw [List.map_cons]
    cases hend : (arm m).result with
    | error fault => rw [outcomes_error hend, outcomes_error (harm.trans hend)]
    | ok e => rw [outcomes_ok hend, outcomes_ok (harm.trans hend), ih]

/-- What comes before a fork may as well come first in each arm. -/
theorem andThen_merged {before : Leg}
    (hscopes : ∀ {t m}, (before t).result = .ok m → t.SameScopes m) {arms : List Leg}
    (hne : arms ≠ []) :
    (before.andThen (merged arms false)).Like (merged (arms.map before.andThen) false) := by
  intro t
  rw [andThen_result, merged_result]
  cases hbefore : (before t).result with
  | error fault =>
    obtain ⟨first, rest, rfl⟩ := List.exists_cons_of_ne_nil hne
    have hfirst : (before.andThen first t).result = .error fault := by rw [andThen_error hbefore]
    rw [List.map_cons, outcomes_error hfirst]
    rfl
  | ok m =>
    rw [outcomes_andThen hbefore]
    show (merged arms false m).result = _
    rw [merged_result]
    cases hstores : (outcomes m arms).2 with
    | error fault => rfl
    | ok stores =>
      have hne' := outcomes_ne_nil hne hstores
      show m.join m.current.store stores false = t.join t.current.store stores false
      rw [m.join_of_ne_nil _ hne', t.join_of_ne_nil _ hne']
      exact congrArg (Except.map · _) (funext (hscopes hbefore).withStore_eq)

/-- A fork whose second arm is a fork is one fork with all arms. -/
theorem merged_nested {body inner : Leg} {arms : List Leg} (hne : arms ≠ [])
    (hinner : inner.Like (merged arms false)) :
    (merged [body, inner] false).Like (merged (body :: arms) false) := by
  intro t
  have hlast := hinner t
  rw [merged_result] at hlast
  rw [merged_result, merged_result]
  cases hbody : (body t).result with
  | error fault => rw [outcomes_error hbody, outcomes_error hbody]
  | ok e =>
    rw [outcomes_ok hbody, outcomes_ok hbody]
    cases hstores : (outcomes t arms).2 with
    | error fault =>
      rw [hstores] at hlast
      rw [outcomes_error hlast]
    | ok stores =>
      have hne' := outcomes_ne_nil hne hstores
      have hjoin : (inner t).result = (Store.merge stores).map t.withStore := by
        rw [hlast, hstores]
        exact t.join_of_ne_nil _ hne'
      show _ = t.join t.current.store (e.current.store :: stores) false
      rw [t.join_of_ne_nil _ (List.cons_ne_nil _ _), ← Store.merge_cons_merge _ hne']
      cases hmerge : Store.merge stores with
      | error fault =>
        rw [hmerge] at hjoin
        rw [outcomes_error hjoin]
        rfl
      | ok merged =>
        rw [hmerge] at hjoin
        rw [outcomes_ok hjoin]
        rfl

/-- Arms in another order lead to the same stores in another order. -/
theorem outcomes_perm {arms arms' : List Leg} (h : arms.Perm arms') {t : Tracker}
    {stores : List Store} (hstores : (outcomes t arms).2 = .ok stores) :
    ∃ stores', (outcomes t arms').2 = .ok stores' ∧ stores.Perm stores' := by
  induction h generalizing stores with
  | nil => exact ⟨stores, hstores, .refl _⟩
  | cons arm _ ih =>
    obtain ⟨e, later, hend, hlater, rfl⟩ := of_outcomes_ok hstores
    obtain ⟨later', hlater', hperm⟩ := ih hlater
    exact ⟨e.current.store :: later', by rw [outcomes_ok hend, hlater']; rfl, hperm.cons _⟩
  | swap arm arm' arms =>
    obtain ⟨e', later', hend', hlater', rfl⟩ := of_outcomes_ok hstores
    obtain ⟨e, later, hend, hlater, rfl⟩ := of_outcomes_ok hlater'
    refine ⟨e.current.store :: e'.current.store :: later, ?_, .swap _ _ _⟩
    rw [outcomes_ok hend, outcomes_ok hend', hlater]
    rfl
  | trans _ _ ih ih' =>
    obtain ⟨middle, hmiddle, hperm⟩ := ih hstores
    obtain ⟨last, hlast, hperm'⟩ := ih' hmiddle
    exact ⟨last, hlast, hperm.trans hperm'⟩

theorem merged_perm {arms arms' : List Leg} (h : arms.Perm arms') {fallthrough : Bool}
    {t e : Tracker} (hmerged : (merged arms fallthrough t).result = .ok e) :
    (merged arms' fallthrough t).result = .ok e := by
  obtain ⟨stores, hstores, hjoin⟩ := of_merged_ok hmerged
  obtain ⟨stores', hstores', hperm⟩ := outcomes_perm h hstores
  have hpaths : ∀ s, s ∈ pathStores t.current.store stores fallthrough ↔
      s ∈ pathStores t.current.store stores' fallthrough := by
    intro s
    have hempty : stores.isEmpty = stores'.isEmpty := by
      rw [Bool.eq_iff_iff, List.isEmpty_iff, List.isEmpty_iff]
      exact ⟨fun hnil => (hnil ▸ hperm).nil_eq.symm, fun hnil => (hnil ▸ hperm).eq_nil⟩
    unfold pathStores
    rw [hempty]
    split
    · simp [hperm.mem_iff]
    · exact hperm.mem_iff
  rw [merged_result, hstores']
  show t.join t.current.store stores' fallthrough = .ok e
  rw [Tracker.join_eq, ← Store.merge_of_mem_iff hpaths]
  exact hjoin

end Leg

/-! ## Arms -/

/-- An arm that visits nodes in order, each below its parent. -/
def visitAll (survey : Survey) : List Site → Visit Unit
  | [] => pure ()
  | site :: rest => do
    visit survey site.parent site.node
    visitAll survey rest

/-- The leg of such an arm. -/
def Leg.arm : List Site → Leg
  | [] => .idle
  | site :: rest => (tour (fun _ => .merged) [] site.parent site.node).andThen (arm rest)

namespace Leg

theorem arm_append (sites more : List Site) :
    (arm (sites ++ more)).Like ((arm sites).andThen (arm more)) := by
  induction sites with
  | nil => exact .refl _
  | cons site sites ih =>
    intro t
    rw [List.cons_append, arm, arm, andThen_result, andThen_result, andThen_result, bind_assoc]
    refine congrArg (_ >>= ·) (funext fun m => ?_)
    rw [ih m, andThen_result]

theorem arm_scopes {sites : List Site} {t m : Tracker} (h : (arm sites t).result = .ok m) :
    t.SameScopes m := by
  induction sites generalizing t with
  | nil =>
    cases h
    exact .refl _
  | cons site sites ih =>
    obtain ⟨next, hnext, hrest⟩ := of_andThen_ok h
    exact ((tour_binds [] site.parent site.node).scopes hnext).trans (ih hrest)

end Leg

theorem visitAll_follows (survey : Survey) (sites : List Site) :
    FollowsLeg survey (visitAll survey sites) (.arm sites) := by
  induction sites with
  | nil => exact .idle
  | cons site sites ih => exact .andThen (visit_follows survey [] site.parent site.node) ih

theorem branch_follows (survey : Survey) (arms : List (List Site)) (fallthrough : Bool) :
    FollowsLeg survey (branch (arms.map (visitAll survey)) fallthrough)
      (.merged (arms.map Leg.arm) fallthrough) := by
  refine .branch ?_ fallthrough
  rw [List.forall₂_map_left_iff, List.forall₂_map_right_iff, List.forall₂_same]
  exact fun arm _ => visitAll_follows survey arm

theorem arrival_followsLeg (survey : Survey) (place : Place) :
    FollowsLeg survey (do checkDeadline survey; applyRules survey place.site survey.rules)
      (.note place) where
  keeps := .of_leavesTracker (.bind (.checkDeadline survey) fun _ => .applyRules survey _ _)
  follows walk := arrival_follows survey place.address place.site walk

/-! ## Chains of alternatives -/

namespace Node

/-- The conditions of a branch. -/
def tests (n : Node) : List Site :=
  (n.childrenIn Role.test).map fun c => { node := c, parent := some n }

/-- One side of a branch. -/
def side (n : Node) (role : String) : List Site :=
  (n.child? role).toList.map fun c => { node := c, parent := some n }

/-- A chain of alternatives, and the arms of the fork that it amounts to: an arm evaluates the
    conditions up to its own and runs its body. The chain ends in an alternative without a
    condition, or in the possibility that no condition holds. -/
inductive Chain : Node → List (List Site) → Prop
  | single {n : Node} (hkind : n.kind = .branch) (htag : n.tag = "If")
      (horelse : n.child? Role.orelse = none) :
      Chain n [n.tests ++ n.side Role.body, n.tests]
  | otherwise {n c : Node} (hkind : n.kind = .branch) (htag : n.tag = "If")
      (horelse : n.child? Role.orelse = some c) :
      Chain n [n.tests ++ n.side Role.body, n.tests ++ n.side Role.orelse]
  | elif {n c : Node} {arms : List (List Site)} (hkind : n.kind = .branch) (htag : n.tag = "If")
      (horelse : n.child? Role.orelse = some c) (hrest : Chain c arms) :
      Chain n ((n.tests ++ n.side Role.body) :: arms.map (n.tests ++ ·))
  | block {n c : Node} {arms : List (List Site)} (hkind : n.kind = .block)
      (hchildren : n.children = [c]) (hrest : Chain c arms) : Chain n arms

theorem Chain.ne_nil {n : Node} {arms : List (List Site)} (h : n.Chain arms) : arms ≠ [] := by
  induction h with
  | block _ _ _ ih => exact ih
  | _ => exact List.cons_ne_nil _ _

end Node

theorem visitSteps_chain (survey : Survey) (n : Node) (cs : List Node) :
    visitSteps.chain (cs.map fun c => visit survey (some n) c) =
      visitAll survey (cs.map fun c => { node := c, parent := some n }) := by
  induction cs with
  | nil => rfl
  | cons c cs ih =>
    rw [List.map_cons, List.map_cons, visitAll, ← ih]
    rfl

theorem callsWhere_visitCalls (survey : Survey) (n : Node) (pick : Node → Bool) :
    Steps.callsWhere pick (visitCalls survey n n.children) =
      (n.children.filter pick).map fun c => visit survey (some n) c := by
  simp [Steps.callsWhere, visitCalls, List.filter_map, Function.comp_def]

theorem firstIn_visitCalls (survey : Survey) (n : Node) (role : String) :
    visitSteps.firstIn role (visitCalls survey n n.children) = visitAll survey (n.side role) := by
  have hfind : ((visitCalls survey n n.children).find? fun call => call.1.role = role) =
      (n.child? role).map fun c => (c, visit survey (some n) c) := by
    unfold visitCalls
    rw [List.find?_map]
    rfl
  unfold Steps.firstIn Node.side
  rw [hfind]
  cases n.child? role with
  | none => rfl
  | some c => simp [visitAll]

/-- What a visit of a conditional does after the rules. -/
theorem visit_conditional (survey : Survey) (parent : Option Node) {n : Node}
    (hkind : n.kind = .branch) (htag : n.tag = "If") :
    visit survey parent n = (do
      (do checkDeadline survey; applyRules survey { node := n, parent := parent } survey.rules)
      visitAll survey n.tests
      match n.child? Role.orelse with
      | some _ =>
        branch [visitAll survey (n.side Role.body), visitAll survey (n.side Role.orelse)] false
      | none => branch [visitAll survey (n.side Role.body)] true) := by
  have htests : visitSteps.chain (Steps.callsWhere (playing Role.test)
      (visitCalls survey n n.children)) = visitAll survey n.tests := by
    rw [callsWhere_visitCalls, visitSteps_chain]
    rfl
  rw [visit_eq, bind_assoc]
  simp only [Steps.passage, hkind, Steps.branching, htag, htests, firstIn_visitCalls]
  rfl

/-- What a visit of a block with one statement does after the rules. -/
theorem visit_block (survey : Survey) (parent : Option Node) {n c : Node} (hkind : n.kind = .block)
    (hchildren : n.children = [c]) :
    visit survey parent n = (do
      (do checkDeadline survey; applyRules survey { node := n, parent := parent } survey.rules)
      visit survey (some n) c) := by
  rw [visit_eq, bind_assoc]
  simp only [Steps.passage, hkind, hchildren]
  simp [Steps.chain, Steps.callsWhere, visitCalls, visitSteps]

namespace Node.Chain

/-- A conditional leads where a fork leads whose arms evaluate its conditions first. -/
theorem like_of_fork {n : Node} (place : Place) {fork : Leg} {legs : List Leg}
    {arms : List (List Site)} (hne : legs ≠ []) (hfork : fork.Like (.merged legs false))
    (harms : List.Forall₂ (fun leg arm => ((Leg.arm n.tests).andThen leg).Like (.arm arm))
      legs arms) :
    ((Leg.note place).andThen ((Leg.arm n.tests).andThen fork)).Like
      (.merged (arms.map Leg.arm) false) := by
  have hlegs : List.Forall₂ Leg.Like (legs.map (Leg.arm n.tests).andThen) (arms.map Leg.arm) := by
    rw [List.forall₂_map_left_iff, List.forall₂_map_right_iff]
    exact harms
  have hdistributed : ((Leg.arm n.tests).andThen (.merged legs false)).Like _ :=
    Leg.andThen_merged Leg.arm_scopes hne
  exact (Leg.Like.note_andThen place _).trans
    ((Leg.Like.andThen (.refl _) hfork).trans (hdistributed.trans (.merged hlegs false)))

/-- A chain of alternatives leads where one fork with all its arms leads. -/
theorem flat {n : Node} {arms : List (List Site)} (h : n.Chain arms) (survey : Survey)
    (parent : Option Node) :
    ∃ leg, FollowsLeg survey (visit survey parent n) leg ∧
      leg.Like (.merged (arms.map Leg.arm) false) := by
  have harrival : ∀ n : Node, FollowsLeg survey (do
      checkDeadline survey
      applyRules survey { node := n, parent := parent } survey.rules)
      (.note ⟨[], n, parent⟩) := fun n => arrival_followsLeg survey ⟨[], n, parent⟩
  have hsides : ∀ (n : Node) (sites : List Site),
      ((Leg.arm n.tests).andThen (.arm sites)).Like (.arm (n.tests ++ sites)) :=
    fun n sites => (Leg.arm_append n.tests sites).symm
  induction h generalizing parent with
  | @single n hkind htag horelse =>
    have hbody := visitAll_follows survey (n.side Role.body)
    rw [visit_conditional survey parent hkind htag, horelse]
    refine ⟨_, .andThen (harrival n) (.andThen (visitAll_follows survey n.tests)
      (.branch (.cons hbody .nil) true)), ?_⟩
    refine like_of_fork _ (List.cons_ne_nil _ _) (Leg.merged_fallthrough _) ?_
    exact .cons (hsides n _) (.cons (Leg.Like.andThen_idle _) .nil)
  | @otherwise n c hkind htag horelse =>
    have hbody := visitAll_follows survey (n.side Role.body)
    have helse := visitAll_follows survey (n.side Role.orelse)
    rw [visit_conditional survey parent hkind htag, horelse]
    refine ⟨_, .andThen (harrival n) (.andThen (visitAll_follows survey n.tests)
      (.branch (.cons hbody (.cons helse .nil)) false)), ?_⟩
    refine like_of_fork _ (List.cons_ne_nil _ _) (.refl _) ?_
    exact .cons (hsides n _) (.cons (hsides n _) .nil)
  | @elif n c arms hkind htag horelse hrest ih =>
    -- the second side is one visit, of the rest of the chain
    obtain ⟨leg, hleg, hlike⟩ := ih (some n) fun n => arrival_followsLeg survey ⟨[], n, _⟩
    have hbody := visitAll_follows survey (n.side Role.body)
    have helse : FollowsLeg survey (visitAll survey (n.side Role.orelse)) (leg.andThen .idle) := by
      simp only [Node.side, horelse]
      exact .andThen hleg .idle
    rw [visit_conditional survey parent hkind htag, horelse]
    refine ⟨_, .andThen (harrival n) (.andThen (visitAll_follows survey n.tests)
      (.branch (.cons hbody (.cons helse .nil)) false)), ?_⟩
    have hne : arms.map Leg.arm ≠ [] := by simpa using hrest.ne_nil
    refine like_of_fork _ (List.cons_ne_nil _ _)
      (Leg.merged_nested hne ((Leg.Like.andThen_idle leg).trans hlike)) ?_
    refine .cons (hsides n _) ?_
    rw [List.forall₂_map_left_iff, List.forall₂_map_right_iff, List.forall₂_same]
    exact fun arm _ => hsides n arm
  | @block n c arms hkind hchildren _ ih =>
    obtain ⟨leg, hleg, hlike⟩ := ih (some n) fun n => arrival_followsLeg survey ⟨[], n, _⟩
    rw [visit_block survey parent hkind hchildren]
    exact ⟨_, .andThen (harrival n) hleg, (Leg.Like.note_andThen _ leg).trans hlike⟩

end Node.Chain

/-! ## Walks without rules -/

/-- The tracker to which a step leads, or why it was cut short. -/
def trackerAfter (step : Visit Unit) (t : Tracker) : Except Halt Tracker :=
  match step { tracker := t } with
  | .ok _ last => .ok last.tracker
  | .error halt _ => .error halt

/-- Without rules and without a limit, nothing but a fault cuts a step short. -/
theorem FollowsLeg.trackerAfter_eq {step : Visit Unit} {leg : Leg}
    (h : FollowsLeg { rules := [] } step leg) (t : Tracker) :
    trackerAfter step t = (leg t).result.mapError .fault := by
  have hattend : ∀ (stops : List Stop) (walk : Walk),
      ∃ after, attendAll { rules := [] } stops walk = .ok () after := by
    intro stops
    induction stops with
    | nil => exact fun walk => ⟨walk, rfl⟩
    | cons stop rest ih => exact fun walk => ih { walk with tracker := stop.tracker }
  have hfollows := h.follows { tracker := t }
  obtain ⟨after, hafter⟩ := hattend (leg t).stops { tracker := t }
  unfold Follows at hfollows
  unfold trackerAfter
  rw [hafter] at hfollows
  cases hresult : (leg t).result with
  | error fault =>
    rw [hresult] at hfollows
    obtain ⟨last, hlast, _⟩ := hfollows
    rw [hlast]
    rfl
  | ok e =>
    rw [hresult] at hfollows
    obtain ⟨_, last, hlast, _, rfl⟩ := hfollows
    rw [hlast]
    rfl

/-! ## Order and grouping -/

/-- Merging takes no notice of the order of the paths, of how often a path is there, and of
    whether groups of paths have been merged before, faults included. It knows what some path
    knows and holds a frame if all paths hold that very binding, and it never fails on paths
    without a missing name. Therefore a chain of alternatives of any length leads where one fork
    with all its arms leads, and a fork leads to the same tracker in whatever order its arms are
    run. Rules play no part in this: wherever a visit with rules ends, the walk without them ends
    too. -/
theorem merge_ignores_order_and_grouping :
    (∀ stores stores' : List Store, (∀ s, s ∈ stores ↔ s ∈ stores') →
      Store.merge stores = Store.merge stores') ∧
    (∀ groups : List (List Store), (∀ group ∈ groups, group ≠ []) →
      (groups.mapM Store.merge >>= Store.merge) = Store.merge groups.flatten) ∧
    (∀ stores : List Store, (∀ s ∈ stores, s.get? none = none) →
      ∃ merged, Store.merge stores = .ok merged) ∧
    (∀ (stores : List Store) (merged : Store), stores ≠ [] → Store.merge stores = .ok merged →
      ∀ name, (merged.get? name ≠ none ↔ ∃ s ∈ stores, s.get? name ≠ none) ∧
        ∀ b, b.isFrame = true →
          (merged.get? name = some b ↔ ∀ s ∈ stores, s.get? name = some b)) ∧
    (∀ (n : Node) (arms : List (List Site)) (parent : Option Node), n.Chain arms →
      (∀ t, trackerAfter (visit { rules := [] } parent n) t =
        trackerAfter (branch (arms.map (visitAll { rules := [] })) false) t) ∧
      ∀ (survey : Survey) (walk last : Walk), visit survey parent n walk = .ok () last →
        trackerAfter (branch (arms.map (visitAll { rules := [] })) false) walk.tracker =
          .ok last.tracker) ∧
    ∀ (arms arms' : List (List Site)) (fallthrough : Bool), arms.Perm arms' →
      ∀ (survey : Survey) (walk last : Walk),
        branch (arms.map (visitAll survey)) fallthrough walk = .ok () last →
        trackerAfter (branch (arms'.map (visitAll { rules := [] })) fallthrough) walk.tracker =
          .ok last.tracker := by
  refine ⟨fun _ _ => Store.merge_of_mem_iff, fun _ => Store.merge_groups,
    fun _ h => Store.merge_ok (Store.not_unorderable h), ?_, ?_, ?_⟩
  · intro stores merged hne hmerge name
    have hstands := Store.StandsFor.of_merge hne hmerge
    refine ⟨hstands.known name, fun b hb => hstands.held name b ?_⟩
    rintro rfl
    simp [Store.forgotten, Binding.isFrame] at hb
  · intro n arms parent hchain
    have hflat := branch_follows { rules := [] } arms false
    constructor
    · intro t
      obtain ⟨leg, hleg, hlike⟩ := hchain.flat { rules := [] } parent
      rw [hleg.trackerAfter_eq, hflat.trackerAfter_eq, hlike t]
    · intro survey walk last hvisit
      obtain ⟨leg, hleg, hlike⟩ := hchain.flat survey parent
      rw [hflat.trackerAfter_eq, ← hlike walk.tracker, hleg.result hvisit]
      rfl
  · intro arms arms' fallthrough hperm survey walk last hbranch
    have hresult := (branch_follows survey arms fallthrough).result hbranch
    rw [(branch_follows { rules := [] } arms' fallthrough).trackerAfter_eq,
      Leg.merged_perm (hperm.map Leg.arm) hresult]
    rfl

/-- A frame is read and bound to `df`. -/
def reading : Node :=
  { kind := .assignment, span := ⟨1, 1, 1, 1⟩, role := Role.body, children :=
    [{ kind := .name, span := ⟨1, 1, 1, 1⟩, role := Role.target, name := some "df" },
      { kind := .call, span := ⟨1, 1, 1, 1⟩, role := Role.value, children :=
        [{ kind := .name, span := ⟨1, 1, 1, 1⟩, role := Role.func, name := some "read_csv" }] }] }

/-- The frame is read in the first and the last of three alternatives. -/
def threeWays : Node :=
  let test : Node := { kind := .other, span := ⟨1, 1, 1, 1⟩, role := Role.test }
  let second : Node :=
    { kind := .branch, span := ⟨1, 1, 1, 1⟩, role := Role.orelse, tag := "If",
      children := [test, { test with role := Role.body }, { reading with role := Role.orelse }] }
  { kind := .branch, span := ⟨1, 1, 1, 1⟩, tag := "If", children := [test, reading, second] }

/-- The store after the frame has been read. -/
def readStore : Store := Store.empty.put (some "df") { name := some "df", origin := .read }

theorem threeWays_merged_flat :
    Store.merge [readStore, .empty, readStore] = Store.merge [.empty, readStore] ∧
    ([[readStore, .empty], [readStore]].mapM Store.merge >>= Store.merge) =
      Store.merge [readStore, .empty, readStore] ∧
    (∃ merged, Store.merge [readStore, .empty] = .ok merged ∧ merged.get? (some "df") ≠ none ∧
      merged.get? (some "df") ≠ some { name := some "df", origin := .read }) ∧
    (∃ arms, arms.length = 3 ∧ threeWays.Chain arms ∧
      trackerAfter (visit { rules := [] } none threeWays) .start =
        trackerAfter (branch (arms.map (visitAll { rules := [] })) false) .start) ∧
    ∃ last, branch ([[⟨reading, none⟩], []].map (visitAll { rules := [] })) false {} =
        .ok () last ∧
      trackerAfter (branch ([[], [⟨reading, none⟩]].map (visitAll { rules := [] })) false) .start =
        .ok last.tracker := by
  obtain ⟨hset, hgroups, hok, hheld, hchain, hperm⟩ := merge_ignores_order_and_grouping
  obtain ⟨merged, hmerge⟩ := hok [readStore, .empty] (by decide)
  have hstores : (Leg.outcomes .start ([[⟨reading, none⟩], []].map Leg.arm)).2 =
      .ok [readStore, .empty] := by decide +kernel
  obtain ⟨last, hlast⟩ : ∃ last,
      branch ([[⟨reading, none⟩], []].map (visitAll { rules := [] })) false {} = .ok () last := by
    have hafter := (branch_follows { rules := [] } [[⟨reading, none⟩], []] false).trackerAfter_eq
      .start
    have hjoin : Tracker.start.join .empty [readStore, .empty] false =
        .ok (Tracker.start.withStore merged) := by
      rw [Tracker.join_of_ne_nil _ _ (List.cons_ne_nil _ _), hmerge]
      rfl
    rw [Leg.merged_result, hstores] at hafter
    replace hafter := hafter.trans (congrArg (Except.mapError Halt.fault) hjoin)
    unfold trackerAfter at hafter
    split at hafter
    next last hrun => exact ⟨last, hrun⟩
    next => cases hafter
  obtain ⟨hknown, hframe⟩ := hheld _ merged (List.cons_ne_nil _ _) hmerge (some "df")
  have harms : threeWays.Chain _ := .elif rfl rfl rfl (.otherwise rfl rfl rfl)
  refine ⟨hset _ _ (by simp [or_comm]), hgroups _ (by simp), ⟨merged, hmerge, ?_, ?_⟩,
    ⟨_, rfl, harms, (hchain _ _ none harms).1 .start⟩, _, hlast, ?_⟩
  · exact hknown.mpr ⟨readStore, List.mem_cons_self, by decide⟩
  · intro hread
    have hempty := (hframe _ rfl).mp hread .empty (by simp)
    cases hempty
  · exact hperm _ _ false (.swap _ _ _) _ {} _ hlast

end Framewise
