import Framewise.Proofs.Passage

/-! # Scope discipline

  A visit opens and closes scopes, runs arms from a saved store and can be cut
  short at any depth. Whatever happens, it ends in the scope in which it began:
  with the same name and summary, the same scopes around it, and their bindings
  untouched. Only the bindings of the innermost scope may differ.

  Main definitions:
  - `Tracker.SameScopes`: two trackers that differ at most in the bindings of the
    innermost scope.
  - `Keeps`: a step of a walk that ends in the scope in which it began.

  Main result: `visit_keeps_scopes`.
-/

namespace Framewise

/-! ## Trackers -/

namespace Tracker

/-- The same scopes, apart from the bindings of the innermost one. -/
structure SameScopes (t t' : Tracker) : Prop where
  name : t'.current.name = t.current.name
  summary : t'.current.summary = t.current.summary
  outer : t'.outer = t.outer

namespace SameScopes

theorem refl (t : Tracker) : SameScopes t t := ⟨rfl, rfl, rfl⟩

theorem trans {t t' t'' : Tracker} (h : SameScopes t t') (h' : SameScopes t' t'') :
    SameScopes t t'' :=
  ⟨h'.name.trans h.name, h'.summary.trans h.summary, h'.outer.trans h.outer⟩

theorem withStore (t : Tracker) (store : Store) : SameScopes t (t.withStore store) :=
  ⟨rfl, rfl, rfl⟩

theorem bind (t : Tracker) (name : Ident) (facts : Facts) : SameScopes t (t.bind name facts) :=
  withStore t _

/-- Trackers with the same scopes are the same once they are given the same store. -/
theorem withStore_eq {t t' : Tracker} (h : SameScopes t t') (store : Store) :
    t'.withStore store = t.withStore store := by
  obtain ⟨⟨name, summary, s⟩, outer⟩ := t
  obtain ⟨⟨name', summary', s'⟩, outer'⟩ := t'
  obtain ⟨hname, hsummary, houter⟩ := h
  -- the store is the one field on which they may differ
  simp only at hname hsummary houter
  simp only [Tracker.withStore, hname, hsummary, houter]

theorem foldl {α : Type} {step : Tracker → α → Tracker}
    (hstep : ∀ t a, SameScopes t (step t a)) (items : List α) (t : Tracker) :
    SameScopes t (items.foldl step t) := by
  induction items generalizing t with
  | nil => exact refl t
  | cons a items ih => exact (hstep t a).trans (ih (step t a))

end SameScopes

theorem bindElements_eq (t : Tracker) (cs : List Node) :
    t.bindElements cs = cs.foldl (fun t c => t.bindTarget .unknown c) t := by
  induction cs generalizing t with
  | nil => rfl
  | cons c cs ih => rw [bindElements, ih, List.foldl_cons]

theorem bindTarget_eq (t : Tracker) (facts : Facts) (n : Node) :
    t.bindTarget facts n =
      match n.kind with
      | .name => t.bind n.name facts
      | .sequence => n.children.foldl (fun t c => t.bindTarget .unknown c) t
      | _ => t := by
  obtain ⟨kind, span, role, tag, name, literal, attrs, cs⟩ := n
  rw [bindTarget.eq_def]
  cases kind with
  | name => rfl
  | sequence => exact bindElements_eq t cs
  | _ => rfl

theorem bindTarget_sameScopes (facts : Facts) (n : Node) (t : Tracker) :
    SameScopes t (t.bindTarget facts n) := by
  induction n using Node.induction generalizing facts t with
  | step n ih =>
    rw [bindTarget_eq]
    split
    · exact .bind t _ _
    · -- the step of the fold is given by the hypothesis only for the children
      suffices h : ∀ cs : List Node, cs ⊆ n.children → ∀ t : Tracker,
          SameScopes t (cs.foldl (fun t c => t.bindTarget .unknown c) t) from
        h _ (List.Subset.refl _) t
      intro cs hcs
      induction cs with
      | nil => exact .refl
      | cons c cs ihcs =>
        intro t
        have hc := ih c (hcs List.mem_cons_self) .unknown t
        exact hc.trans (ihcs (fun d hd => hcs (List.mem_cons_of_mem _ hd)) _)
    · exact .refl t

theorem bindAssignment_sameScopes {t t' : Tracker} {n : Node}
    (h : t.bindAssignment n = .ok t') : SameScopes t t' := by
  unfold bindAssignment at h
  cases hfacts : t.assignedFacts n with
  | error fault => rw [hfacts] at h; cases h
  | ok facts =>
    rw [hfacts] at h
    cases h
    exact .foldl (fun t target => bindTarget_sameScopes facts target t) _ t

/-- The scope of a function lies in the scope in which it is entered. -/
theorem enterFunction_outer {t t' : Tracker} {n : Node} (h : t.enterFunction n = .ok t') :
    t'.outer = t.current :: t.outer := by
  unfold enterFunction at h
  cases hsummary : Summary.of n t.resolve with
  | error fault => rw [hsummary] at h; cases h
  | ok summary =>
    rw [hsummary] at h
    cases h
    exact (SameScopes.foldl (fun t name => .bind t _ _) summary.parameters _).outer

theorem join_sameScopes {t t' : Tracker} {start : Store} {outcomes : List Store}
    {fallthrough : Bool} (h : t.join start outcomes fallthrough = .ok t') : SameScopes t t' := by
  unfold join at h
  dsimp only at h
  split at h <;>
  · cases hmerge : Store.merge _ with
    | error fault => rw [hmerge] at h; cases h
    | ok store =>
      rw [hmerge] at h
      cases h
      exact .withStore t store

theorem SameScopes.join_eq {t t' : Tracker} (h : SameScopes t t') (start : Store)
    (outcomes : List Store) (fallthrough : Bool) :
    t'.join start outcomes fallthrough = t.join start outcomes fallthrough := by
  unfold join
  simp only [h.withStore_eq]

/-- Closing a scope that was opened leads back to the tracker before. -/
theorem exit_eq {t t' : Tracker} (h : t'.outer = t.current :: t.outer) : t'.exit = t := by
  unfold exit
  rw [h]

end Tracker

/-! ## Steps of a walk -/

/-- The state in which a step of a walk ends, cut short or not. -/
def endOf {α : Type} : EStateM.Result Halt Walk α → Walk
  | .ok _ walk => walk
  | .error _ walk => walk

/-- A step that does nothing to the tracker. -/
def LeavesTracker {α : Type} (step : Visit α) : Prop :=
  ∀ walk : Walk, (endOf (step walk)).tracker = walk.tracker

namespace LeavesTracker

theorem pure {α : Type} (a : α) : LeavesTracker (pure a) := fun _ => rfl

theorem bind {α β : Type} {step : Visit α} {next : α → Visit β} (h : LeavesTracker step)
    (hnext : ∀ a, LeavesTracker (next a)) : LeavesTracker (step >>= next) := by
  intro walk
  have hstep := h walk
  rw [bind_apply]
  cases hrun : step walk with
  | ok a after => rw [hrun] at hstep; exact (hnext a after).trans hstep
  | error halt after => rw [hrun] at hstep; exact hstep

theorem checkDeadline (survey : Survey) : LeavesTracker (checkDeadline survey) := by
  intro walk
  rw [checkDeadline_apply]
  split
  · rfl
  · split <;> rfl

theorem reportFindings (rule : Rule) (n : Node) (findings : List Finding) :
    LeavesTracker (reportFindings rule n findings) := by
  intro walk
  induction findings generalizing walk with
  | nil => rfl
  | cons finding rest ih =>
    rw [reportFindings_cons]
    split
    · rfl
    · exact ih _

theorem applyRule (survey : Survey) (site : Site) (rule : Rule) :
    LeavesTracker (applyRule survey site rule) := by
  intro walk
  rw [applyRule_apply]
  split
  · exact reportFindings rule site.node _ walk
  · rfl

/-- Rules look at the tracker and do not change it. -/
theorem applyRules (survey : Survey) (site : Site) (rules : List Rule) :
    LeavesTracker (applyRules survey site rules) := by
  induction rules with
  | nil => exact .pure ()
  | cons rule rest ih => exact .bind (applyRule survey site rule) fun _ => ih

end LeavesTracker

/-- A step that ends in the scope in which it began, also if it is cut short. -/
def Keeps {α : Type} (step : Visit α) : Prop :=
  ∀ walk : Walk, walk.tracker.SameScopes (endOf (step walk)).tracker

namespace Keeps

theorem pure {α : Type} (a : α) : Keeps (pure a) := fun walk => .refl walk.tracker

theorem bind {α β : Type} {step : Visit α} {next : α → Visit β} (h : Keeps step)
    (hnext : ∀ a, Keeps (next a)) : Keeps (step >>= next) := by
  intro walk
  have hstep := h walk
  rw [bind_apply]
  cases hrun : step walk with
  | ok a after => rw [hrun] at hstep; exact hstep.trans (hnext a after)
  | error halt after => rw [hrun] at hstep; exact hstep

theorem of_leavesTracker {α : Type} {step : Visit α} (h : LeavesTracker step) : Keeps step := by
  intro walk
  rw [h walk]
  exact .refl _

theorem track {f : Tracker → Tracker} (h : ∀ t, Tracker.SameScopes t (f t)) : Keeps (track f) :=
  fun walk => h walk.tracker

theorem tryTrack {f : Tracker → Except Fault Tracker}
    (h : ∀ t t', f t = .ok t' → t.SameScopes t') : Keeps (tryTrack f) := by
  intro walk
  rw [tryTrack_apply]
  cases hrun : f walk.tracker with
  | ok t' => exact h _ _ hrun
  | error fault => exact .refl _

/-- A scope that is opened and closed around a step leaves no trace in the tracker. -/
theorem closing_tracker {step : Visit Unit} (h : Keeps step) {t : Tracker} {walk : Walk}
    (hopen : walk.tracker.outer = t.current :: t.outer) :
    (endOf (closing step walk)).tracker = t := by
  have hstep := (h walk).outer.trans hopen
  -- the scope is closed on both ways out of the step
  unfold closing
  cases hrun : step walk with
  | ok a after => rw [hrun] at hstep; exact Tracker.exit_eq hstep
  | error halt after => rw [hrun] at hstep; exact Tracker.exit_eq hstep

theorem inFunction_leaves (n : Node) {body : Visit Unit} (h : Keeps body) :
    LeavesTracker (visitSteps.inFunction n body) := by
  intro walk
  rw [inFunction_apply]
  cases hrun : walk.tracker.enterFunction n with
  | ok t => exact closing_tracker h (Tracker.enterFunction_outer hrun)
  | error fault => rfl

theorem inClass_leaves (n : Node) {body : Visit Unit} (h : Keeps body) :
    LeavesTracker (visitSteps.inClass n body) := by
  intro walk
  exact closing_tracker h rfl

theorem inFunction (n : Node) {body : Visit Unit} (h : Keeps body) :
    Keeps (visitSteps.inFunction n body) := of_leavesTracker (inFunction_leaves n h)

theorem inClass (n : Node) {body : Visit Unit} (h : Keeps body) :
    Keeps (visitSteps.inClass n body) := of_leavesTracker (inClass_leaves n h)

theorem runArms (start : Store) {arms : List (Visit Unit)} (h : ∀ arm ∈ arms, Keeps arm) :
    Keeps (runArms start arms) := by
  induction arms with
  | nil => exact .pure []
  | cons arm arms ih =>
    have harm := h arm List.mem_cons_self
    have hrest := ih fun a ha => h a (List.mem_cons_of_mem _ ha)
    unfold Framewise.runArms
    -- putting the store back and running the arm both stay in the scope
    refine .bind (.track fun t => .withStore t start) fun _ => .bind harm fun _ => ?_
    exact .bind (of_leavesTracker fun _ => rfl) fun walk => .bind hrest fun outcomes => .pure _

theorem branch {arms : List (Visit Unit)} (h : ∀ arm ∈ arms, Keeps arm) (fallthrough : Bool) :
    Keeps (branch arms fallthrough) := by
  unfold Framewise.branch
  refine .bind (of_leavesTracker fun _ => rfl) fun walk => ?_
  refine .bind (runArms _ h) fun outcomes => ?_
  exact .tryTrack fun t t' hjoin => Tracker.join_sameScopes hjoin

theorem bindDefinition (n : Node) : Keeps (bindDefinition n) := by
  unfold Framewise.bindDefinition
  split
  · split
    · exact .pure ()
    · exact .track fun t => .bind t _ _
  · exact .pure ()

/-! ### Nodes -/

theorem forall_of_forall₂ {β : Type} {arms : List (Visit Unit)} {others : List β}
    (h : List.Forall₂ (fun arm _ => Keeps arm) arms others) : ∀ arm ∈ arms, Keeps arm := by
  induction h with
  | nil => intro arm harm; exact absurd harm List.not_mem_nil
  | cons hfirst _ ih =>
    intro arm harm
    rcases List.mem_cons.mp harm with rfl | harm
    · exact hfirst
    · exact ih arm harm

/-- Every step of the traversal ends in the scope in which it began. -/
theorem respects (n : Node) :
    Steps.Respects (fun step (_ : Visit Unit) => Keeps step) visitSteps visitSteps n where
  idle := .pure ()
  andThen h h' := .bind h fun _ => h'
  inFunction h := inFunction n h
  inClass h := inClass n h
  define := bindDefinition n
  assign := .tryTrack fun _ _ h => Tracker.bindAssignment_sameScopes h
  bindTarget c _ := .track fun t => Tracker.bindTarget_sameScopes .unknown c t
  fork fallthrough h := branch (forall_of_forall₂ h) fallthrough

theorem visit (survey : Survey) (parent : Option Node) (n : Node) :
    Keeps (visit survey parent n) := by
  induction n using Node.induction generalizing parent with
  | step n ih =>
    rw [visit_eq]
    refine .bind (.of_leavesTracker (.checkDeadline survey)) fun _ =>
      .bind (.of_leavesTracker (.applyRules survey _ _)) fun _ => ?_
    apply (respects n).passage_of_forall
    intro call hcall
    obtain ⟨c, hc, rfl⟩ := List.mem_map.mp hcall
    exact ⟨hc, ih c hc _⟩

end Keeps

/-- A visit of any node, with any rules and from any chain of scopes, ends at the depth and in
    the scope in which it began, and the scopes around that one are as they were, bindings
    included. This also holds if the visit is cut short. -/
theorem visit_keeps_scopes (survey : Survey) (parent : Option Node) (n : Node) (walk : Walk) :
    let after := endOf (visit survey parent n walk)
    after.tracker.scopes.length = walk.tracker.scopes.length ∧
      after.tracker.current.name = walk.tracker.current.name ∧
      after.tracker.current.summary = walk.tracker.current.summary ∧
      after.tracker.outer = walk.tracker.outer := by
  have h := Keeps.visit survey parent n walk
  refine ⟨?_, h.name, h.summary, h.outer⟩
  -- the depth is that of the scopes around, and one more
  simp [Tracker.scopes, h.outer]

end Framewise
