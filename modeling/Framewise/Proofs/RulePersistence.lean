import Framewise.Proofs.Abstraction
import Framewise.Rule.Catalog

/-! # Rules under a stronger tracker

  A rule of the catalog asks a tracker three things: whether a name or an
  expression is a frame, how a name is bound in the innermost scope, and whether
  the enclosing function returns a frame. It reports only where the answer is
  yes. So what it finds with a tracker that knows less it also finds with one
  that knows more, and with neither does it crash on a tree whose names are all
  there.

  Main definition: `Matcher.Persists`.

  Main result: `catalog_persists`.
-/

namespace Framewise

/-- What the matcher finds is still found when more is known. -/
def Matcher.Persists (matcher : Matcher) : Prop :=
  ∀ (site : Site) (t t' : Tracker) (source : Option SourceText), site.node.Named →
    t.Abstracts t' → BothOk List.Sublist (matcher site { tracker := t, source := source })
      (matcher site { tracker := t', source := source })

/-! ## Questions to a view -/

section Views

variable {t t' : Tracker} {source : Option SourceText} {o : Option Node}

theorem View.frameOf_held (h : t.Abstracts t') (ho : ∀ m, o = some m → m.Named) :
    BothOk Held (View.frameOf { tracker := t, source := source } o)
      (View.frameOf { tracker := t', source := source } o) := by
  unfold View.frameOf Tracker.frameOf
  refine BothOk.mapError ?_ _
  cases o with
  | none => exact .pure nofun
  | some n =>
    dsimp only
    split
    next hkind =>
      obtain ⟨s, hs⟩ := (ho n rfl).name hkind
      rw [hs]
      exact h.resolve s
    next => exact .pure nofun

theorem View.isFrame_persists (h : t.Abstracts t') (ho : ∀ m, o = some m → m.Named) :
    BothOk (fun b b' => b = true → b' = true) (View.isFrame { tracker := t, source := source } o)
      (View.isFrame { tracker := t', source := source } o) := by
  unfold View.isFrame Tracker.isFrame
  refine BothOk.mapError (.bind (frameFacts_abstracts h.resolve ho) ?_) _
  intro f g hfg
  refine .pure ?_
  intro hsome
  obtain ⟨facts, hfacts⟩ := Option.isSome_iff_exists.mp hsome
  rw [hfg facts hfacts]
  rfl

end Views

/-! ## Findings -/

section Findings

variable {next : Option Binding → Except Crash (List Finding)}

/-- A rule that finds nothing without a binding. -/
theorem BothOk.bind_held {x y : Except Crash (Option Binding)} (h : BothOk Held x y)
    (hnone : next none = .ok []) (hsome : ∀ b, ∃ found, next (some b) = .ok found) :
    BothOk List.Sublist (x >>= next) (y >>= next) := by
  refine h.bind fun b b' hheld => ?_
  cases b with
  | some b =>
    -- a binding that is held is the same for both, and so is what the rule makes of it
    obtain ⟨found, hfound⟩ := hsome b
    rw [hheld b rfl]
    exact ⟨found, found, hfound, hfound, .refl _⟩
  | none =>
    cases b' with
    | none => exact ⟨[], [], hnone, hnone, .refl _⟩
    | some b' =>
      obtain ⟨found, hfound⟩ := hsome b'
      exact ⟨[], found, hnone, hfound, List.nil_sublist _⟩

/-- A rule that finds something where a test succeeds, and else nothing. -/
theorem BothOk.bind_test {x y : Except Crash Bool}
    (h : BothOk (fun b b' => b = true → b' = true) x y) (found : List Finding) :
    BothOk List.Sublist (x >>= fun b => if b then .ok found else .ok [])
      (y >>= fun b => if b then .ok found else .ok []) := by
  refine h.bind fun b b' himp => ?_
  cases b with
  | true => rw [himp rfl]; exact .pure (.refl _)
  | false =>
    cases b' with
    | true => exact .pure (List.nil_sublist _)
    | false => exact .pure (.refl _)

end Findings

/-! ## The seven rules -/

namespace Rule

theorem attributeColumn_persists : Matcher.Persists attributeColumn := by
  intro site t t' source hnamed h
  unfold attributeColumn
  dsimp only
  split
  · exact .pure (.refl _)
  · refine (View.frameOf_held h ?_).bind_held rfl ?_
    · exact fun m hm => hnamed.below (Node.below_of_child? hm)
    · exact fun b => ⟨_, rfl⟩

theorem unpinnedSchema_persists : Matcher.Persists unpinnedSchema := by
  intro site t t' source hnamed h
  unfold unpinnedSchema
  dsimp only
  split
  · exact .pure (.refl _)
  · refine (View.frameOf_held h ?_).bind_held rfl ?_
    · exact fun m hm => Option.some.inj hm ▸ hnamed
    · intro b
      dsimp only
      split
      · exact ⟨[], rfl⟩
      · split <;> exact ⟨_, rfl⟩

theorem bareMask_persists : Matcher.Persists bareMask := by
  intro site t t' source hnamed h
  unfold bareMask
  dsimp only
  split
  · exact .pure (.refl _)
  · refine (View.frameOf_held h ?_).bind_held rfl ?_
    · exact fun m hm => hnamed.below (Node.below_of_child? hm)
    · intro b
      split
      · split <;> exact ⟨_, rfl⟩
      · exact ⟨[], rfl⟩

/-- A fix is read off the source, not off the tracker. -/
theorem inPlace_persists : Matcher.Persists inPlace := by
  intro site t t' source hnamed h
  unfold inPlace
  dsimp only
  split
  · exact .pure (.refl _)
  · split
    · exact .pure (.refl _)
    · split
      · exact .pure (.refl _)
      · split
        · exact .pure (.refl _)
        · split
          · exact .pure (.refl _)
          · refine (View.isFrame_persists h ?_).bind_test _
            exact fun m hm => hnamed.below (Node.methodReceiver_below hm)

theorem isFrameMerge_persists {t t' : Tracker} (h : t.Abstracts t') (source : Option SourceText)
    {call : Node} (hcall : call.Named) :
    BothOk (fun b b' => b = true → b' = true)
      (isFrameMerge { tracker := t, source := source } call)
      (isFrameMerge { tracker := t', source := source } call) := by
  unfold isFrameMerge
  dsimp only
  split
  · exact View.isFrame_persists h fun m hm => hcall.below (Node.methodReceiver_below hm)
  · split
    · exact .pure fun hmerge => hmerge
    · exact .pure nofun

theorem implicitMerge_persists : Matcher.Persists implicitMerge := by
  intro site t t' source hnamed h
  unfold implicitMerge
  dsimp only
  split
  · exact .pure (.refl _)
  · exact (isFrameMerge_persists h source hnamed).bind_test _

theorem assignedColumn_below {target frame : Node} {label : String}
    (h : assignedColumn target = some (frame, label)) : frame.Below target := by
  unfold assignedColumn at h
  split at h
  · cases h
  simp only [Option.bind_eq_bind, Option.bind_eq_some_iff] at h
  obtain ⟨receiver, hreceiver, index, _, h⟩ := h
  have hbelow := Node.below_of_child? hreceiver
  split at h
  · obtain ⟨_, _, ⟨⟩⟩ := Option.bind_eq_some_iff.mp h
    exact hbelow
  · split at h
    · obtain ⟨inner, hinner, h⟩ := Option.bind_eq_some_iff.mp h
      split at h
      · cases h
      · split at h
        · split at h
          · obtain ⟨_, _, ⟨⟩⟩ := Option.bind_eq_some_iff.mp h
            exact hbelow.trans_child? hinner
          · cases h
        · cases h
    · cases h

theorem fillerFindings_persist {t t' : Tracker} (h : t.Abstracts t') (source : Option SourceText)
    (shown : String) {targets : List Node} (htargets : ∀ n ∈ targets, n.Named) :
    BothOk List.Sublist (fillerFindings { tracker := t, source := source } shown targets)
      (fillerFindings { tracker := t', source := source } shown targets) := by
  induction targets with
  | nil => exact .pure (.refl _)
  | cons target rest ih =>
    obtain ⟨htarget, hrest⟩ := List.forall_mem_cons.mp htargets
    have hlater := ih hrest
    unfold fillerFindings
    split
    next => exact hlater
    next frame label hassigned =>
      refine (View.frameOf_held h ?_).bind fun b b' hheld => hlater.bind fun l l' hl => ?_
      · exact fun m hm => Option.some.inj hm ▸ htarget.below (assignedColumn_below hassigned)
      · cases b with
        | some b => rw [hheld b rfl]; exact .pure (hl.cons_cons _)
        | none =>
          cases b' with
          | none => exact .pure hl
          -- here the stronger tracker finds one more
          | some b' => exact .pure (hl.cons _)

theorem fillerColumn_persists : Matcher.Persists fillerColumn := by
  intro site t t' source hnamed h
  unfold fillerColumn
  dsimp only
  split
  · exact .pure (.refl _)
  · split
    next => exact .pure (.refl _)
    next value _ =>
      split
      · refine fillerFindings_persist h source _ fun n hn => hnamed.child ?_
        exact Node.mem_of_mem_childrenIn hn
      · exact .pure (.refl _)

/-- A finding names the parameter, which the stronger tracker binds alike. -/
theorem mutationFinding_persists {t t' : Tracker} (h : t.Abstracts t') (source : Option SourceText)
    {summary summary' : Summary} (hsummary : summary.Abstracts summary') (target : Node) :
    Held (mutationFinding { tracker := t, source := source } summary target)
      (mutationFinding { tracker := t', source := source } summary' target) := by
  intro finding hfinding
  unfold mutationFinding at hfinding ⊢
  obtain ⟨frame, hframe, hfinding⟩ := Option.bind_eq_some_iff.mp hfinding
  obtain ⟨b, hb, hfinding⟩ := Option.bind_eq_some_iff.mp hfinding
  split at hfinding
  next horigin =>
    have hisFrame : b.isFrame = true := by simp [Binding.isFrame, horigin]
    have hb' : View.local? { tracker := t', source := source } frame.name = some b :=
      h.local? hb hisFrame
    rw [← hfinding, hframe, hsummary.name]
    simp [hb', horigin]
  next => cases hfinding

theorem filterMap_sublist {α β : Type} {f g : α → Option β} (h : ∀ a, Held (f a) (g a))
    (items : List α) : (items.filterMap f).Sublist (items.filterMap g) := by
  induction items with
  | nil => exact .refl _
  | cons a items ih =>
    cases hf : f a with
    | some b =>
      rw [List.filterMap_cons_some hf, List.filterMap_cons_some (h a b hf)]
      exact ih.cons_cons _
    | none =>
      rw [List.filterMap_cons_none hf]
      cases hg : g a with
      | none => rw [List.filterMap_cons_none hg]; exact ih
      | some b => rw [List.filterMap_cons_some hg]; exact ih.cons _

theorem parameterMutation_persists : Matcher.Persists parameterMutation := by
  intro site t t' source hnamed h
  have hrel := h.current.summary
  unfold parameterMutation View.function?
  dsimp only
  split
  · exact .pure (.refl _)
  · -- the rule looks at the summaries of both trackers, not at the trackers
    generalize t.current.summary = summary?, t'.current.summary = summary?' at hrel ⊢
    cases hrel with
    | none => exact .pure (.refl _)
    | @some summary summary' hsummary =>
      by_cases hreturns : summary.returnsFrame = true
      · simp only [hreturns, hsummary.returnsFrame hreturns, if_true]
        exact .pure (filterMap_sublist (mutationFinding_persists h source hsummary) _)
      · simp only [hreturns]
        cases summary'.returnsFrame with
        | true => exact .pure (List.nil_sublist _)
        | false => exact .pure (.refl _)

end Rule

/-- What a rule of the catalog finds is still found when more is known. -/
theorem catalog_persists : ∀ rule ∈ catalog, Matcher.Persists rule.matcher := by
  simp only [catalog, List.forall_mem_cons]
  exact ⟨Rule.attributeColumn_persists, Rule.inPlace_persists, Rule.bareMask_persists,
    Rule.unpinnedSchema_persists, Rule.implicitMerge_persists, Rule.fillerColumn_persists,
    Rule.parameterMutation_persists, nofun⟩

end Framewise
