import Framewise.Proofs.Writes

/-! # The chronicle of a walk

  An itinerary shows the tracker where rules are applied. Between two stops the
  tracker changes in small steps, and a walk can be cut short at some of them. The
  chronicle of a walk has the tracker of every moment: before and after each
  write, after a scope is opened and after it is closed, before and after each
  arm, and after each merge. It is one more interpretation of the steps of a
  traversal, with the same legs as an itinerary and notes in between.

  Main definitions:
  - `momentSteps`: the steps of a traversal with a note of every tracker.
  - `chronicle`, `moments`: the course through a tree, in all detail.

  Main results:
  - `chronicle_details`: a chronicle leads where the tour leads, and has its stops.
  - `visit_recorded`: wherever a visit ends, cut short or not, the tracker at that
    moment is in the chronicle.
-/

namespace Framewise

/-- The trackers that a course passes. -/
def Course.trackers (course : Course) : List Tracker := course.stops.map (·.tracker)

/-! ## Notes -/

namespace Leg

/-- Notes the tracker. -/
def note (place : Place) : Leg := fun t => ⟨[{ toPlace := place, tracker := t }], .ok t⟩

/-- A leg between two notes. -/
def framed (place : Place) (leg : Leg) : Leg := (note place).andThen (leg.andThen (note place))

/-- Writes in order, with a note after each. -/
def writing (place : Place) : List Write → Leg
  | [] => idle
  | w :: ws =>
    (change fun t => .ok (t.write w)).andThen ((note place).andThen (writing place ws))

/-- A leg that depends on what is found out about the tracker. -/
def given {α : Type} (find : Tracker → Except Fault α) (next : α → Leg) : Leg := fun t =>
  match find t with
  | .ok a => next a t
  | .error fault => ⟨[], .error fault⟩

theorem given_ok {α : Type} {find : Tracker → Except Fault α} {next : α → Leg} {t : Tracker}
    {a : α} (h : find t = .ok a) : given find next t = next a t := by
  unfold given
  rw [h]

theorem given_error {α : Type} {find : Tracker → Except Fault α} {next : α → Leg} {t : Tracker}
    {fault : Fault} (h : find t = .error fault) : given find next t = ⟨[], .error fault⟩ := by
  unfold given
  rw [h]

/-- A function is entered by its summary, and the parameters are the first writes in its scope. -/
theorem inScope_enterFunction (n : Node) (body : Leg) :
    inScope (fun t => t.enterFunction n) body =
      given (fun t => Summary.of n t.resolve) fun summary =>
        inScope (fun t => .ok (t.enter summary.name (some summary)))
          ((change fun t => .ok (t.writeAll summary.parameterWrites)).andThen body) := by
  funext t
  have henter := t.enterFunction_eq n
  cases hsummary : Summary.of n t.resolve with
  | error fault =>
    rw [hsummary] at henter
    rw [given_error hsummary, inScope_error henter]
  | ok summary =>
    rw [hsummary] at henter
    rw [given_ok hsummary, inScope_ok henter]
    rfl

theorem change_bindAssignment (n : Node) :
    (change fun t => t.bindAssignment n) =
      given (fun t => t.assignedFacts n) fun facts =>
        change fun t => .ok (t.writeAll (n.assignedWrites facts)) := by
  funext t
  have hassign := t.bindAssignment_eq n
  cases hfacts : t.assignedFacts n with
  | error fault =>
    rw [hfacts] at hassign
    rw [given_error hfacts, change, hassign]
    rfl
  | ok facts =>
    rw [hfacts] at hassign
    rw [given_ok hfacts, change, hassign]
    rfl

theorem writing_result (place : Place) (ws : List Write) (t : Tracker) :
    (writing place ws t).result = .ok (t.writeAll ws) := by
  induction ws generalizing t with
  | nil => rfl
  | cons w ws ih => exact ih (t.write w)

end Leg

/-- The steps of a traversal with the trackers of all moments. -/
def momentSteps (place : Place) : Steps Leg where
  idle := .note place
  andThen := .andThen
  inFunction n body := .framed place <|
    .given (fun t => Summary.of n t.resolve) fun summary =>
      .inScope (fun t => .ok (t.enter summary.name (some summary)))
        (.andThen (.framed place (.writing place summary.parameterWrites)) body)
  inClass n body := .framed place (.inScope (fun t => .ok (t.enter (classScopeName n))) body)
  define n := .framed place (.writing place n.definedWrites)
  assign n := .framed place <|
    .given (fun t => t.assignedFacts n) fun facts => .writing place (n.assignedWrites facts)
  bindTarget c := .framed place (.writing place (c.targetWrites .unknown))
  fork arms fallthrough := .framed place (.merged arms fallthrough)

mutual

/-- The course through a tree whose root stands at `address`, with the trackers of all
    moments. -/
def chronicle (address : List Nat) (parent : Option Node) : Node → Leg
  | n@{ children := cs, .. } => fun t =>
    let place : Place := { address := address, site := { node := n, parent := parent } }
    let rest := (momentSteps place).passage n (chronicleCalls address n 0 cs) t
    ⟨{ toPlace := place, tracker := t } :: rest.stops, rest.result⟩

/-- The same for the children of a node from number `i` on. -/
def chronicleCalls (address : List Nat) (parent : Node) (i : Nat) : List Node → List (Node × Leg)
  | [] => []
  | c :: cs =>
    (c, chronicle (address ++ [i]) (some parent) c) :: chronicleCalls address parent (i + 1) cs

end

/-- The moments of the walk over a tree. -/
def moments (root : Node) : List Stop := (chronicle [] none root .start).stops

theorem chronicleCalls_eq (address : List Nat) (n : Node) (i : Nat) (cs : List Node) :
    chronicleCalls address n i cs =
      (cs.zipIdx i).map fun p => (p.1, chronicle (address ++ [p.2]) (some n) p.1) := by
  induction cs generalizing i with
  | nil => rfl
  | cons c cs ih => rw [chronicleCalls, ih, List.zipIdx_cons, List.map_cons]

theorem chronicle_eq (address : List Nat) (parent : Option Node) (n : Node) (t : Tracker) :
    chronicle address parent n t =
      let place : Place := { address := address, site := { node := n, parent := parent } }
      let rest := (momentSteps place).passage n (chronicleCalls address n 0 n.children) t
      ⟨{ toPlace := place, tracker := t } :: rest.stops, rest.result⟩ := by
  cases n
  rw [chronicle]

/-! ## Chronicles and tours -/

/-- The first leg leads where the second leads, and has its stops. -/
structure Leg.Refines (fine coarse : Leg) : Prop where
  result : ∀ t, (fine t).result = (coarse t).result
  stops : ∀ t, (coarse t).stops ⊆ (fine t).stops

/-- Besides, it has a note of the tracker at the start and at the end. -/
structure Leg.Details (fine coarse : Leg) : Prop extends Leg.Refines fine coarse where
  starts : ∀ t, t ∈ (fine t).trackers
  ends : ∀ t e, (fine t).result = .ok e → e ∈ (fine t).trackers

namespace Leg.Refines

theorem andThen {a a' b b' : Leg} (ha : a.Refines a') (hb : b.Refines b') :
    (a.andThen b).Refines (a'.andThen b') := by
  constructor
  · intro t
    have hresult := ha.result t
    cases hmid : (a' t).result with
    | error fault => rw [andThen_error hmid, andThen_error (hresult.trans hmid)]
    | ok m =>
      rw [andThen_ok hmid, andThen_ok (hresult.trans hmid)]
      exact hb.result m
  · intro t
    have hresult := ha.result t
    cases hmid : (a' t).result with
    | error fault =>
      rw [andThen_error hmid, andThen_error (hresult.trans hmid)]
      exact ha.stops t
    | ok m =>
      rw [andThen_ok hmid, andThen_ok (hresult.trans hmid)]
      exact List.append_subset.mpr ⟨List.subset_append_of_subset_left _ (ha.stops t),
        List.subset_append_of_subset_right _ (hb.stops m)⟩

theorem writing (place : Place) (ws : List Write) :
    (Leg.writing place ws).Refines (.change fun t => .ok (t.writeAll ws)) where
  result := writing_result place ws
  stops _ := List.nil_subset _

/-- Notes do not change where a leg leads. -/
theorem note_andThen (place : Place) {fine coarse : Leg} (h : fine.Refines coarse) :
    ((Leg.note place).andThen fine).Refines coarse where
  result t := h.result t
  stops t := List.subset_append_of_subset_right _ (h.stops t)

theorem andThen_note (place : Place) {fine coarse : Leg} (h : fine.Refines coarse) :
    (fine.andThen (Leg.note place)).Refines coarse := by
  constructor
  · intro t
    rw [← h.result t]
    cases hend : (fine t).result with
    | error fault => rw [andThen_error hend]
    | ok e => rw [andThen_ok hend]; rfl
  · intro t
    cases hend : (fine t).result with
    | error fault => rw [andThen_error hend]; exact h.stops t
    | ok e => rw [andThen_ok hend]; exact List.subset_append_of_subset_left _ (h.stops t)

theorem given {α : Type} (find : Tracker → Except Fault α) {next next' : α → Leg}
    (h : ∀ a, (next a).Refines (next' a)) :
    (Leg.given find next).Refines (Leg.given find next') := by
  constructor
  · intro t
    cases hfind : find t with
    | error fault => rw [given_error hfind, given_error hfind]
    | ok a => rw [given_ok hfind, given_ok hfind, (h a).result t]
  · intro t
    cases hfind : find t with
    | error fault => rw [given_error hfind, given_error hfind]; exact List.Subset.refl _
    | ok a => rw [given_ok hfind, given_ok hfind]; exact (h a).stops t

theorem inScope (enter : Tracker → Except Fault Tracker) {body body' : Leg}
    (h : body.Refines body') : (Leg.inScope enter body).Refines (Leg.inScope enter body') := by
  constructor
  · intro t
    cases henter : enter t with
    | error fault => rw [inScope_error henter, inScope_error henter]
    | ok inner => rw [inScope_ok henter, inScope_ok henter, h.result inner]
  · intro t
    cases henter : enter t with
    | error fault => rw [inScope_error henter, inScope_error henter]; exact List.Subset.refl _
    | ok inner => rw [inScope_ok henter, inScope_ok henter]; exact h.stops inner

theorem outcomes {arms arms' : List Leg} (h : List.Forall₂ Leg.Refines arms arms')
    (t : Tracker) :
    (Leg.outcomes t arms).2 = (Leg.outcomes t arms').2 ∧
      (Leg.outcomes t arms').1 ⊆ (Leg.outcomes t arms).1 := by
  induction h with
  | nil => exact ⟨rfl, List.Subset.refl _⟩
  | @cons arm arm' arms arms' harm _ ih =>
    obtain ⟨hresults, hstops⟩ := ih
    have hresult := harm.result t
    cases hend : (arm' t).result with
    | error fault =>
      rw [outcomes_error hend, outcomes_error (hresult.trans hend)]
      exact ⟨rfl, harm.stops t⟩
    | ok e =>
      rw [outcomes_ok hend, outcomes_ok (hresult.trans hend), hresults]
      exact ⟨rfl, List.append_subset.mpr ⟨List.subset_append_of_subset_left _ (harm.stops t),
        List.subset_append_of_subset_right _ hstops⟩⟩

theorem merged {arms arms' : List Leg} (h : List.Forall₂ Leg.Refines arms arms')
    (fallthrough : Bool) :
    (Leg.merged arms fallthrough).Refines (Leg.merged arms' fallthrough) := by
  constructor
  · intro t
    unfold Leg.merged
    rw [(outcomes h t).1]
  · exact fun t => (outcomes h t).2

end Leg.Refines

namespace Leg.Details

theorem idle (place : Place) : (Leg.note place).Details Leg.idle where
  result _ := rfl
  stops _ := List.nil_subset _
  starts _ := List.mem_singleton_self _
  ends := by
    rintro t _ ⟨⟩
    exact List.mem_singleton_self _

/-- The trackers of a leg that comes first are passed whatever it leads to. -/
theorem trackers_subset_andThen (a b : Leg) (t : Tracker) :
    (a t).trackers ⊆ (a.andThen b t).trackers := by
  cases hmid : (a t).result with
  | error fault => rw [andThen_error hmid]; exact List.Subset.refl _
  | ok m =>
    rw [andThen_ok hmid]
    exact List.map_subset _ (List.subset_append_left _ _)

theorem trackers_subset_of_ok {a b : Leg} {t m : Tracker} (h : (a t).result = .ok m) :
    (b m).trackers ⊆ (a.andThen b t).trackers := by
  rw [andThen_ok h]
  exact List.map_subset _ (List.subset_append_right _ _)

theorem andThen {a a' b b' : Leg} (ha : a.Details a') (hb : b.Details b') :
    (a.andThen b).Details (a'.andThen b') where
  toRefines := ha.toRefines.andThen hb.toRefines
  starts t := trackers_subset_andThen a b t (ha.starts t)
  ends t e he := by
    obtain ⟨m, hmid, he⟩ := of_andThen_ok he
    exact trackers_subset_of_ok hmid (hb.ends m e he)

/-- With a note before and one after it, a leg is recorded. -/
theorem framed (place : Place) {fine coarse : Leg} (h : fine.Refines coarse) :
    (Leg.framed place fine).Details coarse where
  toRefines := .note_andThen place (.andThen_note place h)
  starts t := List.mem_cons_self
  ends t e he := by
    have hnote : (fine.andThen (Leg.note place) t).result = .ok e := he
    obtain ⟨_, hend, ⟨⟩⟩ := of_andThen_ok hnote
    have hlast : e ∈ (fine.andThen (Leg.note place) t).trackers :=
      trackers_subset_of_ok hend (List.mem_singleton_self e)
    exact List.mem_cons_of_mem _ hlast

/-- Every step in all detail leads where the step leads. -/
theorem respects (place : Place) (n : Node) :
    Steps.Respects Leg.Details (momentSteps place) (legSteps .merged) n where
  idle := .idle place
  andThen h h' := h.andThen h'
  inFunction {_ body} h := by
    have heq : (legSteps .merged).inFunction n body = _ := Leg.inScope_enterFunction n body
    rw [heq]
    refine .framed place (.given _ fun summary => .inScope _ (.andThen ?_ h.toRefines))
    exact (framed place (.writing place summary.parameterWrites)).toRefines
  inClass h := .framed place (.inScope _ h.toRefines)
  define := by
    have heq : (legSteps .merged).define n = .change fun t => .ok (t.writeAll n.definedWrites) :=
      congrArg Leg.change (funext fun t => congrArg Except.ok (t.define_eq n))
    rw [heq]
    exact .framed place (.writing place _)
  assign := by
    have heq : (legSteps .merged).assign n = _ := Leg.change_bindAssignment n
    rw [heq]
    exact .framed place (.given _ fun facts => .writing place _)
  bindTarget c _ := by
    have heq : (legSteps .merged).bindTarget c =
        .change fun t => .ok (t.writeAll (c.targetWrites .unknown)) :=
      congrArg Leg.change (funext fun t => congrArg Except.ok (t.bindTarget_eq_writeAll _ c))
    rw [heq]
    exact .framed place (.writing place _)
  fork fallthrough h := .framed place (.merged (h.imp fun _ _ harm => harm.toRefines) fallthrough)

end Leg.Details

/-- A chronicle leads where the tour of the same tree leads, and has its stops. -/
theorem chronicle_details (address : List Nat) (parent : Option Node) (n : Node) :
    (chronicle address parent n).Details (tour (fun _ => .merged) address parent n) := by
  induction n using Node.induction generalizing address parent with
  | step n ih =>
    let place : Place := { address := address, site := { node := n, parent := parent } }
    have hpassage : ((momentSteps place).passage n
        (chronicleCalls address n 0 n.children)).Details
        ((legSteps .merged).passage n (tourCalls (fun _ => .merged) address n 0 n.children)) := by
      apply (Leg.Details.respects place n).passage
      rw [chronicleCalls_eq, tourCalls_eq]
      exact Steps.callsRelated_zipIdx (fun c hc i => ih c hc (address ++ [i]) (some n)) 0
    constructor
    · constructor
      · intro t
        rw [chronicle_eq, tour_eq]
        exact hpassage.result t
      · intro t
        rw [chronicle_eq, tour_eq]
        exact List.cons_subset_cons _ (hpassage.stops t)
    · intro t
      rw [chronicle_eq]
      exact List.mem_cons_self
    · intro t e he
      rw [chronicle_eq] at he ⊢
      exact List.mem_cons_of_mem _ (hpassage.ends t e he)

/-! ## Chronicles and visits -/

/-- A step of a walk whose legs are known in all detail, and that ends at one of their moments
    wherever it is cut short. -/
structure Recorded (survey : Survey) (step : Visit Unit) (fine : Leg) : Prop where
  leg : ∃ coarse, FollowsLeg survey step coarse ∧ fine.Details coarse
  ends : ∀ walk : Walk, (endOf (step walk)).tracker ∈ (fine walk.tracker).trackers

namespace Recorded

variable {survey : Survey}

theorem keeps {step : Visit Unit} {fine : Leg} (h : Recorded survey step fine) : Keeps step := by
  obtain ⟨coarse, hfollows, _⟩ := h.leg
  exact hfollows.keeps

theorem result {step : Visit Unit} {fine : Leg} (h : Recorded survey step fine) {walk last : Walk}
    (hstep : step walk = .ok () last) : (fine walk.tracker).result = .ok last.tracker := by
  obtain ⟨coarse, hfollows, hdetails⟩ := h.leg
  exact (hdetails.result walk.tracker).trans (hfollows.result hstep)

/-- A step that leaves the tracker alone if it is cut short. -/
theorem of_leaves {step : Visit Unit} {fine coarse : Leg} (hfollows : FollowsLeg survey step coarse)
    (hdetails : fine.Details coarse)
    (hleaves : ∀ walk halt last, step walk = .error halt last → last.tracker = walk.tracker) :
    Recorded survey step fine := by
  refine ⟨⟨coarse, hfollows, hdetails⟩, fun walk => ?_⟩
  cases hrun : step walk with
  | ok u last =>
    have hresult := (hdetails.result walk.tracker).trans (hfollows.result hrun)
    exact hdetails.ends walk.tracker last.tracker hresult
  | error halt last =>
    show last.tracker ∈ (fine walk.tracker).trackers
    rw [hleaves walk halt last hrun]
    exact hdetails.starts walk.tracker

theorem andThen {step step' : Visit Unit} {fine fine' : Leg} (h : Recorded survey step fine)
    (h' : Recorded survey step' fine') :
    Recorded survey (do step; step') (fine.andThen fine') := by
  constructor
  · obtain ⟨coarse, hfollows, hdetails⟩ := h.leg
    obtain ⟨coarse', hfollows', hdetails'⟩ := h'.leg
    exact ⟨coarse.andThen coarse', hfollows.andThen hfollows', hdetails.andThen hdetails'⟩
  · intro walk
    have hends := h.ends walk
    rw [bind_apply]
    cases hrun : step walk with
    | error halt last =>
      rw [hrun] at hends
      exact Leg.Details.trackers_subset_andThen fine fine' _ hends
    | ok u last => exact Leg.Details.trackers_subset_of_ok (h.result hrun) (h'.ends last)

/-- Arms end at a moment of one of them, or where they began if there are none. -/
theorem runArms {arms : List (Visit Unit)} {legs : List Leg}
    (h : List.Forall₂ (Recorded survey) arms legs) (t : Tracker) (walk : Walk)
    (hwalk : t.SameScopes walk.tracker) :
    (endOf (runArms t.current.store arms walk)).tracker = walk.tracker ∨
      (endOf (runArms t.current.store arms walk)).tracker ∈
        (Leg.outcomes t legs).1.map (·.tracker) := by
  induction h generalizing walk with
  | nil => exact .inl rfl
  | @cons arm leg arms legs harm _ ih =>
    right
    -- with the store put back, the tracker is `t` again
    have hstart : walk.tracker.withStore t.current.store = t := hwalk.withStore_eq _
    have hends := harm.ends { walk with tracker := t }
    have hkeeps := harm.keeps { walk with tracker := t }
    rw [Framewise.runArms, bind_apply, track_apply, hstart]
    dsimp only
    rw [bind_apply]
    cases hrun : arm { walk with tracker := t } with
    | error halt last =>
      rw [hrun] at hends
      have hhead : (leg t).trackers ⊆ (Leg.outcomes t (leg :: legs)).1.map (·.tracker) := by
        cases hresult : (leg t).result with
        | error fault => rw [Leg.outcomes_error hresult]; exact List.Subset.refl _
        | ok e =>
          rw [Leg.outcomes_ok hresult]
          exact List.map_subset _ (List.subset_append_left _ _)
      exact hhead hends
    | ok u last =>
      rw [hrun] at hends hkeeps
      have hresult : (leg t).result = .ok last.tracker := harm.result hrun
      rw [Leg.outcomes_ok hresult, List.map_append]
      -- what is left only reads the store that the arm led to
      have hrest : (endOf ((do
          let walk ← get
          let outcomes ← Framewise.runArms t.current.store arms
          return walk.tracker.current.store :: outcomes : Visit (List Store)) last)).tracker =
          (endOf (Framewise.runArms t.current.store arms last)).tracker := by
        show (endOf ((Framewise.runArms t.current.store arms >>= fun outcomes =>
          (return last.tracker.current.store :: outcomes : Visit (List Store))) last)).tracker = _
        rw [bind_apply]
        cases Framewise.runArms t.current.store arms last with
        | ok outcomes after => rfl
        | error halt after => rfl
      show (endOf ((do
          let walk ← get
          let outcomes ← Framewise.runArms t.current.store arms
          return walk.tracker.current.store :: outcomes : Visit (List Store)) last)).tracker ∈ _
      rw [hrest]
      rcases ih last hkeeps with hsame | hmem
      · rw [hsame]
        exact List.mem_append_left _ hends
      · exact List.mem_append_right _ hmem

theorem branch {arms : List (Visit Unit)} {legs : List Leg}
    (h : List.Forall₂ (Recorded survey) arms legs) (place : Place) (fallthrough : Bool) :
    Recorded survey (branch arms fallthrough) (.framed place (.merged legs fallthrough)) := by
  obtain ⟨coarse, hfollows, hdetails⟩ : ∃ coarse,
      List.Forall₂ (FollowsLeg survey) arms coarse ∧ List.Forall₂ Leg.Details legs coarse := by
    induction h with
    | nil => exact ⟨[], .nil, .nil⟩
    | cons harm _ ih =>
      obtain ⟨leg, hleg, hleg'⟩ := harm.leg
      obtain ⟨rest, hrest, hrest'⟩ := ih
      exact ⟨leg :: rest, .cons hleg hrest, .cons hleg' hrest'⟩
  have hdetail : (Leg.framed place (.merged legs fallthrough)).Details
      (.merged coarse fallthrough) :=
    .framed place (.merged (hdetails.imp fun _ _ harm => harm.toRefines) fallthrough)
  have hbranch := FollowsLeg.branch hfollows fallthrough
  refine ⟨⟨_, hbranch, hdetail⟩, fun walk => ?_⟩
  cases hrun : Framewise.branch arms fallthrough walk with
  | ok u last =>
    have hresult := (hdetail.result walk.tracker).trans (hbranch.result hrun)
    exact hdetail.ends walk.tracker last.tracker hresult
  | error halt last =>
    -- cut short in an arm, or by the merge, which leaves the tracker of the last arm
    have hlast : last.tracker =
        (endOf (Framewise.runArms walk.tracker.current.store arms walk)).tracker := by
      have hunfold : Framewise.branch arms fallthrough walk =
          (Framewise.runArms walk.tracker.current.store arms >>= fun outcomes =>
            tryTrack fun t => t.join walk.tracker.current.store outcomes fallthrough) walk := rfl
      rw [hunfold, bind_apply] at hrun
      cases harms : Framewise.runArms walk.tracker.current.store arms walk with
      | error halt' last' =>
        rw [harms] at hrun
        injection hrun with _ hlast
        rw [← hlast]
        rfl
      | ok outcomes last' =>
        rw [harms] at hrun
        dsimp only at hrun
        rw [tryTrack_apply] at hrun
        split at hrun
        · cases hrun
        · injection hrun with _ hlast
          rw [← hlast]
          rfl
    show last.tracker ∈ (Leg.framed place (.merged legs fallthrough) walk.tracker).trackers
    rw [hlast]
    rcases runArms h walk.tracker walk (.refl _) with hsame | hmem
    · rw [hsame]
      exact hdetail.starts walk.tracker
    · have harms := Leg.Details.trackers_subset_andThen (.merged legs fallthrough)
        (.note place) walk.tracker
      exact List.mem_cons_of_mem _ (harms hmem)

/-- Every step of the traversal is recorded. -/
theorem respects (survey : Survey) (place : Place) (n : Node) :
    Steps.Respects (Recorded survey) visitSteps (momentSteps place) n where
  idle := .of_leaves .idle (.idle place) (by rintro walk halt last ⟨⟩)
  andThen h h' := h.andThen h'
  inFunction h := by
    obtain ⟨coarse, hfollows, hdetails⟩ := h.leg
    refine .of_leaves (.inFunction n hfollows) ((Leg.Details.respects place n).inFunction hdetails) ?_
    intro walk halt last hrun
    have hleaves := h.keeps.inFunction_leaves n walk
    rw [hrun] at hleaves
    exact hleaves
  inClass h := by
    obtain ⟨coarse, hfollows, hdetails⟩ := h.leg
    refine .of_leaves (.inClass n hfollows) ((Leg.Details.respects place n).inClass hdetails) ?_
    intro walk halt last hrun
    have hleaves := h.keeps.inClass_leaves n walk
    rw [hrun] at hleaves
    exact hleaves
  define := by
    refine .of_leaves (.define n) (Leg.Details.respects place n).define ?_
    intro walk halt last hrun
    rw [show visitSteps.define n = track fun t => t.define n from bindDefinition_eq n] at hrun
    cases hrun
  assign := by
    refine .of_leaves (.tryTrack fun _ _ h => Tracker.bindAssignment_sameScopes h)
      (Leg.Details.respects place n).assign ?_
    intro walk halt last hrun
    rw [show visitSteps.assign n = tryTrack fun t => t.bindAssignment n from rfl,
      tryTrack_apply] at hrun
    split at hrun
    · cases hrun
    · cases hrun
      rfl
  bindTarget c hc := by
    refine .of_leaves (.track fun t => Tracker.bindTarget_sameScopes .unknown c t)
      ((Leg.Details.respects place n).bindTarget c hc) ?_
    intro walk halt last hrun
    cases hrun
  fork fallthrough h := branch h place fallthrough

end Recorded

/-- A visit is recorded by the chronicle of its node: wherever it ends, cut short or not, the
    tracker is that of a moment of the chronicle. -/
theorem visit_recorded (survey : Survey) (address : List Nat) (parent : Option Node) (n : Node) :
    Recorded survey (visit survey parent n) (chronicle address parent n) := by
  induction n using Node.induction generalizing address parent with
  | step n ih =>
    let place : Place := { address := address, site := { node := n, parent := parent } }
    have hpassage : Recorded survey (visitSteps.passage n (visitCalls survey n n.children))
        ((momentSteps place).passage n (chronicleCalls address n 0 n.children)) := by
      apply (Recorded.respects survey place n).passage
      rw [visitCalls_eq survey n _ 0, chronicleCalls_eq]
      exact Steps.callsRelated_zipIdx (fun c hc i => ih c hc (address ++ [i]) (some n)) 0
    refine ⟨⟨_, visit_follows survey address parent n, chronicle_details address parent n⟩, ?_⟩
    intro walk
    have hleaves : LeavesTracker
        (do checkDeadline survey; applyRules survey place.site survey.rules) :=
      .bind (.checkDeadline survey) fun _ => .applyRules survey place.site survey.rules
    have htracker := hleaves walk
    rw [visit_eq, chronicle_eq, ← bind_assoc, bind_apply]
    -- the rules leave the tracker alone, so the passage begins at the first moment
    cases hrun : (do checkDeadline survey; applyRules survey place.site survey.rules :
        Visit Unit) walk with
    | error halt last =>
      rw [hrun] at htracker
      exact List.mem_cons.mpr (.inl htracker)
    | ok u last =>
      rw [hrun] at htracker
      have hends := hpassage.ends last
      rw [show last.tracker = walk.tracker from htracker] at hends
      exact List.mem_cons_of_mem _ hends

end Framewise
