import Framewise.Proofs.ScopeDiscipline
import Framewise.Proofs.Success

/-! # Itineraries

  The tracker does not depend on the rules, so a walk can be taken apart: first
  the places at which rules are applied, each with the tracker of that moment,
  then the rules at these places, one place after the other. The first part is a
  tour of the tree. It comes in two kinds, which differ only in what they do at a
  fork: an itinerary runs every arm and merges, as the traversal does, and a
  replay takes one arm and does not merge.

  Main definitions:
  - `Stop`: a place at which rules are applied, with the tracker of that moment.
  - `Course`: the stops of a part of a walk, and the tracker it leads to.
  - `tour`: the course through a tree, by what happens at a fork.
  - `itinerary`, `replay`: the two kinds of tour over a whole tree.

  Main result: `visit_follows`, a visit applies the rules at the stops of the tour.
-/

namespace Framewise

/-! ## Courses -/

/-- A node of a tree in its place. -/
structure Place where
  /-- Address of the node in the tree. -/
  address : List Nat
  /-- The node with its parent. -/
  site : Site

/-- A place at which rules are applied. -/
structure Stop extends Place where
  /-- The open scopes when the rules are applied. -/
  tracker : Tracker

/-- A part of a walk as the tracker sees it. -/
structure Course where
  /-- The places at which rules are applied, in order. -/
  stops : List Stop
  /-- The tracker at the end, or the fault that cut the walk short. -/
  result : Except Fault Tracker

/-- A part of a walk, from any tracker. -/
abbrev Leg := Tracker → Course

namespace Leg

/-- Nothing happens. -/
def idle : Leg := fun t => ⟨[], .ok t⟩

/-- The tracker changes, and no rules are applied. -/
def change (f : Tracker → Except Fault Tracker) : Leg := fun t => ⟨[], f t⟩

/-- One leg after another. -/
def andThen (a b : Leg) : Leg := fun t =>
  match (a t).result with
  | .ok t' => ⟨(a t).stops ++ (b t').stops, (b t').result⟩
  | .error fault => ⟨(a t).stops, .error fault⟩

/-- A leg in a scope that is opened before and closed after it. -/
def inScope (enter : Tracker → Except Fault Tracker) (body : Leg) : Leg := fun t =>
  match enter t with
  | .ok inner => ⟨(body inner).stops, (body inner).result.map Tracker.exit⟩
  | .error fault => ⟨[], .error fault⟩

/-- The stops of arms that all begin at the same tracker, and the stores they lead to. -/
def outcomes (t : Tracker) : List Leg → List Stop × Except Fault (List Store)
  | [] => ([], .ok [])
  | arm :: rest =>
    match (arm t).result with
    | .ok t' =>
      ((arm t).stops ++ (outcomes t rest).1, (outcomes t rest).2.map (t'.current.store :: ·))
    | .error fault => ((arm t).stops, .error fault)

/-- Every arm, and the merge of what they lead to. -/
def merged (arms : List Leg) (fallthrough : Bool) : Leg := fun t =>
  ⟨(outcomes t arms).1,
    (outcomes t arms).2.bind fun stores => t.join t.current.store stores fallthrough⟩

/-- The alternatives at a fork: the arms, and none of them where that is possible. -/
def ways (arms : List Leg) (fallthrough : Bool) : List Leg :=
  if fallthrough || arms.isEmpty then arms ++ [idle] else arms

/-- One of the alternatives at a fork, by its number. -/
def picked (choice : Nat) (arms : List Leg) (fallthrough : Bool) : Leg :=
  (ways arms fallthrough).getD (choice % (ways arms fallthrough).length) idle

variable {a b arm body : Leg} {rest : List Leg} {enter : Tracker → Except Fault Tracker}
variable {t t' inner : Tracker} {fault : Fault}

theorem andThen_ok (h : (a t).result = .ok t') :
    a.andThen b t = ⟨(a t).stops ++ (b t').stops, (b t').result⟩ := by
  unfold andThen
  rw [h]

theorem andThen_error (h : (a t).result = .error fault) :
    a.andThen b t = ⟨(a t).stops, .error fault⟩ := by
  unfold andThen
  rw [h]

theorem inScope_ok (h : enter t = .ok inner) :
    inScope enter body t = ⟨(body inner).stops, (body inner).result.map Tracker.exit⟩ := by
  unfold inScope
  rw [h]

theorem inScope_error (h : enter t = .error fault) :
    inScope enter body t = ⟨[], .error fault⟩ := by
  unfold inScope
  rw [h]

theorem outcomes_ok (h : (arm t).result = .ok t') :
    outcomes t (arm :: rest) =
      ((arm t).stops ++ (outcomes t rest).1,
        (outcomes t rest).2.map (t'.current.store :: ·)) := by
  rw [outcomes, h]

theorem outcomes_error (h : (arm t).result = .error fault) :
    outcomes t (arm :: rest) = ((arm t).stops, .error fault) := by
  rw [outcomes, h]

/-! ### Legs that lead to a tracker -/

theorem of_andThen_ok {e : Tracker} (h : (a.andThen b t).result = .ok e) :
    ∃ m, (a t).result = .ok m ∧ (b m).result = .ok e := by
  cases hmid : (a t).result with
  | error fault =>
    rw [andThen_error hmid] at h
    cases h
  | ok m =>
    rw [andThen_ok hmid] at h
    exact ⟨m, rfl, h⟩

theorem of_inScope_ok {e : Tracker} (h : (inScope enter body t).result = .ok e) :
    ∃ inner last, enter t = .ok inner ∧ (body inner).result = .ok last ∧ last.exit = e := by
  cases henter : enter t with
  | error fault =>
    rw [inScope_error henter] at h
    cases h
  | ok inner =>
    rw [inScope_ok henter] at h
    obtain ⟨last, hlast, hexit⟩ := of_map_ok h
    exact ⟨inner, last, rfl, hlast, hexit⟩

theorem of_outcomes_ok {stores : List Store} (h : (outcomes t (arm :: rest)).2 = .ok stores) :
    ∃ e later, (arm t).result = .ok e ∧ (outcomes t rest).2 = .ok later ∧
      e.current.store :: later = stores := by
  cases hend : (arm t).result with
  | error fault =>
    rw [outcomes_error hend] at h
    cases h
  | ok e =>
    rw [outcomes_ok hend] at h
    obtain ⟨later, hlater, hstores⟩ := of_map_ok h
    exact ⟨e, later, rfl, hlater, hstores⟩

theorem of_merged_ok {arms : List Leg} {fallthrough : Bool} {e : Tracker}
    (h : (merged arms fallthrough t).result = .ok e) :
    ∃ stores, (outcomes t arms).2 = .ok stores ∧
      t.join t.current.store stores fallthrough = .ok e := of_bind_ok h

end Leg

/-! ## Tours -/

/-- Binds the name of a function or class. -/
def Tracker.define (t : Tracker) (n : Node) : Tracker :=
  match n.name with
  | some s => if s.isEmpty then t else t.bind (some s) .unknown
  | none => t

theorem Tracker.define_sameScopes (t : Tracker) (n : Node) : SameScopes t (t.define n) := by
  unfold define
  split
  · split
    · exact .refl t
    · exact .bind t _ _
  · exact .refl t

theorem bindDefinition_eq (n : Node) : bindDefinition n = track fun t => t.define n := by
  unfold bindDefinition Tracker.define
  cases n.name with
  | none => rfl
  | some s =>
    dsimp only
    split <;> rfl

/-- The steps of a traversal as legs, by what happens at a fork. -/
def legSteps (fork : List Leg → Bool → Leg) : Steps Leg where
  idle := .idle
  andThen := .andThen
  inFunction n body := .inScope (fun t => t.enterFunction n) body
  inClass n body := .inScope (fun t => .ok (t.enter (classScopeName n))) body
  define n := .change fun t => .ok (t.define n)
  assign n := .change fun t => t.bindAssignment n
  bindTarget c := .change fun t => .ok (t.bindTarget .unknown c)
  fork := fork

/-- What happens at the fork of the node at an address. -/
abbrev Fork := (address : List Nat) → List Leg → Bool → Leg

mutual

/-- The course through a tree whose root stands at `address`. -/
def tour (fork : Fork) (address : List Nat) (parent : Option Node) : Node → Leg
  | n@{ children := cs, .. } => fun t =>
    let rest := (legSteps (fork address)).passage n (tourCalls fork address n 0 cs) t
    ⟨{ address := address, site := { node := n, parent := parent }, tracker := t } :: rest.stops,
      rest.result⟩

/-- The courses through the children of a node from number `i` on. -/
def tourCalls (fork : Fork) (address : List Nat) (parent : Node) (i : Nat) :
    List Node → List (Node × Leg)
  | [] => []
  | c :: cs =>
    (c, tour fork (address ++ [i]) (some parent) c) :: tourCalls fork address parent (i + 1) cs

end

/-- The walk over a tree: every arm of a fork, merged. -/
def itinerary (root : Node) : Course := tour (fun _ => .merged) [] none root .start

/-- One path through a tree: a choice at every fork, by the address of its node. -/
abbrev Choices := (address : List Nat) → Nat

/-- The walk over a tree along one path: one alternative of a fork, with no merge. -/
def replay (choices : Choices) (root : Node) : Course :=
  tour (fun address => .picked (choices address)) [] none root .start

theorem tourCalls_eq (fork : Fork) (address : List Nat) (n : Node) (i : Nat) (cs : List Node) :
    tourCalls fork address n i cs =
      (cs.zipIdx i).map fun p => (p.1, tour fork (address ++ [p.2]) (some n) p.1) := by
  induction cs generalizing i with
  | nil => rfl
  | cons c cs ih => rw [tourCalls, ih, List.zipIdx_cons, List.map_cons]

theorem tour_eq (fork : Fork) (address : List Nat) (parent : Option Node) (n : Node)
    (t : Tracker) :
    tour fork address parent n t =
      let rest := (legSteps (fork address)).passage n (tourCalls fork address n 0 n.children) t
      ⟨{ address := address, site := { node := n, parent := parent }, tracker := t } ::
        rest.stops, rest.result⟩ := by
  cases n
  rw [tour]

/-! ## Rules at stops -/

/-- Applies the rules at a stop. -/
def attend (survey : Survey) (stop : Stop) : Visit Unit := do
  track fun _ => stop.tracker
  checkDeadline survey
  applyRules survey stop.site survey.rules

/-- Applies the rules at several stops, in order. -/
def attendAll (survey : Survey) : List Stop → Visit Unit
  | [] => pure ()
  | stop :: rest => do
    attend survey stop
    attendAll survey rest

theorem attendAll_append (survey : Survey) (stops more : List Stop) :
    attendAll survey (stops ++ more) = (do attendAll survey stops; attendAll survey more) := by
  induction stops with
  | nil => rfl
  | cons stop rest ih => simp only [List.cons_append, attendAll, ih, bind_assoc]

/-- What a walk has put down so far: its state without the tracker. -/
def Walk.ledger (walk : Walk) : Walk := { walk with tracker := .start }

theorem Walk.ledger_withTracker (walk : Walk) (t : Tracker) :
    { walk with tracker := t }.ledger = walk.ledger := rfl

theorem Walk.withTracker_eq {walk walk' : Walk} (h : walk.ledger = walk'.ledger) (t : Tracker) :
    { walk with tracker := t } = { walk' with tracker := t } := by
  obtain ⟨t₁, raw, logs, readings⟩ := walk
  obtain ⟨t₂, raw', logs', readings'⟩ := walk'
  simp only [Walk.ledger, Walk.mk.injEq] at h ⊢
  exact h

/-- The rules at a stop see the tracker of the stop, not the one that the walk holds. -/
theorem attend_congr (survey : Survey) (stop : Stop) {walk walk' : Walk}
    (h : walk.ledger = walk'.ledger) : attend survey stop walk = attend survey stop walk' := by
  unfold attend
  rw [bind_apply, bind_apply, track_apply, track_apply, Walk.withTracker_eq h stop.tracker]

/-- Two runs that halt alike, or both end, with the same ledger. -/
def SameLedgers {α β : Type} :
    EStateM.Result Halt Walk α → EStateM.Result Halt Walk β → Prop
  | .ok _ walk, .ok _ walk' => walk.ledger = walk'.ledger
  | .error halt walk, .error halt' walk' => halt = halt' ∧ walk.ledger = walk'.ledger
  | _, _ => False

theorem attendAll_congr (survey : Survey) (stops : List Stop) {walk walk' : Walk}
    (h : walk.ledger = walk'.ledger) :
    SameLedgers (attendAll survey stops walk) (attendAll survey stops walk') := by
  cases stops with
  | nil => exact h
  | cons stop rest =>
    rw [attendAll, bind_apply, bind_apply, attend_congr survey stop h]
    cases hrun : attend survey stop walk' with
    | error halt after => exact ⟨rfl, rfl⟩
    | ok a after =>
      show SameLedgers (attendAll survey rest after) (attendAll survey rest after)
      cases attendAll survey rest after with
      | ok b last => exact rfl
      | error halt last => exact ⟨rfl, rfl⟩

/-! ## Steps that follow a course -/

/-- A step, begun at `walk`, applies the rules at the stops and then ends with a value and a
    tracker that fit the result, or in the fault that the result names. -/
def Follows {α β : Type} (survey : Survey) (step : Visit α) (walk : Walk) (stops : List Stop)
    (result : Except Fault β) (fits : α → Tracker → β → Prop) : Prop :=
  match attendAll survey stops walk with
  | .error halt after => ∃ last, step walk = .error halt last ∧ last.ledger = after.ledger
  | .ok _ after =>
    match result with
    | .error fault => ∃ last, step walk = .error (.fault fault) last ∧ last.ledger = after.ledger
    | .ok b => ∃ a last, step walk = .ok a last ∧ last.ledger = after.ledger ∧
        fits a last.tracker b

namespace Follows

variable {α β γ δ : Type} {survey : Survey} {step : Visit α} {next : α → Visit γ} {walk : Walk}
variable {stops more : List Stop} {fits : α → Tracker → β → Prop}

theorem pure (a : α) {b : β} (h : fits a walk.tracker b) :
    Follows survey (pure a) walk [] (.ok b) fits := ⟨a, walk, rfl, rfl, h⟩

/-- The ledger decides what follows, not the tracker. -/
theorem congr {walk' : Walk} {result : Except Fault β}
    (h : Follows survey step walk stops result fits) (hledger : walk.ledger = walk'.ledger)
    (step' : Visit α) (hstep : step' walk' = step walk) :
    Follows survey step' walk' stops result fits := by
  have hsame := attendAll_congr survey stops hledger
  -- the rules end alike from both states, so the case is the same on both sides
  unfold Follows at h ⊢
  rw [hstep]
  cases hrun : attendAll survey stops walk with
  | error halt after =>
    cases hrun' : attendAll survey stops walk' with
    | ok b after' => rw [hrun, hrun'] at hsame; exact hsame.elim
    | error halt' after' =>
      rw [hrun, hrun'] at hsame
      rw [hrun] at h
      obtain ⟨last, hlast, hl⟩ := h
      obtain ⟨rfl, hafter⟩ := hsame
      exact ⟨last, hlast, hl.trans hafter⟩
  | ok b after =>
    cases hrun' : attendAll survey stops walk' with
    | error halt' after' => rw [hrun, hrun'] at hsame; exact hsame.elim
    | ok b' after' =>
      rw [hrun, hrun'] at hsame
      rw [hrun] at h
      cases result with
      | error fault =>
        obtain ⟨last, hlast, hl⟩ := h
        exact ⟨last, hlast, hl.trans hsame⟩
      | ok value =>
        obtain ⟨a, last, hlast, hl, hfits⟩ := h
        exact ⟨a, last, hlast, hl.trans hsame, hfits⟩

theorem at_tracker {t : Tracker} {result : Except Fault β}
    (h : Follows survey step { walk with tracker := t } stops result fits) {step' : Visit α}
    (hstep : step' walk = step { walk with tracker := t }) :
    Follows survey step' walk stops result fits :=
  h.congr (walk.ledger_withTracker t) step' hstep

theorem get_bind {next : Walk → Visit α} {result : Except Fault β}
    (h : Follows survey (next walk) walk stops result fits) :
    Follows survey (get >>= next) walk stops result fits :=
  h.congr rfl _ rfl

/-- After a fault nothing more happens. -/
theorem bind_error {fault : Fault} {fits' : γ → Tracker → δ → Prop}
    (h : Follows survey step walk stops (.error fault : Except Fault β) fits) :
    Follows survey (step >>= next) walk stops (.error fault : Except Fault δ) fits' := by
  unfold Follows at h ⊢
  cases hrun : attendAll survey stops walk with
  | error halt after =>
    rw [hrun] at h
    obtain ⟨last, hlast, hl⟩ := h
    exact ⟨last, by rw [bind_apply, hlast], hl⟩
  | ok b after =>
    rw [hrun] at h
    obtain ⟨last, hlast, hl⟩ := h
    exact ⟨last, by rw [bind_apply, hlast], hl⟩

/-- Otherwise the next step begins where the first has led. -/
theorem bind_ok {b : β} {result : Except Fault δ} {fits' : γ → Tracker → δ → Prop}
    (h : Follows survey step walk stops (.ok b) fits)
    (hnext : ∀ a last, fits a last.tracker b → Follows survey (next a) last more result fits') :
    Follows survey (step >>= next) walk (stops ++ more) result fits' := by
  unfold Follows at h
  cases hrun : attendAll survey stops walk with
  | error halt after =>
    rw [hrun] at h
    obtain ⟨last, hlast, hl⟩ := h
    unfold Follows
    rw [attendAll_append, bind_apply, hrun]
    exact ⟨last, by rw [bind_apply, hlast], hl⟩
  | ok u after =>
    rw [hrun] at h
    obtain ⟨a, last, hlast, hl, hfits⟩ := h
    -- the second step begins at `last`, its stops are attended from `after`
    have hmore := (hnext a last hfits).congr hl (fun _ => next a last) rfl
    unfold Follows at hmore ⊢
    rw [attendAll_append, bind_apply, bind_apply, hrun, hlast]
    exact hmore

/-- A value computed from the result, with nothing else done. -/
theorem map {result : Except Fault β} {fits' : γ → Tracker → δ → Prop} (f : α → γ) (g : β → δ)
    (h : Follows survey step walk stops result fits)
    (hfits : ∀ a t b, fits a t b → fits' (f a) t (g b)) :
    Follows survey (step >>= fun a => Pure.pure (f a)) walk stops (result.map g) fits' := by
  cases result with
  | error fault => exact h.bind_error
  | ok b =>
    rw [← List.append_nil stops]
    exact h.bind_ok fun a last ha => .pure (f a) (hfits a _ b ha)

/-- The tracker at the end of a step that keeps the scopes. -/
theorem and_keeps {result : Except Fault β} (h : Follows survey step walk stops result fits)
    (hkeeps : Keeps step) :
    Follows survey step walk stops result
      fun a t b => fits a t b ∧ walk.tracker.SameScopes t := by
  have hend := hkeeps walk
  unfold Follows at h ⊢
  cases hrun : attendAll survey stops walk with
  | error halt after => rw [hrun] at h; exact h
  | ok u after =>
    rw [hrun] at h
    cases result with
    | error fault => exact h
    | ok b =>
      obtain ⟨a, last, hlast, hl, hfits⟩ := h
      rw [hlast] at hend
      exact ⟨a, last, hlast, hl, hfits, hend⟩

end Follows

/-- A step of a walk that follows a leg from wherever it is begun. -/
structure FollowsLeg (survey : Survey) (step : Visit Unit) (leg : Leg) : Prop where
  keeps : Keeps step
  follows : ∀ walk : Walk, Follows survey step walk (leg walk.tracker).stops
    (leg walk.tracker).result fun _ t end_ => t = end_

namespace FollowsLeg

variable {survey : Survey}

theorem idle : FollowsLeg survey (pure ()) .idle where
  keeps := .pure ()
  follows _ := .pure () rfl

theorem andThen {step step' : Visit Unit} {leg leg' : Leg} (h : FollowsLeg survey step leg)
    (h' : FollowsLeg survey step' leg') :
    FollowsLeg survey (do step; step') (leg.andThen leg') where
  keeps := .bind h.keeps fun _ => h'.keeps
  follows walk := by
    have hfirst := h.follows walk
    cases hresult : (leg walk.tracker).result with
    | error fault =>
      rw [Leg.andThen_error hresult]
      rw [hresult] at hfirst
      exact hfirst.bind_error
    | ok t =>
      rw [Leg.andThen_ok hresult]
      rw [hresult] at hfirst
      refine hfirst.bind_ok fun _ last hlast => ?_
      subst hlast
      exact h'.follows last

theorem track {f : Tracker → Tracker} (h : ∀ t, Tracker.SameScopes t (f t)) :
    FollowsLeg survey (track f) (.change fun t => .ok (f t)) where
  keeps := .track h
  follows _ := ⟨(), _, rfl, rfl, rfl⟩

theorem tryTrack {f : Tracker → Except Fault Tracker}
    (h : ∀ t t', f t = .ok t' → Tracker.SameScopes t t') :
    FollowsLeg survey (tryTrack f) (.change f) where
  keeps := .tryTrack h
  follows walk := by
    show Follows survey (Framewise.tryTrack f) walk [] (f walk.tracker) _
    have hrun := tryTrack_apply f walk
    cases hf : f walk.tracker with
    | ok t =>
      rw [hf] at hrun
      exact ⟨(), _, hrun, rfl, rfl⟩
    | error fault =>
      rw [hf] at hrun
      exact ⟨_, hrun, rfl⟩

/-- Closing the scope changes the tracker at the end and nothing else. -/
theorem closing {body : Visit Unit} {leg : Leg} (h : FollowsLeg survey body leg)
    (walk : Walk) :
    Follows survey (closing body) walk (leg walk.tracker).stops
      ((leg walk.tracker).result.map Tracker.exit) fun _ t end_ => t = end_ := by
  have hbody := h.follows walk
  unfold Follows at hbody ⊢
  unfold Framewise.closing
  cases hrun : attendAll survey (leg walk.tracker).stops walk with
  | error halt after =>
    rw [hrun] at hbody
    obtain ⟨last, hlast, hl⟩ := hbody
    exact ⟨{ last with tracker := last.tracker.exit }, by rw [hlast], hl⟩
  | ok u after =>
    rw [hrun] at hbody
    cases hresult : (leg walk.tracker).result with
    | error fault =>
      rw [hresult] at hbody
      obtain ⟨last, hlast, hl⟩ := hbody
      exact ⟨{ last with tracker := last.tracker.exit }, by rw [hlast], hl⟩
    | ok t =>
      rw [hresult] at hbody
      obtain ⟨_, last, hlast, hl, rfl⟩ := hbody
      exact ⟨(), { last with tracker := last.tracker.exit }, by rw [hlast], hl, rfl⟩

theorem inFunction (n : Node) {body : Visit Unit} {leg : Leg} (h : FollowsLeg survey body leg) :
    FollowsLeg survey (visitSteps.inFunction n body)
      (.inScope (fun t => t.enterFunction n) leg) where
  keeps := .inFunction n h.keeps
  follows walk := by
    have hrun := inFunction_apply n body walk
    cases henter : walk.tracker.enterFunction n with
    | error fault =>
      rw [henter] at hrun
      rw [Leg.inScope_error henter]
      exact ⟨walk, hrun, rfl⟩
    | ok inner =>
      rw [henter] at hrun
      rw [Leg.inScope_ok henter]
      exact (h.closing { walk with tracker := inner }).at_tracker hrun

theorem inClass (n : Node) {body : Visit Unit} {leg : Leg} (h : FollowsLeg survey body leg) :
    FollowsLeg survey (visitSteps.inClass n body)
      (.inScope (fun t => .ok (t.enter (classScopeName n))) leg) where
  keeps := .inClass n h.keeps
  follows walk := (h.closing { walk with tracker := _ }).at_tracker (inClass_apply n body walk)

/-- The arms all begin at the tracker `t`: each leaves its scopes alone, and the store is put
    back before the next. -/
theorem runArms {arms : List (Visit Unit)} {legs : List Leg}
    (h : List.Forall₂ (FollowsLeg survey) arms legs) (t : Tracker) (walk : Walk)
    (hwalk : t.SameScopes walk.tracker) :
    Follows survey (runArms t.current.store arms) walk (Leg.outcomes t legs).1
      (Leg.outcomes t legs).2 fun stores t' stores' => stores = stores' ∧ t.SameScopes t' := by
  induction h generalizing walk with
  | nil => exact .pure [] ⟨rfl, hwalk⟩
  | @cons arm leg arms legs harm _ ih =>
    -- with the store put back, the tracker is `t` again
    have hstart : walk.tracker.withStore t.current.store = t := hwalk.withStore_eq _
    have hfirst := (harm.follows { walk with tracker := t }).and_keeps harm.keeps
    -- what is left of the loop once the store has been put back
    suffices h : Follows survey (do
        arm
        let walk ← get
        let stores ← Framewise.runArms t.current.store arms
        return walk.tracker.current.store :: stores) { walk with tracker := t }
        (Leg.outcomes t (leg :: legs)).1 (Leg.outcomes t (leg :: legs)).2
        fun stores t' stores' => stores = stores' ∧ t.SameScopes t' by
      refine h.at_tracker ?_
      rw [Framewise.runArms, bind_apply, track_apply, hstart]
    cases hresult : (leg t).result with
    | error fault =>
      rw [Leg.outcomes_error hresult]
      rw [hresult] at hfirst
      exact hfirst.bind_error
    | ok t' =>
      rw [Leg.outcomes_ok hresult]
      rw [hresult] at hfirst
      refine hfirst.bind_ok fun _ last hlast => ?_
      obtain ⟨rfl, hscopes⟩ := hlast
      refine .get_bind ?_
      exact (ih last hscopes).map (last.tracker.current.store :: ·) _
        fun stores _ stores' hs => ⟨by rw [hs.1], hs.2⟩

theorem branch {arms : List (Visit Unit)} {legs : List Leg}
    (h : List.Forall₂ (FollowsLeg survey) arms legs) (fallthrough : Bool) :
    FollowsLeg survey (branch arms fallthrough) (.merged legs fallthrough) where
  keeps := by
    have hkeeps : List.Forall₂ (fun arm (_ : Leg) => Keeps arm) arms legs :=
      h.imp fun _ _ harm => harm.keeps
    exact .branch (Keeps.forall_of_forall₂ hkeeps) fallthrough
  follows walk := by
    have harms := runArms h walk.tracker walk (.refl _)
    refine .get_bind ?_
    unfold Leg.merged
    cases houtcomes : (Leg.outcomes walk.tracker legs).2 with
    | error fault =>
      rw [houtcomes] at harms
      exact harms.bind_error
    | ok stores =>
      rw [houtcomes] at harms
      show Follows survey _ walk _
        (walk.tracker.join walk.tracker.current.store stores fallthrough) _
      rw [← List.append_nil (Leg.outcomes walk.tracker legs).1]
      refine harms.bind_ok fun stores' last hlast => ?_
      obtain ⟨rfl, hscopes⟩ := hlast
      -- the walk joins its own tracker, the leg the one at the fork: they have the same scopes
      rw [← hscopes.join_eq]
      exact (tryTrack fun _ _ hjoin => Tracker.join_sameScopes hjoin).follows last

theorem define (n : Node) :
    FollowsLeg survey (bindDefinition n) (.change fun t => .ok (t.define n)) := by
  rw [bindDefinition_eq]
  exact track fun t => t.define_sameScopes n

/-- Every step of the traversal follows the leg of the same step. -/
theorem respects (survey : Survey) (n : Node) :
    Steps.Respects (FollowsLeg survey) visitSteps (legSteps .merged) n where
  idle := .idle
  andThen h h' := .andThen h h'
  inFunction h := .inFunction n h
  inClass h := .inClass n h
  define := .define n
  assign := .tryTrack fun _ _ h => Tracker.bindAssignment_sameScopes h
  bindTarget c _ := .track fun t => Tracker.bindTarget_sameScopes .unknown c t
  fork fallthrough h := .branch h fallthrough

end FollowsLeg

/-- The rules applied where the walk stands are those at a stop with its tracker. -/
theorem arrival_follows (survey : Survey) (address : List Nat) (site : Site) (walk : Walk) :
    Follows survey (do checkDeadline survey; applyRules survey site survey.rules) walk
      [{ address := address, site := site, tracker := walk.tracker }] (.ok walk.tracker)
      fun _ t end_ => t = end_ := by
  have hleaves : LeavesTracker
      (do checkDeadline survey; applyRules survey site survey.rules) :=
    .bind (.checkDeadline survey) fun _ => .applyRules survey site survey.rules
  have htracker := hleaves walk
  have hattend : attend survey { address := address, site := site, tracker := walk.tracker } walk =
      (do checkDeadline survey; applyRules survey site survey.rules : Visit Unit) walk := rfl
  unfold Follows
  rw [attendAll, attendAll, bind_apply, hattend]
  cases hrun : (do checkDeadline survey; applyRules survey site survey.rules : Visit Unit) walk with
  | error halt after => exact ⟨after, rfl, rfl⟩
  | ok u after =>
    rw [hrun] at htracker
    exact ⟨(), after, rfl, rfl, htracker⟩

/-- A visit applies the rules at the stops of the tour of its node, in their order, and leads to
    the tracker to which the tour leads. -/
theorem visit_follows (survey : Survey) (address : List Nat) (parent : Option Node) (n : Node) :
    FollowsLeg survey (visit survey parent n) (tour (fun _ => .merged) address parent n) := by
  induction n using Node.induction generalizing address parent with
  | step n ih =>
    refine ⟨.visit survey parent n, fun walk => ?_⟩
    have hpassage : FollowsLeg survey (visitSteps.passage n (visitCalls survey n n.children))
        ((legSteps .merged).passage n (tourCalls (fun _ => .merged) address n 0 n.children)) := by
      apply (FollowsLeg.respects survey n).passage
      rw [visitCalls_eq survey n _ 0, tourCalls_eq]
      exact Steps.callsRelated_zipIdx (fun c hc i => ih c hc (address ++ [i]) (some n)) 0
    rw [visit_eq, tour_eq, ← bind_assoc]
    -- the rules leave the tracker alone, so the passage begins where the tour begins
    refine (arrival_follows survey address _ walk).bind_ok fun _ last hlast => ?_
    rw [← hlast]
    exact hpassage.follows last

/-- Without a fault, a whole visit puts down what the rules put down at the stops of the
    itinerary, and halts where they halt. -/
theorem visit_sameLedgers (survey : Survey) {root : Node} {last : Tracker}
    (hlast : (itinerary root).result = .ok last) {walk : Walk} (hwalk : walk.tracker = .start) :
    SameLedgers (visit survey none root walk) (attendAll survey (itinerary root).stops walk) := by
  have h := (visit_follows survey [] none root).follows walk
  rw [hwalk, ← itinerary, hlast] at h
  unfold Follows at h
  cases hrun : attendAll survey (itinerary root).stops walk with
  | error halt after =>
    rw [hrun] at h
    obtain ⟨end_, hend, hledger⟩ := h
    rw [hend]
    exact ⟨rfl, hledger⟩
  | ok u after =>
    rw [hrun] at h
    obtain ⟨_, end_, hend, hledger, _⟩ := h
    rw [hend]
    exact hledger

/-- A step that ends has met no fault, and ends where the leg leads. -/
theorem FollowsLeg.result {survey : Survey} {step : Visit Unit} {leg : Leg}
    (h : FollowsLeg survey step leg) {walk last : Walk} (hstep : step walk = .ok () last) :
    (leg walk.tracker).result = .ok last.tracker := by
  have hfollows := h.follows walk
  unfold Follows at hfollows
  rw [hstep] at hfollows
  cases hrun : attendAll survey (leg walk.tracker).stops walk with
  | error halt after =>
    rw [hrun] at hfollows
    obtain ⟨_, hend, _⟩ := hfollows
    cases hend
  | ok u after =>
    rw [hrun] at hfollows
    cases hresult : (leg walk.tracker).result with
    | error fault =>
      rw [hresult] at hfollows
      obtain ⟨_, hend, _⟩ := hfollows
      cases hend
    | ok t =>
      rw [hresult] at hfollows
      obtain ⟨_, end_, hend, _, rfl⟩ := hfollows
      injection hend with _ hend
      rw [hend]

/-- A visit that ends has met no fault. -/
theorem itinerary_result {survey : Survey} {root : Node} {walk last : Walk}
    (hwalk : walk.tracker = .start) (hvisit : visit survey none root walk = .ok () last) :
    (itinerary root).result = .ok last.tracker := by
  have hresult := (visit_follows survey [] none root).result hvisit
  rw [hwalk] at hresult
  exact hresult

end Framewise
