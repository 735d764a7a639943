import Framewise.Engine.Traversal
import Framewise.Proofs.Tree
import Mathlib.Data.List.Forall2

/-! # The passage through a node

  What the traversal does at a node, once it is known how to visit each of its
  children, is a fixed composition of a few steps: one thing after another, the
  body of a function or class in a scope of its own, the bindings that the node
  makes, and a fork into alternative arms. The composition is stated here once,
  over any interpretation of the steps. The traversal itself is one
  interpretation; the courses of a tracker, the order of the nodes and the replay
  of a single path are others.

  A relation between two interpretations that every step respects is respected
  by the whole passage, so a fact about the traversal is proved step by step.

  Main definitions:
  - `Steps`: an interpretation of the steps.
  - `Steps.passage`: what happens at a node.
  - `Steps.Respects`: a relation that the steps respect.

  Main results:
  - `Steps.Respects.passage`: such a relation holds between passages.
  - `visit_eq`: a visit applies the rules and passes through the node.
-/

namespace Framewise

/-! ## Interpretations -/

/-- An interpretation of the steps of a traversal. -/
structure Steps (α : Type) where
  /-- Nothing happens. -/
  idle : α
  /-- One thing happens after another. -/
  andThen : α → α → α
  /-- The body of a function in the scope of the function. -/
  inFunction : Node → α → α
  /-- The body of a class in the scope of the class. -/
  inClass : Node → α → α
  /-- The name of a function or class is bound. -/
  define : Node → α
  /-- An assignment binds its targets. -/
  assign : Node → α
  /-- The target of a loop is bound. -/
  bindTarget : Node → α
  /-- One of several arms; none of them, if the flag is set. -/
  fork : List α → Bool → α

namespace Steps

variable {α β : Type}

/-- Several things one after another. -/
def chain (s : Steps α) (items : List α) : α := items.foldr s.andThen s.idle

/-- The calls of the children that `pick` chooses. -/
def callsWhere (pick : Node → Bool) (calls : List (Node × α)) : List α :=
  (calls.filter fun call => pick call.1).map (·.2)

/-- The call of the first child in a role. -/
def firstIn (s : Steps α) (role : String) (calls : List (Node × α)) : α :=
  match calls.find? fun call => call.1.role = role with
  | some call => call.2
  | none => s.idle

/-- The call of the target of a loop, which binds its names. -/
def loopTarget (s : Steps α) (calls : List (Node × α)) : α :=
  match calls.find? fun call => call.1.role = Role.target with
  | some call => s.andThen call.2 (s.bindTarget call.1)
  | none => s.idle

/-- What happens in a branch, by its tag. -/
def branching (s : Steps α) (n : Node) (calls : List (Node × α)) : α :=
  let those (pick : Node → Bool) : α := s.chain (callsWhere pick calls)
  let bodyThenElse : α := s.andThen (s.firstIn Role.body calls) (s.firstIn Role.orelse calls)
  match n.tag with
  | "If" =>
    s.andThen (those (playing Role.test)) <|
      match n.child? Role.orelse with
      | some _ => s.fork [s.firstIn Role.body calls, s.firstIn Role.orelse calls] false
      | none => s.fork [s.firstIn Role.body calls] true
  | "For" =>
    s.andThen (those (playing Role.iter))
      (s.fork [s.andThen (s.loopTarget calls) (those inLoop)] true)
  | "While" => s.andThen (those (playing Role.test)) (s.fork [bodyThenElse] true)
  | "Try" =>
    s.andThen (s.fork (bodyThenElse :: callsWhere (playing Role.handler) calls) false)
      (those (playing Role.finally_))
  | "Match" =>
    s.andThen (those (playing Role.test)) (s.fork (callsWhere (playing Role.case) calls) true)
  | _ => those fun _ => true

/-- What happens at a node after the rules, given the calls of its children. -/
def passage (s : Steps α) (n : Node) (calls : List (Node × α)) : α :=
  let those (pick : Node → Bool) : α := s.chain (callsWhere pick calls)
  match n.kind with
  | .functionDef =>
    s.andThen (those (notPlaying Role.body))
      (s.andThen (s.inFunction n (those (playing Role.body))) (s.define n))
  | .classDef =>
    s.andThen (those (notPlaying Role.body))
      (s.andThen (s.inClass n (those (playing Role.body))) (s.define n))
  | .branch => s.branching n calls
  | .assignment => s.andThen (those fun _ => true) (s.assign n)
  | _ => those fun _ => true

/-! ## Relations between interpretations -/

/-- A relation that the steps of two interpretations respect at a node. -/
structure Respects (R : α → β → Prop) (s : Steps α) (s' : Steps β) (n : Node) : Prop where
  idle : R s.idle s'.idle
  andThen : ∀ {a a' b b'}, R a b → R a' b' → R (s.andThen a a') (s'.andThen b b')
  inFunction : ∀ {a b}, R a b → R (s.inFunction n a) (s'.inFunction n b)
  inClass : ∀ {a b}, R a b → R (s.inClass n a) (s'.inClass n b)
  define : R (s.define n) (s'.define n)
  assign : R (s.assign n) (s'.assign n)
  bindTarget : ∀ c ∈ n.children, R (s.bindTarget c) (s'.bindTarget c)
  fork : ∀ {arms arms'} (fallthrough : Bool), List.Forall₂ R arms arms' →
    R (s.fork arms fallthrough) (s'.fork arms' fallthrough)

/-- The calls of the same children, related one by one. -/
abbrev CallsRelated (R : α → β → Prop) (n : Node) :
    List (Node × α) → List (Node × β) → Prop :=
  List.Forall₂ fun call call' => call.1 = call'.1 ∧ call.1 ∈ n.children ∧ R call.2 call'.2

/-- Calls that are made from the children and their numbers are related if the makers are. -/
theorem callsRelated_zipIdx {R : α → β → Prop} {n : Node} {f : Node → Nat → α}
    {g : Node → Nat → β} (h : ∀ c ∈ n.children, ∀ i, R (f c i) (g c i)) (i : Nat) :
    CallsRelated R n ((n.children.zipIdx i).map fun p => (p.1, f p.1 p.2))
      ((n.children.zipIdx i).map fun p => (p.1, g p.1 p.2)) := by
  rw [CallsRelated, List.forall₂_map_left_iff, List.forall₂_map_right_iff, List.forall₂_same]
  rintro ⟨c, j⟩ hmem
  have hc : c ∈ n.children := List.fst_mem_of_mem_zipIdx hmem
  exact ⟨rfl, hc, h c hc j⟩

namespace Respects

variable {R : α → β → Prop} {s : Steps α} {s' : Steps β} {n : Node}
variable {calls : List (Node × α)} {calls' : List (Node × β)}

theorem callsWhere (pick : Node → Bool) (h : CallsRelated R n calls calls') :
    List.Forall₂ R (Steps.callsWhere pick calls) (Steps.callsWhere pick calls') := by
  induction h with
  | nil => exact .nil
  | @cons call call' calls calls' hcall _ ih =>
    obtain ⟨hsame, _, hrel⟩ := hcall
    -- the children are the same, so both lists keep or drop the call
    unfold Steps.callsWhere at ih ⊢
    simp only [List.filter_cons, ← hsame]
    split
    · exact .cons hrel ih
    · exact ih

theorem chain (hs : Respects R s s' n) {items : List α} {items' : List β}
    (h : List.Forall₂ R items items') : R (s.chain items) (s'.chain items') := by
  induction h with
  | nil => exact hs.idle
  | cons hitem _ ih => exact hs.andThen hitem ih

theorem chainWhere (hs : Respects R s s' n) (pick : Node → Bool)
    (h : CallsRelated R n calls calls') :
    R (s.chain (Steps.callsWhere pick calls)) (s'.chain (Steps.callsWhere pick calls')) :=
  hs.chain (callsWhere pick h)

theorem firstIn (hs : Respects R s s' n) (role : String)
    (h : CallsRelated R n calls calls') :
    R (s.firstIn role calls) (s'.firstIn role calls') := by
  unfold Steps.firstIn
  induction h with
  | nil => exact hs.idle
  | @cons call call' calls calls' hcall _ ih =>
    obtain ⟨hsame, _, hrel⟩ := hcall
    by_cases hrole : call.1.role = role
    · have hrole' : call'.1.role = role := hsame ▸ hrole
      simpa [List.find?_cons, hrole, hrole'] using hrel
    · have hrole' : ¬ call'.1.role = role := hsame ▸ hrole
      simpa [List.find?_cons, hrole, hrole'] using ih

theorem loopTarget (hs : Respects R s s' n) (h : CallsRelated R n calls calls') :
    R (s.loopTarget calls) (s'.loopTarget calls') := by
  unfold Steps.loopTarget
  induction h with
  | nil => exact hs.idle
  | @cons call call' calls calls' hcall _ ih =>
    obtain ⟨hsame, hmem, hrel⟩ := hcall
    by_cases hrole : call.1.role = Role.target
    · have hrole' : call'.1.role = Role.target := hsame ▸ hrole
      have hbind := hs.andThen hrel (hs.bindTarget call.1 hmem)
      simpa [List.find?_cons, hrole, hrole', hsame] using hbind
    · have hrole' : ¬ call'.1.role = Role.target := hsame ▸ hrole
      simpa [List.find?_cons, hrole, hrole'] using ih

theorem branching (hs : Respects R s s' n) (h : CallsRelated R n calls calls') :
    R (s.branching n calls) (s'.branching n calls') := by
  have hbody := hs.firstIn Role.body h
  have horelse := hs.firstIn Role.orelse h
  unfold Steps.branching
  dsimp only
  -- one case per tag, in the order of the definition
  split
  · refine hs.andThen (hs.chainWhere _ h) ?_
    split
    · exact hs.fork _ (.cons hbody (.cons horelse .nil))
    · exact hs.fork _ (.cons hbody .nil)
  · exact hs.andThen (hs.chainWhere _ h)
      (hs.fork _ (.cons (hs.andThen (hs.loopTarget h) (hs.chainWhere _ h)) .nil))
  · exact hs.andThen (hs.chainWhere _ h) (hs.fork _ (.cons (hs.andThen hbody horelse) .nil))
  · exact hs.andThen (hs.fork _ (.cons (hs.andThen hbody horelse) (callsWhere _ h)))
      (hs.chainWhere _ h)
  · exact hs.andThen (hs.chainWhere _ h) (hs.fork _ (callsWhere _ h))
  · exact hs.chainWhere _ h

/-- A relation that holds between the calls of the children and that every step respects
    holds between the passages. -/
theorem passage (hs : Respects R s s' n) (h : CallsRelated R n calls calls') :
    R (s.passage n calls) (s'.passage n calls') := by
  unfold Steps.passage
  dsimp only
  split
  · exact hs.andThen (hs.chainWhere _ h)
      (hs.andThen (hs.inFunction (hs.chainWhere _ h)) hs.define)
  · exact hs.andThen (hs.chainWhere _ h)
      (hs.andThen (hs.inClass (hs.chainWhere _ h)) hs.define)
  · exact hs.branching h
  · exact hs.andThen (hs.chainWhere _ h) hs.assign
  · exact hs.chainWhere _ h

/-- The same for a property of a single interpretation. -/
theorem passage_of_forall {P : α → Prop} {s : Steps α} {calls : List (Node × α)}
    (hs : Respects (fun a (_ : α) => P a) s s n)
    (h : ∀ call ∈ calls, call.1 ∈ n.children ∧ P call.2) : P (s.passage n calls) := by
  have hcalls : CallsRelated (fun a (_ : α) => P a) n calls calls := by
    rw [CallsRelated, List.forall₂_same]
    exact fun call hcall => ⟨rfl, h call hcall⟩
  exact hs.passage hcalls

end Respects

end Steps

/-! ## Runs of single steps -/

theorem bind_apply {α β : Type} (step : Visit α) (next : α → Visit β) (walk : Walk) :
    (step >>= next) walk =
      match step walk with
      | .ok a after => next a after
      | .error halt after => .error halt after := by
  show EStateM.bind step next walk = _
  unfold EStateM.bind
  cases step walk <;> rfl

theorem track_apply (f : Tracker → Tracker) (walk : Walk) :
    track f walk = .ok () { walk with tracker := f walk.tracker } := rfl

theorem tryTrack_apply (f : Tracker → Except Fault Tracker) (walk : Walk) :
    tryTrack f walk =
      match f walk.tracker with
      | .ok t => .ok () { walk with tracker := t }
      | .error fault => .error (.fault fault) walk := by
  show (match f walk.tracker with
    | .ok t => set { walk with tracker := t }
    | .error fault => throw (.fault fault) : Visit Unit) walk = _
  cases f walk.tracker <;> rfl

theorem checkDeadline_apply (survey : Survey) (walk : Walk) :
    checkDeadline survey walk =
      match survey.limit with
      | none => .ok () walk
      | some limit =>
        if limit.lt (survey.clock walk.readings) then
          .error .deadline { walk with readings := walk.readings + 1 }
        else .ok () { walk with readings := walk.readings + 1 } := by
  unfold checkDeadline
  cases survey.limit with
  | none => rfl
  | some limit =>
    show (if limit.lt (survey.clock walk.readings) then throw Halt.deadline
      else pure () : Visit Unit) { walk with readings := walk.readings + 1 } = _
    dsimp only
    split <;> rfl

theorem reportFindings_cons (rule : Rule) (n : Node) (finding : Finding) (rest : List Finding)
    (walk : Walk) :
    reportFindings rule n (finding :: rest) walk =
      match finding.subject with
      | none => .error .noSubject walk
      | some subject =>
        reportFindings rule n rest
          { walk with raw := findingDiagnostic rule n finding subject :: walk.raw } := by
  rw [reportFindings]
  cases finding.subject <;> rfl

theorem applyRule_apply (survey : Survey) (site : Site) (rule : Rule) (walk : Walk) :
    applyRule survey site rule walk =
      match rule.outcome site { tracker := walk.tracker, source := survey.source } with
      | .ok findings => reportFindings rule site.node findings walk
      | .error crash =>
        .ok () { walk with
          logs := crashRecord rule site.node crash :: walk.logs
          raw := crashDiagnostic rule site.node crash :: walk.raw } := by
  show (match rule.outcome site { tracker := walk.tracker, source := survey.source } with
    | .ok findings => reportFindings rule site.node findings
    | .error crash => do
      log (crashRecord rule site.node crash)
      report (crashDiagnostic rule site.node crash) : Visit Unit) walk = _
  cases rule.outcome site { tracker := walk.tracker, source := survey.source } <;> rfl

/-! ## The traversal as an interpretation -/

/-- The steps as the traversal makes them. -/
def visitSteps : Steps (Visit Unit) where
  idle := pure ()
  andThen a b := do a; b
  inFunction n body := do
    tryTrack fun t => t.enterFunction n
    closing body
  inClass n body := do
    track fun t => t.enter (classScopeName n)
    closing body
  define := bindDefinition
  assign n := tryTrack fun t => t.bindAssignment n
  bindTarget c := track fun t => t.bindTarget .unknown c
  fork := branch

theorem inFunction_apply (n : Node) (body : Visit Unit) (walk : Walk) :
    visitSteps.inFunction n body walk =
      match walk.tracker.enterFunction n with
      | .ok t => closing body { walk with tracker := t }
      | .error fault => .error (.fault fault) walk := by
  show ((tryTrack fun t => t.enterFunction n) >>= fun _ => closing body : Visit Unit) walk = _
  rw [bind_apply, tryTrack_apply]
  cases walk.tracker.enterFunction n <;> rfl

theorem inClass_apply (n : Node) (body : Visit Unit) (walk : Walk) :
    visitSteps.inClass n body walk =
      closing body { walk with tracker := walk.tracker.enter (classScopeName n) } := rfl

/-- The visits of the children of a node. -/
def visitCalls (survey : Survey) (n : Node) (cs : List Node) : List (Node × Visit Unit) :=
  cs.map fun c => (c, visit survey (some n) c)

theorem visitCalls_eq (survey : Survey) (n : Node) (cs : List Node) (i : Nat) :
    visitCalls survey n cs = (cs.zipIdx i).map fun p => (p.1, visit survey (some n) p.1) := by
  unfold visitCalls
  induction cs generalizing i with
  | nil => rfl
  | cons c cs ih => rw [List.map_cons, ih (i + 1), List.zipIdx_cons, List.map_cons]

theorem visitWhere_eq (survey : Survey) (n : Node) (pick : Node → Bool) (cs : List Node) :
    visitWhere survey n pick cs =
      visitSteps.chain (Steps.callsWhere pick (visitCalls survey n cs)) := by
  induction cs with
  | nil => rfl
  | cons c cs ih =>
    rw [visitWhere, ih]
    by_cases hpick : pick c
    · simp [hpick, visitCalls, Steps.callsWhere, Steps.chain, visitSteps]
    · simp [hpick, visitCalls, Steps.callsWhere]

theorem visitFirst_eq (survey : Survey) (n : Node) (role : String) (cs : List Node) :
    visitFirst survey n role cs = visitSteps.firstIn role (visitCalls survey n cs) := by
  induction cs with
  | nil => rfl
  | cons c cs ih =>
    rw [visitFirst, ih]
    by_cases hrole : c.role = role
    · simp [hrole, visitCalls, Steps.firstIn]
    · simp [hrole, visitCalls, Steps.firstIn]

theorem visitTarget_eq (survey : Survey) (n : Node) (cs : List Node) :
    visitTarget survey n cs = visitSteps.loopTarget (visitCalls survey n cs) := by
  induction cs with
  | nil => rfl
  | cons c cs ih =>
    rw [visitTarget, ih]
    by_cases hrole : c.role = Role.target
    · simp [hrole, visitCalls, Steps.loopTarget, visitSteps]
    · simp [hrole, visitCalls, Steps.loopTarget]

theorem visitArms_eq (survey : Survey) (n : Node) (role : String) (cs : List Node) :
    visitArms survey n role cs = Steps.callsWhere (playing role) (visitCalls survey n cs) := by
  induction cs with
  | nil => rfl
  | cons c cs ih =>
    rw [visitArms, ih]
    by_cases hrole : c.role = role
    · simp [hrole, visitCalls, Steps.callsWhere, playing]
    · simp [hrole, visitCalls, Steps.callsWhere, playing]

/-- A visit reads the clock, applies the rules and passes through the node. -/
theorem visit_eq (survey : Survey) (parent : Option Node) (n : Node) :
    visit survey parent n = (do
      checkDeadline survey
      applyRules survey { node := n, parent := parent } survey.rules
      visitSteps.passage n (visitCalls survey n n.children)) := by
  obtain ⟨kind, span, role, tag, name, literal, attrs, cs⟩ := n
  rw [visit.eq_def]
  simp only [visitWhere_eq, visitFirst_eq, visitTarget_eq, visitArms_eq]
  -- the clock and the rules come first on both sides
  congr 1
  funext _
  congr 1
  funext _
  unfold Steps.passage
  cases kind with
  | functionDef => simp only [visitSteps, bind_assoc]
  | classDef => simp only [visitSteps, bind_assoc]
  | branch =>
    unfold Steps.branching
    dsimp only
    -- both sides look at the tag in the same order
    by_cases hif : tag = "If"
    · subst hif
      simp only
      cases horelse : Node.child? _ Role.orelse with
      | none => rfl
      | some c => rfl
    by_cases hfor : tag = "For"
    · subst hfor
      simp only
      rfl
    by_cases hwhile : tag = "While"
    · subst hwhile
      simp only
      rfl
    by_cases htry : tag = "Try"
    · subst htry
      simp only
      rfl
    by_cases hmatch : tag = "Match"
    · subst hmatch
      simp only
      rfl
    simp only
  | assignment => rfl
  | _ => rfl

end Framewise
