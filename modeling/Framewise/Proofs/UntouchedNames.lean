import Framewise.Proofs.BoundNames
import Framewise.Proofs.Chronicle
import Framewise.Proofs.Route

/-! # Names that are left alone

  Only four things bind a name in the scope around a node: an assignment, the
  target of a `for`, a function and a class. A name that none of those that a walk
  over the node comes to in that scope binds is left alone. It is bound to the same
  thing, or to nothing, at every moment of the walk and wherever the walk ends: no
  saving, putting back and merging of stores shows.

  Main definitions:
  - `Node.ComesTo`: a walk over a node comes to another in the scope around it.
  - `Node.ownNames`, `Node.Rebinds`: the names that a node binds by itself, and with
    what lies below it.
  - `Leg.Spares`: a leg that leaves all but some names alone at all its moments.

  Main results:
  - `Node.rebinds_iff`: who binds a name can be computed.
  - `unbound_names_kept`.
-/

namespace Framewise

/-! ## Who binds a name -/

/-- The children that a stage visits. -/
def Stage.children (n : Node) : Stage → List Node
  | every pick => n.children.filter pick
  | first role => (n.child? role).toList

namespace Node

/-- The children that are visited in the scope around a node: not the body of a function or
    class. -/
def scopeChildren (n : Node) : List Node :=
  (n.stages.flatMap (Stage.children n)).filter fun c => !(n.opensScope && playing Role.body c)

/-- A walk over the first node comes to the second, in the scope around the first. -/
inductive ComesTo : Node → Node → Prop
  | self (n : Node) : ComesTo n n
  | through {n c m : Node} (hc : c ∈ n.scopeChildren) (hm : ComesTo c m) : ComesTo n m

/-- The names that a node binds by itself. -/
def ownNames (n : Node) : List Ident :=
  match n.kind with
  | .functionDef | .classDef => n.definedNames
  | .assignment => n.assignedNames
  | .branch => if n.tag = "For" then (n.child? Role.target).toList.flatMap targetNames else []
  | _ => []

/-- A walk over the node binds the name in the scope around it. -/
def Rebinds (n : Node) (name : Ident) : Prop := ∃ m, n.ComesTo m ∧ name ∈ m.ownNames

end Node

section Bound

variable {n : Node} {name : Ident}

theorem boundCalls_eq_map (cs : List Node) :
    boundCalls cs = cs.map fun c => (c, c.boundNames) := by
  induction cs with
  | nil => rfl
  | cons c cs ih => rw [boundCalls, ih, List.map_cons]

theorem mem_boundChain {items : List (List Ident)} :
    name ∈ boundSteps.chain items ↔ ∃ names ∈ items, name ∈ names := by
  induction items with
  | nil => simp [Steps.chain, boundSteps]
  | cons names items ih =>
    have hcons : boundSteps.chain (names :: items) = names ++ boundSteps.chain items := rfl
    rw [hcons, List.mem_append, ih]
    simp

theorem mem_boundWhere (pick : Node → Bool) :
    name ∈ boundSteps.chain (Steps.callsWhere pick (boundCalls n.children)) ↔
      ∃ c ∈ (Stage.every pick).children n, name ∈ c.boundNames := by
  rw [mem_boundChain, boundCalls_eq_map]
  simp [Steps.callsWhere, Stage.children, and_assoc]

theorem boundCalls_find (role : String) :
    ((boundCalls n.children).find? fun call => call.1.role = role) =
      (n.child? role).map fun c => (c, c.boundNames) := by
  rw [boundCalls_eq_map, List.find?_map]
  rfl

theorem mem_boundFirst (role : String) :
    name ∈ boundSteps.firstIn role (boundCalls n.children) ↔
      ∃ c ∈ (Stage.first role).children n, name ∈ c.boundNames := by
  show _ ↔ ∃ c ∈ (n.child? role).toList, _
  unfold Steps.firstIn
  rw [boundCalls_find]
  cases n.child? role with
  | none => simp [boundSteps]
  | some c => simp

theorem mem_boundTarget :
    name ∈ boundSteps.loopTarget (boundCalls n.children) ↔
      name ∈ (n.child? Role.target).toList.flatMap Node.targetNames ∨
        ∃ c ∈ (Stage.first Role.target).children n, name ∈ c.boundNames := by
  show _ ↔ _ ∨ ∃ c ∈ (n.child? Role.target).toList, _
  unfold Steps.loopTarget
  rw [boundCalls_find]
  cases n.child? Role.target with
  | none => simp [boundSteps]
  | some c => simp [boundSteps, or_comm]

@[simp] theorem boundSteps_andThen (names more : List Ident) :
    boundSteps.andThen names more = names ++ more := rfl

@[simp] theorem boundSteps_inFunction (n : Node) (body : List Ident) :
    boundSteps.inFunction n body = [] := rfl

@[simp] theorem boundSteps_inClass (n : Node) (body : List Ident) :
    boundSteps.inClass n body = [] := rfl

@[simp] theorem boundSteps_define (n : Node) : boundSteps.define n = n.definedNames := rfl

@[simp] theorem boundSteps_assign (n : Node) : boundSteps.assign n = n.assignedNames := rfl

@[simp] theorem boundSteps_fork (arms : List (List Ident)) (fallthrough : Bool) :
    boundSteps.fork arms fallthrough = arms.flatten := rfl

theorem mem_boundArms (pick : Node → Bool) :
    (∃ names ∈ Steps.callsWhere pick (boundCalls n.children), name ∈ names) ↔
      ∃ c ∈ (Stage.every pick).children n, name ∈ c.boundNames := by
  rw [← mem_boundChain, mem_boundWhere]

theorem exists_stages {stages : List Stage} {P : Node → Prop} :
    (∃ c ∈ stages.flatMap (Stage.children n), P c) ↔
      ∃ stage ∈ stages, ∃ c ∈ stage.children n, P c := by
  simp only [List.mem_flatMap]
  grind

/-- What the handler of a branch binds is its loop target, and what is bound below the children
    that its stages visit. -/
theorem mem_boundBranching (hkind : n.kind = .branch) :
    name ∈ boundSteps.branching n (boundCalls n.children) ↔
      name ∈ n.ownNames ∨
        ∃ c ∈ n.stages.flatMap (Stage.children n), name ∈ c.boundNames := by
  rw [exists_stages]
  unfold Steps.branching Node.stages Node.ownNames
  simp only [hkind]
  split
  next htag =>
    cases horelse : n.child? Role.orelse with
    | some c => simp [htag, mem_boundWhere, mem_boundFirst]
    | none =>
      have hnone : (Stage.first Role.orelse).children n = [] := by
        simp [Stage.children, horelse]
      simp [htag, mem_boundWhere, mem_boundFirst, hnone]
  next htag =>
    simp [htag, mem_boundWhere, mem_boundTarget]
    grind
  next htag => simp [htag, mem_boundWhere, mem_boundFirst]
  next htag => simp [htag, mem_boundWhere, mem_boundFirst, mem_boundArms]
  next htag => simp [htag, mem_boundWhere, mem_boundArms]
  next hfor _ _ _ =>
    have htag : ¬ n.tag = "For" := hfor
    simp [htag, mem_boundWhere]

/-- In the scope around a node the body of a function or class is not visited. -/
theorem Node.scopeChildren_eq_of_opensScope (h : n.kind = .functionDef ∨ n.kind = .classDef) :
    n.scopeChildren = (Stage.every (notPlaying Role.body)).children n := by
  have hopens : n.opensScope = true := by simpa [opensScope] using h
  have hstages : n.stages = [.every (notPlaying Role.body), .every (playing Role.body)] := by
    unfold stages
    rcases h with h | h <;> simp [h]
  simp only [scopeChildren, hopens, hstages, Stage.children, List.flatMap_cons, List.flatMap_nil,
    List.append_nil, List.filter_append, List.filter_filter, Bool.true_and]
  have hbody : ∀ c, (!playing Role.body c && playing Role.body c) = false := by simp
  have hrest : ∀ c, (!playing Role.body c && notPlaying Role.body c) = notPlaying Role.body c := by
    simp [playing, notPlaying]
  simp [hbody, hrest]

theorem Node.scopeChildren_eq (hfunction : n.kind ≠ .functionDef) (hclass : n.kind ≠ .classDef) :
    n.scopeChildren = n.stages.flatMap (Stage.children n) := by
  have hopens : n.opensScope = false := by simp [opensScope, hfunction, hclass]
  simp [scopeChildren, hopens]

theorem Stage.children_subset (stage : Stage) : stage.children n ⊆ n.children := by
  cases stage with
  | every pick => exact List.filter_subset_self _
  | first role =>
    intro c hc
    exact Node.child?_mem (Option.mem_toList.mp hc)

theorem Node.scopeChildren_subset : n.scopeChildren ⊆ n.children := by
  intro c hc
  obtain ⟨stage, _, hstage⟩ := List.mem_flatMap.mp (List.mem_filter.mp hc).1
  exact stage.children_subset hstage

/-- A node binds what it binds by itself, and what the children bind that are visited in the same
    scope. -/
theorem Node.mem_boundNames :
    name ∈ n.boundNames ↔ name ∈ n.ownNames ∨ ∃ c ∈ n.scopeChildren, name ∈ c.boundNames := by
  rw [boundNames_eq]
  cases hkind : n.kind with
  | functionDef =>
    rw [scopeChildren_eq_of_opensScope (.inl hkind)]
    simp [Steps.passage, hkind, mem_boundWhere, ownNames, or_comm]
  | classDef =>
    rw [scopeChildren_eq_of_opensScope (.inr hkind)]
    simp [Steps.passage, hkind, mem_boundWhere, ownNames, or_comm]
  | branch =>
    rw [scopeChildren_eq (by simp [hkind]) (by simp [hkind])]
    simp only [Steps.passage, hkind]
    exact mem_boundBranching hkind
  | assignment =>
    rw [scopeChildren_eq (by simp [hkind]) (by simp [hkind])]
    simp [Steps.passage, hkind, mem_boundWhere, ownNames, or_comm, stages]
  | _ =>
    rw [scopeChildren_eq (by simp [hkind]) (by simp [hkind])]
    simp [Steps.passage, hkind, mem_boundWhere, ownNames, stages]

/-- Who binds a name can be computed. -/
theorem Node.rebinds_iff : n.Rebinds name ↔ name ∈ n.boundNames := by
  constructor
  · rintro ⟨m, hm, hname⟩
    induction hm with
    | self n => exact mem_boundNames.mpr (.inl hname)
    | through hc _ ih => exact mem_boundNames.mpr (.inr ⟨_, hc, ih hname⟩)
  · intro h
    induction n using Node.induction with
    | step n ih =>
      rcases mem_boundNames.mp h with hown | ⟨c, hc, hbound⟩
      · exact ⟨n, .self n, hown⟩
      · obtain ⟨m, hm, hname⟩ := ih c (scopeChildren_subset hc) hbound
        exact ⟨m, .through hc hm, hname⟩

instance (n : Node) (name : Ident) : Decidable (n.Rebinds name) :=
  decidable_of_iff _ Node.rebinds_iff.symm

end Bound

/-! ## Moments that leave names alone -/

/-- The innermost scope of the tracker is still open at a moment, perhaps with others opened in
    it, and binds all but some names as before. -/
def Tracker.Spares (t : Tracker) (names : List Ident) (moment : Tracker) : Prop :=
  ∃ inner scope, moment.scopes = inner ++ scope :: t.outer ∧
    ∀ name, name ∉ names → scope.store.get? name = t.local? name

namespace Tracker.Spares

variable {t moment : Tracker} {names more : List Ident}

theorem refl (t : Tracker) (names : List Ident) : t.Spares names t :=
  ⟨[], t.current, rfl, fun _ _ => rfl⟩

theorem mono (h : t.Spares names moment) (hsub : names ⊆ more) : t.Spares more moment := by
  obtain ⟨inner, scope, hscopes, hsame⟩ := h
  exact ⟨inner, scope, hscopes, fun name hname => hsame name fun hmem => hname (hsub hmem)⟩

/-- From a tracker in the same scope that has touched some names already. -/
theorem of_extends {next : Tracker} (hscopes : t.SameScopes next)
    (hstore : next.current.store.Extends t names) (h : next.Spares more moment) :
    t.Spares (names ++ more) moment := by
  obtain ⟨inner, scope, hopen, hsame⟩ := h
  refine ⟨inner, scope, by rw [hopen, hscopes.outer], fun name hname => ?_⟩
  obtain ⟨hnames, hmore⟩ := not_or.mp (mt List.mem_append.mpr hname)
  exact (hsame name hmore).trans (hstore.untouched name hnames)

/-- Whatever is bound in a scope opened inside, the scope around it is not touched. -/
theorem of_enter {inside : Tracker} (houter : inside.outer = t.current :: t.outer)
    (h : inside.Spares names moment) : t.Spares [] moment := by
  obtain ⟨inner, scope, hopen, _⟩ := h
  refine ⟨inner ++ [scope], t.current, ?_, fun _ _ => rfl⟩
  rw [hopen, houter, List.append_assoc]
  rfl

end Tracker.Spares

/-- A leg that binds some names and leaves all others alone at all its moments. -/
structure Leg.Spares (leg : Leg) (names : List Ident) : Prop extends Leg.Binds leg names where
  moments : ∀ t, ∀ moment ∈ (leg t).trackers, t.Spares names moment

namespace Leg.Spares

theorem idle : Leg.idle.Spares [] where
  toBinds := .idle
  moments _ := nofun

theorem note (place : Place) : (Leg.note place).Spares [] where
  scopes := Leg.Binds.idle.scopes
  store := Leg.Binds.idle.store
  moments t moment hmoment := by
    rw [List.mem_singleton.mp hmoment]
    exact .refl t []

theorem write (w : Write) : (Leg.change fun t => .ok (t.write w)).Spares [w.1] where
  toBinds := by
    refine .writes fun t e he => ⟨[w], rfl, ?_⟩
    cases he
    rfl
  moments _ := nofun

theorem andThen {a b : Leg} {names more : List Ident} (ha : a.Spares names) (hb : b.Spares more) :
    (a.andThen b).Spares (names ++ more) where
  toBinds := ha.toBinds.andThen hb.toBinds
  moments t moment hmoment := by
    cases hmid : (a t).result with
    | error fault =>
      rw [andThen_error hmid] at hmoment
      exact (ha.moments t moment hmoment).mono (List.subset_append_left _ _)
    | ok m =>
      rw [andThen_ok hmid, Course.trackers, List.map_append] at hmoment
      rcases List.mem_append.mp hmoment with hfirst | hsecond
      · exact (ha.moments t moment hfirst).mono (List.subset_append_left _ _)
      · exact .of_extends (ha.scopes hmid) (ha.store hmid) (hb.moments m moment hsecond)

theorem framed (place : Place) {leg : Leg} {names : List Ident} (h : leg.Spares names) :
    (Leg.framed place leg).Spares names := by
  have hframed := (note place).andThen (h.andThen (note place))
  rw [List.append_nil, List.nil_append] at hframed
  exact hframed

theorem writing (place : Place) (ws : List Write) :
    (Leg.writing place ws).Spares (ws.map (·.1)) := by
  induction ws with
  | nil => exact .idle
  | cons w ws ih => exact (write w).andThen ((note place).andThen ih)

theorem given {α : Type} {find : Tracker → Except Fault α} {next : α → Leg} {names : List Ident}
    (h : ∀ a, (next a).Spares names) : (Leg.given find next).Spares names := by
  have hok : ∀ {t e}, (Leg.given find next t).result = .ok e →
      ∃ a, (next a t).result = .ok e := by
    intro t e he
    cases hfind : find t with
    | error fault =>
      rw [given_error hfind] at he
      cases he
    | ok a =>
      rw [given_ok hfind] at he
      exact ⟨a, he⟩
  refine ⟨⟨fun he => ?_, fun he => ?_⟩, fun t moment hmoment => ?_⟩
  · obtain ⟨a, he⟩ := hok he
    exact (h a).scopes he
  · obtain ⟨a, he⟩ := hok he
    exact (h a).store he
  · cases hfind : find t with
    | error fault =>
      rw [given_error hfind] at hmoment
      exact absurd hmoment List.not_mem_nil
    | ok a =>
      rw [given_ok hfind] at hmoment
      exact (h a).moments t moment hmoment

theorem inScope (name : String) (summary : Option Summary) {body : Leg} {names : List Ident}
    (h : body.Spares names) :
    (Leg.inScope (fun t => .ok (t.enter name summary)) body).Spares [] where
  toBinds := by
    refine .inScope ?_ h.toBinds
    rintro t _ ⟨⟩
    rfl
  moments t moment hmoment := .of_enter rfl (h.moments (t.enter name summary) moment hmoment)

theorem outcomes {arms : List Leg} {names : List (List Ident)}
    (h : List.Forall₂ Leg.Spares arms names) (t : Tracker) :
    ∀ stop ∈ (Leg.outcomes t arms).1, t.Spares names.flatten stop.tracker := by
  induction h with
  | nil => exact nofun
  | @cons arm first arms rest harm _ ih =>
    have hfirst : ∀ stop ∈ (arm t).stops, t.Spares (first ++ rest.flatten) stop.tracker :=
      fun stop hstop => (harm.moments t _ (List.mem_map_of_mem hstop)).mono
        (List.subset_append_left _ _)
    rw [List.flatten_cons]
    cases hend : (arm t).result with
    | error fault =>
      rw [outcomes_error hend]
      exact hfirst
    | ok e =>
      rw [outcomes_ok hend]
      -- every later arm begins at the same tracker again
      refine List.forall_mem_append.mpr ⟨hfirst, fun stop hstop => ?_⟩
      exact (ih stop hstop).mono (List.subset_append_right _ _)

theorem merged {arms : List Leg} {names : List (List Ident)}
    (h : List.Forall₂ Leg.Spares arms names) (fallthrough : Bool) :
    (Leg.merged arms fallthrough).Spares names.flatten where
  toBinds := .merged (h.imp fun _ _ harm => harm.toBinds) fallthrough
  moments t moment hmoment := by
    obtain ⟨stop, hstop, rfl⟩ := List.mem_map.mp hmoment
    exact outcomes h t stop hstop

/-- Every step of the traversal leaves all names alone but those of the step. -/
theorem respects (place : Place) (n : Node) :
    Steps.Respects Leg.Spares (momentSteps place) boundSteps n where
  idle := note place
  andThen h h' := h.andThen h'
  inFunction h := by
    refine framed place (given fun summary => ?_)
    have hparameters := framed place (writing place summary.parameterWrites)
    exact inScope _ _ (hparameters.andThen h)
  inClass h := framed place (inScope _ _ h)
  define := framed place (writing place n.definedWrites)
  assign := by
    refine framed place (given fun facts => ?_)
    rw [boundSteps_assign, ← n.assignedWrites_names facts]
    exact writing place (n.assignedWrites facts)
  bindTarget c _ := by
    have hnames : boundSteps.bindTarget c = (c.targetWrites .unknown).map (·.1) :=
      (c.targetWrites_names .unknown).symm
    rw [hnames]
    exact framed place (writing place (c.targetWrites .unknown))
  fork fallthrough h := framed place (merged h fallthrough)

end Leg.Spares

/-- At every moment of the walk over a node, all names are left alone but those that the node
    binds. -/
theorem chronicle_spares (address : List Nat) (parent : Option Node) (n : Node) :
    (chronicle address parent n).Spares n.boundNames := by
  induction n using Node.induction generalizing address parent with
  | step n ih =>
    let place : Place := { address := address, site := { node := n, parent := parent } }
    have hpassage : ((momentSteps place).passage n
        (chronicleCalls address n 0 n.children)).Spares
        (boundSteps.passage n (boundCalls n.children)) := by
      apply (Leg.Spares.respects place n).passage
      rw [chronicleCalls_eq, boundCalls_eq _ 0]
      exact Steps.callsRelated_zipIdx (fun c hc i => ih c hc (address ++ [i]) (some n)) 0
    rw [Node.boundNames_eq]
    refine ⟨⟨fun he => ?_, fun he => ?_⟩, fun t moment hmoment => ?_⟩
    · rw [chronicle_eq] at he
      exact hpassage.scopes he
    · rw [chronicle_eq] at he
      exact hpassage.store he
    · rw [chronicle_eq] at hmoment
      rcases List.mem_cons.mp hmoment with rfl | hmoment
      · exact .refl _ _
      · exact hpassage.moments t moment hmoment

/-- A name that nothing binds, of what a visit comes to in the scope around the node, is bound
    in that scope as it was: at every moment of the visit, inside whatever scopes have been
    opened by then, and wherever the visit ends, cut short or not. -/
theorem unbound_names_kept (survey : Survey) (parent : Option Node) (n : Node) (walk : Walk)
    (name : Ident) (h : ¬ n.Rebinds name) :
    (endOf (visit survey parent n walk)).tracker.local? name = walk.tracker.local? name ∧
      ∀ address, ∀ moment ∈ (chronicle address parent n walk.tracker).trackers,
        ∃ inner scope, moment.scopes = inner ++ scope :: walk.tracker.outer ∧
          scope.store.get? name = walk.tracker.local? name := by
  have hname : name ∉ n.boundNames := mt Node.rebinds_iff.mpr h
  have hmoments : ∀ address, ∀ moment ∈ (chronicle address parent n walk.tracker).trackers,
      ∃ inner scope, moment.scopes = inner ++ scope :: walk.tracker.outer ∧
        scope.store.get? name = walk.tracker.local? name := by
    intro address moment hmoment
    obtain ⟨inner, scope, hopen, hsame⟩ :=
      (chronicle_spares address parent n).moments walk.tracker moment hmoment
    exact ⟨inner, scope, hopen, hsame name hname⟩
  refine ⟨?_, hmoments⟩
  obtain ⟨inner, scope, hopen, hsame⟩ :=
    hmoments [] _ ((visit_recorded survey [] parent n).ends walk)
  -- the visit ends in the scope in which it began, so no other is open inside
  have houter := (Keeps.visit survey parent n walk).outer
  have hinner : inner = [] := by
    have hlength := congrArg List.length hopen
    simp [Tracker.scopes, houter] at hlength
    exact hlength
  subst hinner
  rw [List.nil_append, Tracker.scopes, houter] at hopen
  obtain ⟨hcurrent, _⟩ := List.cons.inj hopen
  rw [Tracker.local?, hcurrent]
  exact hsame

/-- A loop whose body tries to define a function that binds `df` for itself, and otherwise counts
    in one arm of an `if`. -/
def busyLoop : Node :=
  let name (role id : String) : Node :=
    { kind := .name, span := ⟨1, 1, 1, 1⟩, role := role, name := some id }
  let block (role : String) (children : List Node) : Node :=
    { kind := .block, span := ⟨1, 1, 1, 1⟩, role := role, children := children }
  let assignment (id : String) : Node :=
    { kind := .assignment, span := ⟨1, 1, 1, 1⟩,
      children := [name Role.target id, name Role.value "row"] }
  let function : Node :=
    { kind := .functionDef, span := ⟨1, 1, 1, 1⟩, name := some "shadow",
      children := [block Role.body [assignment "df"]] }
  let choice : Node :=
    { kind := .branch, span := ⟨1, 1, 1, 1⟩, tag := "If",
      children := [name Role.test "row", block Role.body [assignment "count"]] }
  let guarded : Node :=
    { kind := .branch, span := ⟨1, 1, 1, 1⟩, tag := "Try",
      children := [block Role.body [function], block Role.handler [choice]] }
  { kind := .branch, span := ⟨1, 1, 1, 1⟩, tag := "For",
    children := [name Role.target "row", name Role.iter "rows", block Role.body [guarded]] }

theorem busyLoop_keeps_pinned :
    busyLoop.Rebinds (some "count") ∧ ¬ busyLoop.Rebinds (some "df") ∧
      (endOf (visit { rules := catalog } none busyLoop
        { tracker := .bind .start (some "df") { origin := .selection, pinned := true } })
        ).tracker.local? (some "df") =
          some { name := some "df", origin := .selection, pinned := true } := by
  have hspared : ¬ busyLoop.Rebinds (some "df") := by decide
  have hkept := unbound_names_kept { rules := catalog } none busyLoop
    { tracker := .bind .start (some "df") { origin := .selection, pinned := true } } _ hspared
  exact ⟨by decide, hspared, hkept.1⟩

end Framewise
