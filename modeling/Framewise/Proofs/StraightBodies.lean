import Framewise.Proofs.Chronicle
import Framewise.Proofs.Classification
import Framewise.Proofs.StillNodes

/-! # Straight bodies

  A function is looked over twice: its summary reads the nodes of the body from top
  to bottom into a store of its own, and later the walk passes the body in the scope
  of the function. Where the body takes its statements one after the other, the two
  agree: at every node the store of the summary holds what the scope of the tracker
  holds, and names that neither holds are asked of the same scopes around. So the
  summary knows whether the walk will come to a return of a frame.

  Main definitions:
  - `Node.Straight`: a tree whose statements are taken one after the other.
  - `Summary.Mirrors`: a store that holds what the scope of a tracker holds.
  - `Leg.Reads`: reading nodes from top to bottom comes to what a leg comes to.
  - `bodyWalk`: the walk over the body of a function.

  Main results:
  - `tour_reads`: over a straight tree, reading and walking come to the same.
  - `summary_foretells_walk`.
-/

namespace Framewise

/-! ## Straight trees -/

/-- A tree whose statements are taken one after the other: there is no function, class or branch
    in it, and an assignment gives one value to its targets, with no unpacking, and holds no
    other assignment and no return. -/
inductive Node.Straight : Node → Prop
  | plain {n : Node} (hkind : n.kind.isPlain = true) (hbelow : ∀ c ∈ n.children, c.Straight) :
      n.Straight
  | assignment {n : Node} (hkind : n.kind = .assignment) (htag : n.tag ≠ "AugAssign")
      (htargets : ∀ target ∈ n.childrenIn Role.target, target.kind ≠ .sequence)
      (hbelow : ∀ c ∈ n.children, c.Still ∧ ∀ m ∈ c.preorder, m.kind ≠ .return) : n.Straight

namespace Node

theorem prunedOrder_eq_preorder {prune : Node → Bool} {n : Node}
    (h : ∀ m ∈ n.preorder, prune m = false) : n.prunedOrder prune = n.preorder := by
  induction n using Node.induction with
  | step n ih =>
    rw [prunedOrder_eq, preorder_eq, h n n.self_mem_preorder]
    have hchildren : ∀ c ∈ n.children, c.prunedOrder prune = c.preorder :=
      fun c hc => ih c hc fun m hm => h m (mem_preorder_of_child hc hm)
    simp [List.flatMap_congr hchildren]

theorem opensScope_of_plain {n : Node} (h : n.kind.isPlain = true) : n.opensScope = false := by
  unfold opensScope
  cases hkind : n.kind <;> simp [hkind, NodeKind.isPlain] at h ⊢

/-- No scope is opened in a straight tree. -/
theorem Straight.opensScope {n : Node} (h : n.Straight) :
    ∀ m ∈ n.preorder, m.opensScope = false := by
  induction h with
  | @plain n hkind _ ih =>
    exact forall_preorder_iff.mpr ⟨opensScope_of_plain hkind, ih⟩
  | @assignment n hkind _ _ hbelow =>
    refine forall_preorder_iff.mpr ⟨by simp [Node.opensScope, hkind], fun c hc m hm => ?_⟩
    exact opensScope_of_plain ((hbelow c hc).1 m hm)

/-- The names of the targets of an assignment that are names. -/
def plainTargets (n : Node) : List Ident :=
  ((n.childrenIn Role.target).filter fun target => target.kind = .name).map (·.name)

/-- Without unpacking, the writes of an assignment are one for each target that is a name. -/
theorem assignedWrites_eq {n : Node} (facts : Facts)
    (h : ∀ target ∈ n.childrenIn Role.target, target.kind ≠ .sequence) :
    n.assignedWrites facts = n.plainTargets.map fun name => (name, facts) := by
  unfold assignedWrites plainTargets
  generalize n.childrenIn Role.target = targets at h
  induction targets with
  | nil => rfl
  | cons target targets ih =>
    obtain ⟨htarget, hrest⟩ := List.forall_mem_cons.mp h
    rw [List.flatMap_cons, ih hrest, targetWrites, targetNames_eq]
    cases hkind : target.kind with
    | name => simp [hkind]
    | sequence => exact absurd hkind htarget
    | _ => simp [hkind]

end Node

/-! ## What a summary reads -/

namespace Summary

variable (outer : Resolver) (store : Store) (returns : Bool) {n : Node}

theorem readNode_assignment (hkind : n.kind = .assignment) (htag : n.tag ≠ "AugAssign") :
    readNode outer (store, returns) n =
      (match n.child? Role.value with
        | some value => classify (resolveIn store outer) value
        | none => .ok .unknown).map fun facts : Facts =>
          (n.plainTargets.foldl (fun store name => store.put name
            { name := name, origin := facts.origin, pinned := facts.pinned }) store, returns) := by
  unfold readNode
  have hassigns : (n.kind = .assignment && n.tag != "AugAssign") = true := by simp [hkind, htag]
  dsimp only
  rw [if_pos hassigns]
  cases n.child? Role.value with
  | none => rfl
  | some value => rfl

theorem readNode_return (hkind : n.kind = .return) :
    readNode outer (store, returns) n =
      match n.child? Role.value with
      | some value => (classify (resolveIn store outer) value).map fun facts =>
          (store, returns || facts.isFrame)
      | none => .ok (store, returns) := by
  unfold readNode
  have hassigns : ¬ (n.kind = .assignment && n.tag != "AugAssign") = true := by simp [hkind]
  dsimp only
  rw [if_neg hassigns, if_pos hkind]
  cases n.child? Role.value with
  | none => rfl
  | some value => rfl

theorem readNode_other (hassignment : n.kind ≠ .assignment) (hreturn : n.kind ≠ .return) :
    readNode outer (store, returns) n = .ok (store, returns) := by
  unfold readNode
  have hassigns : ¬ (n.kind = .assignment && n.tag != "AugAssign") = true := by simp [hassignment]
  dsimp only
  rw [if_neg hassigns, if_neg hreturn]
  rfl

/-- Nodes that neither assign nor return are read without effect. -/
theorem readNodes_other {nodes : List Node}
    (h : ∀ m ∈ nodes, m.kind ≠ .assignment ∧ m.kind ≠ .return) :
    nodes.foldlM (readNode outer) (store, returns) = .ok (store, returns) := by
  induction nodes with
  | nil => rfl
  | cons m nodes ih =>
    obtain ⟨⟨hassignment, hreturn⟩, hrest⟩ := List.forall_mem_cons.mp h
    rw [List.foldlM_cons, readNode_other outer store returns hassignment hreturn]
    exact ih hrest

end Summary

/-! ## The store of a summary -/

/-- The store holds what the innermost scope of the second tracker holds, and the scopes around
    it are those of the first. -/
structure Summary.Mirrors (t : Tracker) (store : Store) (inner : Tracker) : Prop where
  outer : inner.outer = t.scopes
  held : ∀ name, store.get? name = inner.local? name

namespace Summary.Mirrors

variable {t inner : Tracker} {store : Store}

/-- Names resolve alike, a missing one included. -/
theorem resolve (h : Mirrors t store inner) : resolveIn store t.resolve = inner.resolve := by
  funext name
  have hlookup : inner.lookup name = (inner.local? name).or (t.lookup name) := by
    unfold Tracker.lookup Tracker.local?
    rw [Tracker.scopes, h.outer, List.findSome?_cons]
    cases inner.current.store.get? name <;> rfl
  unfold resolveIn Tracker.resolve
  rw [hlookup, h.held name]
  cases inner.local? name <;> rfl

theorem bind (h : Mirrors t store inner) (name : Ident) (facts : Facts) :
    Mirrors t (store.put name { name := name, origin := facts.origin, pinned := facts.pinned })
      (inner.bind name facts) where
  outer := h.outer
  held name' := by
    have hheld := h.held name'
    unfold Tracker.local? Tracker.bind at *
    rw [Tracker.withStore, Store.get?_put, Store.get?_put, hheld]

theorem foldl {α : Type} (name : α → Ident) (facts : α → Facts) (items : List α)
    (h : Mirrors t store inner) :
    Mirrors t
      (items.foldl (fun store a => store.put (name a)
        { name := name a, origin := (facts a).origin, pinned := (facts a).pinned }) store)
      (inner.writeAll (items.map fun a => (name a, facts a))) := by
  induction items generalizing store inner with
  | nil => exact h
  | cons a items ih => exact ih (h.bind (name a) (facts a))

end Summary.Mirrors

/-- The rules are applied at a return of something that is a frame at that moment. -/
def Stop.ReturnsFrame (stop : Stop) : Prop :=
  stop.site.node.kind = .return ∧ ∃ value facts, stop.site.node.child? Role.value = some value ∧
    stop.tracker.classify value = .ok facts ∧ facts.isFrame = true

/-! ## Reading and walking -/

/-- Reading the nodes from top to bottom comes to what the leg comes to, and finds a return of a
    frame if the leg stops at one. -/
def Leg.Reads (t : Tracker) (leg : Leg) (nodes : List Node) : Prop :=
  ∀ (store : Store) (inner : Tracker) (returns : Bool), Summary.Mirrors t store inner →
    ∃ store' returns' last,
      nodes.foldlM (Summary.readNode t.resolve) (store, returns) = .ok (store', returns') ∧
      (leg inner).result = .ok last ∧ Summary.Mirrors t store' last ∧
      (returns' = true ↔ returns = true ∨ ∃ stop ∈ (leg inner).stops, stop.ReturnsFrame)

/-- With names for all its name nodes, an expression can be classified. -/
theorem Tracker.classify_ok (t : Tracker) {n : Node} (h : n.Named) :
    ∃ facts, t.classify n = .ok facts := by
  have hself : Resolver.Abstracts t.resolve t.resolve := by
    intro s
    have hok : ∃ b, t.resolve (some s) = .ok b := by
      unfold resolve
      split
      · exact ⟨_, rfl⟩
      · exact ⟨_, rfl⟩
    obtain ⟨b, hb⟩ := hok
    exact ⟨b, b, hb, hb, fun _ => id⟩
  obtain ⟨facts, _, hfacts, _⟩ := classify_abstracts hself h
  exact ⟨facts, hfacts⟩

namespace Leg.Reads

variable {t : Tracker}

theorem idle : Leg.Reads t .idle [] :=
  fun store inner returns h => ⟨store, returns, inner, rfl, rfl, h, by simp [Leg.idle]⟩

theorem andThen {a b : Leg} {nodes more : List Node} (ha : Leg.Reads t a nodes)
    (hb : Leg.Reads t b more) : Leg.Reads t (a.andThen b) (nodes ++ more) := by
  intro store inner returns h
  obtain ⟨store', returns', middle, hread, hmiddle, hmirrors, hreturns⟩ := ha store inner returns h
  obtain ⟨store'', returns'', last, hread', hlast, hmirrors', hreturns'⟩ :=
    hb store' middle returns' hmirrors
  refine ⟨store'', returns'', last, ?_, ?_, hmirrors', ?_⟩
  · rw [List.foldlM_append, hread]
    exact hread'
  · rw [andThen_ok hmiddle]
    exact hlast
  · rw [andThen_ok hmiddle, hreturns', hreturns, or_assoc]
    simp only [List.mem_append, or_and_right, exists_or]

/-- At a node that is no assignment the summary looks at what is returned, as the rules can. -/
theorem note {place : Place} (hkind : place.site.node.kind ≠ .assignment)
    (hnamed : place.site.node.Named) : Leg.Reads t (.note place) [place.site.node] := by
  intro store inner returns h
  -- what is read, once it is known whether the stop is at a return of a frame
  suffices hread : ∃ found, Summary.readNode t.resolve (store, returns) place.site.node =
      .ok (store, returns || found) ∧
      (found = true ↔ Stop.ReturnsFrame { toPlace := place, tracker := inner }) by
    obtain ⟨found, hread, hfound⟩ := hread
    refine ⟨store, returns || found, inner, ?_, rfl, h, ?_⟩
    · rw [List.foldlM_cons, hread]
      rfl
    · simp [Leg.note, hfound]
  unfold Stop.ReturnsFrame
  by_cases hreturn : place.site.node.kind = .return
  · rw [Summary.readNode_return _ _ _ hreturn, h.resolve]
    cases hvalue : place.site.node.child? Role.value with
    | none => exact ⟨false, by simp, by simp⟩
    | some value =>
      obtain ⟨facts, hfacts⟩ := inner.classify_ok (hnamed.child (Node.child?_mem hvalue))
      have hclassify : classify inner.resolve value = .ok facts := hfacts
      exact ⟨facts.isFrame, by dsimp only; rw [hclassify]; rfl, by simp [hreturn, hfacts]⟩
  · exact ⟨false, by simp [Summary.readNode_other _ _ _ hkind hreturn], by simp [hreturn]⟩

/-- An assignment is read at its node, and made after its children have been visited; they hold
    nothing that could tell the difference. -/
theorem assignment {n : Node} (fork : Fork) (address : List Nat) (parent : Option Node)
    (hkind : n.kind = .assignment) (htag : n.tag ≠ "AugAssign")
    (htargets : ∀ target ∈ n.childrenIn Role.target, target.kind ≠ .sequence)
    (hbelow : ∀ c ∈ n.children, c.Still ∧ ∀ m ∈ c.preorder, m.kind ≠ .return)
    (hnamed : n.Named) : Leg.Reads t (tour fork address parent n) n.preorder := by
  intro store inner returns h
  obtain ⟨facts, hfacts⟩ : ∃ facts, inner.assignedFacts n = .ok facts := by
    unfold Tracker.assignedFacts
    rw [if_neg htag]
    cases hvalue : n.child? Role.value with
    | none => exact ⟨.unknown, rfl⟩
    | some value => exact inner.classify_ok (hnamed.child (Node.child?_mem hvalue))
  -- the children change nothing, in the store or in the tracker
  have hchildren : ∀ m ∈ n.children.flatMap Node.preorder,
      m.kind.isPlain = true ∧ m.kind ≠ .return := by
    intro m hm
    obtain ⟨c, hc, hmc⟩ := List.mem_flatMap.mp hm
    exact ⟨(hbelow c hc).1 m hmc, (hbelow c hc).2 m hmc⟩
  have hplaces : ∀ place ∈ n.places address parent, place.site.node.kind ≠ .return := by
    intro place hplace
    have hnode : place.site.node ∈ n.preorder := by
      rw [← Node.places_nodes address parent n]
      exact List.mem_map_of_mem hplace
    rw [Node.preorder_eq] at hnode
    rcases List.mem_cons.mp hnode with heq | hnode
    · simp [heq, hkind]
    · exact (hchildren _ hnode).2
  have hassigned : (match n.child? Role.value with
      | some value => classify inner.resolve value
      | none => .ok .unknown) = .ok facts := by
    rw [← hfacts, Tracker.assignedFacts, if_neg htag]
    rfl
  have hassignment : inner.bindAssignment n =
      .ok (inner.writeAll (n.plainTargets.map fun name => (name, facts))) := by
    rw [inner.bindAssignment_eq, hfacts, ← Node.assignedWrites_eq facts htargets]
    rfl
  refine ⟨n.plainTargets.foldl (fun store name => store.put name
      { name := name, origin := facts.origin, pinned := facts.pinned }) store, returns,
    inner.writeAll (n.plainTargets.map fun name => (name, facts)), ?_, ?_, ?_, ?_⟩
  · rw [Node.preorder_eq, List.foldlM_cons, Summary.readNode_assignment _ _ _ hkind htag,
      h.resolve, hassigned]
    refine Summary.readNodes_other _ _ _ fun m hm => ⟨fun heq => ?_, (hchildren m hm).2⟩
    have hplain := (hchildren m hm).1
    simp [heq, NodeKind.isPlain] at hplain
  · rw [tour_of_still_assignment fork address parent hkind (fun c hc => (hbelow c hc).1), hassignment]
  · exact h.foldl id (fun _ => facts) n.plainTargets
  · rw [tour_of_still_assignment fork address parent hkind fun c hc => (hbelow c hc).1]
    constructor
    · exact .inl
    · rintro (hreturns | ⟨stop, hstop, hkind', _⟩)
      · exact hreturns
      · obtain ⟨place, hplace, rfl⟩ := List.mem_map.mp hstop
        exact absurd hkind' (hplaces place hplace)

/-- Children that can be read one by one can be read in order. -/
theorem tourAll {n : Node} (fork : Fork) (address : List Nat) {items : List (Node × Nat)}
    (h : ∀ p ∈ items, Leg.Reads t (tour fork (address ++ [p.2]) (some n) p.1) p.1.preorder) :
    Leg.Reads t (tourAll fork address n items) (items.flatMap fun p => p.1.preorder) := by
  induction items with
  | nil => exact idle
  | cons p items ih =>
    obtain ⟨hfirst, hrest⟩ := List.forall_mem_cons.mp h
    exact hfirst.andThen (ih hrest)

end Leg.Reads

/-- Over a straight tree, reading from top to bottom comes to what the walk comes to. -/
theorem tour_reads (t : Tracker) (fork : Fork) (address : List Nat) (parent : Option Node)
    {n : Node} (h : n.Straight) (hnamed : n.Named) :
    Leg.Reads t (tour fork address parent n) n.preorder := by
  induction h generalizing address parent with
  | @assignment n hkind htag htargets hbelow =>
    exact .assignment fork address parent hkind htag htargets hbelow hnamed
  | @plain n hkind _ ih =>
    let place : Place := { address := address, site := { node := n, parent := parent } }
    have htour : tour fork address parent n =
        (Leg.note place).andThen (tourAll fork address n n.children.zipIdx) := by
      funext inner
      rw [tour_of_plain _ _ _ _ hkind]
      rfl
    have hnode : n.kind ≠ .assignment := by
      intro heq
      simp [heq, NodeKind.isPlain] at hkind
    have hchildren : n.children.zipIdx.flatMap (fun p => p.1.preorder) =
        n.children.flatMap Node.preorder := by
      rw [← List.flatMap_map Prod.fst, List.zipIdx_map_fst]
    rw [htour, Node.preorder_eq, ← hchildren]
    refine Leg.Reads.andThen (.note hnode hnamed) (.tourAll fork address fun p hp => ?_)
    have hc : p.1 ∈ n.children := List.fst_mem_of_mem_zipIdx hp
    exact ih p.1 hc _ _ (hnamed.child hc)

/-! ## Functions -/

/-- The walk over the body of a function, in the scope of the function. -/
def bodyWalk (address : List Nat) (function : Node) : Leg :=
  tourAll (fun _ => .merged) address function
    (function.children.zipIdx.filter fun p => playing Role.body p.1)

theorem bodyWalk_follows (survey : Survey) (address : List Nat) (function : Node) :
    FollowsLeg survey (visitWhere survey function (playing Role.body) function.children)
      (bodyWalk address function) := by
  have hcalls : Steps.CallsRelated (FollowsLeg survey) function
      (visitCalls survey function function.children)
      (tourCalls (fun _ => .merged) address function 0 function.children) := by
    rw [visitCalls_eq survey function _ 0, tourCalls_eq]
    exact Steps.callsRelated_zipIdx
      (fun c _ i => visit_follows survey (address ++ [i]) (some function) c) 0
  have hwalk : bodyWalk address function = (legSteps .merged).chain (Steps.callsWhere
      (playing Role.body) (tourCalls (fun _ => .merged) address function 0 function.children)) := by
    unfold bodyWalk tourAll Steps.callsWhere
    rw [tourCalls_eq, List.filter_map, List.map_map]
    rfl
  rw [visitWhere_eq, hwalk]
  exact (FollowsLeg.respects survey function).chainWhere (playing Role.body) hcalls

theorem parameterStore_get? {parameters : List String} {name : String} (frames : List String)
    (h : name ∈ parameters) :
    (Summary.parameterStore parameters frames).get? (some name) =
      some { name := some name, origin := Summary.parameterOrigin frames name } := by
  -- once bound, a parameter stays bound to the same thing
  suffices hfold : ∀ store : Store, (name ∈ parameters ∨ store.get? (some name) =
      some { name := some name, origin := Summary.parameterOrigin frames name }) →
      (parameters.foldl (fun store name => store.put (some name)
        { name := some name, origin := Summary.parameterOrigin frames name }) store).get?
          (some name) =
        some { name := some name, origin := Summary.parameterOrigin frames name } from
    hfold .empty (.inl h)
  clear h
  induction parameters with
  | nil =>
    intro store hstore
    exact hstore.resolve_left List.not_mem_nil
  | cons first rest ih =>
    intro store hstore
    refine ih _ ?_
    rw [Store.get?_put]
    by_cases heq : name = first
    · right
      simp [heq]
    · rcases hstore with hmem | hstore
      · exact .inl ((List.mem_cons.mp hmem).resolve_left heq)
      · right
        simp [heq, hstore]

section Functions

variable {function : Node} (hbody : ∀ c ∈ function.childrenIn Role.body, c.Straight)
include hbody

/-- Without nested scopes the summary reads all nodes of the body. -/
theorem localNodes_of_straight :
    function.localNodes =
      (function.children.zipIdx.filter fun p => playing Role.body p.1).flatMap
        fun p => p.1.preorder := by
  have hbodies : (function.children.zipIdx.filter fun p => playing Role.body p.1).map Prod.fst =
      function.childrenIn Role.body := by
    have hchildren := List.zipIdx_map_fst 0 function.children
    unfold Node.childrenIn
    nth_rewrite 2 [← hchildren]
    rw [List.filter_map]
    rfl
  rw [Node.localNodes_eq, ← hbodies, List.flatMap_map]
  refine List.flatMap_congr fun p hp => Node.prunedOrder_eq_preorder ?_
  have hc : p.1 ∈ function.childrenIn Role.body := hbodies ▸ List.mem_map_of_mem hp
  exact (hbody p.1 hc).opensScope

/-- Reading the body of a function comes to what the walk over it comes to. -/
theorem bodyWalk_reads (hnamed : ∀ c ∈ function.childrenIn Role.body, c.Named) (t : Tracker)
    (address : List Nat) : Leg.Reads t (bodyWalk address function) function.localNodes := by
  rw [localNodes_of_straight hbody]
  refine .tourAll _ address fun p hp => ?_
  obtain ⟨hmem, hrole⟩ := List.mem_filter.mp hp
  have hc : p.1 ∈ function.childrenIn Role.body :=
    List.mem_filter.mpr ⟨List.fst_mem_of_mem_zipIdx hmem, hrole⟩
  exact tour_reads t _ _ _ (hbody p.1 hc) (hnamed p.1 hc)

end Functions

/-- The scope of a function begins with what the summary begins with. -/
theorem mirrors_parameters (t : Tracker) (name : String) (summary : Option Summary)
    (parameters frames : List String) :
    Summary.Mirrors t (Summary.parameterStore parameters frames)
      ((t.enter name summary).writeAll (parameters.map fun parameter =>
        (some parameter, { origin := Summary.parameterOrigin frames parameter }))) :=
  Summary.Mirrors.foldl some (fun parameter =>
    { origin := Summary.parameterOrigin frames parameter }) parameters ⟨rfl, fun _ => rfl⟩

/-- A function whose body takes its statements one after the other can be entered from any
    tracker. In its scope a parameter is then bound as a parameter if the summary lists it as a
    frame, and as unknown otherwise. The walk over the body meets no fault, and the summary says
    that the function returns a frame just if the walk comes to a return of something that the
    tracker takes for a frame at that moment. -/
theorem summary_foretells_walk (function : Node) (t : Tracker) (address : List Nat)
    (hbody : ∀ c ∈ function.childrenIn Role.body, c.Straight)
    (hnamed : ∀ c ∈ function.childrenIn Role.body, c.Named) :
    ∃ summary inner last, Summary.of function t.resolve = .ok summary ∧
      t.enterFunction function = .ok inner ∧ inner.current.summary = some summary ∧
      (∀ name ∈ summary.parameters, inner.local? (some name) = some
        { name := some name,
          origin := if name ∈ summary.frameParameters then .parameter else .unknown }) ∧
      (∀ survey, FollowsLeg survey
        (visitWhere survey function (playing Role.body) function.children)
        (bodyWalk address function)) ∧
      (bodyWalk address function inner).result = .ok last ∧
      (summary.returnsFrame = true ↔
        ∃ stop ∈ (bodyWalk address function inner).stops, stop.ReturnsFrame) := by
  let parameters := Summary.parametersOf function
  let frames := Summary.frameParametersOf function
  have hreads := bodyWalk_reads hbody hnamed t address
  -- what the summary reads does not depend on the summary that the scope will carry
  obtain ⟨store, returns, _, hread, _⟩ :=
    hreads _ _ false (mirrors_parameters t "" none parameters frames)
  let summary : Summary :=
    { name := Summary.nameOf function, parameters := parameters, frameParameters := frames,
      returnsFrame := returns }
  have hsummary : Summary.of function t.resolve = .ok summary := by
    unfold Summary.of
    dsimp only
    rw [hread]
    rfl
  have hmirrors := mirrors_parameters t summary.name (some summary) parameters frames
  obtain ⟨store', returns', last, hread', hlast, _, hreturns⟩ := hreads _ _ false hmirrors
  obtain ⟨rfl, rfl⟩ : store = store' ∧ returns = returns' := by
    rw [hread] at hread'
    exact Prod.mk.inj (Except.ok.inj hread')
  refine ⟨summary, _, last, hsummary, by rw [t.enterFunction_eq, hsummary]; rfl, ?_, ?_,
    fun survey => bodyWalk_follows survey address function, hlast, ?_⟩
  · exact (Tracker.writeAll_sameScopes _ _).summary
  · intro name hname
    refine (hmirrors.held (some name)).symm.trans ?_
    rw [parameterStore_get? frames hname]
    simp [Summary.parameterOrigin, summary]
  · simpa using hreturns

/-- Some rows of `df` are kept under another name and returned. -/
def keptRowsBody : Node :=
  let name (role id : String) : Node :=
    { kind := .name, span := ⟨1, 1, 1, 1⟩, role := role, name := some id }
  let rows : Node :=
    { kind := .subscript, span := ⟨1, 1, 1, 1⟩, role := Role.value,
      children := [name Role.receiver "df",
        { kind := .compare, span := ⟨1, 1, 1, 1⟩, role := Role.index }] }
  { kind := .block, span := ⟨1, 1, 1, 1⟩, role := Role.body, children :=
    [{ kind := .assignment, span := ⟨1, 1, 1, 1⟩, children := [name Role.target "kept", rows] },
      { kind := .return, span := ⟨1, 1, 1, 1⟩, children := [name Role.value "kept"] }] }

theorem keptRowsBody_straight : keptRowsBody.Straight := by
  refine .plain rfl fun c hc => ?_
  rcases List.mem_cons.mp hc with rfl | hc
  · exact .assignment rfl (by decide) (by decide) (by decide)
  · obtain rfl := List.mem_singleton.mp hc
    refine .plain rfl fun c hc => ?_
    obtain rfl := List.mem_singleton.mp hc
    exact .plain rfl nofun

/-- A function with that body, and `df` as its parameter. -/
def keptRows : Node :=
  { kind := .functionDef, span := ⟨1, 1, 1, 1⟩, name := some "keep", children :=
    [{ kind := .parameter, span := ⟨1, 1, 1, 1⟩, role := Role.param, name := some "df" },
      keptRowsBody] }

theorem keptRows_foretold :
    ∃ summary inner, Summary.of keptRows Tracker.start.resolve = .ok summary ∧
      summary.returnsFrame = true ∧ Tracker.start.enterFunction keptRows = .ok inner ∧
      inner.local? (some "df") = some { name := some "df", origin := .parameter } ∧
      ∃ stop ∈ (bodyWalk [] keptRows inner).stops, stop.ReturnsFrame := by
  have hbodies : keptRows.childrenIn Role.body = [keptRowsBody] := rfl
  have hnamed : keptRowsBody.Named := by
    unfold Node.Named
    decide
  have hread : Summary.of keptRows Tracker.start.resolve = .ok
      { name := "keep", parameters := ["df"], frameParameters := ["df"], returnsFrame := true } := by
    decide +kernel
  obtain ⟨summary, inner, last, hsummary, hinner, _, hparameters, _, _, hreturns⟩ :=
    summary_foretells_walk keptRows .start [] (by simp [hbodies, keptRowsBody_straight])
      (by simp [hbodies, hnamed])
  obtain rfl := Except.ok.inj (hsummary.symm.trans hread)
  exact ⟨_, inner, hread, rfl, hinner, hparameters "df" (by simp), hreturns.mp rfl⟩

end Framewise
