import Framewise.Proofs.Itinerary
import Mathlib.Data.List.Flatten
import Mathlib.Data.List.Nodup
import Mathlib.Data.List.Perm.Subperm
import Mathlib.Data.List.Sigma

/-! # Routes

  Where the rules are applied does not depend on the tracker either, as long as
  it does not fault: the stops of an itinerary lie along a route that can be read
  off the tree. The handler of a branch picks children by their roles, and picks
  none of them twice, so a route never comes to a place a second time. It may
  leave places out: a second body, or a child in a role that the handler does not
  ask for. A node is balanced if nothing below it is left out in this way.

  Main definitions:
  - `route`: the places along which the itinerary of a tree leads.
  - `Node.places`: all places of a tree.
  - `Node.Balanced`: every child is picked by the handler of its parent.

  Main results:
  - `tour_visits`: the stops of a tour are the places of the route.
  - `route_subperm`: no place is on the route twice.
  - `route_perm`: every place of a balanced tree is on the route.
-/

namespace Framewise

/-! ## The route of a tree -/

/-- The steps of a traversal as lists of places. -/
def routeSteps : Steps (List Place) where
  idle := []
  andThen first second := first ++ second
  inFunction _ body := body
  inClass _ body := body
  define _ := []
  assign _ := []
  bindTarget _ := []
  fork arms _ := arms.flatten

mutual

/-- The places along which a traversal leads. -/
def route (address : List Nat) (parent : Option Node) : Node → List Place
  | n@{ children := cs, .. } =>
    { address := address, site := { node := n, parent := parent } } ::
      routeSteps.passage n (routeCalls address n 0 cs)

/-- The routes of the children of a node from number `i` on. -/
def routeCalls (address : List Nat) (parent : Node) (i : Nat) :
    List Node → List (Node × List Place)
  | [] => []
  | c :: cs =>
    (c, route (address ++ [i]) (some parent) c) :: routeCalls address parent (i + 1) cs

end

theorem routeCalls_eq (address : List Nat) (n : Node) (i : Nat) (cs : List Node) :
    routeCalls address n i cs =
      (cs.zipIdx i).map fun p => (p.1, route (address ++ [p.2]) (some n) p.1) := by
  induction cs generalizing i with
  | nil => rfl
  | cons c cs ih => rw [routeCalls, ih, List.zipIdx_cons, List.map_cons]

theorem route_eq (address : List Nat) (parent : Option Node) (n : Node) :
    route address parent n =
      { address := address, site := { node := n, parent := parent } } ::
        routeSteps.passage n (routeCalls address n 0 n.children) := by
  cases n
  rw [route]

/-! ## Tours along the route -/

/-- A leg stops at places of a list, in order, and at all of them unless it is cut short. -/
def Leg.Visits (leg : Leg) (places : List Place) : Prop :=
  ∀ t, (leg t).stops.map Stop.toPlace <+: places ∧
    ∀ t', (leg t).result = .ok t' → (leg t).stops.map Stop.toPlace = places

namespace Leg.Visits

theorem change (f : Tracker → Except Fault Tracker) : (Leg.change f).Visits [] :=
  fun _ => ⟨List.prefix_rfl, fun _ _ => rfl⟩

theorem andThen {a b : Leg} {places more : List Place} (ha : a.Visits places)
    (hb : b.Visits more) : (a.andThen b).Visits (places ++ more) := by
  intro t
  cases hresult : (a t).result with
  | error fault =>
    rw [Leg.andThen_error hresult]
    refine ⟨(ha t).1.trans (List.prefix_append _ _), ?_⟩
    intro t' h
    cases h
  | ok t' =>
    -- the first leg was not cut short, so all of its places come before those of the second
    have hfirst := (ha t).2 t' hresult
    rw [Leg.andThen_ok hresult]
    simp only [List.map_append, hfirst, List.prefix_append_right_inj, List.append_cancel_left_eq]
    exact hb t'

theorem inScope {enter : Tracker → Except Fault Tracker} {body : Leg} {places : List Place}
    (h : body.Visits places) : (Leg.inScope enter body).Visits places := by
  intro t
  cases henter : enter t with
  | error fault =>
    rw [Leg.inScope_error henter]
    exact ⟨List.nil_prefix, fun t' h => by cases h⟩
  | ok inner =>
    rw [Leg.inScope_ok henter]
    refine ⟨(h inner).1, ?_⟩
    intro t' hresult
    cases hbody : (body inner).result with
    | error fault =>
      simp only [hbody] at hresult
      cases hresult
    | ok t'' => exact (h inner).2 t'' hbody

theorem outcomes {arms : List Leg} {routes : List (List Place)}
    (h : List.Forall₂ Leg.Visits arms routes) (t : Tracker) :
    (Leg.outcomes t arms).1.map Stop.toPlace <+: routes.flatten ∧
      ∀ stores, (Leg.outcomes t arms).2 = .ok stores →
        (Leg.outcomes t arms).1.map Stop.toPlace = routes.flatten := by
  induction h with
  | nil => exact ⟨List.prefix_rfl, fun _ _ => rfl⟩
  | @cons arm places arms routes harm _ ih =>
    cases hresult : (arm t).result with
    | error fault =>
      rw [Leg.outcomes_error hresult]
      refine ⟨(harm t).1.trans (List.prefix_append _ _), ?_⟩
      intro stores h
      cases h
    | ok t' =>
      have hfirst := (harm t).2 t' hresult
      rw [Leg.outcomes_ok hresult]
      simp only [List.map_append, List.flatten_cons, hfirst, List.prefix_append_right_inj,
        List.append_cancel_left_eq]
      refine ⟨ih.1, ?_⟩
      intro stores hstores
      cases hrest : (Leg.outcomes t arms).2 with
      | error fault =>
        rw [hrest] at hstores
        cases hstores
      | ok rest => exact ih.2 rest hrest

theorem merged {arms : List Leg} {routes : List (List Place)}
    (h : List.Forall₂ Leg.Visits arms routes) (fallthrough : Bool) :
    (Leg.merged arms fallthrough).Visits routes.flatten := by
  intro t
  have harms := outcomes h t
  refine ⟨harms.1, ?_⟩
  intro t' hresult
  unfold Leg.merged at hresult
  cases hstores : (Leg.outcomes t arms).2 with
  | error fault =>
    simp only [hstores] at hresult
    cases hresult
  | ok stores => exact harms.2 stores hstores

theorem respects (n : Node) :
    Steps.Respects Leg.Visits (legSteps .merged) routeSteps n where
  idle := fun _ => ⟨List.prefix_rfl, fun _ _ => rfl⟩
  andThen h h' := h.andThen h'
  inFunction h := h.inScope
  inClass h := h.inScope
  define := .change _
  assign := .change _
  bindTarget _ _ := .change _
  fork fallthrough h := .merged h fallthrough

end Leg.Visits

/-- The stops of a tour that merges are the places of the route. -/
theorem tour_visits (address : List Nat) (parent : Option Node) (n : Node) :
    (tour (fun _ => .merged) address parent n).Visits (route address parent n) := by
  induction n using Node.induction generalizing address parent with
  | step n ih =>
    have hpassage : ((legSteps .merged).passage n
        (tourCalls (fun _ => .merged) address n 0 n.children)).Visits
        (routeSteps.passage n (routeCalls address n 0 n.children)) := by
      apply (Leg.Visits.respects n).passage
      rw [tourCalls_eq, routeCalls_eq]
      exact Steps.callsRelated_zipIdx (fun c hc i => ih c hc (address ++ [i]) (some n)) 0
    intro t
    rw [tour_eq, route_eq]
    refine ⟨?_, ?_⟩
    · exact List.prefix_cons_inj _ |>.mpr (hpassage t).1
    · intro t' hresult
      simp only [List.map_cons, (hpassage t).2 t' hresult]

/-! ## Stages of a passage -/

/-- A part of a passage: the children it visits. -/
inductive Stage where
  /-- Every child that fits. -/
  | every (pick : Node → Bool)
  /-- The first child in a role. -/
  | first (role : String)

/-- The children that a stage is meant for. -/
def Stage.pick : Stage → Node → Bool
  | every pick => pick
  | first role => playing role

/-- The places of the children that a stage visits. -/
def Stage.places (calls : List (Node × List Place)) : Stage → List Place
  | every pick => (Steps.callsWhere pick calls).flatten
  | first role => routeSteps.firstIn role calls

/-- The stages of the passage through a node. -/
def Node.stages (n : Node) : List Stage :=
  match n.kind with
  | .functionDef | .classDef => [.every (notPlaying Role.body), .every (playing Role.body)]
  | .branch =>
    match n.tag with
    | "If" | "While" => [.every (playing Role.test), .first Role.body, .first Role.orelse]
    | "For" => [.every (playing Role.iter), .first Role.target, .every inLoop]
    | "Try" =>
      [.first Role.body, .first Role.orelse, .every (playing Role.handler),
        .every (playing Role.finally_)]
    | "Match" => [.every (playing Role.test), .every (playing Role.case)]
    | _ => [.every fun _ => true]
  | _ => [.every fun _ => true]

/-- No child is left out by the passage through its parent. -/
structure Node.Balanced (n : Node) : Prop where
  /-- Every child is meant by some stage. -/
  meant : ∀ c ∈ n.children, ∃ stage ∈ n.stages, stage.pick c = true
  /-- Where only the first child is visited there is no second. -/
  single : ∀ role, Stage.first role ∈ n.stages → (n.childrenIn role).length ≤ 1

/-- No child is meant by two stages. -/
def Exclusive (stages : List Stage) : Prop :=
  stages.Pairwise fun stage stage' => ∀ n, ¬ (stage.pick n = true ∧ stage'.pick n = true)

theorem stages_exclusive (n : Node) : Exclusive n.stages := by
  unfold Node.stages
  -- the roles that the stages of a node ask for are different texts
  split
  · simp [Exclusive, Stage.pick, notPlaying, playing]
  · simp [Exclusive, Stage.pick, notPlaying, playing]
  · split
    all_goals
      simp +contextual [Exclusive, Stage.pick, playing, inLoop, Role.test, Role.body, Role.orelse,
        Role.iter, Role.target, Role.handler, Role.finally_, Role.case]
  · exact List.pairwise_singleton _ _

section Stages

variable (calls : List (Node × List Place))

@[simp] theorem routeSteps_andThen (first second : List Place) :
    routeSteps.andThen first second = first ++ second := rfl

@[simp] theorem routeSteps_inFunction (n : Node) (body : List Place) :
    routeSteps.inFunction n body = body := rfl

@[simp] theorem routeSteps_inClass (n : Node) (body : List Place) :
    routeSteps.inClass n body = body := rfl

@[simp] theorem routeSteps_define (n : Node) : routeSteps.define n = [] := rfl

@[simp] theorem routeSteps_assign (n : Node) : routeSteps.assign n = [] := rfl

@[simp] theorem routeSteps_fork (arms : List (List Place)) (fallthrough : Bool) :
    routeSteps.fork arms fallthrough = arms.flatten := rfl

theorem routeSteps_chain (items : List (List Place)) : routeSteps.chain items = items.flatten := by
  induction items with
  | nil => rfl
  | cons item items ih =>
    rw [List.flatten_cons, ← ih]
    rfl

theorem loopTarget_eq :
    routeSteps.loopTarget calls = routeSteps.firstIn Role.target calls := by
  unfold Steps.loopTarget Steps.firstIn
  split
  · exact List.append_nil _
  · rfl

theorem firstIn_of_none {n : Node} {role : String} (hcalls : calls.map (·.1) = n.children)
    (hnone : n.child? role = none) : routeSteps.firstIn role calls = [] := by
  have hfind : (calls.find? fun call => call.1.role = role) = none := by
    unfold Node.child? at hnone
    rw [← hcalls, List.find?_map] at hnone
    simpa using hnone
  unfold Steps.firstIn
  rw [hfind]
  rfl

/-- The handler of a branch goes through its stages one after the other. -/
theorem branching_eq_stages {n : Node} (hkind : n.kind = .branch)
    (hcalls : calls.map (·.1) = n.children) :
    routeSteps.branching n calls = n.stages.flatMap (Stage.places calls) := by
  unfold Steps.branching Node.stages
  simp only [hkind, routeSteps_chain, loopTarget_eq]
  split
  next htag =>
    -- without an alternative its stage visits nothing
    cases horelse : n.child? Role.orelse with
    | some c => simp [htag, Stage.places]
    | none => simp [htag, Stage.places, firstIn_of_none calls hcalls horelse]
  next htag => simp [htag, Stage.places]
  next htag => simp [htag, Stage.places]
  next htag => simp [htag, Stage.places]
  next htag => simp [htag, Stage.places]
  next => simp [Stage.places, *]

/-- The passage goes through its stages one after the other. -/
theorem passage_eq_stages {n : Node} (hcalls : calls.map (·.1) = n.children) :
    routeSteps.passage n calls = n.stages.flatMap (Stage.places calls) := by
  unfold Steps.passage
  split
  next hkind => simp [Node.stages, hkind, Stage.places, routeSteps_chain]
  next hkind => simp [Node.stages, hkind, Stage.places, routeSteps_chain]
  next hkind => exact branching_eq_stages calls hkind hcalls
  next hkind => simp [Node.stages, hkind, Stage.places, routeSteps_chain]
  next => simp [Node.stages, Stage.places, routeSteps_chain, *]

/-- A stage visits only children that it is meant for. -/
theorem Stage.places_sublist (stage : Stage) :
    (stage.places calls).Sublist (Steps.callsWhere stage.pick calls).flatten := by
  cases stage with
  | every pick => exact .refl _
  | first role =>
    unfold Stage.places Stage.pick Steps.firstIn Steps.callsWhere playing
    induction calls with
    | nil => exact .refl _
    | cons call calls ih =>
      by_cases hrole : call.1.role = role
      · simp [hrole]
      · simpa [hrole] using ih

/-- A stage visits all children it is meant for, if it does not leave out a second one. -/
theorem Stage.places_eq (stage : Stage) {n : Node} (hcalls : calls.map (·.1) = n.children)
    (hsingle : ∀ role, stage = .first role → (n.childrenIn role).length ≤ 1) :
    stage.places calls = (Steps.callsWhere stage.pick calls).flatten := by
  cases stage with
  | every pick => rfl
  | first role =>
    -- with at most one child in the role, the first is all of them
    have hlength : (calls.filter fun call => call.1.role = role).length ≤ 1 := by
      have h := hsingle role rfl
      rw [Node.childrenIn, ← hcalls, List.filter_map, List.length_map] at h
      exact h
    simp only [Stage.places, Stage.pick, Steps.firstIn, Steps.callsWhere, playing]
    cases hfound : calls.filter fun call => call.1.role = role with
    | nil => simp [hfound, ← List.head?_filter, routeSteps]
    | cons call rest =>
      rw [hfound] at hlength
      have hrest : rest = [] := by simpa using hlength
      subst hrest
      simp [hfound, ← List.head?_filter]

/-- Two choices that share no child, one after the other, visit what either chooses. -/
theorem callsWhere_or_perm {pick pick' : Node → Bool}
    (h : ∀ n, ¬ (pick n = true ∧ pick' n = true)) :
    ((Steps.callsWhere pick calls).flatten ++ (Steps.callsWhere pick' calls).flatten).Perm
      (Steps.callsWhere (fun n => pick n || pick' n) calls).flatten := by
  induction calls with
  | nil => exact .refl _
  | cons call calls ih =>
    unfold Steps.callsWhere at ih ⊢
    simp only [List.filter_cons]
    cases hpick : pick call.1 with
    | true =>
      have hpick' : pick' call.1 = false := by
        have := h call.1
        simp_all
      simpa [hpick'] using ih.append_left call.2
    | false =>
      cases hpick' : pick' call.1 with
      | false => simpa using ih
      | true =>
        simp only [Bool.false_eq_true, if_false, if_true, Bool.or_true, List.map_cons,
          List.flatten_cons]
        exact (List.perm_append_comm_assoc _ _ _).trans (ih.append_left call.2)

/-- Stages that share no child visit what their union is meant for. -/
theorem meant_perm {stages : List Stage} (h : Exclusive stages) :
    (stages.flatMap fun stage => (Steps.callsWhere stage.pick calls).flatten).Perm
      (Steps.callsWhere (fun c => stages.any fun stage => stage.pick c) calls).flatten := by
  induction stages with
  | nil => simp [Steps.callsWhere]
  | cons stage stages ih =>
    obtain ⟨hfirst, hrest⟩ := List.pairwise_cons.mp h
    have hexcl : ∀ c, ¬ (stage.pick c = true ∧ (stages.any fun stage => stage.pick c) = true) := by
      rintro c ⟨hc, hany⟩
      obtain ⟨stage', hmem, hc'⟩ := List.any_eq_true.mp hany
      exact hfirst stage' hmem c ⟨hc, hc'⟩
    have hstep := (ih hrest).append_left (Steps.callsWhere stage.pick calls).flatten
    simp only [List.flatMap_cons, List.any_cons]
    exact hstep.trans (callsWhere_or_perm calls hexcl)

/-- A passage visits no child twice. -/
theorem passage_subperm {n : Node} (hcalls : calls.map (·.1) = n.children) :
    (routeSteps.passage n calls).Subperm (calls.map (·.2)).flatten := by
  rw [passage_eq_stages calls hcalls]
  -- from what the stages visit to what they are meant for, and on to all children
  have hmeant : (n.stages.flatMap (Stage.places calls)).Sublist
      (n.stages.flatMap fun stage => (Steps.callsWhere stage.pick calls).flatten) :=
    List.Sublist.flatMap_right _ fun stage _ => stage.places_sublist calls
  have hsome : (Steps.callsWhere (fun c => n.stages.any fun stage => stage.pick c) calls).Sublist
      (calls.map (·.2)) := List.filter_sublist.map _
  exact (hmeant.subperm.trans (meant_perm calls (stages_exclusive n)).subperm).trans
    hsome.flatten.subperm

/-- The passage through a balanced node visits every child. -/
theorem passage_perm {n : Node} (hcalls : calls.map (·.1) = n.children) (h : n.Balanced) :
    (routeSteps.passage n calls).Perm (calls.map (·.2)).flatten := by
  rw [passage_eq_stages calls hcalls]
  have hmeant : n.stages.flatMap (Stage.places calls) =
      n.stages.flatMap fun stage => (Steps.callsWhere stage.pick calls).flatten := by
    refine List.flatMap_congr fun stage hmem => stage.places_eq calls hcalls ?_
    rintro role rfl
    exact h.single role hmem
  have hall : Steps.callsWhere (fun c => n.stages.any fun stage => stage.pick c) calls =
      calls.map (·.2) := by
    unfold Steps.callsWhere
    rw [List.filter_eq_self.mpr]
    intro call hcall
    have hchild : call.1 ∈ n.children := hcalls ▸ List.mem_map_of_mem hcall
    exact List.any_eq_true.mpr (h.meant call.1 hchild)
  rw [hmeant, ← hall]
  exact meant_perm calls (stages_exclusive n)

end Stages

/-! ## All places of a tree -/

namespace Node

mutual

/-- All places of a tree, each before those below it. -/
def places (address : List Nat) (parent : Option Node) : Node → List Place
  | n@{ children := cs, .. } =>
    { address := address, site := { node := n, parent := parent } } :: placesAll address n 0 cs

/-- The places of the children of a node from number `i` on. -/
def placesAll (address : List Nat) (parent : Node) (i : Nat) : List Node → List Place
  | [] => []
  | c :: cs =>
    places (address ++ [i]) (some parent) c ++ placesAll address parent (i + 1) cs

end

theorem placesAll_eq (address : List Nat) (n : Node) (i : Nat) (cs : List Node) :
    placesAll address n i cs =
      (cs.zipIdx i).flatMap fun p => p.1.places (address ++ [p.2]) (some n) := by
  induction cs generalizing i with
  | nil => rfl
  | cons c cs ih => rw [placesAll, ih, List.zipIdx_cons, List.flatMap_cons]

theorem places_eq (address : List Nat) (parent : Option Node) (n : Node) :
    n.places address parent =
      { address := address, site := { node := n, parent := parent } } ::
        n.children.zipIdx.flatMap fun p => p.1.places (address ++ [p.2]) (some n) := by
  cases n
  rw [places, placesAll_eq]

/-- The nodes of the places are the nodes of the tree. -/
theorem places_nodes (address : List Nat) (parent : Option Node) (n : Node) :
    (n.places address parent).map (·.site.node) = n.preorder := by
  induction n using Node.induction generalizing address parent with
  | step n ih =>
    have hchildren : ∀ p ∈ n.children.zipIdx,
        (p.1.places (address ++ [p.2]) (some n)).map (·.site.node) = p.1.preorder :=
      fun p hp => ih p.1 (List.fst_mem_of_mem_zipIdx hp) _ _
    rw [places_eq, preorder_eq, List.map_cons, List.map_flatMap, List.flatMap_congr hchildren]
    congr 1
    rw [← List.flatMap_map Prod.fst, List.zipIdx_map_fst]

/-- A place stands at its address, below the address of the tree. -/
theorem at_place {address : List Nat} {parent : Option Node} {n : Node} {place : Place}
    (h : place ∈ n.places address parent) :
    ∃ rest, place.address = address ++ rest ∧ n.at? rest = some place.site.node := by
  induction n using Node.induction generalizing address parent with
  | step n ih =>
    rw [places_eq] at h
    rcases List.mem_cons.mp h with rfl | h
    · exact ⟨[], by simp, rfl⟩
    · obtain ⟨⟨c, i⟩, hc, hplace⟩ := List.mem_flatMap.mp h
      obtain ⟨rest, haddress, hat⟩ := ih c (List.fst_mem_of_mem_zipIdx hc) hplace
      have hchild : n.children[i]? = some c := by
        simpa using List.mk_mem_zipIdx_iff_getElem?.mp hc
      refine ⟨i :: rest, by simp [haddress], ?_⟩
      rw [at?, hchild]
      exact hat

/-- No two places of a tree have the same address. -/
theorem places_nodup (address : List Nat) (parent : Option Node) (n : Node) :
    ((n.places address parent).map (·.address)).Nodup := by
  induction n using Node.induction generalizing address parent with
  | step n ih =>
    rw [places_eq, List.map_cons, List.map_flatMap, List.nodup_cons]
    -- The number of the child follows the address of the node in all addresses below.
    have hbelow : ∀ p ∈ n.children.zipIdx, ∀ a,
        a ∈ (p.1.places (address ++ [p.2]) (some n)).map (·.address) →
          ∃ rest, a = address ++ p.2 :: rest := by
      intro p _ a ha
      obtain ⟨place, hplace, rfl⟩ := List.mem_map.mp ha
      obtain ⟨rest, haddress, _⟩ := at_place hplace
      exact ⟨rest, by simp [haddress]⟩
    constructor
    · -- the address of the node is shorter than all below
      intro hmem
      obtain ⟨p, hp, ha⟩ := List.mem_flatMap.mp hmem
      obtain ⟨rest, hrest⟩ := hbelow p hp _ ha
      simp at hrest
    · -- below different children the numbers differ
      rw [List.nodup_flatMap]
      refine ⟨fun p hp => ih p.1 (List.fst_mem_of_mem_zipIdx hp) _ _, ?_⟩
      have hnumbers : n.children.zipIdx.Pairwise fun p q => p.2 ≠ q.2 :=
        List.pairwise_map.mp (List.nodup_zipIdx_map_snd n.children)
      refine hnumbers.imp_of_mem fun {p q} hp hq hne a ha ha' => ?_
      obtain ⟨rest, rfl⟩ := hbelow p hp a ha
      obtain ⟨rest', hrest'⟩ := hbelow q hq _ ha'
      simp [hne] at hrest'

end Node

/-! ## Places on the route -/

theorem routeCalls_children (address : List Nat) (n : Node) :
    (routeCalls address n 0 n.children).map (·.1) = n.children := by
  rw [routeCalls_eq, List.map_map]
  exact List.zipIdx_map_fst 0 n.children

theorem routeCalls_flatten (address : List Nat) (n : Node) :
    ((routeCalls address n 0 n.children).map (·.2)).flatten =
      n.children.zipIdx.flatMap fun p => route (address ++ [p.2]) (some n) p.1 := by
  rw [routeCalls_eq, List.map_map]
  rfl

theorem subperm_flatMap {α β : Type} {l : List α} {f g : α → List β}
    (h : ∀ a ∈ l, (f a).Subperm (g a)) : (l.flatMap f).Subperm (l.flatMap g) := by
  induction l with
  | nil => exact .refl _
  | cons a l ih =>
    rw [List.flatMap_cons, List.flatMap_cons]
    have hrest := ih fun b hb => h b (List.mem_cons_of_mem _ hb)
    exact (h a List.mem_cons_self).append hrest

/-- A route comes to no place twice. -/
theorem route_subperm (address : List Nat) (parent : Option Node) (n : Node) :
    (route address parent n).Subperm (n.places address parent) := by
  induction n using Node.induction generalizing address parent with
  | step n ih =>
    have hpassage := passage_subperm _ (routeCalls_children address n)
    rw [routeCalls_flatten] at hpassage
    rw [route_eq, Node.places_eq]
    refine List.subperm_cons _ |>.mpr (hpassage.trans (subperm_flatMap ?_))
    exact fun p hp => ih p.1 (List.fst_mem_of_mem_zipIdx hp) _ _

/-- The route of a tree of balanced nodes comes to all places. -/
theorem route_perm (address : List Nat) (parent : Option Node) {n : Node}
    (h : ∀ m ∈ n.preorder, m.Balanced) :
    (route address parent n).Perm (n.places address parent) := by
  induction n using Node.induction generalizing address parent with
  | step n ih =>
    have hpassage := passage_perm _ (routeCalls_children address n) (h n n.self_mem_preorder)
    rw [routeCalls_flatten] at hpassage
    rw [route_eq, Node.places_eq]
    refine (hpassage.trans (.flatMap_left _ ?_)).cons _
    intro p hp
    have hc : p.1 ∈ n.children := List.fst_mem_of_mem_zipIdx hp
    exact ih p.1 hc _ _ fun m hm => h m (Node.mem_preorder_of_child hc hm)

/-! ## Stops of an itinerary -/

/-- The stops of an itinerary are places of the tree, and no two are the same. -/
theorem itinerary_subperm (root : Node) :
    ((itinerary root).stops.map Stop.toPlace).Subperm (root.places [] none) :=
  (tour_visits [] none root .start).1.sublist.subperm.trans (route_subperm [] none root)

/-- Without a fault, an itinerary over a tree of balanced nodes stops at all places. -/
theorem itinerary_perm {root : Node} {last : Tracker} (hlast : (itinerary root).result = .ok last)
    (h : ∀ m ∈ root.preorder, m.Balanced) :
    ((itinerary root).stops.map Stop.toPlace).Perm (root.places [] none) := by
  rw [itinerary, (tour_visits [] none root .start).2 last hlast]
  exact route_perm [] none h

/-- A stop stands at its address. -/
theorem at_stop {root : Node} {stop : Stop} (h : stop ∈ (itinerary root).stops) :
    root.at? stop.address = some stop.site.node := by
  have hplace : stop.toPlace ∈ root.places [] none :=
    (itinerary_subperm root).subset (List.mem_map_of_mem h)
  obtain ⟨rest, haddress, hat⟩ := Node.at_place hplace
  rw [haddress]
  exact hat

theorem stop_mem_preorder {root : Node} {stop : Stop} (h : stop ∈ (itinerary root).stops) :
    stop.site.node ∈ root.preorder := by
  rw [← Node.places_nodes [] none root]
  have hplace : stop.toPlace ∈ root.places [] none :=
    (itinerary_subperm root).subset (List.mem_map_of_mem h)
  exact List.mem_map_of_mem hplace

/-- No two stops have the same address. -/
theorem stops_nodup (root : Node) : ((itinerary root).stops.map (·.address)).Nodup := by
  obtain ⟨places, hperm, hsublist⟩ := itinerary_subperm root
  have haddresses := hperm.map (·.address)
  rw [List.map_map] at haddresses
  exact haddresses.nodup_iff.mp ((Node.places_nodup [] none root).sublist (hsublist.map _))

end Framewise
