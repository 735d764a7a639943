import Framewise.Proofs.Abstraction
import Framewise.Proofs.Writes

/-! # The names that a node binds

  Which names the walk over a node can bind in the scope around it is a matter of
  the tree alone: the targets of its assignments and loops and the names of its
  definitions, in every arm of every branch, but nothing from the body of a
  function or class. After the walk all of these names are known in that scope,
  and every other name is bound as before.

  Main definitions:
  - `Node.boundNames`: the names that a node binds in the scope around it.
  - `Leg.Binds`: a leg that makes names known and touches no other.

  Main result: `tour_binds`.
-/

namespace Framewise

/-! ## Names -/

/-- The names that each step of a traversal binds in the scope around it. -/
def boundSteps : Steps (List Ident) where
  idle := []
  andThen names more := names ++ more
  inFunction _ _ := []
  inClass _ _ := []
  define n := n.definedNames
  assign n := n.assignedNames
  bindTarget c := c.targetNames
  fork arms _ := arms.flatten

mutual

/-- The names that a node binds in the scope around it. -/
def Node.boundNames : Node → List Ident
  | n@{ children := cs, .. } => boundSteps.passage n (boundCalls cs)

/-- The names that each of some children binds. -/
def boundCalls : List Node → List (Node × List Ident)
  | [] => []
  | c :: cs => (c, c.boundNames) :: boundCalls cs

end

theorem boundCalls_eq (cs : List Node) (i : Nat) :
    boundCalls cs = (cs.zipIdx i).map fun p => (p.1, p.1.boundNames) := by
  induction cs generalizing i with
  | nil => rfl
  | cons c cs ih => rw [boundCalls, ih (i + 1), List.zipIdx_cons, List.map_cons]

theorem Node.boundNames_eq (n : Node) :
    n.boundNames = boundSteps.passage n (boundCalls n.children) := by
  cases n
  rw [boundNames]

/-! ## Legs -/

/-- Some names are known in a store, and all others are bound as in the tracker. -/
structure Store.Extends (store : Store) (t : Tracker) (names : List Ident) : Prop where
  untouched : ∀ name, name ∉ names → store.get? name = t.local? name
  known : ∀ name, name ∈ names → store.get? name ≠ none

/-- A leg that makes names known in its scope and touches no other. -/
structure Leg.Binds (leg : Leg) (names : List Ident) : Prop where
  scopes : ∀ {t e}, (leg t).result = .ok e → t.SameScopes e
  store : ∀ {t e}, (leg t).result = .ok e → e.current.store.Extends t names

namespace Leg.Binds

theorem idle : Leg.idle.Binds [] where
  scopes := by
    rintro t _ ⟨⟩
    exact .refl t
  store := by
    rintro t _ ⟨⟩
    exact ⟨fun _ _ => rfl, nofun⟩

/-- Writes bind their names, whatever facts they depend on. -/
theorem writes {f : Tracker → Except Fault Tracker} {names : List Ident}
    (h : ∀ t e, f t = .ok e → ∃ ws : List Write, ws.map (·.1) = names ∧ e = t.writeAll ws) :
    (Leg.change f).Binds names := by
  constructor
  · intro t e he
    obtain ⟨ws, _, rfl⟩ := h t e he
    exact t.writeAll_sameScopes ws
  · intro t e he
    obtain ⟨ws, rfl, rfl⟩ := h t e he
    exact ⟨fun name => t.local?_writeAll_of_notMem, fun name => t.local?_writeAll_of_mem⟩

theorem andThen {a b : Leg} {names more : List Ident} (ha : a.Binds names) (hb : b.Binds more) :
    (a.andThen b).Binds (names ++ more) := by
  constructor
  · intro t e he
    obtain ⟨m, hm, he⟩ := of_andThen_ok he
    exact (ha.scopes hm).trans (hb.scopes he)
  · intro t e he
    obtain ⟨m, hm, he⟩ := of_andThen_ok he
    have hfirst := ha.store hm
    have hsecond := hb.store he
    constructor
    · intro name hname
      obtain ⟨hnames, hmore⟩ := not_or.mp (mt List.mem_append.mpr hname)
      exact (hsecond.untouched name hmore).trans (hfirst.untouched name hnames)
    · intro name hname
      by_cases hmore : name ∈ more
      · exact hsecond.known name hmore
      · -- the second leg leaves alone what the first has bound
        have hnames : name ∈ names := (List.mem_append.mp hname).resolve_right hmore
        rw [hsecond.untouched name hmore]
        exact hfirst.known name hnames

/-- What happens in a scope of its own binds nothing in the scope around it. -/
theorem inScope {enter : Tracker → Except Fault Tracker}
    (houter : ∀ t inner, enter t = .ok inner → inner.outer = t.current :: t.outer) {body : Leg}
    {names : List Ident} (h : body.Binds names) : (Leg.inScope enter body).Binds [] := by
  have hsame : ∀ {t e}, (Leg.inScope enter body t).result = .ok e → e = t := by
    intro t e he
    obtain ⟨inner, last, hinner, hlast, rfl⟩ := of_inScope_ok he
    exact Tracker.exit_eq ((h.scopes hlast).outer.trans (houter t inner hinner))
  constructor
  · intro t e he
    rw [hsame he]
    exact .refl t
  · intro t e he
    rw [hsame he]
    exact ⟨fun _ _ => rfl, nofun⟩

/-- Every arm leads to a store that extends the tracker by the names it binds. -/
theorem outcomes {arms : List Leg} {names : List (List Ident)}
    (h : List.Forall₂ Leg.Binds arms names) {t : Tracker} {stores : List Store}
    (hstores : (Leg.outcomes t arms).2 = .ok stores) :
    (∀ s ∈ stores, ∃ bound ∈ names, s.Extends t bound) ∧
      ∀ bound ∈ names, ∃ s ∈ stores, s.Extends t bound := by
  induction h generalizing stores with
  | nil =>
    cases hstores
    exact ⟨nofun, nofun⟩
  | @cons arm first arms rest harm _ ih =>
    obtain ⟨e, later, hend, hlater, rfl⟩ := of_outcomes_ok hstores
    obtain ⟨hleft, hright⟩ := ih hlater
    have hfirst := harm.store hend
    constructor
    · intro s hs
      rcases List.mem_cons.mp hs with rfl | hs
      · exact ⟨first, List.mem_cons_self, hfirst⟩
      · obtain ⟨bound, hbound, hextends⟩ := hleft s hs
        exact ⟨bound, List.mem_cons_of_mem _ hbound, hextends⟩
    · intro bound hbound
      rcases List.mem_cons.mp hbound with rfl | hbound
      · exact ⟨e.current.store, List.mem_cons_self, hfirst⟩
      · obtain ⟨s, hs, hextends⟩ := hright bound hbound
        exact ⟨s, List.mem_cons_of_mem _ hs, hextends⟩

/-- A name that some arm binds is known after the merge, and one that no arm binds is bound as
    it was before. -/
theorem merged {arms : List Leg} {names : List (List Ident)}
    (h : List.Forall₂ Leg.Binds arms names) (fallthrough : Bool) :
    (Leg.merged arms fallthrough).Binds names.flatten := by
  constructor
  · intro t e he
    obtain ⟨stores, _, hjoin⟩ := of_merged_ok he
    exact Tracker.join_sameScopes hjoin
  · intro t e he
    obtain ⟨stores, hstores, hjoin⟩ := of_merged_ok he
    obtain ⟨hleft, hright⟩ := outcomes h hstores
    rw [Tracker.join_eq] at hjoin
    obtain ⟨merged, hmerge, rfl⟩ := of_map_ok hjoin
    constructor
    · intro name hname
      refine Store.get?_merge_eq hmerge pathStores_ne_nil fun s hs => ?_
      rcases mem_pathStores hs with hs | rfl
      · obtain ⟨bound, hbound, hextends⟩ := hleft s hs
        refine hextends.untouched name fun hmem => hname ?_
        exact List.mem_flatten.mpr ⟨bound, hbound, hmem⟩
      · rfl
    · intro name hname hnone
      obtain ⟨bound, hbound, hmem⟩ := List.mem_flatten.mp hname
      obtain ⟨s, hs, hextends⟩ := hright bound hbound
      have hpath := (Store.get?_merge_none hmerge).mp hnone s (subset_pathStores hs)
      exact hextends.known name hmem hpath

/-- Every step of the walk binds the names of the step. -/
theorem respects (n : Node) : Steps.Respects Leg.Binds (legSteps .merged) boundSteps n where
  idle := .idle
  andThen h h' := h.andThen h'
  inFunction h := .inScope (fun _ _ hinner => Tracker.enterFunction_outer hinner) h
  inClass h := by
    have houter : ∀ t inner : Tracker,
        (.ok (t.enter (classScopeName n)) : Except Fault Tracker) = .ok inner →
          inner.outer = t.current :: t.outer := by
      rintro t _ ⟨⟩
      rfl
    exact .inScope houter h
  define := by
    refine .writes fun t e he => ⟨n.definedWrites, rfl, ?_⟩
    cases he
    exact t.define_eq n
  assign := by
    refine .writes fun t e he => ?_
    rw [Tracker.bindAssignment_eq] at he
    obtain ⟨facts, _, rfl⟩ := of_map_ok he
    exact ⟨n.assignedWrites facts, n.assignedWrites_names facts, rfl⟩
  bindTarget c _ := by
    refine .writes fun t e he => ⟨c.targetWrites .unknown, c.targetWrites_names _, ?_⟩
    cases he
    exact t.bindTarget_eq_writeAll .unknown c
  fork fallthrough h := .merged h fallthrough

end Leg.Binds

/-! ## Tours -/

/-- The walk over a node makes the names that the node binds known, and binds every other name
    as before. -/
theorem tour_binds (address : List Nat) (parent : Option Node) (n : Node) :
    (tour (fun _ => .merged) address parent n).Binds n.boundNames := by
  induction n using Node.induction generalizing address parent with
  | step n ih =>
    have hpassage : ((legSteps .merged).passage n
        (tourCalls (fun _ => .merged) address n 0 n.children)).Binds
        (boundSteps.passage n (boundCalls n.children)) := by
      apply (Leg.Binds.respects n).passage
      rw [tourCalls_eq, boundCalls_eq _ 0]
      exact Steps.callsRelated_zipIdx (fun c hc i => ih c hc (address ++ [i]) (some n)) 0
    rw [Node.boundNames_eq]
    constructor
    · intro t e he
      rw [tour_eq] at he
      exact hpassage.scopes he
    · intro t e he
      rw [tour_eq] at he
      exact hpassage.store he

end Framewise
