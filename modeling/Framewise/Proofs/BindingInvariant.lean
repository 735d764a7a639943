import Framewise.Proofs.Chronicle
import Framewise.Proofs.Coherence

/-! # The invariant of bindings over a walk

  A walk begins without bindings, and each of its steps keeps the invariant of
  `Tracker.Proper`. So at every moment of the walk every binding of every open
  scope stands under its own name and is coherent, and so is every classification
  that is made then, in the body of a function that is summarised included.

  Main definition: `Leg.StaysProper`.

  Main results:
  - `moments_proper`: the invariant at every moment.
  - `bindings_coherent_throughout`.
-/

namespace Framewise

/-! ## Legs -/

/-- A leg that keeps the invariant at all its moments. -/
structure Leg.StaysProper (allowed : Ident → Prop) (leg : Leg) : Prop where
  moments : ∀ {t}, t.Proper allowed → ∀ moment ∈ (leg t).trackers, moment.Proper allowed
  result : ∀ {t e}, t.Proper allowed → (leg t).result = .ok e → e.Proper allowed

namespace Leg.StaysProper

variable {allowed : Ident → Prop}

theorem idle : Leg.idle.StaysProper allowed where
  moments _ := nofun
  result := by
    rintro t _ ht ⟨⟩
    exact ht

theorem note (place : Place) : (Leg.note place).StaysProper allowed where
  moments := by
    intro t ht moment hmoment
    rw [List.mem_singleton.mp hmoment]
    exact ht
  result := by
    rintro t _ ht ⟨⟩
    exact ht

theorem andThen {a b : Leg} (ha : a.StaysProper allowed) (hb : b.StaysProper allowed) :
    (a.andThen b).StaysProper allowed := by
  constructor
  · intro t ht moment hmoment
    cases hmid : (a t).result with
    | error fault =>
      rw [andThen_error hmid] at hmoment
      exact ha.moments ht moment hmoment
    | ok m =>
      rw [andThen_ok hmid, Course.trackers, List.map_append] at hmoment
      rcases List.mem_append.mp hmoment with hfirst | hsecond
      · exact ha.moments ht moment hfirst
      · exact hb.moments (ha.result ht hmid) moment hsecond
  · intro t e ht he
    obtain ⟨m, hmid, he⟩ := of_andThen_ok he
    exact hb.result (ha.result ht hmid) he

theorem framed (place : Place) {leg : Leg} (h : leg.StaysProper allowed) :
    (Leg.framed place leg).StaysProper allowed :=
  (note place).andThen (h.andThen (note place))

theorem write {w : Write} (hw : w.Proper allowed) :
    (Leg.change fun t => .ok (t.write w)).StaysProper allowed where
  moments _ := nofun
  result := by
    rintro t _ ht ⟨⟩
    exact ht.write hw

theorem writing (place : Place) {ws : List Write} (hws : ∀ w ∈ ws, w.Proper allowed) :
    (Leg.writing place ws).StaysProper allowed := by
  induction ws with
  | nil => exact .idle
  | cons w ws ih =>
    obtain ⟨hfirst, hrest⟩ := List.forall_mem_cons.mp hws
    exact (write hfirst).andThen ((note place).andThen (ih hrest))

theorem given {α : Type} {find : Tracker → Except Fault α} {next : α → Leg}
    (h : ∀ t a, t.Proper allowed → find t = .ok a → (next a).StaysProper allowed) :
    (Leg.given find next).StaysProper allowed := by
  constructor
  · intro t ht moment hmoment
    cases hfind : find t with
    | error fault =>
      rw [given_error hfind] at hmoment
      exact absurd hmoment List.not_mem_nil
    | ok a =>
      rw [given_ok hfind] at hmoment
      exact (h t a ht hfind).moments ht moment hmoment
  · intro t e ht he
    cases hfind : find t with
    | error fault =>
      rw [given_error hfind] at he
      cases he
    | ok a =>
      rw [given_ok hfind] at he
      exact (h t a ht hfind).result ht he

theorem inScope (name : String) (summary : Option Summary) {body : Leg}
    (h : body.StaysProper allowed) :
    (Leg.inScope (fun t => .ok (t.enter name summary)) body).StaysProper allowed := by
  constructor
  · intro t ht moment hmoment
    exact h.moments (ht.enter name summary) moment hmoment
  · intro t e ht he
    obtain ⟨_, last, ⟨⟩, hlast, rfl⟩ := of_inScope_ok he
    exact (h.result (ht.enter name summary) hlast).exit

/-- The arms all begin at the same tracker, and each keeps the invariant. -/
theorem outcomes {arms arms' : List Leg}
    (h : List.Forall₂ (fun arm (_ : Leg) => arm.StaysProper allowed) arms arms') {t : Tracker}
    (ht : t.Proper allowed) :
    (∀ stop ∈ (Leg.outcomes t arms).1, stop.tracker.Proper allowed) ∧
      ∀ stores, (Leg.outcomes t arms).2 = .ok stores →
        ∀ s ∈ stores, s.All (Binding.Proper allowed) := by
  induction h with
  | nil =>
    refine ⟨nofun, ?_⟩
    rintro _ ⟨⟩
    exact nofun
  | @cons arm _ arms _ harm _ ih =>
    obtain ⟨hstops, hstores⟩ := ih
    have harmStops : ∀ stop ∈ (arm t).stops, stop.tracker.Proper allowed :=
      fun stop hstop => harm.moments ht _ (List.mem_map_of_mem hstop)
    cases hend : (arm t).result with
    | error fault =>
      rw [outcomes_error hend]
      exact ⟨harmStops, nofun⟩
    | ok e =>
      rw [outcomes_ok hend]
      refine ⟨List.forall_mem_append.mpr ⟨harmStops, hstops⟩, ?_⟩
      intro stores hall
      obtain ⟨rest, hrest, rfl⟩ := of_map_ok hall
      exact List.forall_mem_cons.mpr ⟨(harm.result ht hend).current, hstores rest hrest⟩

theorem merged {arms arms' : List Leg}
    (h : List.Forall₂ (fun arm (_ : Leg) => arm.StaysProper allowed) arms arms')
    (fallthrough : Bool) : (Leg.merged arms fallthrough).StaysProper allowed := by
  constructor
  · intro t ht moment hmoment
    obtain ⟨stop, hstop, rfl⟩ := List.mem_map.mp hmoment
    exact (outcomes h ht).1 stop hstop
  · intro t e ht he
    obtain ⟨stores, hstores, hjoin⟩ := of_merged_ok he
    exact ht.join ht.current ((outcomes h ht).2 stores hstores) hjoin

/-- Every step of the traversal keeps the invariant, if the names of the tree are allowed. -/
theorem respects (hsome : ∀ s, allowed (some s)) (place : Place) {n : Node}
    (hn : n.NamesIn allowed) :
    Steps.Respects (fun leg (_ : Leg) => leg.StaysProper allowed) (momentSteps place)
      (momentSteps place) n where
  idle := note place
  andThen h h' := h.andThen h'
  inFunction h := by
    refine framed place (given fun t summary _ _ => inScope _ _ (andThen ?_ h))
    exact framed place (writing place (summary.parameterWrites_proper hsome))
  inClass h := framed place (inScope _ _ h)
  define := framed place (writing place (n.definedWrites_proper hsome))
  assign := framed place (given fun t facts ht hfacts =>
    writing place (hn.assignedWrites (ht.assignedFacts hfacts)))
  bindTarget c hc := framed place (writing place ((hn.child hc).targetWrites .unknown))
  fork fallthrough h := framed place (merged h fallthrough)

end Leg.StaysProper

/-! ## Walks -/

section Walks

variable {allowed : Ident → Prop}

theorem chronicle_staysProper (hsome : ∀ s, allowed (some s)) (address : List Nat)
    (parent : Option Node) {n : Node} (hn : n.NamesIn allowed) :
    (chronicle address parent n).StaysProper allowed := by
  induction n using Node.induction generalizing address parent with
  | step n ih =>
    let place : Place := { address := address, site := { node := n, parent := parent } }
    have hpassage : ((momentSteps place).passage n
        (chronicleCalls address n 0 n.children)).StaysProper allowed := by
      apply (Leg.StaysProper.respects hsome place hn).passage_of_forall
      intro call hcall
      rw [chronicleCalls_eq] at hcall
      obtain ⟨⟨c, i⟩, hmem, rfl⟩ := List.mem_map.mp hcall
      have hc : c ∈ n.children := List.fst_mem_of_mem_zipIdx hmem
      exact ⟨hc, ih c hc _ _ (hn.child hc)⟩
    constructor
    · intro t ht moment hmoment
      rw [chronicle_eq] at hmoment
      rcases List.mem_cons.mp hmoment with rfl | hmoment
      · exact ht
      · exact hpassage.moments ht moment hmoment
    · intro t e ht he
      rw [chronicle_eq] at he
      exact hpassage.result ht he

/-- The invariant holds at every moment of the walk over a tree. -/
theorem moments_proper (hsome : ∀ s, allowed (some s)) {root : Node}
    (hroot : root.NamesIn allowed) :
    ∀ moment ∈ moments root, moment.tracker.Proper allowed :=
  fun _ hmoment => (chronicle_staysProper hsome [] none hroot).moments .start _
    (List.mem_map_of_mem hmoment)

/-- The places at which rules are applied are moments of the walk. -/
theorem itinerary_subset_moments (root : Node) : (itinerary root).stops ⊆ moments root :=
  (chronicle_details [] none root).stops .start

end Walks

/-- The moments of the walk over a tree are those at which rules are applied and those at which
    the walk can end, with any rules and cut short or not, and all between them. At each of them,
    every binding of every open scope stands under its own name, has its columns listed if it
    comes from a selection, and otherwise not, unless it was made from another frame. The same
    holds of every classification at that moment, and of the bindings and classifications in a
    function body that is read then. -/
theorem bindings_coherent_throughout (root : Node) :
    (∀ (survey : Survey) (walk : Walk), walk.tracker = .start →
      ∃ moment ∈ moments root,
        moment.tracker = (endOf (visit survey none root walk)).tracker) ∧
    (itinerary root).stops ⊆ moments root ∧
    ∀ moment ∈ moments root,
      (∀ scope ∈ moment.tracker.scopes, ∀ entry ∈ scope.store.entries,
        entry.2.name = entry.1 ∧ entry.2.facts.Coherent) ∧
      (∀ n facts, moment.tracker.classify n = .ok facts → facts.Coherent) ∧
      ∀ function k state, Summary.bodyState function moment.tracker.resolve k = .ok state →
        (∀ entry ∈ state.1.entries, entry.2.name = entry.1 ∧ entry.2.facts.Coherent) ∧
        ∀ n facts, classify (Summary.resolveIn state.1 moment.tracker.resolve) n = .ok facts →
          facts.Coherent := by
  refine ⟨?_, itinerary_subset_moments root, ?_⟩
  · intro survey walk hwalk
    have hends := (visit_recorded survey [] none root).ends walk
    rw [hwalk] at hends
    obtain ⟨moment, hmoment, hsame⟩ := List.mem_map.mp hends
    exact ⟨moment, hmoment, hsame⟩
  · intro moment hmoment
    have hproper : moment.tracker.Proper fun _ => True :=
      moments_proper (fun _ => trivial) (fun _ _ _ => trivial) moment hmoment
    have hresolve : ∀ name b, moment.tracker.resolve name = .ok (some b) → b.facts.Coherent :=
      fun _ _ hb => (hproper.resolve hb).2
    refine ⟨?_, fun n facts => hproper.classify, ?_⟩
    · intro scope hscope entry hentry
      have hbinding := hproper scope hscope entry hentry
      exact ⟨hbinding.name, hbinding.coherent⟩
    · intro function k state hstate
      have hstore := Summary.bodyState_proper hresolve hstate
      refine ⟨fun entry hentry => ?_, fun n facts => ?_⟩
      · exact ⟨(hstore entry hentry).name, (hstore entry hentry).coherent⟩
      · exact classify_coherent (Summary.resolveIn_coherent hresolve hstore)

/-- A frame is read, and one of its columns is selected. -/
def narrowedFrame : Node :=
  let name (role id : String) : Node :=
    { kind := .name, span := ⟨1, 1, 1, 1⟩, role := role, name := some id }
  let read : Node :=
    { kind := .call, span := ⟨1, 1, 1, 1⟩, role := Role.value,
      children := [name Role.func "read_csv"] }
  let columns : Node :=
    { kind := .sequence, span := ⟨1, 1, 1, 1⟩, role := Role.index, tag := "List",
      children := [{ kind := .literal, span := ⟨1, 1, 1, 1⟩, literal := some (.text "price") }] }
  let selection : Node :=
    { kind := .subscript, span := ⟨1, 1, 1, 1⟩, role := Role.value,
      children := [name Role.receiver "df", columns] }
  { kind := .module, span := ⟨1, 1, 1, 1⟩, children :=
    [{ kind := .assignment, span := ⟨1, 1, 1, 1⟩, children := [name Role.target "df", read] },
      { kind := .assignment, span := ⟨1, 1, 1, 1⟩,
        children := [name Role.target "kept", selection] }] }

theorem narrowedFrame_listed :
    ∃ moment ∈ moments narrowedFrame,
      moment.tracker.lookup (some "kept") =
        some { name := some "kept", origin := .selection, pinned := true } ∧
      ∀ scope ∈ moment.tracker.scopes, ∀ entry ∈ scope.store.entries,
        entry.2.name = entry.1 ∧ entry.2.facts.Coherent := by
  obtain ⟨hends, _, hcoherent⟩ := bindings_coherent_throughout narrowedFrame
  obtain ⟨moment, hmoment, hend⟩ := hends { rules := [] } {} rfl
  refine ⟨moment, hmoment, ?_, (hcoherent moment hmoment).1⟩
  rw [hend]
  decide +kernel

end Framewise
