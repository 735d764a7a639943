import Framewise.Proofs.Route
import Framewise.Proofs.RulePersistence

/-! # Path soundness

  The walk over a tree runs every arm of a branch and merges what they lead to; a
  replay follows one path and merges nothing. Both are tours of the same tree,
  and they are compared step by step: begun at related trackers, the walk ends at
  a tracker that knows no more than that of the path, and wherever the path stops
  the walk has stopped at the same place, knowing no more there.

  So no rule fires from a fact that holds only on some paths.

  Main definition: `Leg.Abstracts`, the relation between a leg of the walk and a
  leg of a path.

  Main results:
  - `itinerary_abstracts`: the walk over a tree knows no more than any path.
  - `findings_hold_on_every_path`.
-/

namespace Framewise

/-! ## Legs -/

/-- Wherever the second list stops, the first stops too and knows no more there. -/
def Covers (stops stops' : List Stop) : Prop :=
  ∀ w ∈ stops', ∃ v ∈ stops, v.toPlace = w.toPlace ∧ v.tracker.Abstracts w.tracker

namespace Covers

variable {stops stops' more more' : List Stop}

theorem append (h : Covers stops stops') (h' : Covers more more') :
    Covers (stops ++ more) (stops' ++ more') := by
  intro w hw
  rcases List.mem_append.mp hw with hw | hw
  · obtain ⟨v, hv, hvw⟩ := h w hw
    exact ⟨v, List.mem_append_left _ hv, hvw⟩
  · obtain ⟨v, hv, hvw⟩ := h' w hw
    exact ⟨v, List.mem_append_right _ hv, hvw⟩

theorem mono (h : Covers stops stops') (hsub : stops ⊆ more) : Covers more stops' := by
  intro w hw
  obtain ⟨v, hv, hvw⟩ := h w hw
  exact ⟨v, hsub hv, hvw⟩

end Covers

/-- From related trackers, both legs lead to related trackers, the first stops wherever the
    second does, and it stays in its scope. -/
def Leg.Abstracts (leg leg' : Leg) : Prop :=
  ∀ t t', t.Abstracts t' →
    BothOk (fun e e' => e.Abstracts e' ∧ t.SameScopes e) (leg t).result (leg' t').result ∧
      Covers (leg t).stops (leg' t').stops

namespace Leg.Abstracts

theorem idle : Leg.Abstracts .idle .idle := fun t _ h => ⟨.pure ⟨h, .refl t⟩, nofun⟩

theorem change {f : Tracker → Except Fault Tracker}
    (hf : ∀ t t', t.Abstracts t' → BothOk Tracker.Abstracts (f t) (f t'))
    (hscopes : ∀ t e, f t = .ok e → t.SameScopes e) :
    Leg.Abstracts (.change f) (.change f) := by
  intro t t' h
  obtain ⟨e, e', he, he', habstracts⟩ := hf t t' h
  exact ⟨⟨e, e', he, he', habstracts, hscopes t e he⟩, nofun⟩

theorem andThen {a a' b b' : Leg} (ha : a.Abstracts a') (hb : b.Abstracts b') :
    (a.andThen b).Abstracts (a'.andThen b') := by
  intro t t' h
  obtain ⟨⟨m, m', hm, hm', hmid, hscopes⟩, hstops⟩ := ha t t' h
  obtain ⟨⟨e, e', he, he', hend, hscopes'⟩, hstops'⟩ := hb m m' hmid
  rw [andThen_ok hm, andThen_ok hm']
  exact ⟨⟨e, e', he, he', hend, hscopes.trans hscopes'⟩, hstops.append hstops'⟩

theorem inScope {enter : Tracker → Except Fault Tracker}
    (henter : ∀ t t', t.Abstracts t' → BothOk Tracker.Abstracts (enter t) (enter t'))
    (houter : ∀ t inner, enter t = .ok inner → inner.outer = t.current :: t.outer)
    {body body' : Leg} (hbody : body.Abstracts body') :
    (Leg.inScope enter body).Abstracts (Leg.inScope enter body') := by
  intro t t' h
  obtain ⟨inner, inner', hinner, hinner', habstracts⟩ := henter t t' h
  obtain ⟨⟨e, e', he, he', hend, hscopes⟩, hstops⟩ := hbody inner inner' habstracts
  rw [inScope_ok hinner, inScope_ok hinner', he, he']
  -- the body stays in the scope that was opened, so closing it leads back
  have hexit : e.exit = t := Tracker.exit_eq (hscopes.outer.trans (houter t inner hinner))
  exact ⟨⟨e.exit, e'.exit, rfl, rfl, hend.exit, hexit ▸ .refl t⟩, hstops⟩

/-! ## Forks -/

/-- Every arm of a path is run, and its store is among those that are merged. -/
theorem outcomes {arms arms' : List Leg} (h : List.Forall₂ Leg.Abstracts arms arms')
    {t t' : Tracker} (ht : t.Abstracts t') :
    ∃ stores, (Leg.outcomes t arms).2 = .ok stores ∧ stores.length = arms'.length ∧
      (∀ s ∈ stores, s.get? none = none) ∧
      ∀ arm' ∈ arms', Covers (Leg.outcomes t arms).1 (arm' t').stops ∧
        ∃ e e', (arm' t').result = .ok e' ∧ e.Abstracts e' ∧ t.SameScopes e ∧
          e.current.store ∈ stores := by
  induction h with
  | nil => exact ⟨[], rfl, rfl, nofun, nofun⟩
  | @cons arm arm' arms arms' harm _ ih =>
    obtain ⟨stores, hstores, hlength, hunnamed, hrest⟩ := ih
    obtain ⟨⟨e, e', he, he', hend, hscopes⟩, hstops⟩ := harm t t' ht
    rw [outcomes_ok he, hstores]
    refine ⟨e.current.store :: stores, rfl, by simp [hlength], ?_, ?_⟩
    · exact List.forall_mem_cons.mpr ⟨hend.current.store.unnamed, hunnamed⟩
    · refine List.forall_mem_cons.mpr ⟨⟨?_, ?_⟩, fun other hother => ?_⟩
      · exact hstops.mono (List.subset_append_left _ _)
      · exact ⟨e, e', he', hend, hscopes, List.mem_cons_self⟩
      · obtain ⟨hcovers, f, f', hf', habstracts, hsame, hmem⟩ := hrest other hother
        exact ⟨hcovers.mono (List.subset_append_right _ _),
          f, f', hf', habstracts, hsame, List.mem_cons_of_mem _ hmem⟩

theorem picked_mem (choice : Nat) (arms : List Leg) (fallthrough : Bool) :
    Leg.picked choice arms fallthrough ∈ Leg.ways arms fallthrough := by
  have hpos : 0 < (Leg.ways arms fallthrough).length := by
    unfold Leg.ways
    split
    · simp
    · next hnone =>
      simp only [Bool.or_eq_true, not_or, List.isEmpty_iff] at hnone
      exact List.length_pos_iff.mpr hnone.2
  unfold Leg.picked
  rw [List.getD_eq_getElem?_getD, List.getElem?_eq_getElem (Nat.mod_lt _ hpos)]
  exact List.getElem_mem _

/-- A merge knows no more than any of the alternatives. -/
theorem fork {arms arms' : List Leg} (h : List.Forall₂ Leg.Abstracts arms arms')
    (fallthrough : Bool) (choice : Nat) :
    (Leg.merged arms fallthrough).Abstracts (Leg.picked choice arms' fallthrough) := by
  intro t t' ht
  obtain ⟨stores, hstores, hlength, hunnamed, harms⟩ := outcomes h ht
  -- no store that is merged binds a missing identifier, so there is no fault
  have hpaths : ∀ s ∈ pathStores t.current.store stores fallthrough, s.get? none = none := by
    intro s hs
    rcases mem_pathStores hs with hs | rfl
    · exact hunnamed s hs
    · exact ht.current.store.unnamed
  obtain ⟨joined, hjoin, hjoined⟩ := Tracker.join_abstracts (t := t) hpaths
  have hmerged : (Leg.merged arms fallthrough t).result = .ok joined := by
    unfold Leg.merged
    rw [hstores]
    exact hjoin
  -- whatever way is taken, it ends with a store that is merged
  have hway : ∀ way ∈ Leg.ways arms' fallthrough,
      Covers (Leg.outcomes t arms).1 (way t').stops ∧
        ∃ e e', (way t').result = .ok e' ∧ e.Abstracts e' ∧ t.SameScopes e ∧
          e.current.store ∈ pathStores t.current.store stores fallthrough := by
    -- walk and path agree on whether there are arms at all
    have hempty : stores.isEmpty = arms'.isEmpty := by
      rw [Bool.eq_iff_iff, List.isEmpty_iff_length_eq_zero, List.isEmpty_iff_length_eq_zero,
        hlength]
    intro way hmem
    unfold Leg.ways at hmem
    unfold pathStores
    rw [hempty]
    split at hmem
    next hskip =>
      rw [if_pos hskip]
      rcases List.mem_append.mp hmem with hmem | hmem
      · obtain ⟨hcovers, e, e', he', hend, hscopes, hstore⟩ := harms way hmem
        exact ⟨hcovers, e, e', he', hend, hscopes, List.mem_append_left _ hstore⟩
      · rw [List.mem_singleton.mp hmem]
        exact ⟨nofun, t, t', rfl, ht, .refl t, List.mem_append_right _ List.mem_cons_self⟩
    next hskip =>
      rw [if_neg hskip]
      exact harms way hmem
  obtain ⟨hcovers, e, e', he', hend, hscopes, hstore⟩ :=
    hway _ (picked_mem choice arms' fallthrough)
  refine ⟨⟨joined, e', hmerged, he', hjoined e e' hscopes hend hstore, ?_⟩, hcovers⟩
  exact Tracker.join_sameScopes hjoin

/-- Every step of the walk knows no more than the same step of a path. -/
theorem respects {n : Node} (hn : n.Named) (choice : Nat) :
    Steps.Respects Leg.Abstracts (legSteps .merged) (legSteps (.picked choice)) n where
  idle := .idle
  andThen h h' := h.andThen h'
  inFunction h := .inScope (fun _ _ ht => ht.enterFunction hn)
    (fun _ _ hinner => Tracker.enterFunction_outer hinner) h
  inClass h := .inScope (fun _ _ ht => .pure (ht.enter _ .none)) (by rintro t _ ⟨⟩; rfl) h
  define := .change (fun _ _ ht => .pure (ht.define n)) (by
    rintro t _ ⟨⟩
    exact Tracker.define_sameScopes t n)
  assign := .change (fun _ _ ht => ht.bindAssignment hn)
    fun _ _ he => Tracker.bindAssignment_sameScopes he
  bindTarget c hc := .change (fun _ _ ht => .pure (ht.bindTarget (.refl _) (hn.child hc))) (by
    rintro t _ ⟨⟩
    exact Tracker.bindTarget_sameScopes .unknown c t)
  fork fallthrough h := .fork h fallthrough choice

end Leg.Abstracts

/-! ## Tours -/

theorem tour_abstracts (choices : Choices) (address : List Nat) (parent : Option Node) {n : Node}
    (hn : n.Named) :
    (tour (fun _ => .merged) address parent n).Abstracts
      (tour (fun address => .picked (choices address)) address parent n) := by
  induction n using Node.induction generalizing address parent with
  | step n ih =>
    have hpassage : ((legSteps .merged).passage n
        (tourCalls (fun _ => .merged) address n 0 n.children)).Abstracts
        ((legSteps (.picked (choices address))).passage n
          (tourCalls (fun address => .picked (choices address)) address n 0 n.children)) := by
      apply (Leg.Abstracts.respects hn (choices address)).passage
      rw [tourCalls_eq, tourCalls_eq]
      exact Steps.callsRelated_zipIdx
        (fun c hc i => ih c hc (address ++ [i]) (some n) (hn.child hc)) 0
    intro t t' h
    obtain ⟨hresult, hstops⟩ := hpassage t t' h
    rw [tour_eq, tour_eq]
    refine ⟨hresult, fun w hw => ?_⟩
    -- both stop at the node before they pass through it
    rcases List.mem_cons.mp hw with rfl | hw
    · exact ⟨_, List.mem_cons_self, rfl, h⟩
    · obtain ⟨v, hv, hvw⟩ := hstops w hw
      exact ⟨v, List.mem_cons_of_mem _ hv, hvw⟩

/-- The walk over a tree knows no more than any path. -/
theorem itinerary_abstracts {root : Node} (hnamed : root.Named) (choices : Choices) :
    BothOk Tracker.Abstracts (itinerary root).result (replay choices root).result ∧
      Covers (itinerary root).stops (replay choices root).stops := by
  obtain ⟨⟨e, e', he, he', hend, _⟩, hstops⟩ :=
    tour_abstracts choices [] none hnamed .start .start .start
  exact ⟨⟨e, e', he, he', hend⟩, hstops⟩

/-- A walk over a named tree meets no fault. -/
theorem itinerary_ok {root : Node} (hnamed : root.Named) :
    ∃ last, (itinerary root).result = .ok last := by
  obtain ⟨⟨last, _, hlast, _⟩, _⟩ := itinerary_abstracts hnamed fun _ => 0
  exact ⟨last, hlast⟩

/-- Where the walk and a path stop at the same address, the walk knows no more. -/
theorem stops_abstract {root : Node} (hnamed : root.Named) (choices : Choices) {v w : Stop}
    (hv : v ∈ (itinerary root).stops) (hw : w ∈ (replay choices root).stops)
    (haddress : w.address = v.address) : w.site = v.site ∧ v.tracker.Abstracts w.tracker := by
  obtain ⟨v', hv', hplace, habstracts⟩ := (itinerary_abstracts hnamed choices).2 w hw
  -- the walk stops only once at an address
  have hsame : v' = v := by
    refine List.inj_on_of_nodup_map (stops_nodup root) hv' hv ?_
    rw [hplace, haddress]
  subst hsame
  exact ⟨(congrArg Place.site hplace).symm, habstracts⟩

/-! ## Findings -/

/-- In a tree whose names are all there, the walk applies the rules at the stops of the
    itinerary. A frame that its tracker resolves at a stop, or holds in the innermost scope, is
    that frame on every path that comes to the stop, and what a rule of the catalog finds there
    it finds on every such path. -/
theorem findings_hold_on_every_path {root : Node}
    (hnamed : ∀ m ∈ root.walk, m.kind = .name → m.name.isSome = true) :
    (∀ (survey : Survey) (walk : Walk), walk.tracker = .start →
      SameLedgers (visit survey none root walk)
        (attendAll survey (itinerary root).stops walk)) ∧
    ∀ choices : Choices,
      (∃ last, (replay choices root).result = .ok last) ∧
      (∀ w ∈ (replay choices root).stops, ∃ v ∈ (itinerary root).stops,
        v.toPlace = w.toPlace) ∧
      ∀ v ∈ (itinerary root).stops, ∀ w ∈ (replay choices root).stops, w.address = v.address →
        w.site = v.site ∧
        (∀ name b, v.tracker.resolve name = .ok (some b) →
          w.tracker.resolve name = .ok (some b)) ∧
        (∀ name b, v.tracker.local? name = some b → b.isFrame = true →
          w.tracker.local? name = some b) ∧
        ∀ rule ∈ catalog, ∀ source : Option SourceText, ∃ found found',
          rule.matcher v.site { tracker := v.tracker, source := source } = .ok found ∧
          rule.matcher w.site { tracker := w.tracker, source := source } = .ok found' ∧
          found ⊆ found' := by
  rw [Node.walk_eq_preorder] at hnamed
  -- named trees are walked without a fault, so the ledgers are those of the stops
  obtain ⟨last, hlast⟩ := itinerary_ok hnamed
  refine ⟨fun survey walk hwalk => visit_sameLedgers survey hlast hwalk, fun choices => ?_⟩
  obtain ⟨⟨_, last', _, hlast', _⟩, hcovers⟩ := itinerary_abstracts hnamed choices
  refine ⟨⟨last', hlast'⟩, ?_, ?_⟩
  · intro w hw
    obtain ⟨v, hv, hplace, _⟩ := hcovers w hw
    exact ⟨v, hv, hplace⟩
  · intro v hv w hw haddress
    obtain ⟨hsite, habstracts⟩ := stops_abstract hnamed choices hv hw haddress
    refine ⟨hsite, fun _ _ => habstracts.resolve_frame, fun _ _ => habstracts.local?, ?_⟩
    intro rule hrule source
    have hnode : v.site.node.Named := Node.Named.of_mem hnamed (stop_mem_preorder hv)
    obtain ⟨found, found', hfound, hfound', hsublist⟩ :=
      catalog_persists rule hrule v.site v.tracker w.tracker source hnode habstracts
    exact ⟨found, found', hfound, hsite ▸ hfound', hsublist.subset⟩

/-- A frame is read, and one of its columns is used under a condition. -/
def guardedColumn : Node :=
  let name (role id : String) : Node :=
    { kind := .name, span := ⟨1, 1, 1, 1⟩, role := role, name := some id }
  let read : Node :=
    { kind := .call, span := ⟨1, 1, 1, 1⟩, role := Role.value,
      children := [name Role.func "read_csv"] }
  let column : Node :=
    { kind := .attribute, span := ⟨1, 1, 1, 1⟩, role := Role.body, name := some "price",
      children := [name Role.receiver "df"] }
  { kind := .module, span := ⟨1, 1, 1, 1⟩, children :=
    [{ kind := .assignment, span := ⟨1, 1, 1, 1⟩, children := [name Role.target "df", read] },
      { kind := .branch, span := ⟨1, 1, 1, 1⟩, tag := "If",
        children := [name Role.test "c", column, name Role.orelse "c"] }] }

theorem frame_held_under_condition :
    (∀ m ∈ guardedColumn.walk, m.kind = .name → m.name.isSome = true) ∧
    ∀ choices : Choices, ∀ w ∈ (replay choices guardedColumn).stops, w.address = [1, 1] →
      w.tracker.resolve (some "df") = .ok (some { name := some "df", origin := .read }) := by
  have hnamed : ∀ m ∈ guardedColumn.walk, m.kind = .name → m.name.isSome = true := by decide
  have hread : ((itinerary guardedColumn).stops.any fun v => v.address = [1, 1] ∧
      v.tracker.lookup (some "df") = some { name := some "df", origin := .read }) = true := by
    decide +kernel
  refine ⟨hnamed, fun choices w hw haddress => ?_⟩
  obtain ⟨v, hv, hfound⟩ := List.any_eq_true.mp hread
  obtain ⟨hv', hlookup⟩ := of_decide_eq_true hfound
  have hresolve : v.tracker.resolve (some "df") =
      .ok (some { name := some "df", origin := .read }) := by
    unfold Tracker.resolve
    rw [hlookup]
    rfl
  exact (((findings_hold_on_every_path hnamed).2 choices).2.2 v hv w hw
    (haddress.trans hv'.symm)).2.1 _ _ hresolve

end Framewise
