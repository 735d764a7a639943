import Framewise.Proofs.DistinctFindings
import Framewise.Proofs.StillNodes
import Framewise.Proofs.UntouchedNames

/-! # Uses of frames that are not pinned

  A script reads or builds a frame `x`, does whatever it likes as long as it leaves
  `x` alone, and then uses `x`. Whatever stands in between, the use is reported,
  unless the columns of `x` have been listed on the way (`x = x[["a", "b"]]`).

  Main definitions:
  - `Site.IsUse`: the uses that ask for listed columns.
  - `Node.Assigns`, `Node.MakesFrame`, `Node.Pins`: the assignments of such a script.
  - `Rule.RaisesAt`: a diagnostic is raised at a place.

  Main results:
  - `useOf_isSome_iff`: the uses are those that the rule looks for.
  - `tourAll_spares`, `tourAll_pins`: what is known of a name after statements that
    leave it alone, and after those that may also list its columns.
  - `unpinned_uses_reported`.
-/

namespace Framewise

/-! ## Uses -/

/-- A node stands where a frame is handed on or read by column. -/
inductive Site.IsUse (site : Site) : Prop
  /-- A positional argument of a call. -/
  | argument {call : Node} (hparent : site.parent = some call) (hkind : call.kind = .call)
      (hrole : site.node.role = Role.arg)
  /-- The value of a keyword argument. -/
  | keyword {keyword : Node} (hparent : site.parent = some keyword)
      (hkind : keyword.kind = .keyword) (hrole : site.node.role = Role.value)
  /-- The value that is returned. -/
  | returned {exit : Node} (hparent : site.parent = some exit) (hkind : exit.kind = .return)
      (hrole : site.node.role = Role.value)
  /-- The receiver of a call of `merge` or `join`. -/
  | merged {method : Node} (hparent : site.parent = some method)
      (hkind : method.kind = .attribute) (hcalled : method.role = Role.func)
      (hname : method.name = some "merge" ∨ method.name = some "join")
      (hrole : site.node.role = Role.receiver)
  /-- The frame of which one column is read. -/
  | column {access index : Node} (hparent : site.parent = some access)
      (hkind : access.kind = .subscript) (hread : access.role ≠ Role.target)
      (hindex : access.child? Role.index = some index) (hkey : Frame.isColumnKey index = true)
      (hrole : site.node.role = Role.receiver)

theorem listed_mergers {name : Ident} :
    Frame.listed (Frame.mergeCallees ++ Frame.joinCallees) name = true ↔
      name = some "merge" ∨ name = some "join" := by
  cases name with
  | none => simp [Frame.listed]
  | some s => simp [Frame.listed, Frame.mergeCallees, Frame.joinCallees]

/-- The rule looks for these uses and no others. -/
theorem useOf_isSome_iff (site : Site) : (Rule.useOf site).isSome = true ↔ site.IsUse := by
  constructor
  · intro h
    unfold Rule.useOf at h
    cases hparent : site.parent with
    | none => simp [hparent] at h
    | some parent =>
      simp only [hparent] at h
      split at h
      next hargument =>
        simp only [Bool.and_eq_true, decide_eq_true_eq] at hargument
        exact .argument hparent hargument.2 hargument.1
      split at h
      next hkeyword =>
        simp only [Bool.and_eq_true, decide_eq_true_eq] at hkeyword
        exact .keyword hparent hkeyword.2 hkeyword.1
      split at h
      next hreturned =>
        simp only [Bool.and_eq_true, decide_eq_true_eq] at hreturned
        exact .returned hparent hreturned.2 hreturned.1
      split at h
      next hmethod =>
        simp only [Bool.and_eq_true, decide_eq_true_eq] at hmethod
        split at h
        next hmerger =>
          simp only [Bool.and_eq_true, decide_eq_true_eq, listed_mergers] at hmerger
          exact .merged hparent hmethod.2 hmerger.1 hmerger.2 hmethod.1
        next => cases h
      split at h
      next haccess =>
        simp only [Bool.and_eq_true, decide_eq_true_eq, bne_iff_ne] at haccess
        cases hindex : parent.child? Role.index with
        | none => simp [hindex] at h
        | some index =>
          simp only [hindex] at h
          split at h
          next hkey => exact .column hparent haccess.1.2 haccess.2 hindex hkey haccess.1.1
          next => cases h
      next => cases h
  · intro h
    cases h with
    | argument hparent hkind hrole => simp [Rule.useOf, hparent, hkind, hrole]
    | keyword hparent hkind hrole => simp [Rule.useOf, hparent, hkind, hrole]
    | returned hparent hkind hrole => simp [Rule.useOf, hparent, hkind, hrole]
    | merged hparent hkind hcalled hname hrole =>
      simp [Rule.useOf, hparent, hkind, hrole, hcalled, listed_mergers.mpr hname, Role.receiver,
        Role.arg, Role.value]
    | column hparent hkind hread hindex hkey hrole =>
      simp [Rule.useOf, hparent, hkind, hrole, hread, hindex, hkey]

/-! ## Assignments to a name -/

namespace Node

/-- An assignment of a value to a name. -/
structure Assigns (n : Node) (x : String) (value : Node) : Prop where
  kind : n.kind = .assignment
  tag : n.tag ≠ "AugAssign"
  target : ∃ target, n.childrenIn Role.target = [target] ∧ target.kind = .name ∧
    target.name = some x
  value : n.child? Role.value = some value

/-- A call that reads or builds a frame, as it is classified in some state of the tracker. -/
def MakesFrame (n : Node) : Prop :=
  n.kind = .call ∧ ∃ (t : Tracker) (facts : Facts),
    t.classify n = .ok facts ∧ (facts.origin = .read ∨ facts.origin = .construction)

/-- An assignment `x = x[["a", "b"]]`, which does nothing else to `x`. -/
structure Pins (n : Node) (x : String) : Prop where
  selects : ∃ value receiver index, n.Assigns x value ∧ value.kind = .subscript ∧
    value.child? Role.receiver = some receiver ∧ receiver.kind = .name ∧
    receiver.name = some x ∧ value.child? Role.index = some index ∧
    Frame.isColumnList index = true
  once : ∀ c ∈ n.children, ¬ c.Rebinds (some x)

end Node

/-- Calls that read or build a frame are looked up first and whatever the receiver is, and no
    other call is taken for one. -/
theorem callFacts_source_or (call : Node) (callee : String) :
    (∃ row : Frame.CallPattern, ∀ receiver,
      callFacts call callee receiver = { origin := row.origin }) ∨
    ∀ receiver, (callFacts call callee receiver).origin ≠ .read ∧
      (callFacts call callee receiver).origin ≠ .construction := by
  have hsplit : Frame.origins = Frame.origins.take 2 ++ Frame.origins.drop 2 :=
    (List.take_append_drop 2 _).symm
  have hmerge : ∀ row ∈ Frame.origins.drop 2, row.origin = .merge := by decide
  have hfits : ∀ receiver : Option Facts, (Frame.origins.take 2).find? (fun row =>
      row.covers callee && (!row.onFrame || receiver.isSome) &&
        (!row.onLibrary || Frame.isLibraryCall call)) =
      (Frame.origins.take 2).find? fun row => row.covers callee && Frame.isLibraryCall call := by
    intro receiver
    simp [Frame.origins, List.find?_cons]
  cases hfirst : (Frame.origins.take 2).find? fun row =>
      row.covers callee && Frame.isLibraryCall call with
  | some row =>
    refine .inl ⟨row, fun receiver => ?_⟩
    unfold callFacts
    dsimp only
    rw [hsplit, List.find?_append, hfits, hfirst]
    rfl
  | none =>
    refine .inr fun receiver => ?_
    unfold callFacts
    dsimp only
    rw [hsplit, List.find?_append, hfits, hfirst, Option.none_or]
    split
    next row hrow => simp [hmerge row (List.mem_of_find?_eq_some hrow)]
    next =>
      -- a method of a frame gives a derived one, or nothing known
      split
      next =>
        split
        · split
          · simp [Facts.unknown]
          · simp
        · simp [Facts.unknown]
      next => simp [Facts.unknown]

/-- What a call that makes a frame is classified as, whatever the state of the tracker. -/
theorem Node.MakesFrame.facts {n : Node} (h : n.MakesFrame) {t : Tracker} {facts : Facts}
    (hfacts : t.classify n = .ok facts) :
    (facts.origin = .read ∨ facts.origin = .construction) ∧ facts.pinned = false := by
  obtain ⟨hkind, t', facts', hfacts', horigin⟩ := h
  unfold Tracker.classify at hfacts hfacts'
  rw [classify_call _ hkind] at hfacts hfacts'
  cases hcallee : Frame.calleeName n with
  | none =>
    rw [hcallee] at hfacts'
    cases hfacts'
    simp [Facts.unknown] at horigin
  | some callee =>
    rw [hcallee] at hfacts hfacts'
    obtain ⟨receiver, -, rfl⟩ := of_map_ok hfacts
    obtain ⟨receiver', -, rfl⟩ := of_map_ok hfacts'
    rcases callFacts_source_or n callee with ⟨row, hrow⟩ | hother
    · rw [hrow] at horigin ⊢
      exact ⟨horigin, rfl⟩
    · exact absurd horigin (not_or.mpr (hother receiver'))

/-! ## Statements that leave a name alone -/

section Statements

variable {address : List Nat} {parent : Option Node} {n : Node} {t e : Tracker} {x : String}
variable {items : List (Node × Nat)}

theorem tour_spares {name : Ident} (h : ¬ n.Rebinds name)
    (he : (tour (fun _ => .merged) address parent n t).result = .ok e) :
    e.local? name = t.local? name :=
  ((tour_binds address parent n).store he).untouched name (mt Node.rebinds_iff.mpr h)

/-- Statements that leave a name alone leave it bound as it was. -/
theorem tourAll_spares {name : Ident} (h : ∀ p ∈ items, ¬ p.1.Rebinds name)
    (he : (tourAll (fun _ => .merged) address n items t).result = .ok e) :
    e.local? name = t.local? name := by
  induction items generalizing t with
  | nil =>
    cases he
    rfl
  | cons p items ih =>
    obtain ⟨hfirst, hrest⟩ := List.forall_mem_cons.mp h
    rw [tourAll_cons] at he
    obtain ⟨m, hm, he⟩ := Leg.of_andThen_ok he
    rw [ih hrest he, tour_spares hfirst hm]

/-- An assignment binds its name to what its value is after all that is in it has been visited. -/
theorem Node.Assigns.bound {value : Node} (h : n.Assigns x value)
    (he : (tour (fun _ => .merged) address parent n t).result = .ok e) :
    ∃ m facts, (tourAll (fun _ => .merged) address n n.children.zipIdx t).result = .ok m ∧
      m.classify value = .ok facts ∧
      e.local? (some x) =
        some { name := some x, origin := facts.origin, pinned := facts.pinned } := by
  rw [tour_of_assignment _ _ _ _ h.kind] at he
  obtain ⟨m, hm, he⟩ := Leg.of_andThen_ok he
  have hbind : m.bindAssignment n = .ok e := he
  rw [Tracker.bindAssignment_eq] at hbind
  obtain ⟨facts, hfacts, rfl⟩ := of_map_ok hbind
  unfold Tracker.assignedFacts at hfacts
  rw [if_neg h.tag, h.value] at hfacts
  obtain ⟨target, htargets, hkind, hname⟩ := h.target
  have hwrites : n.assignedWrites facts = [(some x, facts)] := by
    simp [Node.assignedWrites, htargets, Node.targetWrites, Node.targetNames_eq, hkind, hname]
  refine ⟨m, facts, hm, hfacts, ?_⟩
  rw [hwrites]
  exact (m.local?_write (some x, facts) (some x)).trans (if_pos rfl)

theorem Binding.isFrame_of_source {b : Binding} (h : b.origin = .read ∨ b.origin = .construction) :
    b.isFrame = true := by
  rcases h with h | h
  · simp [isFrame, h]
  · simp [isFrame, h]

/-- The binding of a frame whose columns have been listed. -/
def Binding.listing (x : String) : Binding :=
  { name := some x, origin := .selection, pinned := true }

/-- Columns of a frame that are listed are listed afterwards. -/
theorem Node.Pins.bound (h : n.Pins x) {b : Binding} (hb : t.local? (some x) = some b)
    (hframe : b.isFrame = true)
    (he : (tour (fun _ => .merged) address parent n t).result = .ok e) :
    e.local? (some x) = some (.listing x) := by
  obtain ⟨value, receiver, index, hassigns, hkind, hreceiver, hname, hx, hindex, hlist⟩ := h.selects
  obtain ⟨m, facts, hm, hfacts, hlocal⟩ := hassigns.bound he
  -- what is inside the assignment leaves the frame bound
  have hheld : m.local? (some x) = some b := by
    rw [tourAll_spares (fun p hp => h.once p.1 (List.fst_mem_of_mem_zipIdx hp)) hm, hb]
  have hbase : frameFacts m.resolve (some receiver) = .ok (some b.facts) := by
    have hclassify : classify m.resolve receiver = .ok b.facts := by
      rw [classify_name _ hname, hx, m.resolve_of_local hheld hframe]
      rfl
    have hfacts : b.facts.frame? = some b.facts := if_pos hframe
    rw [frameFacts, hclassify, ← hfacts]
    rfl
  have hselected : m.classify value = .ok { origin := .selection, pinned := true } := by
    unfold Tracker.classify
    rw [classify_subscript _ hkind, hreceiver, hindex]
    simp [hname, hbase, Except.map, selectionFacts, hlist]
  rw [hselected] at hfacts
  cases hfacts
  exact hlocal

/-- After statements of which one lists the columns of a frame, and which otherwise leave it
    alone, its columns are listed. -/
theorem tourAll_pins (hitems : ∀ p ∈ items, p.1.Pins x ∨ ¬ p.1.Rebinds (some x))
    (hpin : ∃ p ∈ items, p.1.Pins x) {b : Binding} (hb : t.local? (some x) = some b)
    (hframe : b.isFrame = true)
    (he : (tourAll (fun _ => .merged) address n items t).result = .ok e) :
    e.local? (some x) = some (.listing x) := by
  induction items generalizing t b with
  | nil => simp at hpin
  | cons p items ih =>
    obtain ⟨hfirst, hrest⟩ := List.forall_mem_cons.mp hitems
    rw [tourAll_cons] at he
    obtain ⟨m, hm, he⟩ := Leg.of_andThen_ok he
    have hstep : p.1.Pins x → m.local? (some x) = some (.listing x) :=
      fun hp => hp.bound hb hframe hm
    by_cases hlater : ∃ q ∈ items, q.1.Pins x
    · -- another one follows, so it only matters that the name still stands for a frame
      rcases hfirst with hp | hspared
      · exact ih hrest hlater (hstep hp) rfl he
      · exact ih hrest hlater ((tour_spares hspared hm).trans hb) hframe he
    · have hspared : ∀ q ∈ items, ¬ q.1.Rebinds (some x) :=
        fun q hq => (hrest q hq).resolve_left fun hpins => hlater ⟨q, hq, hpins⟩
      have hp : p.1.Pins x := by
        obtain ⟨q, hq, hpins⟩ := hpin
        rcases List.mem_cons.mp hq with rfl | hq
        · exact hpins
        · exact absurd ⟨q, hq, hpins⟩ hlater
      rw [tourAll_spares hspared he]
      exact hstep hp

end Statements

/-! ## The rule at a use -/

section Use

variable {site : Site} (view : View) {x : String} {b : Binding}

theorem View.frameOf_local (hkind : site.node.kind = .name) (hname : site.node.name = some x)
    (hb : view.tracker.local? (some x) = some b) (hframe : b.isFrame = true) :
    view.frameOf (some site.node) = .ok (some b) := by
  have hresolve := view.tracker.resolve_of_local hb hframe
  simp [frameOf, Tracker.frameOf, hkind, hname, hresolve, Except.mapError]

namespace Rule

/-- A use of a frame that is not pinned is found. -/
theorem unpinnedSchema_finds (hkind : site.node.kind = .name) (hname : site.node.name = some x)
    (hb : view.tracker.local? (some x) = some b) (hunpinned : isUnpinned b = true)
    (huse : site.IsUse) :
    ∃ finding, unpinnedSchema site view = .ok [finding] ∧ finding.subject = b.name ∧
      finding.span = none := by
  have hframe : b.isFrame = true := by
    simp only [isUnpinned, Bool.and_eq_true, Bool.or_eq_true, decide_eq_true_eq] at hunpinned
    exact Binding.isFrame_of_source hunpinned.2
  obtain ⟨use, huse⟩ := Option.isSome_iff_exists.mp ((useOf_isSome_iff site).mpr huse)
  have hnode : ¬ (site.node.kind != .name) = true := by simp [hkind]
  have hpinned : ¬ (!isUnpinned b) = true := by simp [hunpinned]
  unfold unpinnedSchema
  rw [if_neg hnode, view.frameOf_local hkind hname hb hframe]
  dsimp only [bind, Except.bind]
  rw [if_neg hpinned, huse]
  exact ⟨_, rfl, rfl, rfl⟩

/-- Where a frame is pinned, nothing is found. -/
theorem unpinnedSchema_silent (hkind : site.node.kind = .name) (hname : site.node.name = some x)
    (hb : view.tracker.local? (some x) = some b) (hframe : b.isFrame = true)
    (hpinned : (!isUnpinned b) = true) : unpinnedSchema site view = .ok [] := by
  have hnode : ¬ (site.node.kind != .name) = true := by simp [hkind]
  unfold unpinnedSchema
  rw [if_neg hnode, view.frameOf_local hkind hname hb hframe]
  dsimp only [bind, Except.bind]
  rw [if_pos hpinned]
  rfl

end Rule

end Use

/-! ## Scripts -/

/-- The rule raises the diagnostic at the place of a tree. -/
def Rule.RaisesAt (rule : Rule) (source : Option SourceText) (root : Node) (place : Place)
    (d : Diagnostic) : Prop :=
  ∃ stop ∈ (itinerary root).stops, stop.toPlace = place ∧ d ∈ stop.findings source rule

section Scripts

variable {root : Node} {survey : Survey} {rule : Rule}

/-- Without a deadline, the rules of the catalog are applied to a whole named tree. -/
theorem catalog_visit_ends (hnamed : root.Named) (hrules : survey.rules = catalog)
    (hlimit : survey.limit = none) : ∃ walk, visit survey none root {} = .ok () walk := by
  obtain ⟨last, hlast⟩ := itinerary_ok hnamed
  have hsubjects : ∀ stop ∈ (itinerary root).stops, ∀ rule ∈ survey.rules,
      stop.NamesSubjects survey.source rule := by
    intro stop hstop rule hrule found hfound
    exact catalog_namesSubjects rule (hrules ▸ hrule) _ _ survey.source found
      (stops_named hnamed hstop) (Rule.outcome_eq_ok.mp hfound).1
  obtain ⟨walk, hvisit, -⟩ : ∃ walk, visit survey none root {} = .ok () walk ∧ _ :=
    Adds.visit rfl hlimit hlast hsubjects
  exact ⟨walk, hvisit⟩

/-- The raw diagnostics under the id of a rule are those that it raises at the places of the
    tree. -/
theorem mem_raw_iff_raised (hrules : survey.rules = catalog) (hrule : rule ∈ catalog) {walk : Walk}
    (hvisit : visit survey none root {} = .ok () walk) (d : Diagnostic) :
    d ∈ walk.raw ∧ d.ruleId = rule.id ↔ ∃ place, rule.RaisesAt survey.source root place d := by
  have hraw := raw_of_visit rfl rfl hvisit
  have hmem : d ∈ walk.raw ∧ d.ruleId = rule.id ↔
      d ∈ (rawDiagnostics survey.source catalog (itinerary root).stops).filter
        fun d => d.ruleId = rule.id := by
    rw [← hrules, ← hraw]
    simp
  rw [hmem, rawDiagnostics_findings nodup_catalogIds crashRuleId_notMem_catalog hrule,
    List.mem_flatMap]
  constructor
  · rintro ⟨stop, hstop, hd⟩
    exact ⟨stop.toPlace, stop, hstop, rfl, hd⟩
  · rintro ⟨_, stop, hstop, -, hd⟩
    exact ⟨stop, hstop, hd⟩

/-- No two stops of a walk are at one place. -/
theorem Stop.eq_of_toPlace {stop stop' : Stop} (hstop : stop ∈ (itinerary root).stops)
    (hstop' : stop' ∈ (itinerary root).stops) (h : stop.toPlace = stop'.toPlace) :
    stop = stop' :=
  List.inj_on_of_nodup_map (stops_nodup root) hstop hstop' (congrArg Place.address h)

/-- At a use of a frame that is not pinned there is a diagnostic under the name of the frame and
    where it stands. -/
theorem Stop.exists_finding (stop : Stop) {x : String} {b : Binding}
    (hmatcher : rule.matcher = Rule.unpinnedSchema) (hkind : stop.site.node.kind = .name)
    (hname : stop.site.node.name = some x) (hb : stop.tracker.local? (some x) = some b)
    (hunpinned : Rule.isUnpinned b = true) (hbname : b.name = some x) (huse : stop.site.IsUse)
    (source : Option SourceText) :
    ∃ d ∈ stop.findings source rule, d.subject = x ∧ d.span = stop.site.node.span := by
  obtain ⟨finding, hfound, hsubject, hspan⟩ :=
    Rule.unpinnedSchema_finds { tracker := stop.tracker, source := source } hkind hname hb
      hunpinned huse
  have houtcome : stop.outcome source rule = .ok [finding] := by
    refine Rule.outcome_eq_ok.mpr ⟨by rw [hmatcher, hfound], fun f hf => ?_⟩
    rcases Rule.unpinnedSchema_findsOne _ _ _ hfound with hnil | ⟨only, hone, -, -, honly, -⟩
    · cases hnil
    · rw [hone, List.mem_singleton] at hf
      exact hf ▸ honly
  refine ⟨findingDiagnostic rule stop.site.node finding x, ?_, rfl, ?_⟩
  · simp [findings_eq houtcome, hsubject, hbname]
  · simp [findingDiagnostic, hspan]

theorem matcher_of_unpinned (hrule : rule ∈ catalog) (hid : rule.id = "FL004") :
    rule.matcher = Rule.unpinnedSchema := by
  simp only [catalog, List.mem_cons, List.not_mem_nil, or_false] at hrule
  rcases hrule with rfl | rfl | rfl | rfl | rfl | rfl | rfl <;> first | rfl | simp at hid

/-- The walk over a module passes its last statement with what is known after the others. -/
theorem itinerary_of_module {first last : Node} {body : List Node} (hroot : root.kind = .module)
    (hchildren : root.children = first :: (body ++ [last])) (hnamed : root.Named)
    (hlast : last.Still) :
    ∃ t t', (tour (fun _ => .merged) [0] (some root) first .start).result = .ok t ∧
      (tourAll (fun _ => .merged) [] root (body.zipIdx 1) t).result = .ok t' ∧
      ∀ place ∈ last.places [body.length + 1] (some root),
        { toPlace := place, tracker := t' } ∈ (itinerary root).stops := by
  have hzip : root.children.zipIdx =
      (first, 0) :: (body.zipIdx 1 ++ [(last, body.length + 1)]) := by
    rw [hchildren, List.zipIdx_cons, List.zipIdx_append]
    simp [Nat.add_comm]
  have hplain : root.kind.isPlain = true := by simp [hroot, NodeKind.isPlain]
  obtain ⟨e, he⟩ := itinerary_ok hnamed
  unfold itinerary at he ⊢
  rw [tour_of_plain _ _ _ _ hplain, hzip, tourAll_cons, tourAll_append] at he ⊢
  obtain ⟨t, ht, he⟩ := Leg.of_andThen_ok he
  obtain ⟨t', ht', he⟩ := Leg.of_andThen_ok he
  refine ⟨t, t', ht, ht', fun place hplace => ?_⟩
  have hstop : { toPlace := place, tracker := t' } ∈
      (tourAll (fun _ => .merged) [] root [(last, body.length + 1)] t').stops := by
    have hstill := tour_of_still (fun _ => .merged) [body.length + 1] (some root) hlast t'
    have hok : (tour (fun _ => .merged) [body.length + 1] (some root) last t').result = .ok t' := by
      rw [hstill]
    rw [tourAll_cons]
    show _ ∈ (Leg.andThen (tour _ [body.length + 1] _ _) _ t').stops
    rw [Leg.andThen_ok hok, hstill]
    exact List.mem_append_left _ (List.mem_map_of_mem hplace)
  rw [Leg.andThen_ok ht, Leg.andThen_ok ht']
  exact List.mem_cons_of_mem _ (List.mem_append_right _ (List.mem_append_right _ hstop))

/-- A script reads or builds a frame, goes on with any statements, and ends with a simple one in
    which the name of the frame is used. If the statements leave the name alone, the use is
    reported, under the name and where it stands. If they leave it alone but for listing the
    columns, and do list them, nothing is raised at the use: all that is reported was raised at
    other places. Without a deadline the rules are applied to the whole script. -/
theorem unpinned_uses_reported {root first value last : Node} {body : List Node} {x : String}
    (hroot : root.kind = .module) (hchildren : root.children = first :: (body ++ [last]))
    (hnamed : root.Named) (hfirst : first.Assigns x value) (hvalue : value.MakesFrame)
    (hlast : last.Still) {place : Place}
    (hplace : place ∈ last.places [body.length + 1] (some root))
    (hkind : place.site.node.kind = .name) (hname : place.site.node.name = some x)
    (huse : place.site.IsUse) (survey : Survey) (hrules : survey.rules = catalog) {rule : Rule}
    (hrule : rule ∈ catalog) (hid : rule.id = "FL004") :
    (survey.limit = none → ∃ walk, visit survey none root {} = .ok () walk) ∧
      ∀ walk, visit survey none root {} = .ok () walk →
        ((∀ s ∈ body, ¬ s.Rebinds (some x)) →
          ∃ d ∈ walk.raw, d.ruleId = "FL004" ∧ d.subject = x ∧
            d.span = place.site.node.span ∧ rule.RaisesAt survey.source root place d) ∧
        ((∀ s ∈ body, s.Pins x ∨ ¬ s.Rebinds (some x)) → (∃ s ∈ body, s.Pins x) →
          ∀ d, ¬ rule.RaisesAt survey.source root place d) ∧
        ∀ d ∈ walk.raw, d.ruleId = "FL004" →
          ∃ other, rule.RaisesAt survey.source root other d := by
  refine ⟨catalog_visit_ends hnamed hrules, fun walk hvisit => ?_⟩
  have hraised := mem_raw_iff_raised hrules hrule hvisit
  obtain ⟨t, t', ht, ht', hstops⟩ := itinerary_of_module hroot hchildren hnamed hlast
  obtain ⟨m, facts, -, hfacts, hread⟩ := hfirst.bound ht
  obtain ⟨horigin, hpinned⟩ := hvalue.facts hfacts
  refine ⟨fun hspared => ?_, fun hbody ⟨s, hs, hpins⟩ d ⟨stop, hstop, hat, hd⟩ => ?_,
    fun d hd hdid => (hraised d).mp ⟨hd, hdid.trans hid.symm⟩⟩
  · -- nothing in between touches the name, so the use sees the frame as it was made
    have hspared : ∀ p ∈ body.zipIdx 1, ¬ p.1.Rebinds (some x) :=
      fun p hp => hspared p.1 (List.fst_mem_of_mem_zipIdx hp)
    have hheld := (tourAll_spares hspared ht').trans hread
    have hunpinned : Rule.isUnpinned
        { name := some x, origin := facts.origin, pinned := facts.pinned } = true := by
      simpa [Rule.isUnpinned, hpinned] using horigin
    obtain ⟨d, hd, hsubject, hspan⟩ := Stop.exists_finding ⟨place, t'⟩
      (matcher_of_unpinned hrule hid) hkind hname hheld hunpinned rfl huse survey.source
    have hat : rule.RaisesAt survey.source root place d := ⟨_, hstops place hplace, rfl, hd⟩
    obtain ⟨hmem, hrid⟩ := (hraised d).mpr ⟨place, hat⟩
    exact ⟨d, hmem, hrid.trans hid, hsubject, hspan, hat⟩
  · -- the walk stops at the place once, and there it knows the columns
    obtain rfl := Stop.eq_of_toPlace hstop (hstops place hplace) hat
    have hitems : ∀ p ∈ body.zipIdx 1, p.1.Pins x ∨ ¬ p.1.Rebinds (some x) :=
      fun p hp => hbody p.1 (List.fst_mem_of_mem_zipIdx hp)
    have hpin : ∃ p ∈ body.zipIdx 1, p.1.Pins x := by
      rw [← List.zipIdx_map_fst 1 body] at hs
      obtain ⟨p, hp, rfl⟩ := List.mem_map.mp hs
      exact ⟨p, hp, hpins⟩
    have hheld := tourAll_pins hitems hpin hread (Binding.isFrame_of_source horigin) ht'
    have hsilent : Stop.outcome survey.source ⟨place, t'⟩ rule = .ok [] := by
      refine Rule.outcome_eq_ok.mpr ⟨?_, List.forall_mem_nil _⟩
      rw [matcher_of_unpinned hrule hid]
      exact Rule.unpinnedSchema_silent _ hkind hname hheld rfl rfl
    rw [Stop.findings_eq hsilent] at hd
    exact absurd hd List.not_mem_nil

end Scripts

/-! ## A frame that is printed -/

section Printed

/-- A name in a role. -/
def nameNode (role id : String) : Node :=
  { kind := .name, span := ⟨1, 1, 1, 1⟩, role := role, name := some id }

/-- `pd.read_csv()` -/
def csvRead : Node :=
  let method : Node :=
    { kind := .attribute, span := ⟨1, 1, 1, 1⟩, role := Role.func, name := some "read_csv",
      children := [nameNode Role.receiver "pd"] }
  { kind := .call, span := ⟨1, 1, 1, 1⟩, role := Role.value, children := [method] }

/-- `df[["price"]]` -/
def priceColumn : Node :=
  let key : Node := { kind := .literal, span := ⟨1, 1, 1, 1⟩, literal := some (.text "price") }
  let keys : Node :=
    { kind := .sequence, span := ⟨1, 1, 1, 1⟩, role := Role.index, tag := "List",
      children := [key] }
  { kind := .subscript, span := ⟨1, 1, 1, 1⟩, role := Role.value,
    children := [nameNode Role.receiver "df", keys] }

/-- An assignment to `df`. -/
def frameAssignment (value : Node) : Node :=
  { kind := .assignment, span := ⟨1, 1, 1, 1⟩, tag := "Assign",
    children := [nameNode Role.target "df", value] }

/-- `print(df)` -/
def printCall : Node :=
  { kind := .call, span := ⟨1, 1, 1, 1⟩,
    children := [nameNode Role.func "print", nameNode Role.arg "df"] }

/-- The statement that prints the frame. -/
def printStatement : Node :=
  { kind := .statement, span := ⟨1, 1, 1, 1⟩, children := [printCall] }

/-- Reads a frame, does something and prints the frame. -/
def readAndPrinted (body : List Node) : Node :=
  { kind := .module, span := ⟨1, 1, 1, 1⟩,
    children := frameAssignment csvRead :: (body ++ [printStatement]) }

/-- The place where the frame is printed. -/
def printedPlace (body : List Node) : Place :=
  { address := [body.length + 1, 0, 1],
    site := { node := nameNode Role.arg "df", parent := some printCall } }

theorem frameAssignment_assigns {value : Node} (h : value.role = Role.value) :
    (frameAssignment value).Assigns "df" value where
  kind := rfl
  tag := by simp [frameAssignment]
  target := by
    refine ⟨nameNode Role.target "df", ?_, rfl, rfl⟩
    simp [Node.childrenIn, frameAssignment, nameNode, h, Role.target, Role.value]
  value := by simp [Node.child?, frameAssignment, nameNode, h, Role.target, Role.value]

theorem csvRead_makesFrame : csvRead.MakesFrame := by
  have hread : Tracker.start.classify csvRead = .ok { origin := .read } := by decide +kernel
  exact ⟨rfl, .start, _, hread, .inl rfl⟩

theorem priceColumn_pins : (frameAssignment priceColumn).Pins "df" where
  selects := ⟨priceColumn, nameNode Role.receiver "df", _, frameAssignment_assigns rfl, rfl, rfl,
    rfl, rfl, rfl, by decide⟩
  once := by decide

theorem printedPlace_mem (body : List Node) : printedPlace body ∈
    printStatement.places [body.length + 1] (some (readAndPrinted body)) := by
  simp [printStatement, printCall, nameNode, Node.places, Node.placesAll, printedPlace]

theorem printed_unless_listed :
    (∃ walk, visit { rules := catalog } none (readAndPrinted [busyLoop]) {} = .ok () walk ∧
      ∃ d ∈ walk.raw, d.ruleId = "FL004" ∧ d.subject = "df") ∧
    ∃ rule ∈ catalog, rule.id = "FL004" ∧ ∀ d, ¬ rule.RaisesAt none
      (readAndPrinted [busyLoop, frameAssignment priceColumn])
      (printedPlace [busyLoop, frameAssignment priceColumn]) d := by
  have hmem : { id := "FL004", title := "Unpinned schema", severity := .warning,
                matcher := Rule.unpinnedSchema } ∈ catalog := by simp [catalog]
  have hspared : ¬ busyLoop.Rebinds (some "df") := by decide
  have huse (body : List Node) : (printedPlace body).site.IsUse := .argument rfl rfl rfl
  have hchildren (body : List Node) : (readAndPrinted body).children =
      frameAssignment csvRead :: (body ++ [printStatement]) := rfl
  constructor
  · obtain ⟨hends, hreported⟩ := unpinned_uses_reported rfl (hchildren [busyLoop]) (by decide)
      (frameAssignment_assigns rfl) csvRead_makesFrame (by decide)
      (printedPlace_mem [busyLoop]) rfl rfl (huse _) { rules := catalog } rfl hmem rfl
    obtain ⟨walk, hvisit⟩ := hends rfl
    obtain ⟨d, hd, hrule, hsubject, -⟩ := (hreported walk hvisit).1 (by simp [hspared])
    exact ⟨walk, hvisit, d, hd, hrule, hsubject⟩
  · obtain ⟨hends, hreported⟩ := unpinned_uses_reported rfl
      (hchildren [busyLoop, frameAssignment priceColumn]) (by decide)
      (frameAssignment_assigns rfl) csvRead_makesFrame (by decide)
      (printedPlace_mem [busyLoop, frameAssignment priceColumn]) rfl rfl (huse _)
      { rules := catalog } rfl hmem rfl
    obtain ⟨walk, hvisit⟩ := hends rfl
    exact ⟨_, hmem, rfl, (hreported walk hvisit).2.1 (by simp [hspared, priceColumn_pins])
      ⟨_, by simp, priceColumn_pins⟩⟩

end Printed

end Framewise
