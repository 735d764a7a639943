import Framewise.Proofs.BindingInvariant
import Framewise.Proofs.PathSoundness
import Framewise.Proofs.ReportContents
import Framewise.Proofs.RuleIndependence

/-! # Runs without crashes

  There are five ways for a run to go wrong: the tracker meets a missing
  identifier, a matcher crashes, a rule reports something without a subject, a fix
  cannot be written, or the stack has no room left. In a tree whose names are all
  there the first three do not happen. No scope ever binds a missing identifier,
  so a tracker of the walk knows no less than itself in the sense of
  `Tracker.Abstracts`; that excludes faults and crashes. What a rule reports is
  about a name, a method, an argument or a column, and all of these are there.

  The other two depend on the tree: a fix shows the stars of arguments, which may
  be numbers with too many digits, and the walk is a recursion. Within these two
  limits a run is complete, and there are trees beyond each of them.

  Main definitions:
  - `Tracker.Named`: the trackers in which only identifiers that are there are
    bound.
  - `Matcher.NamesSubjects`: what a matcher finds has a subject.
  - `Matcher.FindsOne`, `Matcher.FindsAtTargets`: where a matcher finds something.
  - `Node.WritableStars`: the stars of the arguments below a node can be written.

  Main results:
  - `catalog_namesSubjects`: every rule of the catalog names subjects.
  - `catalog_writable`: what a rule of the catalog finds can be written.
  - `catalog_never_crashes`.
-/

namespace Framewise

/-! ## Trackers of named trees -/

/-- Every binding is proper, and its name is there. -/
def Tracker.Named (t : Tracker) : Prop := t.Proper fun name => name.isSome = true

theorem Store.Abstracts.of_named {s : Store}
    (h : s.All (Binding.Proper fun name => name.isSome = true)) : s.Abstracts s where
  unnamed := by
    cases hget : s.get? none with
    | none => rfl
    | some b =>
      have hname := (h.get? hget).allowed
      cases hname
  absent hnone := hnone
  frame hb _ := hb

theorem Summary.Abstracts.refl (s : Summary) : s.Abstracts s := ⟨rfl, rfl, rfl, id⟩

theorem Scope.Abstracts.of_named {scope : Scope}
    (h : scope.store.All (Binding.Proper fun name => name.isSome = true)) :
    scope.Abstracts scope where
  name := rfl
  summary := by
    cases scope.summary with
    | none => exact .none
    | some summary => exact .some (.refl summary)
  store := .of_named h

namespace Tracker.Named

variable {t : Tracker}

/-- A tracker that binds no missing identifier is related to itself. -/
theorem abstracts (h : t.Named) : t.Abstracts t := by
  have houter : List.Forall₂ Scope.Abstracts t.outer t.outer :=
    List.forall₂_same.mpr fun scope hscope => .of_named (h.outer scope hscope)
  exact ⟨.of_named h.current, houter⟩

theorem frameOf_name (h : t.Named) {source : Option SourceText} {o : Option Node} {b : Binding}
    (hb : View.frameOf { tracker := t, source := source } o = .ok (some b)) :
    b.name.isSome = true := by
  unfold View.frameOf Tracker.frameOf at hb
  cases o with
  | none => cases hb
  | some n =>
    dsimp only at hb
    split at hb
    · cases hresolve : t.resolve n.name with
      | error fault => rw [hresolve] at hb; cases hb
      | ok found =>
        rw [hresolve] at hb
        cases hb
        rw [(h.resolve hresolve).1]
        exact h.resolve_allowed (fun _ => rfl) hresolve
    · cases hb

theorem local_name (h : t.Named) {name : Ident} {b : Binding} (hb : t.local? name = some b) :
    b.name.isSome = true := by
  have hproper := h.current.get? hb
  rw [hproper.name]
  exact hproper.allowed

end Tracker.Named

/-- The walk over a named tree binds no missing identifier. -/
theorem stops_named {root : Node} (hnamed : root.Named) {stop : Stop}
    (hstop : stop ∈ (itinerary root).stops) : stop.tracker.Named := by
  have hroot : root.NamesIn fun name => name.isSome = true := hnamed
  exact moments_proper (fun _ => rfl) hroot stop (itinerary_subset_moments root hstop)

/-! ## Subjects -/

/-- Whatever the matcher finds has a subject, if the bindings have names. -/
def Matcher.NamesSubjects (matcher : Matcher) : Prop :=
  ∀ (site : Site) (t : Tracker) (source : Option SourceText) (found : List Finding), t.Named →
    matcher site { tracker := t, source := source } = .ok found →
      ∀ finding ∈ found, finding.subject.isSome = true

/-- A matcher that finds one thing at most, at a node of a kind, and names it itself or after a
    frame. -/
def Matcher.FindsOne (matcher : Matcher) (kind : NodeKind) (P : View → Node → Finding → Prop) : Prop :=
  ∀ (site : Site) (view : View) (found : List Finding), matcher site view = .ok found → found = [] ∨
    ∃ only, found = [only] ∧ site.node.kind = kind ∧ only.span = none ∧ P view site.node only ∧
      (only.subject.isSome = true ∨ ∃ n b, view.frameOf n = .ok (some b) ∧ only.subject = b.name)

theorem Matcher.FindsOne.namesSubjects {matcher : Matcher} {kind : NodeKind} {P : View → Node → Finding → Prop}
    (h : matcher.FindsOne kind P) : matcher.NamesSubjects := by
  intro site t source found ht hfound finding hfinding
  rcases h site _ found hfound with rfl | ⟨only, rfl, -, -, -, hsubject⟩
  · cases hfinding
  · rw [List.mem_singleton.mp hfinding]
    rcases hsubject with hsubject | ⟨n, b, hb, hsubject⟩
    · exact hsubject
    · exact hsubject ▸ ht.frameOf_name hb

/-- A matcher that finds one thing at most at each target of a node. -/
def Matcher.FindsAtTargets (matcher : Matcher) (P : View → Node → Finding → Prop) : Prop :=
  ∀ (site : Site) (view : View) (found : List Finding), matcher site view = .ok found →
    ∃ g, found = (site.node.childrenIn Role.target).filterMap g ∧
      ∀ target f, g target = some f → P view target f

theorem Matcher.FindsAtTargets.mem {matcher : Matcher} {P : View → Node → Finding → Prop} {site : Site}
    {view : View} {found : List Finding} {f : Finding} (h : matcher.FindsAtTargets P)
    (hfound : matcher site view = .ok found) (hf : f ∈ found) :
    ∃ target ∈ site.node.childrenIn Role.target, P view target f := by
  obtain ⟨g, rfl, hg⟩ := h site view found hfound
  obtain ⟨target, htarget, heq⟩ := List.mem_filterMap.mp hf
  exact ⟨target, htarget, hg target f heq⟩

namespace Rule

theorem attributeColumn_findsOne :
    Matcher.FindsOne attributeColumn .attribute fun _ _ f => f.isWritable = true := by
  intro site view found hfound
  unfold attributeColumn at hfound
  dsimp only at hfound
  split at hfound
  · exact .inl (Except.ok.inj hfound).symm
  next hkind =>
    obtain ⟨hattribute, -⟩ := not_or.mp (mt Bool.or_eq_true_iff.mpr hkind)
    obtain ⟨o, ho, hfound⟩ := of_bind_ok hfound
    cases o with
    | none => exact .inl (Except.ok.inj hfound).symm
    | some b =>
      dsimp only at hfound
      split at hfound
      · exact .inr ⟨_, (Except.ok.inj hfound).symm, by simpa using hattribute, rfl, rfl,
          .inr ⟨_, b, ho, rfl⟩⟩
      · exact .inl (Except.ok.inj hfound).symm

theorem inPlace_findsOne :
    Matcher.FindsOne inPlace .call fun view n f =>
      f.fix = reassignment view n ∧ f.isWritable = isWritableFix view n := by
  intro site view found hfound
  unfold inPlace at hfound
  dsimp only at hfound
  split at hfound
  · exact .inl (Except.ok.inj hfound).symm
  next hkind =>
    have hcall : site.node.kind = .call := by simpa using hkind
    split at hfound
    · exact .inr ⟨_, (Except.ok.inj hfound).symm, hcall, rfl, ⟨rfl, rfl⟩, .inl rfl⟩
    · split at hfound
      · exact .inl (Except.ok.inj hfound).symm
      · split at hfound
        · exact .inl (Except.ok.inj hfound).symm
        · split at hfound
          · exact .inl (Except.ok.inj hfound).symm
          · obtain ⟨isFrame, -, hfound⟩ := of_bind_ok hfound
            cases isFrame with
            | true =>
              exact .inr ⟨_, (Except.ok.inj hfound).symm, hcall, rfl, ⟨rfl, rfl⟩, .inl rfl⟩
            | false => exact .inl (Except.ok.inj hfound).symm

theorem bareMask_findsOne :
    Matcher.FindsOne bareMask .subscript fun _ _ f => f.isWritable = true := by
  intro site view found hfound
  unfold bareMask at hfound
  dsimp only at hfound
  split at hfound
  · exact .inl (Except.ok.inj hfound).symm
  next hkind =>
    obtain ⟨o, ho, hfound⟩ := of_bind_ok hfound
    split at hfound
    · split at hfound
      · exact .inr ⟨_, (Except.ok.inj hfound).symm, by simpa using hkind, rfl, rfl,
          .inr ⟨_, _, ho, rfl⟩⟩
      · exact .inl (Except.ok.inj hfound).symm
    · exact .inl (Except.ok.inj hfound).symm

theorem unpinnedSchema_findsOne :
    Matcher.FindsOne unpinnedSchema .name fun _ _ f => f.isWritable = true := by
  intro site view found hfound
  unfold unpinnedSchema at hfound
  split at hfound
  · exact .inl (Except.ok.inj hfound).symm
  next hkind =>
    obtain ⟨o, ho, hfound⟩ := of_bind_ok hfound
    cases o with
    | none => exact .inl (Except.ok.inj hfound).symm
    | some b =>
      dsimp only at hfound
      split at hfound
      · exact .inl (Except.ok.inj hfound).symm
      · split at hfound
        · exact .inl (Except.ok.inj hfound).symm
        · exact .inr ⟨_, (Except.ok.inj hfound).symm, by simpa using hkind, rfl, rfl,
            .inr ⟨_, b, ho, rfl⟩⟩

/-- A merge is found at its call, once for each argument that it leaves out. -/
theorem implicitMerge_found {site : Site} {view : View} {found : List Finding}
    (h : implicitMerge site view = .ok found) :
    (∀ f ∈ found, site.node.kind = .call ∧ f.span = none ∧ f.isWritable = true) ∧
      (found.map Finding.subject).Sublist (Frame.mergeDuties.map fun duty => some duty.argument) := by
  unfold implicitMerge at h
  dsimp only at h
  split at h
  · cases h
    simp
  next hkind =>
    obtain ⟨merges, -, h⟩ := of_bind_ok h
    cases merges with
    | false =>
      cases h
      simp
    | true =>
      cases h
      constructor
      · intro f hf
        obtain ⟨duty, -, rfl⟩ := List.mem_map.mp hf
        exact ⟨by simpa using hkind, rfl, rfl⟩
      · have hunstated : (Frame.unstatedDuties site.node).Sublist Frame.mergeDuties := by
          unfold Frame.unstatedDuties
          split
          · exact List.nil_sublist _
          · exact List.filter_sublist
        rw [List.map_map]
        exact hunstated.map _

theorem implicitMerge_namesSubjects : Matcher.NamesSubjects implicitMerge := by
  intro site t source found _ hfound f hf
  have hmem := (implicitMerge_found hfound).2.subset (List.mem_map_of_mem hf)
  obtain ⟨duty, -, hsubject⟩ := List.mem_map.mp hmem
  exact hsubject ▸ rfl

/-- What is found at one target. -/
def fillerFinding? (view : View) (shown : String) (target : Node) : Option Finding :=
  (assignedColumn target).bind fun (frame, label) =>
    ((view.frameOf (some frame)).toOption.getD none).map fun b => fillerFinding b.name label shown target.span

theorem fillerFindings_eq {view : View} {shown : String} {targets : List Node} {found : List Finding}
    (h : fillerFindings view shown targets = .ok found) :
    found = targets.filterMap (fillerFinding? view shown) := by
  induction targets generalizing found with
  | nil => exact (Except.ok.inj h).symm
  | cons target rest ih =>
    unfold fillerFindings at h
    split at h
    next hcolumn =>
      rw [List.filterMap_cons_none (by simp [fillerFinding?, hcolumn])]
      exact ih h
    next frame label hcolumn =>
      obtain ⟨o, ho, h⟩ := of_bind_ok h
      obtain ⟨later, hlater, h⟩ := of_bind_ok h
      have hfinding : fillerFinding? view shown target =
          o.map fun b => fillerFinding b.name label shown target.span := by
        simp [fillerFinding?, hcolumn, ho, Except.toOption]
      cases o with
      | none =>
        cases h
        rw [List.filterMap_cons_none hfinding]
        exact ih hlater
      | some b =>
        cases h
        rw [List.filterMap_cons_some hfinding, ← ih hlater]

theorem fillerColumn_findsAtTargets : Matcher.FindsAtTargets fillerColumn fun view target f =>
    ∃ frame label b shown, assignedColumn target = some (frame, label) ∧
      view.frameOf (some frame) = .ok (some b) ∧ f = fillerFinding b.name label shown target.span := by
  intro site view found hfound
  unfold fillerColumn at hfound
  dsimp only at hfound
  split at hfound
  · exact ⟨fun _ => none, by cases hfound; simp, by simp⟩
  split at hfound
  · exact ⟨fun _ => none, by cases hfound; simp, by simp⟩
  split at hfound
  · refine ⟨_, fillerFindings_eq hfound, fun target f hf => ?_⟩
    obtain ⟨⟨frame, label⟩, hcolumn, hf⟩ := Option.bind_eq_some_iff.mp hf
    obtain ⟨b, hb, rfl⟩ := Option.map_eq_some_iff.mp hf
    refine ⟨frame, label, b, _, hcolumn, ?_, rfl⟩
    cases hframe : view.frameOf (some frame) with
    | error crash => simp [hframe, Except.toOption] at hb
    | ok o => rw [show o = some b by simpa [hframe, Except.toOption] using hb]
  · exact ⟨fun _ => none, by cases hfound; simp, by simp⟩

theorem fillerColumn_namesSubjects : Matcher.NamesSubjects fillerColumn := by
  intro site t source found _ hfound f hf
  obtain ⟨target, -, frame, label, b, shown, -, -, rfl⟩ := fillerColumn_findsAtTargets.mem hfound hf
  rfl

/-- Only subscripts and attributes are written into. -/
theorem parameterMutation_findsAtTargets : Matcher.FindsAtTargets parameterMutation fun view target f =>
    (target.kind = .subscript ∨ target.kind = .attribute) ∧ f.span = some target.span ∧
      f.isWritable = true ∧ ∃ name b, view.local? name = some b ∧ f.subject = b.name := by
  intro site view found hfound
  unfold parameterMutation at hfound
  dsimp only at hfound
  split at hfound
  · exact ⟨fun _ => none, by cases hfound; simp, by simp⟩
  split at hfound
  next summary _ =>
    split at hfound
    · refine ⟨mutationFinding view summary, (Except.ok.inj hfound).symm, fun target f hf => ?_⟩
      obtain ⟨frame, hname, hf⟩ := Option.bind_eq_some_iff.mp hf
      obtain ⟨b, hb, hf⟩ := Option.bind_eq_some_iff.mp hf
      have hkind : target.kind = .subscript ∨ target.kind = .attribute := by
        unfold mutatedName at hname
        split at hname
        next hkind => exact .inl hkind
        next hkind => exact .inr hkind
        next => cases hname
      split at hf
      · cases hf
        exact ⟨hkind, rfl, rfl, _, b, hb, rfl⟩
      · cases hf
    · exact ⟨fun _ => none, by cases hfound; simp, by simp⟩
  next => exact ⟨fun _ => none, by cases hfound; simp, by simp⟩

theorem parameterMutation_namesSubjects : Matcher.NamesSubjects parameterMutation := by
  intro site t source found ht hfound f hf
  obtain ⟨target, -, -, -, -, name, b, hb, hsubject⟩ :=
    parameterMutation_findsAtTargets.mem hfound hf
  exact hsubject ▸ ht.local_name hb

end Rule

/-- Every rule of the catalog names subjects. -/
theorem catalog_namesSubjects : ∀ rule ∈ catalog, Matcher.NamesSubjects rule.matcher := by
  simp only [catalog, List.forall_mem_cons]
  exact ⟨Rule.attributeColumn_findsOne.namesSubjects, Rule.inPlace_findsOne.namesSubjects,
    Rule.bareMask_findsOne.namesSubjects, Rule.unpinnedSchema_findsOne.namesSubjects,
    Rule.implicitMerge_namesSubjects, Rule.fillerColumn_namesSubjects,
    Rule.parameterMutation_namesSubjects, List.forall_mem_nil _⟩

/-! ## Texts -/

/-- The stars of the arguments right below a node can be written. -/
def Node.WritableStars (n : Node) : Prop :=
  ∀ arg ∈ n.children, arg.role = Role.arg → Rule.isWritableStar arg = true

/-- Whatever the matcher finds can be written, if the stars below the node can be. -/
def Matcher.Writable (matcher : Matcher) : Prop :=
  ∀ (site : Site) (view : View) (found : List Finding), site.node.WritableStars →
    matcher site view = .ok found → ∀ finding ∈ found, finding.isWritable = true

theorem Matcher.FindsOne.writable {matcher : Matcher} {kind : NodeKind}
    {P : View → Node → Finding → Prop} (h : matcher.FindsOne kind P)
    (hP : ∀ view n f, n.WritableStars → P view n f → f.isWritable = true) :
    matcher.Writable := by
  intro site view found hstars hfound finding hfinding
  rcases h site view found hfound with rfl | ⟨only, rfl, -, -, honly, -⟩
  · cases hfinding
  · rw [List.mem_singleton.mp hfinding]
    exact hP view site.node only hstars honly

namespace Rule

theorem isWritableFix_of_stars {call : Node} (h : call.WritableStars) (view : View) :
    isWritableFix view call = true := by
  have hall : ((call.children.takeWhile fun child => fixArgument view child != some none).all
      fun child => child.role != Role.arg || isWritableStar child) = true := by
    rw [List.all_eq_true]
    intro child hchild
    have hmem : child ∈ call.children := (List.takeWhile_prefix _).subset hchild
    by_cases hrole : child.role = Role.arg
    · rw [h child hmem hrole, Bool.or_true]
    · rw [bne_iff_ne.mpr hrole, Bool.true_or]
  rw [isWritableFix, hall, Bool.or_true]

theorem inPlace_writable : Matcher.Writable inPlace :=
  inPlace_findsOne.writable fun view _ _ hstars hf =>
    hf.2.trans (isWritableFix_of_stars hstars view)

end Rule

/-- Whatever a rule of the catalog finds can be written, if the stars below the node can be. -/
theorem catalog_writable : ∀ rule ∈ catalog, Matcher.Writable rule.matcher := by
  simp only [catalog, List.forall_mem_cons]
  refine ⟨Rule.attributeColumn_findsOne.writable fun _ _ _ _ hf => hf, Rule.inPlace_writable,
    Rule.bareMask_findsOne.writable fun _ _ _ _ hf => hf,
    Rule.unpinnedSchema_findsOne.writable fun _ _ _ _ hf => hf, ?_, ?_, ?_, List.forall_mem_nil _⟩
  · exact fun _ _ _ _ hfound finding hf => ((Rule.implicitMerge_found hfound).1 finding hf).2.2
  · intro _ _ _ _ hfound finding hf
    obtain ⟨_, -, _, _, _, _, -, -, rfl⟩ := Rule.fillerColumn_findsAtTargets.mem hfound hf
    rfl
  · intro _ _ _ _ hfound finding hf
    obtain ⟨_, -, -, -, hwritable, -⟩ := Rule.parameterMutation_findsAtTargets.mem hfound hf
    exact hwritable

/-! ## Runs -/

theorem crashRuleId_notMem_catalog : crashRuleId ∉ ruleIds catalog := by decide

/-- At no stop of the walk over a named tree does a rule of the catalog crash, if the stars there
    can be written. -/
theorem catalog_succeeds {root : Node} (hnamed : root.Named) {stop : Stop}
    (hstop : stop ∈ (itinerary root).stops) (hstars : stop.site.node.WritableStars) {rule : Rule}
    (hrule : rule ∈ catalog) (source : Option SourceText) :
    ∃ found, stop.outcome source rule = .ok found ∧
      ∀ finding ∈ found, finding.subject.isSome = true := by
  have htracker := stops_named hnamed hstop
  have hnode : stop.site.node.Named := hnamed.of_mem (stop_mem_preorder hstop)
  obtain ⟨found, _, hfound, _⟩ := catalog_persists rule hrule stop.site stop.tracker stop.tracker
    source hnode htracker.abstracts
  have hwritable := catalog_writable rule hrule stop.site _ found hstars hfound
  exact ⟨found, Rule.outcome_eq_ok.mpr ⟨hfound, hwritable⟩,
    catalog_namesSubjects rule hrule _ _ source found htracker hfound⟩

/-- What rules report that do not crash stands under their own ids. -/
theorem ruleId_of_mem_reports {source : Option SourceText} {stop : Stop} {rule : Rule}
    {found : List Finding} (hfound : stop.outcome source rule = .ok found) {d : Diagnostic}
    (hd : d ∈ stop.reports source rule) : d.ruleId = rule.id := by
  have hcrash : stop.crash? source rule = none := by
    unfold Stop.crash?
    rw [hfound]
  rw [Stop.reports, hcrash, Option.toList_none, List.append_nil] at hd
  exact Stop.ruleId_of_mem_findings hd

/-- In a tree whose names are all there, of any shape, the catalog never crashes if the stack has
    room for the nesting of the tree and no star of an argument is a number with too many digits:
    with any settings and any suppression, and without a deadline, a run ends with a complete
    analysis in which nothing stands under the id of crashes. The tracker meets no fault on the
    way, and at every stop every rule ends, with findings that have subjects. -/
theorem catalog_never_crashes {e : Engine} (hrules : e.rules = catalog)
    (hdeadline : e.allowance = none) {root : Node}
    (hnamed : ∀ m ∈ root.walk, m.kind = .name → m.name.isSome = true)
    (hstars : ∀ m ∈ root.walk, m.role = Role.arg → ∀ star, m.attr? "star" = some star →
      star.isWritable = true)
    (hroom : root.frames ≤ e.room) (source : Option SourceText) (path : Option String)
    (suppressed : Option Suppression) (readings : Nat) :
    (∃ analysis, (e.runBounded root source path suppressed readings).result = .ok analysis ∧
      analysis.status = .complete ∧ analysis.errors = [] ∧ analysis.path = path ∧
      ∀ d ∈ analysis.diagnostics, d.ruleId ≠ crashRuleId) ∧
    (∃ last, (itinerary root).result = .ok last) ∧
    ∀ stop ∈ (itinerary root).stops, ∀ rule ∈ catalog, ∃ found,
      stop.outcome source rule = .ok found ∧ ∀ finding ∈ found, finding.subject.isSome = true := by
  rw [Node.walk_eq_preorder] at hnamed hstars
  have hsucceeds : ∀ stop ∈ (itinerary root).stops, ∀ rule ∈ catalog, ∃ found,
      stop.outcome source rule = .ok found ∧
        ∀ finding ∈ found, finding.subject.isSome = true := by
    intro stop hstop rule hrule
    refine catalog_succeeds hnamed hstop (fun arg harg hrole => ?_) hrule source
    have hmem : arg ∈ root.preorder :=
      Node.mem_preorder_trans (stop_mem_preorder hstop) (Node.mem_preorder_of_child harg arg.self_mem_preorder)
    unfold Rule.isWritableStar
    cases hstar : arg.attr? "star" with
    | none => rfl
    | some star => exact hstars arg hmem hrole star hstar
  obtain ⟨last, hlast⟩ := itinerary_ok hnamed
  have hsubjects : ∀ stop ∈ (itinerary root).stops, ∀ rule ∈ e.rules,
      stop.NamesSubjects source rule := by
    intro stop hstop rule hrule found hfound
    rw [hrules] at hrule
    obtain ⟨found', hfound', hnames⟩ := hsucceeds stop hstop rule hrule
    cases hfound.symm.trans hfound'
    exact hnames
  obtain ⟨_, _, _, hrun⟩ :=
    Engine.run_reports hdeadline hlast hsubjects path suppressed readings
  rw [Engine.runBounded, if_pos hroom]
  refine ⟨⟨_, hrun, rfl, rfl, rfl, fun d hd => ?_⟩, ⟨last, hlast⟩, hsucceeds⟩
  -- a diagnostic of the report keeps the id under which a rule has put it down
  obtain ⟨raw, hraw, _, rfl⟩ := Diagnostic.mem_resolve_iff.mp hd
  obtain ⟨stop, hstop, rule, hrule, hreport⟩ :=
    exists_of_mem_rawDiagnostics (List.mem_of_find?_eq_some hraw)
  rw [hrules] at hrule
  obtain ⟨found, hfound, _⟩ := hsucceeds stop hstop rule hrule
  have hid : raw.ruleId = rule.id := ruleId_of_mem_reports hfound hreport
  intro hcrash
  have hmem : rule.id ∈ ruleIds catalog := List.mem_map_of_mem hrule
  rw [← hid, show raw.ruleId = crashRuleId from hcrash] at hmem
  exact crashRuleId_notMem_catalog hmem

/-- A column of a frame is read as an attribute in a script that names everything it uses. -/
theorem guardedColumn_complete :
    (∀ m ∈ guardedColumn.walk, m.kind = .name → m.name.isSome = true) ∧
    ∃ analysis, (({} : Engine).runBounded guardedColumn none none none 0).result = .ok analysis ∧
      analysis.status = .complete ∧ analysis.diagnostics.length = 1 ∧
      ∀ d ∈ analysis.diagnostics, d.ruleId ≠ crashRuleId := by
  have hnamed : ∀ m ∈ guardedColumn.walk, m.kind = .name → m.name.isSome = true := by decide
  have hnone : ∀ m ∈ guardedColumn.walk, m.attr? "star" = none := by decide
  have hstars : ∀ m ∈ guardedColumn.walk, m.role = Role.arg → ∀ star, m.attr? "star" = some star →
      star.isWritable = true := by
    intro m hm _ star hstar
    rw [hnone m hm] at hstar
    cases hstar
  obtain ⟨analysis, hrun, hcomplete, _, _, hcrash⟩ :=
    (catalog_never_crashes (e := {}) rfl rfl hnamed hstars (by decide) none none none 0).1
  refine ⟨hnamed, analysis, hrun, hcomplete, ?_, hcrash⟩
  have hlength : ((({} : Engine).runBounded guardedColumn none none none 0).result.toOption.map
      fun a => a.diagnostics.length) = some 1 := by decide +kernel
  rw [hrun] at hlength
  exact Option.some.inj hlength

/-! ### Beyond the limits -/

/-- Conditions that stand one inside the other. -/
def nestedConditions : Nat → List Node
  | 0 => []
  | n + 1 =>
    [{ kind := .branch, span := ⟨1, 1, 1, 1⟩, role := Role.body, tag := "If",
       children := nestedConditions n }]

/-- A module with conditions that stand one inside the other. -/
def deepScript (n : Nat) : Node :=
  { kind := .module, span := ⟨1, 1, 1, 1⟩, children := nestedConditions n }

/-- Each condition needs room for six calls. -/
theorem framesBelow_nestedConditions (n : Nat) :
    6 * n ≤ Node.framesBelow (nestedConditions n) := by
  induction n with
  | zero => exact Nat.zero_le _
  | succ n ih =>
    have hframes : Node.framesBelow (nestedConditions (n + 1)) =
        max (6 + max 16 (Node.framesBelow (nestedConditions n))) 0 := rfl
    rw [hframes]
    omega

theorem le_frames_deepScript (n : Nat) : 6 * n ≤ (deepScript n).frames := by
  have hbelow := framesBelow_nestedConditions n
  have hframes : (deepScript n).frames =
      2 + max 16 (Node.framesBelow (nestedConditions n)) := rfl
  rw [hframes]
  omega

/-- A call that changes its receiver in place, with an argument whose star is a number. -/
def starredCall (star : Nat) : Node :=
  let name (role id : String) : Node :=
    { kind := .name, span := ⟨1, 1, 1, 2⟩, role := role, name := some id }
  let func : Node :=
    { kind := .attribute, span := ⟨1, 1, 1, 2⟩, role := Role.func, name := some "drop",
      children := [name Role.receiver "x"] }
  let flag : Node :=
    { kind := .keyword, span := ⟨1, 1, 1, 2⟩, role := Role.keyword, name := some "inplace",
      children := [{ kind := .literal, span := ⟨1, 1, 1, 2⟩, role := Role.value,
                     literal := some (.bool true) }] }
  { kind := .call, span := ⟨1, 1, 1, 2⟩, children :=
    [func, { name Role.arg "x" with attrs := [("star", .int star)] }, flag] }

/-- Both limits are needed: conditions nested 240 deep leave no room on the stack, and a star of
    more than 4300 digits makes the rule on changes in place crash. -/
theorem deepScript_and_wideStar :
    (∀ m ∈ (deepScript 240).walk, m.kind = .name → m.name.isSome = true) ∧
    (({} : Engine).runBounded (deepScript 240) none none none 0).result = .error .tooDeep ∧
    (∀ m ∈ (starredCall (10 ^ 4300)).walk, m.kind = .name → m.name.isSome = true) ∧
    ∃ analysis, (({} : Engine).runBounded (starredCall (10 ^ 4300)) (some (.ofString "x")) none none
        0).result = .ok analysis ∧
      analysis.diagnostics.map (fun d => (d.ruleId, d.subject)) = [(crashRuleId, "FL002")] := by
  refine ⟨by decide +kernel, ?_, by decide, ?_⟩
  · have hframes := le_frames_deepScript 240
    rw [Engine.runBounded, if_neg]
    show ¬(deepScript 240).frames ≤ 990
    omega
  · have hreport : ((({} : Engine).runBounded (starredCall (10 ^ 4300)) (some (.ofString "x")) none
        none 0).result.toOption.map fun a => a.diagnostics.map fun d => (d.ruleId, d.subject)) =
        some [(crashRuleId, "FL002")] := by
      decide +kernel
    cases hrun : (({} : Engine).runBounded (starredCall (10 ^ 4300)) (some (.ofString "x")) none
        none 0).result with
    | error error =>
      rw [hrun] at hreport
      cases hreport
    | ok analysis =>
      rw [hrun] at hreport
      exact ⟨analysis, rfl, Option.some.inj hreport⟩

end Framewise
