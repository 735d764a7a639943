import Framewise.Proofs.CrashFreedom
import Framewise.Proofs.Deadline

/-! # Findings are told apart by their place

  A walk comes to no node twice, and each rule locates what it finds at the node it
  is applied to or at targets below it. So in a tree in which no two names,
  attributes, subscripts or calls have the same span, a rule reports no span twice.
  The rule on merges is the exception: it has up to three findings at one call, and
  they differ in the argument they are about.

  It follows that a report leaves nothing out because of its identity, except
  crashes: a rule may crash at two assignments with the same span.

  Main definitions:
  - `Node.isPrimary`: the nodes at which findings are located.
  - `Matcher.Locates`: a matcher locates its findings at certain nodes.

  Main results:
  - `raw_of_visit`: what a walk that was not cut short has put down.
  - `findings_distinct_by_place`.
-/

namespace Framewise

/-! ## What a walk puts down -/

/-- A visit that is not cut short puts down what the rules report at the stops of the itinerary,
    with or without a deadline. -/
theorem raw_of_visit {survey : Survey} {root : Node} {walk last : Walk}
    (hwalk : walk.tracker = .start) (hraw : walk.raw = [])
    (hvisit : visit survey none root walk = .ok () last) :
    last.raw.reverse = rawDiagnostics survey.source survey.rules (itinerary root).stops := by
  obtain ⟨after, hafter, hledger⟩ := Engine.attendAll_of_visit hwalk hvisit
  have hadds : Adds True (attendAll survey (itinerary root).stops) walk _ :=
    .attendAll (.inl trivial) (.inl trivial) walk
  unfold Adds at hadds
  rw [hafter] at hadds
  have hlast : last.raw = after.raw := (Walk.mk.inj hledger).2.1.symm
  rw [hlast, hadds, hraw, List.append_nil, List.reverse_reverse]

/-! ## Where findings are located -/

/-- A name, an attribute, a subscript or a call. -/
def Node.isPrimary (n : Node) : Bool :=
  n.kind = .name || n.kind = .attribute || n.kind = .subscript || n.kind = .call

theorem Node.isPrimary_of_kind {n : Node} {kind : NodeKind} (h : ¬(n.kind != kind) = true)
    (hkind : kind = .name ∨ kind = .attribute ∨ kind = .subscript ∨ kind = .call) :
    n.isPrimary = true := by
  have hn : n.kind = kind := by simpa using h
  rcases hkind with rfl | rfl | rfl | rfl <;> simp [isPrimary, hn]

/-- Where a finding at a node is. -/
def Finding.place (n : Node) (finding : Finding) : Span := finding.span.getD n.span

/-- The matcher locates its findings at certain nodes, and has at most one at each: these are names,
    attributes, subscripts or calls. -/
def Matcher.Locates (matcher : Matcher) (anchors : Node → List Node) : Prop :=
  ∀ (site : Site) (view : View) (found : List Finding), matcher site view = .ok found →
    (found.map (Finding.place site.node)).Sublist
      (((anchors site.node).filter Node.isPrimary).map Node.span)

/-- The node itself. -/
def Node.own (n : Node) : List Node := [n]

/-- The targets below a node. -/
def Node.targets (n : Node) : List Node := n.childrenIn Role.target

/-- A single finding without a span of its own is located at the node. -/
theorem Matcher.FindsOne.locates {matcher : Matcher} {kind : NodeKind} {P : View → Node → Finding → Prop}
    (h : matcher.FindsOne kind P) (hkind : kind = .name ∨ kind = .attribute ∨ kind = .subscript ∨ kind = .call) :
    matcher.Locates Node.own := by
  intro site view found hfound
  rcases h site view found hfound with rfl | ⟨only, rfl, hn, hspan, -⟩
  · exact List.nil_sublist _
  · have hprimary : site.node.isPrimary = true := Node.isPrimary_of_kind (by simp [hn]) hkind
    simp [Node.own, hprimary, Finding.place, hspan]

/-- One finding at most for each target, located there. -/
theorem Matcher.FindsAtTargets.locates {matcher : Matcher} {P : View → Node → Finding → Prop}
    (h : matcher.FindsAtTargets P)
    (hP : ∀ view target f, P view target f → f.span = some target.span ∧ target.isPrimary = true) :
    matcher.Locates Node.targets := by
  intro site view found hfound
  obtain ⟨g, rfl, hg⟩ := h site view found hfound
  clear hfound
  unfold Node.targets
  induction site.node.childrenIn Role.target with
  | nil => simp
  | cons target rest ih =>
    cases hfinding : g target with
    | none =>
      rw [List.filterMap_cons_none hfinding]
      exact ih.trans (((List.sublist_cons_self target rest).filter _).map _)
    | some f =>
      obtain ⟨hspan, hprimary⟩ := hP view target f (hg target f hfinding)
      rw [List.filterMap_cons_some hfinding, List.filter_cons_of_pos hprimary, List.map_cons,
        List.map_cons, Finding.place, hspan]
      exact ih.cons_cons _

namespace Rule

theorem fillerColumn_locates : Matcher.Locates fillerColumn Node.targets := by
  refine fillerColumn_findsAtTargets.locates ?_
  rintro view target _ ⟨frame, label, b, shown, hcolumn, -, rfl⟩
  refine ⟨rfl, ?_⟩
  unfold assignedColumn at hcolumn
  split at hcolumn
  · cases hcolumn
  next hkind => exact Node.isPrimary_of_kind hkind (by simp)

theorem parameterMutation_locates : Matcher.Locates parameterMutation Node.targets := by
  refine parameterMutation_findsAtTargets.locates fun view target f hf => ⟨hf.2.1, ?_⟩
  rcases hf.1 with hkind | hkind <;> simp [Node.isPrimary, hkind]

/-- The findings of a merge are all located at its call, and about different arguments. -/
theorem implicitMerge_findings {site : Site} {view : View} {found : List Finding}
    (h : implicitMerge site view = .ok found) :
    (∀ finding ∈ found, finding.place site.node = site.node.span ∧ site.node.isPrimary = true) ∧
      (found.map (·.subject)).Nodup := by
  obtain ⟨hcalls, hsubjects⟩ := implicitMerge_found h
  constructor
  · intro finding hfinding
    obtain ⟨hkind, hspan, -⟩ := hcalls finding hfinding
    exact ⟨by simp [Finding.place, hspan], by simp [Node.isPrimary, hkind]⟩
  · -- no two duties are about the same argument
    have hduties : (Frame.mergeDuties.map fun duty => some duty.argument).Nodup := by decide
    exact hduties.sublist hsubjects

end Rule

/-- The rules that report a span at most once: all but the one on merges. -/
def spanRuleIds : List String := ["FL001", "FL002", "FL003", "FL004", "FL006", "FL007"]

/-- The id of the rule on merges. -/
def mergeRuleId : String := "FL005"

theorem catalog_locates : ∀ rule ∈ catalog, rule.id ∈ spanRuleIds →
    rule.matcher.Locates Node.own ∨ rule.matcher.Locates Node.targets := by
  have hmerge : mergeRuleId ∉ spanRuleIds := by decide
  simp only [catalog, List.forall_mem_cons]
  exact ⟨fun _ => .inl (Rule.attributeColumn_findsOne.locates (by simp)),
    fun _ => .inl (Rule.inPlace_findsOne.locates (by simp)),
    fun _ => .inl (Rule.bareMask_findsOne.locates (by simp)),
    fun _ => .inl (Rule.unpinnedSchema_findsOne.locates (by simp)),
    fun h => absurd h hmerge, fun _ => .inr Rule.fillerColumn_locates,
    fun _ => .inr Rule.parameterMutation_locates, List.forall_mem_nil _⟩

/-! ## Anchors along a walk -/

/-- All nodes but the root are children, each of one node. -/
theorem Node.children_perm (n : Node) :
    (n :: n.preorder.flatMap Node.children).Perm n.preorder := by
  induction n using Node.induction with
  | step n ih =>
    have hbelow : (n.children.flatMap fun c => c :: c.preorder.flatMap Node.children).Perm
        (n.children.flatMap Node.preorder) := .flatMap_left _ fun c hc => ih c hc
    have hsplit : (n.children ++ n.children.flatMap fun c => c.preorder.flatMap Node.children).Perm
        (n.children.flatMap fun c => c :: c.preorder.flatMap Node.children) := by
      simpa using List.flatMap_append_perm n.children (fun c => [c])
        fun c => c.preorder.flatMap Node.children
    rw [preorder_eq, List.flatMap_cons, List.flatMap_assoc]
    exact (hsplit.trans hbelow).cons n

theorem flatMap_own (stops : List Stop) :
    (stops.flatMap fun stop => stop.site.node.own) = stops.map (·.site.node) :=
  List.map_eq_flatMap.symm

section Stops

variable (root : Node)

theorem stops_own_subperm :
    ((itinerary root).stops.flatMap fun stop => stop.site.node.own).Subperm root.preorder := by
  obtain ⟨places, hperm, hsublist⟩ := itinerary_subperm root
  have hnodes := hperm.map (·.site.node)
  rw [List.map_map] at hnodes
  rw [flatMap_own, ← Node.places_nodes [] none root]
  exact ⟨_, hnodes, hsublist.map _⟩

/-- No target stands below two stops. -/
theorem stops_targets_subperm :
    ((itinerary root).stops.flatMap fun stop => stop.site.node.targets).Subperm root.preorder := by
  obtain ⟨nodes, hperm, hsublist⟩ := stops_own_subperm root
  have htargets : ((itinerary root).stops.flatMap fun stop => stop.site.node.targets) =
      ((itinerary root).stops.flatMap fun stop => stop.site.node.own).flatMap Node.targets := by
    rw [List.flatMap_assoc]
    simp [Node.own]
  have hstops : (nodes.flatMap Node.targets).Perm
      ((itinerary root).stops.flatMap fun stop => stop.site.node.targets) := by
    rw [htargets]
    exact hperm.flatMap_right _
  have hchildren : (nodes.flatMap Node.targets).Sublist (root.preorder.flatMap Node.children) :=
    (List.Sublist.flatMap_right nodes fun n _ => List.filter_sublist).trans (hsublist.flatMap _)
  have hall : (root.preorder.flatMap Node.children).Subperm root.preorder :=
    (List.sublist_cons_self root _).subperm.trans root.children_perm.subperm
  exact hstops.symm.subperm.trans (hchildren.subperm.trans hall)

variable {root}

/-- Nodes that each stand in one place of a tree have different spans if all have. -/
theorem nodup_spans (hspans : ((root.walk.filter Node.isPrimary).map Node.span).Nodup)
    {anchors : List Node} (h : anchors.Subperm root.preorder) :
    ((anchors.filter Node.isPrimary).map Node.span).Nodup := by
  rw [Node.walk_eq_preorder] at hspans
  obtain ⟨part, hperm, hsublist⟩ := h
  have hpart := hspans.sublist ((hsublist.filter _).map _)
  exact ((hperm.filter _).map _).nodup_iff.mp hpart

end Stops

/-! ## Diagnostics along a walk -/

section Findings

variable {source : Option SourceText} {stop : Stop} {rule : Rule} {found : List Finding}

theorem Stop.findings_eq (h : stop.outcome source rule = .ok found) :
    stop.findings source rule = found.filterMap fun finding =>
      finding.subject.map (findingDiagnostic rule stop.site.node finding) := by
  simp only [findings, h]

theorem Stop.findings_places (h : stop.outcome source rule = .ok found) :
    ((stop.findings source rule).map (·.span)).Sublist
      (found.map (Finding.place stop.site.node)) := by
  rw [findings_eq h]
  clear h
  induction found with
  | nil => simp
  | cons finding rest ih =>
    cases hsubject : finding.subject with
    | none => simpa [hsubject] using ih.cons _
    | some subject => simpa [hsubject, findingDiagnostic, Finding.place] using ih

theorem Stop.findings_subjects (h : stop.outcome source rule = .ok found) :
    (stop.findings source rule).map (·.subject) = found.filterMap (·.subject) := by
  rw [findings_eq h, List.map_filterMap]
  apply List.filterMap_congr
  intro finding _
  cases finding.subject <;> rfl

theorem Stop.findings_of_error {crash : Crash} (h : stop.outcome source rule = .error crash) :
    stop.findings source rule = [] := by
  simp only [findings, h]

/-- A rule that locates its findings at anchors reports no span twice, if the anchors differ in
    theirs. -/
theorem spans_nodup_of_locates {anchors : Node → List Node} (h : rule.matcher.Locates anchors)
    {stops : List Stop}
    (hanchors : (((stops.flatMap fun stop => anchors stop.site.node).filter
      Node.isPrimary).map Node.span).Nodup) :
    ((stops.flatMap (·.findings source rule)).map (·.span)).Nodup := by
  rw [List.filter_flatMap, List.map_flatMap] at hanchors
  rw [List.map_flatMap]
  apply List.Nodup.sublist _ hanchors
  apply List.Sublist.flatMap_right
  intro stop _
  cases hout : stop.outcome source rule with
  | ok found =>
    exact (Stop.findings_places hout).trans (h _ _ found (Rule.outcome_eq_ok.mp hout).1)
  | error crash =>
    rw [Stop.findings_of_error hout]
    exact List.nil_sublist _

/-- The rule on merges reports no argument twice at a call. -/
theorem merge_places_nodup (hrule : rule.matcher = Rule.implicitMerge) {stops : List Stop}
    (hanchors : (((stops.flatMap fun stop => stop.site.node.own).filter
      Node.isPrimary).map Node.span).Nodup) :
    ((stops.flatMap (·.findings source rule)).map fun d => (d.span, d.subject)).Nodup := by
  have hmerge : ∀ {stop : Stop} {found : List Finding}, stop.outcome source rule = .ok found →
      Rule.implicitMerge stop.site { tracker := stop.tracker, source := source } = .ok found := by
    intro stop found hout
    rw [← (Rule.outcome_eq_ok.mp hout).1, hrule]
  -- what is found at a stop is at its call
  have hspan : ∀ stop ∈ stops, ∀ d ∈ stop.findings source rule,
      d.span = stop.site.node.span ∧ stop.site.node.isPrimary = true := by
    intro stop _ d hd
    cases hout : stop.outcome source rule with
    | error crash =>
      rw [Stop.findings_of_error hout] at hd
      cases hd
    | ok found =>
      have hplace := (Stop.findings_places hout).subset (List.mem_map_of_mem hd)
      obtain ⟨finding, hfinding, hd⟩ := List.mem_map.mp hplace
      have hcall := (Rule.implicitMerge_findings (hmerge hout)).1 finding hfinding
      exact ⟨hd.symm.trans hcall.1, hcall.2⟩
  -- two stops at which something is found have different spans
  have hstops : stops.Pairwise fun stop stop' => stop.site.node.isPrimary = true →
      stop'.site.node.isPrimary = true → stop.site.node.span ≠ stop'.site.node.span := by
    rw [flatMap_own] at hanchors
    have hnodes := List.pairwise_filter.mp (List.pairwise_map.mp hanchors)
    exact List.pairwise_map.mp hnodes
  rw [List.map_flatMap, List.nodup_flatMap]
  constructor
  · intro stop _
    cases hout : stop.outcome source rule with
    | error crash => simp [Stop.findings_of_error hout]
    | ok found =>
      have hsubjects := (Rule.implicitMerge_findings (hmerge hout)).2
      have hnodup : ((stop.findings source rule).map (·.subject)).Nodup := by
        rw [Stop.findings_subjects hout]
        have hgiven := hsubjects.filterMap (f := id) (by
          intro a a' b hb hb'
          exact (Option.mem_def.mp hb).trans (Option.mem_def.mp hb').symm)
        rwa [List.filterMap_map] at hgiven
      apply List.Nodup.of_map Prod.snd
      rwa [List.map_map]
  · apply hstops.imp_of_mem
    intro stop stop' hstop hstop' hne place hplace hplace'
    obtain ⟨d, hd, rfl⟩ := List.mem_map.mp hplace
    obtain ⟨d', hd', heq⟩ := List.mem_map.mp hplace'
    obtain ⟨hat, hprimary⟩ := hspan stop hstop d hd
    obtain ⟨hat', hprimary'⟩ := hspan stop' hstop' d' hd'
    apply hne hprimary hprimary'
    rw [← hat, ← hat']
    exact (congrArg Prod.fst heq).symm

end Findings

/-! ## Identities -/

namespace Diagnostic

/-- Nothing is dropped from diagnostics with different identities. -/
theorem firsts_eq_self {seen : List Identity} {ds : List Diagnostic}
    (hnodup : (ds.map identity).Nodup) (hseen : ∀ d ∈ ds, d.identity ∉ seen) :
    firsts seen ds = ds := by
  induction ds generalizing seen with
  | nil => rfl
  | cons d ds ih =>
    obtain ⟨hd, hrest⟩ := List.nodup_cons.mp hnodup
    obtain ⟨hfirst, hlater⟩ := List.forall_mem_cons.mp hseen
    have hds : firsts (d.identity :: seen) ds = ds := by
      apply ih hrest
      intro d' hd' hmem
      rcases List.mem_cons.mp hmem with heq | hmem
      · exact hd (heq ▸ List.mem_map_of_mem hd')
      · exact hlater d' hd' hmem
    rw [firsts, if_neg (mt List.contains_iff_mem.mp hfirst), hds]

/-- Diagnostics that differ under each rule id differ altogether. -/
theorem nodup_of_ruleIds {α : Type} {key : Diagnostic → α}
    (hkey : ∀ d d', key d = key d' → d.ruleId = d'.ruleId) {raw : List Diagnostic}
    {keep : Diagnostic → Bool} {ids : List String}
    (hkeep : ∀ d ∈ raw, keep d = true → d.ruleId ∈ ids)
    (h : ∀ id ∈ ids, ((raw.filter fun d => d.ruleId = id).map key).Nodup) :
    ((raw.filter keep).map key).Nodup := by
  have hsame : ∀ id, ((raw.filter keep).filter fun d => d.ruleId = id).Pairwise
      fun d d' => key d ≠ key d' := by
    intro id
    by_cases hid : id ∈ ids
    · have hpart : ((raw.filter keep).filter fun d => d.ruleId = id).Sublist
          (raw.filter fun d => d.ruleId = id) := List.filter_sublist.filter _
      exact (List.pairwise_map.mp (h id hid)).sublist hpart
    · have hnone : (raw.filter keep).filter (fun d => d.ruleId = id) = [] := by
        apply List.filter_eq_nil_iff.mpr
        intro d hd heq
        obtain ⟨hmem, hd⟩ := List.mem_filter.mp hd
        exact hid (of_decide_eq_true heq ▸ hkeep d hmem hd)
      rw [hnone]
      exact .nil
  apply List.pairwise_map.mpr
  apply (pairwise_of_filter hsame).imp
  intro d d' hne heq
  exact hne (hkey d d' heq) heq

end Diagnostic

section Catalog

variable {root : Node} {source : Option SourceText}

theorem nodup_catalogIds : (ruleIds catalog).Nodup := by decide

theorem catalogIds_cases : ∀ id ∈ ruleIds catalog, id = mergeRuleId ∨ id ∈ spanRuleIds := by decide

theorem catalog_spans_nodup (hspans : ((root.walk.filter Node.isPrimary).map Node.span).Nodup)
    {id : String} (hid : id ∈ spanRuleIds) :
    (((rawDiagnostics source catalog (itinerary root).stops).filter
      fun d => d.ruleId = id).map (·.span)).Nodup := by
  have hcatalog : ∀ id ∈ spanRuleIds, id ∈ ruleIds catalog := by decide
  obtain ⟨rule, hrule, rfl⟩ := List.mem_map.mp (hcatalog id hid)
  rw [rawDiagnostics_findings nodup_catalogIds crashRuleId_notMem_catalog hrule]
  rcases catalog_locates rule hrule hid with hown | htargets
  · exact spans_nodup_of_locates hown (nodup_spans hspans (stops_own_subperm root))
  · exact spans_nodup_of_locates htargets (nodup_spans hspans (stops_targets_subperm root))

theorem catalog_merges_nodup (hspans : ((root.walk.filter Node.isPrimary).map Node.span).Nodup) :
    (((rawDiagnostics source catalog (itinerary root).stops).filter
      fun d => d.ruleId = mergeRuleId).map fun d => (d.span, d.subject)).Nodup := by
  obtain ⟨rule, hrule, hid, hmatcher⟩ :
      ∃ rule ∈ catalog, rule.id = mergeRuleId ∧ rule.matcher = Rule.implicitMerge :=
    ⟨_, List.mem_of_getElem? (i := 4) rfl, rfl, rfl⟩
  rw [← hid, rawDiagnostics_findings nodup_catalogIds crashRuleId_notMem_catalog hrule]
  exact merge_places_nodup hmatcher (nodup_spans hspans (stops_own_subperm root))

/-- What is not a crash stands under the id of a rule. -/
theorem ruleId_mem_catalog {stops : List Stop} {d : Diagnostic}
    (h : d ∈ rawDiagnostics source catalog stops) (hd : d.ruleId ≠ crashRuleId) :
    d.ruleId ∈ ruleIds catalog := by
  have howner := owner_mem_ruleIds crashRuleId_notMem_catalog h
  rwa [Diagnostic.owner, if_neg hd] at howner

/-- Rule and span fix a diagnostic, crashes and merges apart. -/
theorem catalog_eq_of_span (hspans : ((root.walk.filter Node.isPrimary).map Node.span).Nodup)
    {d d' : Diagnostic} (hd : d ∈ rawDiagnostics source catalog (itinerary root).stops)
    (hd' : d' ∈ rawDiagnostics source catalog (itinerary root).stops)
    (hmerge : d.ruleId ≠ mergeRuleId) (hcrash : d.ruleId ≠ crashRuleId)
    (hrule : d.ruleId = d'.ruleId) (hspan : d.span = d'.span) : d = d' := by
  have hid : d.ruleId ∈ spanRuleIds :=
    (catalogIds_cases _ (ruleId_mem_catalog hd hcrash)).resolve_left hmerge
  have hin : ∀ e ∈ rawDiagnostics source catalog (itinerary root).stops, e.ruleId = d.ruleId →
      e ∈ (rawDiagnostics source catalog (itinerary root).stops).filter
        fun e => e.ruleId = d.ruleId := by
    intro e he hrule
    exact List.mem_filter.mpr ⟨he, decide_eq_true hrule⟩
  exact List.inj_on_of_nodup_map (catalog_spans_nodup hspans hid) (hin d hd rfl)
    (hin d' hd' hrule.symm) hspan

/-- No two diagnostics of the catalog have the same identity, crashes apart. -/
theorem catalog_identities_nodup
    (hspans : ((root.walk.filter Node.isPrimary).map Node.span).Nodup) :
    (((rawDiagnostics source catalog (itinerary root).stops).filter
      fun d => d.ruleId ≠ crashRuleId).map Diagnostic.identity).Nodup := by
  apply Diagnostic.nodup_of_ruleIds (fun d d' h => (Identity.mk.inj h).1)
  · intro d hd hcrash
    exact ruleId_mem_catalog hd (of_decide_eq_true hcrash)
  · intro id hid
    -- the identity tells apart what span, or span and subject, tell apart
    rcases catalogIds_cases id hid with rfl | hid
    · apply List.Nodup.of_map fun identity => (identity.span, identity.subject)
      rw [List.map_map]
      exact catalog_merges_nodup hspans
    · apply List.Nodup.of_map Identity.span
      rw [List.map_map]
      exact catalog_spans_nodup hspans hid

end Catalog

/-! ## Runs -/

theorem Engine.survey_rules (e : Engine) (source : Option SourceText) (readings : Nat) :
    (e.survey source readings).1.rules = e.rules ∧
      (e.survey source readings).1.source = source := by
  unfold Engine.survey
  cases e.allowance <;> exact ⟨rfl, rfl⟩

/-- In a tree in which no two names, attributes, subscripts or calls have the same span, a run of
    the catalog that ends with a complete analysis has put down no two diagnostics of one rule for
    the same span, and on merges no two for the same span and argument. The subject of every other
    rule is fixed by rule and span. Whatever is kept of the raw diagnostics, making it unique
    drops crashes at most. -/
theorem findings_distinct_by_place {e : Engine} (hrules : e.rules = catalog) {root : Node}
    (hspans : ((root.walk.filter Node.isPrimary).map Node.span).Nodup)
    {source : Option SourceText} {path : Option String} {suppressed : Option Suppression}
    {readings : Nat} {analysis : Analysis}
    (hrun : (e.run root source path suppressed readings).result = .ok analysis)
    (hcomplete : analysis.status = .complete) :
    ∃ walk raw,
      visit (e.survey source readings).1 none root { readings := (e.survey source readings).2 } =
        .ok () walk ∧
      raw = walk.raw.reverse ∧
      analysis.diagnostics = Diagnostic.resolve e.policy (suppressed.orElse fun _ => e.suppressed)
        crashRuleId raw ∧
      ((raw.filter fun d => spanRuleIds.contains d.ruleId).map
        fun d => (d.ruleId, d.span)).Nodup ∧
      ((raw.filter fun d => d.ruleId = mergeRuleId).map fun d => (d.span, d.subject)).Nodup ∧
      (∀ d ∈ raw, ∀ d' ∈ raw, d.ruleId ≠ mergeRuleId → d.ruleId ≠ crashRuleId →
        d.ruleId = d'.ruleId → d.span = d'.span → d.subject = d'.subject) ∧
      ∀ keep : Diagnostic → Bool,
        (Diagnostic.firsts [] (raw.filter keep)).filter (fun d => d.ruleId ≠ crashRuleId) =
          (raw.filter keep).filter fun d => d.ruleId ≠ crashRuleId := by
  have hends : ∃ walk, visit (e.survey source readings).1 none root
      { readings := (e.survey source readings).2 } = .ok () walk ∧
      analysis.diagnostics = Diagnostic.resolve e.policy (suppressed.orElse fun _ => e.suppressed)
        crashRuleId walk.raw.reverse := by
    obtain ⟨walk, hvisit, rfl⟩ | rfl := Engine.of_run_ok hrun
    · exact ⟨walk, hvisit, rfl⟩
    · -- a run that was cut short is incomplete
      cases hcomplete
  obtain ⟨walk, hvisit, hdiagnostics⟩ := hends
  obtain ⟨hsurvey, hsource⟩ := e.survey_rules source readings
  have hraw := raw_of_visit rfl rfl hvisit
  rw [hsurvey, hsource, hrules] at hraw
  refine ⟨walk, _, hvisit, hraw.symm, hraw ▸ hdiagnostics, ?_, catalog_merges_nodup hspans, ?_, ?_⟩
  · apply Diagnostic.nodup_of_ruleIds (fun d d' h => congrArg Prod.fst h)
    · intro d _ hd
      exact List.contains_iff_mem.mp hd
    · intro id hid
      apply List.Nodup.of_map Prod.snd
      rw [List.map_map]
      exact catalog_spans_nodup hspans hid
  · intro d hd d' hd' hmerge hcrash hrule hspan
    exact congrArg Diagnostic.subject
      (catalog_eq_of_span hspans hd hd' hmerge hcrash hrule hspan)
  · intro keep
    have hkeep : ∀ d d' : Diagnostic, d.identity = d'.identity →
        decide (d.ruleId ≠ crashRuleId) = decide (d'.ruleId ≠ crashRuleId) := by
      intro d d' h
      rw [(Identity.mk.inj h).1]
    rw [Diagnostic.filter_firsts hkeep, List.filter_comm]
    apply Diagnostic.firsts_eq_self
    · exact (catalog_identities_nodup hspans).sublist (List.filter_sublist.map _)
    · simp

/-- A frame is read, two of its columns are filled by one assignment, and it is merged with
    itself. -/
def filledAndMerged : Node :=
  let name (role id : String) (line column : Int) : Node :=
    { kind := .name, span := ⟨line, column, line, column + 2⟩, role := role, name := some id }
  let selection (label : String) (column : Int) : Node :=
    { kind := .subscript, span := ⟨2, column, 2, column + 7⟩, role := Role.target, children :=
      [name Role.receiver "df" 2 column,
        { kind := .literal, span := ⟨2, column + 3, 2, column + 6⟩, role := Role.index,
          literal := some (.text label) }] }
  let read : Node :=
    { kind := .call, span := ⟨1, 6, 1, 16⟩, role := Role.value, children :=
      [name Role.func "read_csv" 1 6] }
  let zero : Node :=
    { kind := .literal, span := ⟨2, 21, 2, 22⟩, role := Role.value, literal := some (.int 0) }
  let merge : Node :=
    { kind := .call, span := ⟨3, 1, 3, 14⟩, role := Role.expr, children :=
      [name Role.func "merge" 3 1, name Role.arg "df" 3 7, name Role.arg "df" 3 11] }
  { kind := .module, span := ⟨1, 1, 4, 1⟩, children :=
    [{ kind := .assignment, span := ⟨1, 1, 1, 16⟩, children := [name Role.target "df" 1 1, read] },
      { kind := .assignment, span := ⟨2, 1, 2, 22⟩,
        children := [selection "a" 1, selection "b" 11, zero] },
      merge] }

theorem filledAndMerged_distinct :
    ((filledAndMerged.walk.filter Node.isPrimary).map Node.span).Nodup ∧
    ∃ (analysis : Analysis) (walk : Walk),
      (({} : Engine).run filledAndMerged none none none 0).result = .ok analysis ∧
      analysis.status = .complete ∧
      visit { rules := catalog } none filledAndMerged {} = .ok () walk ∧
      ((walk.raw.reverse.filter fun d => spanRuleIds.contains d.ruleId).map
        fun d => (d.ruleId, d.span)).Nodup ∧
      ((walk.raw.reverse.filter fun d => d.ruleId = mergeRuleId).map
        fun d => (d.span, d.subject)).Nodup ∧
      (walk.raw.reverse.filter fun d => spanRuleIds.contains d.ruleId).length = 4 ∧
      (walk.raw.reverse.filter fun d => d.ruleId = mergeRuleId).length = 3 := by
  have hspans : ((filledAndMerged.walk.filter Node.isPrimary).map Node.span).Nodup := by decide
  have hcounts : (visit { rules := catalog } none filledAndMerged >>= fun _ =>
      (fun walk : Walk =>
        ((walk.raw.reverse.filter fun d => spanRuleIds.contains d.ruleId).length,
          (walk.raw.reverse.filter fun d => d.ruleId = mergeRuleId).length)) <$> get).run' {} =
      some (4, 3) := by decide +kernel
  unfold EStateM.run' EStateM.run at hcounts
  rw [bind_apply] at hcounts
  cases hlast : visit { rules := catalog } none filledAndMerged {} with
  | error halt last =>
    rw [hlast] at hcounts
    cases hcounts
  | ok u last =>
    rw [hlast] at hcounts
    obtain ⟨hothers, hmerges⟩ := Prod.mk.inj (Option.some.inj hcounts)
    obtain ⟨analysis, hrun, hcomplete⟩ : ∃ analysis : Analysis,
        (({} : Engine).run filledAndMerged none none none 0).result = .ok analysis ∧
          analysis.status = .complete := by
      have hsurvey : ({} : Engine).survey none 0 = ({ rules := catalog }, 0) := rfl
      rw [Engine.run_of_visit_ok hsurvey hlast]
      exact ⟨_, rfl, rfl⟩
    obtain ⟨walk, raw, hvisit, rfl, -, hspan, hmerge, -⟩ :=
      findings_distinct_by_place rfl hspans hrun hcomplete
    cases hlast.symm.trans hvisit
    exact ⟨hspans, analysis, last, hrun, hcomplete, rfl, hspan, hmerge, hothers, hmerges⟩

end Framewise
