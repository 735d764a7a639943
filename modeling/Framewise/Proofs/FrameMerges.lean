import Framewise.Proofs.Classification
import Framewise.Rule.ImplicitMerge
import Mathlib.Data.List.Basic

/-! # What counts as a merge of frames

  Two parts of the library decide whether a call of `merge` or `join` merges frames: the
  classification of expressions, by the table of origins, and the rule on merges that
  leave things unsaid, by tables of its own. A `join` is judged alike, by its receiver.
  A `merge` counts as one for the classification whatever it is called on, while the
  rule leaves out modules known to have another `merge`, and there the two differ.

  Main definition: `Node.MergesElsewhere`, a `merge` of such a module.

  Main results:
  - `callFacts_merge`, `callFacts_join`: what the classification says.
  - `merge_judged_alike_iff`: where the two agree.
-/

namespace Framewise

/-- A call of the `merge` of a module that has nothing to do with frames. -/
def Node.MergesElsewhere (n : Node) : Prop :=
  Frame.calleeName n = some "merge" ∧
    ∃ receiver id, Frame.methodReceiver n = some receiver ∧ receiver.kind = .name ∧
      receiver.name = some id ∧ id ∈ Frame.otherMergers

/-! ## The classification -/

section Classification

variable (call : Node) (receiver : Option Facts)

/-- A `merge` is a frame whatever it is called on. -/
theorem callFacts_merge : callFacts call "merge" receiver = { origin := .merge } := by
  have hrow : ∀ row ∈ Frame.origins.take 2, row.covers "merge" = false := by decide +kernel
  have hmerge : (Frame.origins.drop 2).head?.any (fun row => row.covers "merge") = true := by
    decide +kernel
  unfold callFacts
  dsimp only
  simp only [Frame.origins, List.take, List.drop, List.mem_cons, List.head?_cons,
    Option.any_some, forall_eq_or_imp] at hrow hmerge
  simp [Frame.origins, hrow, hmerge]

/-- A `join` is a frame if it is called on one. -/
theorem callFacts_join :
    callFacts call "join" receiver =
      if receiver.isSome then { origin := .merge } else .unknown := by
  have hrow : ∀ row ∈ Frame.origins.take 3, row.covers "join" = false := by decide +kernel
  have hjoin : (Frame.origins.drop 3).head?.any (fun row => row.covers "join") = true := by
    decide +kernel
  unfold callFacts
  dsimp only
  simp only [Frame.origins, List.take, List.drop, List.mem_cons, List.head?_cons,
    Option.any_some, forall_eq_or_imp] at hrow hjoin
  cases receiver with
  | none => simp [Frame.origins, hrow]
  | some facts => simp [Frame.origins, hrow, hjoin]

end Classification

/-! ## The rule -/

section Rule

variable {view : View} {n : Node}

theorem isFrameMerge_join (h : Frame.calleeName n = some "join") :
    Rule.isFrameMerge view n = view.isFrame (Frame.methodReceiver n) := by
  unfold Rule.isFrameMerge
  simp [h, Frame.listed, Frame.joinCallees]

/-- A `merge` is taken for one of frames unless its module is known to have another. -/
theorem isFrameMerge_merge (view : View) (h : Frame.calleeName n = some "merge") :
    ∃ taken, Rule.isFrameMerge view n = .ok taken ∧ (taken = true ↔ ¬n.MergesElsewhere) := by
  unfold Rule.isFrameMerge
  simp only [h, Frame.listed, Frame.joinCallees, Frame.mergeCallees]
  refine ⟨_, rfl, ?_⟩
  cases hreceiver : Frame.methodReceiver n with
  | none => simp [Node.MergesElsewhere, hreceiver]
  | some receiver =>
    cases hname : receiver.name with
    | none => simp [Node.MergesElsewhere, hreceiver, hname]
    | some id =>
      have helsewhere : n.MergesElsewhere ↔ receiver.kind = .name ∧ id ∈ Frame.otherMergers := by
        simp [Node.MergesElsewhere, h, hreceiver, hname]
      rw [helsewhere]
      simp [hname, Decidable.imp_iff_not_or]

/-- A call taken for a merge of frames gives one finding for each thing it leaves unsaid, and any
    other gives none. -/
theorem implicitMerge_subjects {taken : Bool} (hkind : n.kind = .call)
    (h : Rule.isFrameMerge view n = .ok taken) (parent : Option Node) :
    (Rule.implicitMerge ⟨n, parent⟩ view).map (List.map Finding.subject) =
      .ok (if taken then (Frame.unstatedArguments n).map some else []) := by
  unfold Rule.implicitMerge
  simp only [hkind, bne_self_eq_false, Bool.false_eq_true, if_false, h]
  cases taken with
  | true =>
    show Except.ok _ = Except.ok _
    simp [Frame.unstatedArguments]
  | false => rfl

end Rule

/-! ## Agreement -/

section Agreement

variable {t : Tracker} {n : Node} {facts : Facts}

/-- Where a `join` is classified at all, the rule sees it in the same way. -/
theorem join_judged_alike (source : Option SourceText) (hkind : n.kind = .call)
    (hcallee : Frame.calleeName n = some "join") (hfacts : t.classify n = .ok facts) :
    ∃ taken, Rule.isFrameMerge ⟨t, source⟩ n = .ok taken ∧
      (facts.origin = .merge ↔ taken = true) := by
  rw [Tracker.classify, classify_call _ hkind, hcallee] at hfacts
  obtain ⟨receiver, hreceiver, rfl⟩ := of_map_ok hfacts
  refine ⟨receiver.isSome, ?_, ?_⟩
  · rw [isFrameMerge_join hcallee, View.isFrame, Tracker.isFrame, Tracker.frameFacts, hreceiver]
    rfl
  · rw [callFacts_join]
    cases receiver with
    | none => simp [Facts.unknown]
    | some facts => simp

theorem merge_classified (hkind : n.kind = .call) (hcallee : Frame.calleeName n = some "merge")
    (hfacts : t.classify n = .ok facts) : facts = { origin := .merge } := by
  rw [Tracker.classify, classify_call _ hkind, hcallee] at hfacts
  obtain ⟨receiver, -, rfl⟩ := of_map_ok hfacts
  exact callFacts_merge n receiver

/-- The classification of a call fails only if that of its receiver does. -/
theorem classify_fails_iff (hkind : n.kind = .call) {callee : String}
    (hcallee : Frame.calleeName n = some callee) (fault : Fault) :
    t.classify n = .error fault ↔ t.frameFacts (Frame.methodReceiver n) = .error fault := by
  rw [Tracker.classify, classify_call _ hkind, hcallee, Tracker.frameFacts]
  dsimp only
  cases frameFacts t.resolve (Frame.methodReceiver n) with
  | error e => simp [Except.map]
  | ok receiver => simp [Except.map]

/-- In every state and for every call of `merge` or `join`, the classification says that it
    merges frames just if the rule takes it for a merge of frames or it is the `merge` of a
    module known to have another, which the rule passes over. There, and nowhere else, the two
    differ. -/
theorem merge_judged_alike_iff (t : Tracker) (source : Option SourceText) (n : Node)
    (parent : Option Node) (hkind : n.kind = .call)
    (hcallee : Frame.calleeName n = some "merge" ∨ Frame.calleeName n = some "join") :
    (∀ fault, t.classify n = .error fault ↔
      t.frameFacts (Frame.methodReceiver n) = .error fault) ∧
    (∀ facts, t.classify n = .ok facts →
      ∃ taken, Rule.isFrameMerge ⟨t, source⟩ n = .ok taken ∧
        (Rule.implicitMerge ⟨n, parent⟩ ⟨t, source⟩).map (List.map Finding.subject) =
          .ok (if taken then (Frame.unstatedArguments n).map some else []) ∧
        (facts.origin = .merge ↔ taken = true ∨ n.MergesElsewhere) ∧
        (n.MergesElsewhere → facts.isFrame = true ∧ taken = false)) := by
  have hnamed : ∃ callee, Frame.calleeName n = some callee := by
    rcases hcallee with h | h
    · exact ⟨_, h⟩
    · exact ⟨_, h⟩
  obtain ⟨callee, hname⟩ := hnamed
  refine ⟨classify_fails_iff hkind hname, fun facts hfacts => ?_⟩
  rcases hcallee with hmerge | hjoin
  · -- the classification does not look at the receiver of a `merge`
    obtain ⟨taken, htaken, helsewhere⟩ := isFrameMerge_merge ⟨t, source⟩ hmerge
    obtain rfl := merge_classified hkind hmerge hfacts
    refine ⟨taken, htaken, implicitMerge_subjects hkind htaken parent, ?_, fun h => ?_⟩
    · simpa [helsewhere] using (Classical.em n.MergesElsewhere).symm
    · exact ⟨rfl, Bool.eq_false_iff.mpr fun hfalse => helsewhere.mp hfalse h⟩
  · have hnot : ¬n.MergesElsewhere := fun h => absurd (h.1.symm.trans hjoin) (by decide)
    obtain ⟨taken, htaken, halike⟩ := join_judged_alike source hkind hjoin hfacts
    refine ⟨taken, htaken, implicitMerge_subjects hkind htaken parent, ?_, fun h => absurd h hnot⟩
    rw [halike, or_iff_left hnot]

end Agreement

/-! ### Two merges -/

/-- A call `module.merge(a)`. -/
def mergeOf (id : String) : Node :=
  { kind := .call, span := ⟨1, 1, 1, 1⟩, children :=
    [{ kind := .attribute, span := ⟨1, 1, 1, 1⟩, role := Role.func, name := some "merge",
       children := [{ kind := .name, span := ⟨1, 1, 1, 1⟩, role := Role.receiver,
                      name := some id }] },
      { kind := .name, span := ⟨1, 1, 1, 1⟩, role := Role.arg, name := some "a" }] }

theorem mergeOf_named (id : String) : Frame.calleeName (mergeOf id) = some "merge" := rfl

theorem pandas_merge_judged_alike :
    Tracker.start.classify (mergeOf "pd") = .ok { origin := .merge } ∧
      (Rule.implicitMerge ⟨mergeOf "pd", none⟩ ⟨.start, none⟩).map (List.map Finding.subject) =
        .ok [some "how", some "on", some "validate"] := by
  have hfacts : Tracker.start.classify (mergeOf "pd") = .ok { origin := .merge } := by
    decide +kernel
  obtain ⟨-, hjudged⟩ :=
    merge_judged_alike_iff .start none (mergeOf "pd") none rfl (.inl (mergeOf_named "pd"))
  obtain ⟨taken, -, hrule, horigin, -⟩ := hjudged _ hfacts
  have hhere : ¬(mergeOf "pd").MergesElsewhere := by
    rintro ⟨-, receiver, id, ⟨⟩, -, ⟨⟩, hmember⟩
    exact absurd hmember (by decide)
  obtain rfl := (horigin.mp rfl).resolve_right hhere
  exact ⟨hfacts, hrule⟩

/-- The `merge` of a module for heaps is taken for a frame, while the rule knows that it is none
    and says nothing about the arguments it leaves out. -/
theorem heap_merge_taken_for_frame :
    (mergeOf "heapq").MergesElsewhere ∧
      Tracker.start.classify (mergeOf "heapq") = .ok { origin := .merge } ∧
      Rule.isFrameMerge ⟨.start, none⟩ (mergeOf "heapq") = .ok false ∧
      (Rule.implicitMerge ⟨mergeOf "heapq", none⟩ ⟨.start, none⟩).map (List.map Finding.subject) =
        .ok [] ∧
      Frame.unstatedArguments (mergeOf "heapq") = ["how", "on", "validate"] := by
  refine ⟨⟨rfl, _, "heapq", rfl, rfl, rfl, by decide⟩, ?_⟩
  decide +kernel

end Framewise
