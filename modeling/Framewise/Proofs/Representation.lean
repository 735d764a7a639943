import Framewise.Proofs.Rendering
import Framewise.Proofs.TokenPlaces

/-! # Landmarks in trees

  Rules look for attributes, calls, subscripts and comparisons, and they see only
  what the tree of a script holds. Each of these expressions is found there as
  exactly one node of its kind with its span, unless it stands in strings in a row
  or in the type parameters of a function or class: then it has no node at all.

  That a landmark has one node rests on two facts. The tree holds the landmarks that
  are not hidden, each as often as the outline does; and no two landmarks of a script
  have the same span.

  Main result: `landmark_has_one_node`.
-/

namespace Framewise

open Script

namespace Script

/-- The landmarks that are shown are some of the landmarks. -/
theorem shown_sublist (marks : List Mark) :
    ((marks.filterMap Mark.shown?).map Prod.snd).Sublist (landmarkSpans marks) := by
  induction marks with
  | nil => exact .slnil
  | cons m marks ih =>
    obtain ⟨kind, span, hidden⟩ := m
    cases kind with
    | none =>
      have hnone : (Mark.mk none span hidden).shown? = none := by simp [Mark.shown?]
      rw [List.filterMap_cons_none hnone]
      exact ih
    | some kind =>
      have hspans : landmarkSpans (⟨some kind, span, hidden⟩ :: marks) =
          span :: landmarkSpans marks := rfl
      rw [hspans]
      -- a hidden landmark is missing on the left only
      cases hidden with
      | true => exact ih.cons span
      | false => exact ih.cons_cons span

/-- Landmarks with the same span are one and the same. -/
theorem Located.eq_of_span {V : Pos → Prop} {lo hi : Pos} {marks : List Mark} {m m' : Mark}
    (h : Located V lo hi marks) (hm : m ∈ marks) (hm' : m' ∈ marks) (hland : m.isLandmark = true)
    (hland' : m'.isLandmark = true) (hspan : m.span = m'.span) : m = m' :=
  List.inj_on_of_nodup_map h.distinct (List.mem_filter.mpr ⟨hm, hland⟩)
    (List.mem_filter.mpr ⟨hm', hland'⟩) hspan

theorem Mark.shown?_eq_some {m : Mark} {kind : NodeKind} {span : Span} :
    m.shown? = some (kind, span) ↔ m.hidden = false ∧ m.kind = some kind ∧ m.span = span := by
  obtain ⟨kind', span', hidden⟩ := m
  cases hidden <;> cases kind' <;> simp [Mark.shown?]

/-- How often a landmark is shown: once, or not at all if it is hidden. -/
theorem Located.count_shown {V : Pos → Prop} {lo hi : Pos} {marks : List Mark} {m : Mark}
    {kind : NodeKind} (h : Located V lo hi marks) (hm : m ∈ marks) (hkind : m.kind = some kind) :
    (marks.filterMap Mark.shown?).count (kind, m.span) = if m.hidden then 0 else 1 := by
  have hnodup : (marks.filterMap Mark.shown?).Nodup :=
    (h.distinct.sublist (shown_sublist marks)).of_map
  have hmem : (kind, m.span) ∈ marks.filterMap Mark.shown? ↔ m.hidden = false := by
    constructor
    · intro hin
      -- what is shown with this span can only be the landmark itself
      obtain ⟨m', hm', hshown⟩ := List.mem_filterMap.mp hin
      obtain ⟨hhidden, hkind', hspan⟩ := Mark.shown?_eq_some.mp hshown
      have heq : m' = m := h.eq_of_span hm' hm (by simp [Mark.isLandmark, hkind'])
        (by simp [Mark.isLandmark, hkind]) hspan
      exact heq ▸ hhidden
    · intro hhidden
      exact List.mem_filterMap.mpr ⟨m, hm, Mark.shown?_eq_some.mpr ⟨hhidden, hkind, rfl⟩⟩
  rw [hnodup.count]
  cases hhidden : m.hidden with
  | true => simp [hmem, hhidden]
  | false => simp [hmem, hhidden]

end Script

/-- The nodes of a landmark kind with a span are counted among the landmarks. -/
theorem Node.countP_eq_count {kind : NodeKind} (hkind : kind.isLandmark = true) (span : Span)
    (ns : List Node) : ns.countP (fun n => n.kind = kind ∧ n.span = span) =
      (ns.filterMap Node.landmark?).count (kind, span) := by
  induction ns with
  | nil => rfl
  | cons n ns ih =>
    rw [List.countP_cons, ih]
    cases hn : n.kind.isLandmark with
    | false =>
      have hother : n.kind ≠ kind := by
        rintro rfl
        rw [hkind] at hn
        cases hn
      have hnone : n.landmark? = none := by simp [landmark?, hn]
      simp [List.filterMap_cons_none hnone, hother]
    | true =>
      have hsome : n.landmark? = some (n.kind, n.span) := by simp [landmark?, hn]
      rw [List.filterMap_cons_some hsome, List.count_cons]
      simp

/-- A landmark of a script has one node in its tree, of its kind and with its span, or none if it
    is hidden. -/
theorem landmark_has_one_node {code : String} {source : Source} {root : Node} {m : Mark}
    {kind : NodeKind} (hparse : Script.parse code = some source) (hroot : source.node = some root)
    (hlandmark : kind ∈ [NodeKind.attribute, .call, .subscript, .compare])
    (hm : m ∈ source.outline) (hkind : m.kind = some kind) :
    root.walk.countP (fun n => n.kind = kind ∧ n.span = m.span) = if m.hidden then 0 else 1 := by
  obtain ⟨hi, hlocated⟩ := parse_located hparse
  have hisLandmark : kind.isLandmark = true := List.contains_iff_mem.mpr hlandmark
  -- the tree shows the landmarks of the outline; its root stands for none
  have hperm := (source_renders source root hroot).landmarks
  rw [List.flatMap_singleton, List.filterMap_cons_none (Mark.shown?_plain _)] at hperm
  calc root.walk.countP (fun n => n.kind = kind ∧ n.span = m.span)
      = (root.preorder.filterMap Node.landmark?).count (kind, m.span) := by
        rw [Node.walk_eq_preorder, Node.countP_eq_count hisLandmark]
    _ = (source.outline.filterMap Mark.shown?).count (kind, m.span) := hperm.count_eq _
    _ = if m.hidden then 0 else 1 := hlocated.count_shown hm hkind

/-- A call has one node, and an attribute in the strings that are given to it has none. -/
theorem call_has_one_node :
    ∃ source root, Script.parse "df.a(\"a\" f\"\x7bdf.b\x7d\")\n" = some source ∧
      source.node = some root ∧
      Mark.landmark .call ⟨1, 1, 1, 20⟩ ∈ source.outline ∧
      root.walk.countP (fun n => n.kind = .call ∧ n.span = ⟨1, 1, 1, 20⟩) = 1 ∧
      (Mark.landmark .attribute ⟨1, 13, 1, 17⟩).hide ∈ source.outline ∧
      root.walk.countP (fun n => n.kind = .attribute ∧ n.span = ⟨1, 13, 1, 17⟩) = 0 := by
  have h : ((Script.parse "df.a(\"a\" f\"\x7bdf.b\x7d\")\n").bind fun source =>
      source.node.map fun _ => decide (Mark.landmark .call ⟨1, 1, 1, 20⟩ ∈ source.outline ∧
        (Mark.landmark .attribute ⟨1, 13, 1, 17⟩).hide ∈ source.outline)) = some true := by
    decide +kernel
  obtain ⟨source, hparse, h⟩ := Option.bind_eq_some_iff.mp h
  obtain ⟨root, hroot, h⟩ := Option.map_eq_some_iff.mp h
  obtain ⟨hshown, hhidden⟩ := of_decide_eq_true h
  exact ⟨source, root, hparse, hroot, hshown,
    landmark_has_one_node hparse hroot (by decide) hshown rfl, hhidden,
    landmark_has_one_node hparse hroot (by decide) hhidden rfl⟩

/-- The attribute in a formatted string behind another string has no node. -/
theorem attribute_in_strings_has_no_node :
    ∃ source root, Script.parse "x = \"a\" f\"\x7bdf.b\x7d\"\n" = some source ∧
      source.node = some root ∧ (∃ m ∈ source.outline, m.kind = some .attribute) ∧
      ∀ n ∈ root.walk, n.kind ≠ .attribute := by
  have h : ((Script.parse "x = \"a\" f\"\x7bdf.b\x7d\"\n").bind fun source =>
      source.node.map fun root => decide ((∃ m ∈ source.outline, m.kind = some .attribute) ∧
        ∀ n ∈ root.walk, n.kind ≠ .attribute)) = some true := by
    decide +kernel
  obtain ⟨source, hparse, h⟩ := Option.bind_eq_some_iff.mp h
  obtain ⟨root, hroot, h⟩ := Option.map_eq_some_iff.mp h
  exact ⟨source, root, hparse, hroot, of_decide_eq_true h⟩

end Framewise
