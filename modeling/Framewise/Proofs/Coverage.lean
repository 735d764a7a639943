import Framewise.Proofs.PathSoundness
import Framewise.Proofs.ScriptTree

/-! # Coverage

  No walk applies the rules twice at one place of a tree. A tree that is read from
  a file may hold places that no walk comes to; the tree of a script does not:
  there the walk meets no fault, and it comes to every node.

  Main result: `rules_applied_once`.
-/

namespace Framewise

theorem Node.WellBuilt.balanced {n : Node} (h : n.WellBuilt) : ∀ m ∈ n.preorder, m.Balanced :=
  fun m hm => (h m hm).balanced

theorem Node.WellBuilt.named {n : Node} (h : n.WellBuilt) : n.Named :=
  fun m hm => (h m hm).named

/-- A visit applies the rules at the stops of the itinerary. The stops are nodes of the tree, and
    no two of them are the same. If the tree is that of a script, the visit meets no fault and
    the stops are all nodes of the tree. -/
theorem rules_applied_once (root : Node) :
    (∀ (survey : Survey) (walk : Walk), walk.tracker = .start →
      Follows survey (visit survey none root) walk (itinerary root).stops (itinerary root).result
        fun _ t last => t = last) ∧
    ((itinerary root).stops.map (·.address)).Nodup ∧
    (∀ stop ∈ (itinerary root).stops, root.at? stop.address = some stop.site.node) ∧
    ∀ script : Script.Source, script.node = some root →
      (∃ last, (itinerary root).result = .ok last) ∧
      ((itinerary root).stops.map (·.site.node)).Perm root.walk := by
  refine ⟨?_, stops_nodup root, fun _ => at_stop, fun script hscript => ?_⟩
  · intro survey walk hwalk
    have h := (visit_follows survey [] none root).follows walk
    rw [hwalk] at h
    exact h
  · -- names keep the tracker from faults, and balance keeps the route from leaving nodes out
    have hbuilt : root.WellBuilt := Script.source_wellBuilt script root hscript
    obtain ⟨last, hlast⟩ := itinerary_ok hbuilt.named
    refine ⟨⟨last, hlast⟩, ?_⟩
    have hplaces := (itinerary_perm hlast hbuilt.balanced).map (·.site.node)
    rw [List.map_map, Node.places_nodes, ← Node.walk_eq_preorder] at hplaces
    exact hplaces

/-- `if a: b` with a further condition `c: d` and an alternative `e`. -/
def chainedConditions : Script.Source :=
  let span : Span := ⟨1, 1, 1, 1⟩
  let use (id : String) : Script.Stmt := .expression span (.name span id)
  let body (id : String) : Script.Block := .mk span .inline [use id]
  { body := [.if span (.name span "a") (body "b")
      (.chained (.if span (.name span "c") (body "d") (.clause span [use "e"])))]
    endLine := 1
    comments := [] }

theorem rules_applied_once_in_chain :
    ∃ root, chainedConditions.node = some root ∧ root.walk.length = 14 ∧
      ((itinerary root).stops.map (·.address)).Nodup ∧
      ((itinerary root).stops.map (·.site.node)).Perm root.walk := by
  obtain ⟨root, hroot, hlength⟩ :
      ∃ root, chainedConditions.node = some root ∧ root.walk.length = 14 := ⟨_, rfl, rfl⟩
  obtain ⟨_, hnodup, _, hcover⟩ := rules_applied_once root
  exact ⟨root, hroot, hlength, hnodup, (hcover chainedConditions hroot).2⟩

end Framewise
