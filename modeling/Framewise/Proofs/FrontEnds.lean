import Framewise.Engine.Script
import Framewise.Proofs.Rendering
import Framewise.Proofs.RoundTrip
import Framewise.Proofs.TokenPlaces

/-! # Scripts and trees from outside

  The engine takes a script as text, or a tree from outside. A script whose tree is
  handed over in its object form is judged as if it were given as text: the tree is
  read back as it was, so that nothing a rule looks at is lost on the way.

  Two facts about the tree of a script are needed. All its lines and columns count
  from 1, because every node has the span of a piece of the script and the pieces
  stand where their tokens do. And it has at most `Node.depthLimit` levels: a higher
  tree is refused, so that a script with deeply nested operators can be given as text
  only.

  Main result: `front_ends_agree`.
-/

namespace Framewise

open Script

/-- A span between two positions that count from 1 counts from 1. -/
theorem Span.Within.countsFromOne {lo hi : Pos} {s : Span} (h : s.Within Numbered lo hi) :
    s.CountsFromOne :=
  ⟨h.start_valid.1, h.start_valid.2, h.stop_valid.1, h.stop_valid.2⟩

/-- The span of a whole script counts from 1. -/
theorem Script.root_span {code : String} {source : Source} {root : Node}
    (hparse : Script.parse code = some source) (hroot : source.node = some root) :
    root.span.CountsFromOne := by
  obtain ⟨lexed, -, hparse⟩ := Option.bind_eq_some_iff.mp hparse
  obtain ⟨body, -, hparse⟩ := Option.bind_eq_some_iff.mp hparse
  cases hparse
  obtain ⟨nodes, -, hnodes⟩ := Option.bind_eq_some_iff.mp hroot
  cases hnodes
  -- it ends in the line after the last glyph
  have hend : (1 : Int) ≤ lineAfter (glyphsOf code) := by
    unfold lineAfter
    omega
  show Span.CountsFromOne (if nodes.isEmpty then _ else _)
  split
  · exact ⟨le_rfl, le_rfl, le_rfl, le_rfl⟩
  · exact ⟨le_rfl, le_rfl, hend, le_rfl⟩

/-- All lines and columns of the tree of a script count from 1. -/
theorem Script.tree_countsFromOne {code : String} {source : Source} {root : Node}
    (hparse : Script.parse code = some source) (hroot : source.node = some root) :
    root.CountsFromOne := by
  intro n hn
  obtain ⟨hi, hlocated⟩ := parse_located hparse
  -- every node has the span of the whole script or of a piece of it
  obtain ⟨m, hm, hspan⟩ := (source_renders source root hroot).spans n (by simpa using hn)
  rw [← hspan]
  rcases List.mem_cons.mp hm with rfl | hm
  · exact root_span hparse hroot
  · exact (hlocated.within m hm).countsFromOne

/-- The tree of a script that is not too high is read back from its object form, and a run on the
    object form, with the text and the marks of the script, is the run on the script; a tree that
    is too high is refused because of its depth. -/
theorem front_ends_agree {code : String} {source : Source} {root : Node}
    (hparse : Script.parse code = some source) (hroot : source.node = some root) :
    (root.height ≤ Node.depthLimit →
      Node.ofValue root.toValue = .ok root ∧
      ∀ (e : Engine) (path : Option String) (readings : Nat),
        e.runTree root.toValue (some code) path (some (LineMarks.ofScript code).suppresses)
          readings = e.runScript code path readings) ∧
    (Node.depthLimit < root.height →
      ∃ place, Node.ofValue root.toValue = .error ⟨place, .tooDeep⟩) := by
  have hcounts := tree_countsFromOne hparse hroot
  constructor
  · intro hheight
    have hread : Node.ofValue root.toValue = .ok root := Node.readNode_of_height_le hcounts hheight
    refine ⟨hread, ?_⟩
    intro e path readings
    have hmarks : LineMarks.ofScript code = .ofComments source.comments := by
      simp only [LineMarks.ofScript, hparse]
    simp only [Engine.runTree, Engine.runScript, hread, hparse, hroot, hmarks]
    rfl
  · intro hheight
    exact Node.readNode_of_lt_height hcounts hheight

/-- An attribute in a comparison is judged alike in both forms. -/
theorem comparison_judged_alike :
    ∃ source root, Script.parse "df[df.a > b]  # noqa: FL001\n" = some source ∧
      source.node = some root ∧ root.height ≤ Node.depthLimit ∧
      Node.ofValue root.toValue = .ok root ∧
      ({} : Engine).runTree root.toValue (some "df[df.a > b]  # noqa: FL001\n") none
          (some (LineMarks.ofScript "df[df.a > b]  # noqa: FL001\n").suppresses) 0 =
        ({} : Engine).runScript "df[df.a > b]  # noqa: FL001\n" none 0 := by
  have h : ((Script.parse "df[df.a > b]  # noqa: FL001\n").bind fun source =>
      source.node.map fun root => decide (root.height ≤ Node.depthLimit)) = some true := by
    decide +kernel
  obtain ⟨source, hparse, h⟩ := Option.bind_eq_some_iff.mp h
  obtain ⟨root, hroot, h⟩ := Option.map_eq_some_iff.mp h
  have hheight := of_decide_eq_true h
  obtain ⟨hread, hruns⟩ := (front_ends_agree hparse hroot).1 hheight
  exact ⟨source, root, hparse, hroot, hheight, hread, hruns {} none 0⟩

/-- A script of signs in a row. -/
def signs (n : Nat) : String := String.ofList (List.replicate n '-' ++ ['x', '\n'])

/-- The tree of a script with 253 signs in a row is refused. -/
theorem deep_signs_refused :
    ∃ source root, Script.parse (signs 253) = some source ∧ source.node = some root ∧
      ∃ place, Node.ofValue root.toValue = .error ⟨place, .tooDeep⟩ := by
  have hglyphs : glyphsOf (signs 253) = glyphsFrom 1 1 (List.replicate 253 '-' ++ ['x', '\n']) := by
    rw [glyphsOf, signs, String.toList_ofList]
    rfl
  have h : ((Script.parse (signs 253)).bind fun source =>
      source.node.map fun root => decide (Node.depthLimit < root.height)) = some true := by
    simp only [Script.parse, lex, hglyphs]
    decide +kernel
  obtain ⟨source, hparse, h⟩ := Option.bind_eq_some_iff.mp h
  obtain ⟨root, hroot, h⟩ := Option.map_eq_some_iff.mp h
  exact ⟨source, root, hparse, hroot,
    Node.readNode_of_lt_height (tree_countsFromOne hparse hroot) (of_decide_eq_true h)⟩

end Framewise
