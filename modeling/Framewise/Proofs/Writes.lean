import Framewise.Proofs.Itinerary
import Framewise.Proofs.Stores

/-! # Writes

  Merges apart, the bindings of a scope change by writes: a name is bound to some
  facts. An assignment, the target of a loop, the parameters of a function and the
  name of a definition are lists of writes, and which names they bind can be read
  off the tree without knowing the facts.

  Main definitions:
  - `Tracker.write`, `Tracker.writeAll`: a write, and several in order.
  - `Node.targetNames`: the names that a target binds.
  - `Node.targetWrites`, `Node.assignedWrites`, `Node.definedWrites`,
    `Summary.parameterWrites`: the writes of each construct.

  Main results:
  - `Tracker.bindTarget_eq_writeAll`, `Tracker.bindAssignment_eq`,
    `Tracker.define_eq`, `Tracker.enterFunction_eq`.
  - `Tracker.local?_writeAll_of_notMem`, `Tracker.local?_writeAll_of_mem`: a write
    makes its name known and touches no other.
-/

namespace Framewise

/-- A name, and the facts to which it is bound. -/
abbrev Write := Ident × Facts

/-! ## The writes of a node -/

mutual

/-- The names that a target binds, in order. -/
def Node.targetNames : Node → List Ident
  | { kind := kind, name := name, children := cs, .. } =>
    match kind with
    | .name => [name]
    | .sequence => Node.elementNames cs
    | _ => []

/-- The names that the elements of an unpacking bind. -/
def Node.elementNames : List Node → List Ident
  | [] => []
  | c :: cs => c.targetNames ++ Node.elementNames cs

end

namespace Node

/-- The writes of a target: only a plain name is bound to the facts of the value. -/
def targetWrites (facts : Facts) (n : Node) : List Write :=
  n.targetNames.map fun name => (name, if n.kind = .name then facts else .unknown)

/-- The names that an assignment binds. -/
def assignedNames (n : Node) : List Ident := (n.childrenIn Role.target).flatMap targetNames

/-- The writes of an assignment, from the facts of its value. -/
def assignedWrites (facts : Facts) (n : Node) : List Write :=
  (n.childrenIn Role.target).flatMap (targetWrites facts)

/-- The write of a definition, which has none if it has no name. -/
def definedWrites (n : Node) : List Write :=
  match n.name with
  | some s => if s.isEmpty then [] else [(some s, .unknown)]
  | none => []

/-- The name that a definition binds. -/
def definedNames (n : Node) : List Ident := n.definedWrites.map (·.1)

theorem elementNames_eq (cs : List Node) : elementNames cs = cs.flatMap targetNames := by
  induction cs with
  | nil => rfl
  | cons c cs ih => rw [elementNames, ih, List.flatMap_cons]

theorem targetNames_eq (n : Node) :
    n.targetNames =
      match n.kind with
      | .name => [n.name]
      | .sequence => n.children.flatMap targetNames
      | _ => [] := by
  obtain ⟨kind, span, role, tag, name, literal, attrs, cs⟩ := n
  rw [targetNames.eq_def]
  cases kind with
  | name => rfl
  | sequence => exact elementNames_eq cs
  | _ => rfl

theorem targetWrites_names (facts : Facts) (n : Node) :
    (n.targetWrites facts).map (·.1) = n.targetNames := by
  simp [targetWrites, Function.comp_def]

theorem targetWrites_unknown (n : Node) :
    n.targetWrites .unknown = n.targetNames.map fun name => (name, .unknown) := by
  simp [targetWrites]

theorem assignedWrites_names (facts : Facts) (n : Node) :
    (n.assignedWrites facts).map (·.1) = n.assignedNames := by
  simp [assignedWrites, assignedNames, List.map_flatMap, targetWrites_names]

/-- A name that a target binds stands in it. -/
theorem mem_preorder_of_mem_targetNames {n : Node} {name : Ident} (h : name ∈ n.targetNames) :
    ∃ m ∈ n.preorder, m.kind = .name ∧ m.name = name := by
  induction n using Node.induction with
  | step n ih =>
    rw [targetNames_eq] at h
    split at h
    next hkind => exact ⟨n, n.self_mem_preorder, hkind, (List.mem_singleton.mp h).symm⟩
    next =>
      obtain ⟨c, hc, hname⟩ := List.mem_flatMap.mp h
      obtain ⟨m, hm, hkind, hm'⟩ := ih c hc hname
      exact ⟨m, mem_preorder_of_child hc hm, hkind, hm'⟩
    next => exact absurd h List.not_mem_nil

end Node

/-- The writes that bind the parameters of a function. -/
def Summary.parameterWrites (summary : Summary) : List Write :=
  summary.parameters.map fun name =>
    (some name, { origin := Summary.parameterOrigin summary.frameParameters name })

/-! ## Trackers -/

namespace Tracker

/-- Binds a name to facts. -/
def write (t : Tracker) (w : Write) : Tracker := t.bind w.1 w.2

/-- Several writes, in order. -/
def writeAll (t : Tracker) (ws : List Write) : Tracker := ws.foldl write t

theorem writeAll_flatMap {α : Type} (t : Tracker) (items : List α) (writes : α → List Write) :
    t.writeAll (items.flatMap writes) = items.foldl (fun t a => t.writeAll (writes a)) t :=
  List.foldl_flatMap ..

theorem bindTarget_eq_writeAll (t : Tracker) (facts : Facts) (n : Node) :
    t.bindTarget facts n = t.writeAll (n.targetWrites facts) := by
  induction n using Node.induction generalizing t facts with
  | step n ih =>
    rw [bindTarget_eq, Node.targetWrites, Node.targetNames_eq]
    cases hkind : n.kind with
    | name => rfl
    | sequence =>
      -- inside an unpacking nothing is known, whatever the value
      dsimp only
      rw [if_neg nofun, List.map_flatMap, writeAll_flatMap]
      refine List.foldl_ext _ _ _ fun t c hc => ?_
      rw [ih c hc, Node.targetWrites_unknown]
    | _ => rfl

theorem bindAssignment_eq (t : Tracker) (n : Node) :
    t.bindAssignment n =
      (t.assignedFacts n).map fun facts => t.writeAll (n.assignedWrites facts) := by
  unfold bindAssignment
  cases t.assignedFacts n with
  | error fault => rfl
  | ok facts =>
    simp only [Node.assignedWrites, Except.map, writeAll_flatMap, ← bindTarget_eq_writeAll]
    rfl

theorem define_eq (t : Tracker) (n : Node) : t.define n = t.writeAll n.definedWrites := by
  unfold define Node.definedWrites
  cases n.name with
  | none => rfl
  | some s =>
    dsimp only
    split <;> rfl

theorem enterFunction_eq (t : Tracker) (n : Node) :
    t.enterFunction n = (Summary.of n t.resolve).map fun summary =>
      (t.enter summary.name (some summary)).writeAll summary.parameterWrites := by
  unfold enterFunction
  cases Summary.of n t.resolve with
  | error fault => rfl
  | ok summary =>
    simp only [writeAll, Summary.parameterWrites, List.foldl_map]
    rfl

theorem write_sameScopes (t : Tracker) (w : Write) : t.SameScopes (t.write w) := .bind t w.1 w.2

theorem writeAll_sameScopes (t : Tracker) (ws : List Write) : t.SameScopes (t.writeAll ws) :=
  .foldl write_sameScopes ws t

/-! ### What is known after a write -/

theorem local?_write (t : Tracker) (w : Write) (name : Ident) :
    (t.write w).local? name =
      if name = w.1 then some { name := w.1, origin := w.2.origin, pinned := w.2.pinned }
      else t.local? name := Store.get?_put ..

theorem local?_writeAll_of_notMem (t : Tracker) {ws : List Write} {name : Ident}
    (h : name ∉ ws.map (·.1)) : (t.writeAll ws).local? name = t.local? name := by
  unfold writeAll
  induction ws generalizing t with
  | nil => rfl
  | cons w ws ih =>
    obtain ⟨hne, hrest⟩ := not_or.mp (mt List.mem_cons.mpr h)
    rw [List.foldl_cons, ih _ hrest, local?_write, if_neg hne]

theorem local?_writeAll_of_mem (t : Tracker) {ws : List Write} {name : Ident}
    (h : name ∈ ws.map (·.1)) : (t.writeAll ws).local? name ≠ none := by
  unfold writeAll
  induction ws generalizing t with
  | nil => exact absurd h List.not_mem_nil
  | cons w ws ih =>
    rw [List.foldl_cons]
    by_cases hrest : name ∈ ws.map (·.1)
    · exact ih _ hrest
    · -- no later write binds the name, so this one counts
      obtain rfl : name = w.1 := (List.mem_cons.mp h).resolve_right hrest
      have hlast := local?_writeAll_of_notMem (t.write w) hrest
      rw [writeAll, local?_write, if_pos rfl] at hlast
      rw [hlast]
      exact nofun

theorem lookup_of_local {t : Tracker} {name : Ident} {b : Binding} (h : t.local? name = some b) :
    t.lookup name = some b := by
  unfold Tracker.local? at h
  simp [lookup, scopes, h]

theorem resolve_of_local (t : Tracker) {name : Ident} {b : Binding} (h : t.local? name = some b)
    (hframe : b.isFrame = true) : t.resolve name = .ok (some b) := by
  unfold resolve
  rw [lookup_of_local h]
  simp [hframe]

end Tracker

end Framewise
