import Framewise.Proofs.Route

/-! # Nodes that leave the tracker alone

  Functions, classes, branches and assignments are the nodes at which a walk does
  something to the tracker. At any other node it only visits the children. A tree
  without such nodes is passed with one and the same tracker, and the walk stops at
  all its places.

  Main definitions:
  - `NodeKind.isPlain`: at a node of the kind only the children are visited.
  - `Node.Still`: a tree of such nodes.

  Main results:
  - `tour_of_plain`: at such a node the children are visited one after the other.
  - `tour_of_still`, `tour_of_still_assignment`.
-/

namespace Framewise

/-- At a node of the kind a walk only visits the children. -/
def NodeKind.isPlain : NodeKind → Bool
  | .functionDef | .classDef | .branch | .assignment => false
  | _ => true

/-- A tree of nodes at which a walk only visits the children. -/
def Node.Still (n : Node) : Prop := ∀ m ∈ n.preorder, m.kind.isPlain = true

instance (n : Node) : Decidable n.Still :=
  inferInstanceAs (Decidable (∀ m ∈ n.preorder, m.kind.isPlain = true))

theorem Node.Still.child {n c : Node} (h : n.Still) (hc : c ∈ n.children) : c.Still :=
  fun m hm => h m (Node.mem_preorder_of_child hc hm)

theorem passage_of_plain {α : Type} (s : Steps α) {n : Node} (h : n.kind.isPlain = true)
    (calls : List (Node × α)) : s.passage n calls = s.chain (calls.map (·.2)) := by
  unfold Steps.passage Steps.callsWhere
  cases hkind : n.kind with
  | functionDef => simp [hkind, NodeKind.isPlain] at h
  | classDef => simp [hkind, NodeKind.isPlain] at h
  | branch => simp [hkind, NodeKind.isPlain] at h
  | assignment => simp [hkind, NodeKind.isPlain] at h
  | _ => simp

theorem Leg.andThen_assoc (a b c : Leg) : (a.andThen b).andThen c = a.andThen (b.andThen c) := by
  funext t
  cases ha : (a t).result with
  | error fault =>
    have hab : (a.andThen b t).result = .error fault := by rw [andThen_error ha]
    rw [andThen_error ha, andThen_error hab, andThen_error ha]
  | ok m =>
    have hab : (a.andThen b t).result = (b m).result := by rw [andThen_ok ha]
    rw [andThen_ok ha]
    cases hb : (b m).result with
    | error fault => rw [andThen_error (hab.trans hb), andThen_error hb, andThen_ok ha]
    | ok m' =>
      rw [andThen_ok (hab.trans hb), andThen_ok hb, andThen_ok ha, List.append_assoc]

/-- The walk over several children of a node, given by their numbers. -/
def tourAll (fork : Fork) (address : List Nat) (n : Node) (items : List (Node × Nat)) : Leg :=
  (legSteps (fork address)).chain
    (items.map fun p => tour fork (address ++ [p.2]) (some n) p.1)

section Tours

variable (fork : Fork) (address : List Nat) (parent : Option Node) (n : Node)

theorem tourAll_cons (p : Node × Nat) (items : List (Node × Nat)) :
    tourAll fork address n (p :: items) =
      (tour fork (address ++ [p.2]) (some n) p.1).andThen (tourAll fork address n items) := rfl

theorem tourAll_append (items more : List (Node × Nat)) :
    tourAll fork address n (items ++ more) =
      (tourAll fork address n items).andThen (tourAll fork address n more) := by
  induction items with
  | nil => rfl
  | cons p items ih => rw [List.cons_append, tourAll_cons, tourAll_cons, ih, Leg.andThen_assoc]

theorem tour_of_plain (h : n.kind.isPlain = true) (t : Tracker) :
    tour fork address parent n t =
      let rest := tourAll fork address n n.children.zipIdx t
      ⟨{ address := address, site := { node := n, parent := parent }, tracker := t } ::
        rest.stops, rest.result⟩ := by
  rw [tour_eq, passage_of_plain _ h, tourCalls_eq, List.map_map]
  rfl

/-- An assignment is made after its children have been visited. -/
theorem tour_of_assignment (h : n.kind = .assignment) (t : Tracker) :
    tour fork address parent n t =
      let rest := (tourAll fork address n n.children.zipIdx).andThen
        (.change fun t => t.bindAssignment n) t
      ⟨{ address := address, site := { node := n, parent := parent }, tracker := t } ::
        rest.stops, rest.result⟩ := by
  have hcalls : Steps.callsWhere (fun _ => true) (tourCalls fork address n 0 n.children) =
      n.children.zipIdx.map fun p => tour fork (address ++ [p.2]) (some n) p.1 := by
    simp [Steps.callsWhere, tourCalls_eq, Function.comp_def]
  rw [tour_eq]
  simp only [Steps.passage, h, hcalls]
  rfl

/-- Children that are passed with one tracker, one after the other. -/
theorem tourAll_of_forall {items : List (Node × Nat)} {t : Tracker}
    (h : ∀ p ∈ items, tour fork (address ++ [p.2]) (some n) p.1 t =
      ⟨(p.1.places (address ++ [p.2]) (some n)).map fun place =>
        { toPlace := place, tracker := t }, .ok t⟩) :
    tourAll fork address n items t =
      ⟨(items.flatMap fun p => p.1.places (address ++ [p.2]) (some n)).map fun place =>
        { toPlace := place, tracker := t }, .ok t⟩ := by
  induction items with
  | nil => rfl
  | cons p items ih =>
    obtain ⟨hfirst, hrest⟩ := List.forall_mem_cons.mp h
    have hok : (tour fork (address ++ [p.2]) (some n) p.1 t).result = .ok t := by rw [hfirst]
    rw [tourAll_cons, Leg.andThen_ok hok, hfirst, ih hrest, List.flatMap_cons, List.map_append]

end Tours

/-- A still tree is passed with one tracker, and at every place of it the rules are applied. -/
theorem tour_of_still (fork : Fork) (address : List Nat) (parent : Option Node) {n : Node}
    (h : n.Still) (t : Tracker) :
    tour fork address parent n t =
      ⟨(n.places address parent).map fun place => { toPlace := place, tracker := t }, .ok t⟩ := by
  induction n using Node.induction generalizing address parent with
  | step n ih =>
    rw [tour_of_plain _ _ _ _ (h n n.self_mem_preorder), Node.places_eq, tourAll_of_forall]
    · rfl
    · intro p hp
      have hc : p.1 ∈ n.children := List.fst_mem_of_mem_zipIdx hp
      exact ih p.1 hc (address ++ [p.2]) (some n) (h.child hc)

/-- An assignment with nothing but expressions in it is passed with one tracker and then made. -/
theorem tour_of_still_assignment (fork : Fork) (address : List Nat) (parent : Option Node)
    {n : Node} (hkind : n.kind = .assignment) (hbelow : ∀ c ∈ n.children, c.Still) (t : Tracker) :
    tour fork address parent n t =
      ⟨(n.places address parent).map fun place => { toPlace := place, tracker := t },
        t.bindAssignment n⟩ := by
  have hchildren : tourAll fork address n n.children.zipIdx t = _ :=
    tourAll_of_forall fork address n fun p hp =>
      tour_of_still fork _ _ (hbelow p.1 (List.fst_mem_of_mem_zipIdx hp)) t
  have hok : (tourAll fork address n n.children.zipIdx t).result = .ok t := by rw [hchildren]
  rw [tour_of_assignment _ _ _ _ hkind, Leg.andThen_ok hok, hchildren, Node.places_eq]
  simp [Leg.change]

end Framewise
