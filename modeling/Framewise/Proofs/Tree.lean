import Framewise.Node.Basic

/-! # The order of a tree

  The walks over a tree keep an explicit stack. Here they are compared with the
  recursive order, in which a node stands before its descendants and siblings
  stand in their order. Below a pruned node nothing is listed.

  Main definitions:
  - `Node.prunedOrder`, `Node.preorder`: the recursive orders.
  - `Node.at?`: the node at an address, a list of child numbers from the root.

  Main results:
  - `Node.induction`: induction over trees, with the children as hypotheses.
  - `Node.walkStack_eq`: a stack walk lists the recursive order.
-/

namespace Framewise.Node

/-! ## Induction -/

theorem sizeOf_child_lt {n c : Node} (h : c ∈ n.children) : sizeOf c < sizeOf n := by
  have hlt := List.sizeOf_lt_of_mem h
  cases n
  -- the list of children is one field of the record
  simp only [mk.sizeOf_spec] at *
  omega

/-- What follows for a node from its children holds for every tree. -/
theorem induction {P : Node → Prop} (step : ∀ n, (∀ c ∈ n.children, P c) → P n) (n : Node) :
    P n :=
  step n fun c hc =>
    have := sizeOf_child_lt hc
    induction step c
termination_by sizeOf n

/-! ## Size -/

theorem size_eq (n : Node) : n.size = 1 + sizeAll n.children := by
  cases n
  rw [size]

theorem size_pos (n : Node) : 0 < n.size := by
  rw [size_eq]
  omega

theorem sizeAll_append (cs ds : List Node) : sizeAll (cs ++ ds) = sizeAll cs + sizeAll ds := by
  induction cs with
  | nil => simp [sizeAll]
  | cons c cs ih =>
    simp only [List.cons_append, sizeAll, ih]
    omega

/-! ## Orders -/

mutual

/-- The nodes of a tree from the root down, without what lies below a pruned node. -/
def prunedOrder (prune : Node → Bool) : Node → List Node
  | n@{ children := cs, .. } => n :: if prune n then [] else prunedOrderAll prune cs

/-- The same of several trees, one after the other. -/
def prunedOrderAll (prune : Node → Bool) : List Node → List Node
  | [] => []
  | c :: cs => prunedOrder prune c ++ prunedOrderAll prune cs

end

/-- The nodes of a tree, each before its descendants. -/
def preorder (n : Node) : List Node := n.prunedOrder fun _ => false

theorem prunedOrderAll_eq (prune : Node → Bool) (cs : List Node) :
    prunedOrderAll prune cs = cs.flatMap (prunedOrder prune) := by
  induction cs with
  | nil => rfl
  | cons c cs ih => simp [prunedOrderAll, ih]

theorem prunedOrder_eq (prune : Node → Bool) (n : Node) :
    n.prunedOrder prune =
      n :: if prune n then [] else n.children.flatMap (prunedOrder prune) := by
  cases n
  rw [prunedOrder, prunedOrderAll_eq]

theorem preorder_eq (n : Node) : n.preorder = n :: n.children.flatMap preorder := by
  unfold preorder
  rw [prunedOrder_eq]
  rfl

theorem self_mem_preorder (n : Node) : n ∈ n.preorder := by
  rw [preorder_eq]
  exact List.mem_cons_self

theorem mem_preorder_of_child {n c m : Node} (hc : c ∈ n.children) (hm : m ∈ c.preorder) :
    m ∈ n.preorder := by
  rw [preorder_eq]
  exact List.mem_cons_of_mem _ (List.mem_flatMap.mpr ⟨c, hc, hm⟩)

/-- What holds of a node and below each of its children holds in its tree. -/
theorem forall_preorder_iff {P : Node → Prop} {n : Node} :
    (∀ m ∈ n.preorder, P m) ↔ P n ∧ ∀ c ∈ n.children, ∀ m ∈ c.preorder, P m := by
  rw [preorder_eq, List.forall_mem_cons, List.forall_mem_flatMap]

/-- What lies below a node of a tree lies in the tree. -/
theorem mem_preorder_trans {n m k : Node} (hm : m ∈ n.preorder) (hk : k ∈ m.preorder) :
    k ∈ n.preorder := by
  induction n using induction with
  | step n ih =>
    rw [preorder_eq] at hm
    rcases List.mem_cons.mp hm with rfl | hm
    · exact hk
    · obtain ⟨c, hc, hmc⟩ := List.mem_flatMap.mp hm
      exact mem_preorder_of_child hc (ih c hc hmc)

/-- Induction with everything below a node as hypothesis. -/
theorem descent {P : Node → Prop}
    (step : ∀ n, (∀ c ∈ n.children, ∀ m ∈ c.preorder, P m) → P n) (n : Node) : P n := by
  -- the statement for the node alone is too weak for its parent
  suffices h : ∀ m ∈ n.preorder, P m from h n (self_mem_preorder n)
  induction n using induction with
  | step n ih =>
    exact forall_preorder_iff.mpr ⟨step n ih, ih⟩

theorem prunedOrder_subset (prune : Node → Bool) (n : Node) :
    n.prunedOrder prune ⊆ n.preorder := by
  induction n using induction with
  | step n ih =>
    intro m hm
    rw [prunedOrder_eq] at hm
    rcases List.mem_cons.mp hm with rfl | hm
    · exact self_mem_preorder m
    · split at hm
      · exact absurd hm List.not_mem_nil
      · obtain ⟨c, hc, hmc⟩ := List.mem_flatMap.mp hm
        exact mem_preorder_of_child hc (ih c hc hmc)

/-! ## Walks -/

/-- With a step for every node on the stack and below, a stack walk lists the recursive order
    of the stack's trees. -/
theorem walkStack_eq (prune : Node → Bool) (steps : Nat) (stack : List Node)
    (h : sizeAll stack ≤ steps) :
    walkStack prune steps stack = stack.flatMap (prunedOrder prune) := by
  induction steps generalizing stack with
  | zero =>
    cases stack with
    | nil => rfl
    | cons n stack =>
      -- a tree on the stack needs a step of its own
      have hpos := size_pos n
      simp only [sizeAll] at h
      omega
  | succ steps ih =>
    cases stack with
    | nil => rfl
    | cons n stack =>
      simp only [sizeAll, size_eq n] at h
      rw [walkStack, List.flatMap_cons, prunedOrder_eq]
      -- the children of the top go onto the stack, unless it is pruned
      by_cases hp : prune n
      · rw [if_pos hp, if_pos hp, ih stack (by omega)]
        rfl
      · rw [if_neg hp, if_neg hp, ih _ (by rw [sizeAll_append]; omega), List.flatMap_append]
        rfl

/-- The walk over a tree lists its nodes in the recursive order. -/
theorem walk_eq_preorder (n : Node) : n.walk = n.preorder := by
  unfold walk
  rw [walkStack_eq _ _ _ (by simp [sizeAll])]
  simp [preorder]

/-- The local nodes of a function are those of its bodies, down to nested scopes. -/
theorem localNodes_eq (function : Node) :
    function.localNodes = (function.childrenIn Role.body).flatMap (prunedOrder opensScope) := by
  unfold localNodes
  exact walkStack_eq _ _ _ (Nat.le_refl _)

theorem localNodes_subset_preorder (function : Node) :
    function.localNodes ⊆ function.preorder := by
  intro m hm
  rw [localNodes_eq] at hm
  obtain ⟨c, hc, hmc⟩ := List.mem_flatMap.mp hm
  exact mem_preorder_of_child (List.mem_filter.mp hc).1 (prunedOrder_subset _ c hmc)

/-! ## Addresses -/

/-- The node at an address: the numbers of the children to take from the root down. -/
def at? : Node → List Nat → Option Node
  | n, [] => some n
  | n, i :: address => n.children[i]?.bind fun c => c.at? address

/-! ## Children by role -/

theorem child?_mem {n c : Node} {role : String} (h : n.child? role = some c) :
    c ∈ n.children := List.mem_of_find?_eq_some h

theorem mem_of_mem_childrenIn {n c : Node} {role : String} (h : c ∈ n.childrenIn role) :
    c ∈ n.children := (List.mem_filter.mp h).1

end Framewise.Node
