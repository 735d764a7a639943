import Framewise.Proofs.Tree
import Mathlib.Data.List.Basic

/-! # Walks in the order of addresses

  A walk takes nodes from a stack and puts their children on it. What it lists can be
  said without the stack: every node has an address, the numbers of the children that
  lead to it, and the addresses in the order of lists are the tree from the root down,
  each node before its descendants and siblings in order. So a walk lists the nodes at
  the addresses it comes to, in that order and each once.

  Main definitions:
  - `Node.Comes`: an address with no pruned node above it.
  - `Node.ListsAt`: nodes listed by their addresses.

  Main result: `Node.walks_follow_addresses`.
-/

namespace Framewise.Node

variable {prune : Node → Bool} {n c : Node}

/-! ## Addresses -/

/-- A walk comes to an address if there is a node and no node above it is pruned. -/
def Comes (prune : Node → Bool) (n : Node) (address : List Nat) : Prop :=
  (n.at? address).isSome ∧
    ∀ above below, address = above ++ below → below ≠ [] → ∀ m ∈ n.at? above, prune m = false

theorem comes_nil : Comes prune n [] := by
  refine ⟨rfl, fun above below h hne => ?_⟩
  exact absurd (List.append_eq_nil_iff.mp h.symm).2 hne

/-- A walk comes to an address below a node through a child, if the node is not pruned. -/
theorem comes_cons {i : Nat} {address : List Nat} :
    Comes prune n (i :: address) ↔
      prune n = false ∧ ∃ c ∈ n.children[i]?, Comes prune c address := by
  constructor
  · rintro ⟨hsome, habove⟩
    obtain ⟨m, hm⟩ := Option.isSome_iff_exists.mp hsome
    obtain ⟨c, hc, hm⟩ := Option.bind_eq_some_iff.mp hm
    refine ⟨habove [] (i :: address) rfl (List.cons_ne_nil _ _) n rfl, c, hc, ?_, ?_⟩
    · rw [hm]
      rfl
    · intro above below heq hne m hm
      refine habove (i :: above) below (congrArg (i :: ·) heq) hne m ?_
      exact Option.bind_eq_some_iff.mpr ⟨c, hc, hm⟩
  · rintro ⟨hprune, c, hc, hsome, habove⟩
    have hat : ∀ rest, n.at? (i :: rest) = c.at? rest := by
      intro rest
      rw [at?, hc]
      rfl
    refine ⟨by rw [hat]; exact hsome, fun above below heq hne m hm => ?_⟩
    cases above with
    | nil =>
      cases hm
      exact hprune
    | cons j above =>
      obtain ⟨rfl, hrest⟩ := List.cons.inj heq
      rw [hat] at hm
      exact habove above below hrest hne m hm

/-- Without pruning a walk comes to every node. -/
theorem comes_iff_isSome {address : List Nat} :
    Comes (fun _ => false) n address ↔ (n.at? address).isSome :=
  ⟨And.left, fun h => ⟨h, fun _ _ _ _ _ _ => rfl⟩⟩

/-! ## Lists of nodes -/

/-- Nodes that stand at the addresses that pass a test, in the order of the addresses. -/
def ListsAt (at? : List Nat → Option Node) (passes : List Nat → Prop) (nodes : List Node) : Prop :=
  ∃ addresses : List (List Nat), addresses.Pairwise (· < ·) ∧
    (∀ address, address ∈ addresses ↔ passes address) ∧ nodes.map some = addresses.map at?

/-- The node at an address in a forest whose trees are numbered from `k` on. -/
def forestAt? (cs : List Node) (k : Nat) : List Nat → Option Node
  | [] => none
  | i :: rest => cs[i - k]?.bind fun c => c.at? rest

/-- The addresses of a forest that lead through a tree to be kept. -/
def ForestComes (prune keep : Node → Bool) (cs : List Node) (k : Nat) (address : List Nat) : Prop :=
  ∃ i rest, address = (k + i) :: rest ∧ ∃ c ∈ cs[i]?, keep c = true ∧ Comes prune c rest

/-- In a forest the addresses of the first tree come before all others. -/
theorem forestComes_cons {keep : Node → Bool} {cs : List Node} {k : Nat} {address : List Nat} :
    ForestComes prune keep (c :: cs) k address ↔
      (keep c = true ∧ ∃ rest, address = k :: rest ∧ Comes prune c rest) ∨
        ForestComes prune keep cs (k + 1) address := by
  have hnumber : ∀ i, k + 1 + i = k + (i + 1) := fun i => by omega
  constructor
  · rintro ⟨i, rest, heq, d, hd, hkeep, hcomes⟩
    cases i with
    | zero =>
      cases hd
      exact .inl ⟨hkeep, rest, heq, hcomes⟩
    | succ i => exact .inr ⟨i, rest, by rw [heq, hnumber], d, hd, hkeep, hcomes⟩
  · rintro (⟨hkeep, rest, heq, hcomes⟩ | ⟨i, rest, heq, d, hd, hkeep, hcomes⟩)
    · exact ⟨0, rest, heq, c, rfl, hkeep, hcomes⟩
    · exact ⟨i + 1, rest, by rw [heq, hnumber], d, hd, hkeep, hcomes⟩

theorem forest_listsAt (keep : Node → Bool) (cs : List Node) (k : Nat)
    (h : ∀ c ∈ cs, ListsAt c.at? (Comes prune c) (c.prunedOrder prune)) :
    ListsAt (forestAt? cs k) (ForestComes prune keep cs k)
      ((cs.filter keep).flatMap (prunedOrder prune)) := by
  induction cs generalizing k with
  | nil => exact ⟨[], .nil, by simp [ForestComes], rfl⟩
  | cons c cs ih =>
    obtain ⟨later, hsorted, hmem, hmap⟩ := ih (k + 1) fun d hd => h d (List.mem_cons_of_mem _ hd)
    have hlarger : ∀ address ∈ later, ∃ i rest, address = (k + 1 + i) :: rest := by
      intro address haddress
      obtain ⟨i, rest, heq, -⟩ := (hmem address).mp haddress
      exact ⟨i, rest, heq⟩
    have hlater : later.map (forestAt? cs (k + 1)) = later.map (forestAt? (c :: cs) k) := by
      refine List.map_congr_left fun address haddress => ?_
      obtain ⟨i, rest, rfl⟩ := hlarger address haddress
      have hi : k + 1 + i - k = i + 1 := by omega
      simp [forestAt?, hi]
    by_cases hkeep : keep c = true
    · obtain ⟨own, hsortedOwn, hmemOwn, hmapOwn⟩ := h c List.mem_cons_self
      refine ⟨own.map (k :: ·) ++ later, List.pairwise_append.mpr ⟨?_, hsorted, ?_⟩,
        fun address => ?_, ?_⟩
      · exact hsortedOwn.map _ fun a b hab => List.cons_lt_cons_self.mpr hab
      · intro a ha b hb
        obtain ⟨rest, -, rfl⟩ := List.mem_map.mp ha
        obtain ⟨i, rest', rfl⟩ := hlarger b hb
        exact List.cons_lt_cons_iff.mpr (.inl (by omega))
      · rw [List.mem_append, List.mem_map, forestComes_cons, hmem]
        simp [hkeep, hmemOwn, and_comm, eq_comm]
      · rw [List.filter_cons_of_pos hkeep, List.flatMap_cons, List.map_append, hmapOwn, hmap,
          hlater, List.map_append, List.map_map]
        congr 1
        refine List.map_congr_left fun rest _ => ?_
        simp [forestAt?]
    · refine ⟨later, hsorted, fun address => ?_, ?_⟩
      · rw [hmem, forestComes_cons]
        simp [hkeep]
      · rw [List.filter_cons_of_neg hkeep, hmap, hlater]

/-- At its own address a tree has the nodes that its children have as a forest. -/
theorem ListsAt.below {keep : Node → Bool} {nodes : List Node}
    (h : ListsAt (forestAt? n.children 0) (ForestComes prune keep n.children 0) nodes) :
    ListsAt n.at? (ForestComes prune keep n.children 0) nodes := by
  obtain ⟨addresses, hsorted, hmem, hmap⟩ := h
  refine ⟨addresses, hsorted, hmem, hmap.trans (List.map_congr_left fun address haddress => ?_)⟩
  obtain ⟨i, rest, rfl, -⟩ := (hmem address).mp haddress
  simp [forestAt?, at?]

/-- The recursive order lists the nodes by their addresses. -/
theorem prunedOrder_listsAt (prune : Node → Bool) (n : Node) :
    ListsAt n.at? (Comes prune n) (n.prunedOrder prune) := by
  induction n using induction with
  | step n ih =>
    rw [prunedOrder_eq]
    by_cases hprune : prune n = true
    · refine ⟨[[]], List.pairwise_singleton _ _, fun address => ?_, by simp [hprune, at?]⟩
      cases address with
      | nil => simpa using comes_nil
      | cons i address => simp [comes_cons, hprune]
    · obtain ⟨below, hsorted, hmem, hmap⟩ := (forest_listsAt (fun _ => true) n.children 0 ih).below
      refine ⟨[] :: below, List.pairwise_cons.mpr ⟨fun b hb => ?_, hsorted⟩, fun address => ?_, ?_⟩
      · obtain ⟨i, rest, rfl, -⟩ := (hmem b).mp hb
        exact List.nil_lt_cons _ _
      · cases address with
        | nil => simpa using comes_nil
        | cons i address => simp [comes_cons, hmem, ForestComes, hprune]
      · rw [if_neg hprune, List.map_cons, List.map_cons, ← hmap, List.filter_true]
        rfl

/-! ## The two walks -/

/-- The addresses of the local nodes of a function: through a child that is a body, and then past
    no node that opens a scope. -/
def ComesLocally (function : Node) (address : List Nat) : Prop :=
  ∃ i rest, address = i :: rest ∧
    ∃ c ∈ function.children[i]?, c.role = Role.body ∧ Comes opensScope c rest

theorem localNodes_listsAt (function : Node) :
    ListsAt function.at? (ComesLocally function) function.localNodes := by
  obtain ⟨addresses, hsorted, hmem, hmap⟩ :=
    (forest_listsAt (fun c => c.role = Role.body) function.children 0
      fun c _ => prunedOrder_listsAt opensScope c).below
  refine ⟨addresses, hsorted, fun address => ?_, ?_⟩
  · rw [hmem]
    simp [ForestComes, ComesLocally]
  · rw [localNodes_eq]
    exact hmap

/-- The walk over a tree is its recursive order, and the walk over a function is that of its
    bodies with nothing below a nested function or class. Both list what stands at the addresses
    they come to, in the order of the addresses, and more steps would list nothing more. -/
theorem walks_follow_addresses (n : Node) :
    (n.walk = n.preorder ∧ ListsAt n.at? (fun address => (n.at? address).isSome) n.walk ∧
      ∀ more, walkStack (fun _ => false) (n.size + more) [n] = n.walk) ∧
    n.localNodes = (n.childrenIn Role.body).flatMap (prunedOrder opensScope) ∧
      ListsAt n.at? (ComesLocally n) n.localNodes ∧
      ∀ more, walkStack opensScope (sizeAll (n.childrenIn Role.body) + more)
        (n.childrenIn Role.body) = n.localNodes := by
  have hwalk : ListsAt n.at? (fun address => (n.at? address).isSome) n.walk := by
    obtain ⟨addresses, hsorted, hmem, hmap⟩ := prunedOrder_listsAt (fun _ => false) n
    rw [walk_eq_preorder]
    exact ⟨addresses, hsorted, fun address => (hmem address).trans comes_iff_isSome, hmap⟩
  refine ⟨⟨walk_eq_preorder n, hwalk, fun more => ?_⟩, localNodes_eq n, localNodes_listsAt n,
    fun more => ?_⟩
  · rw [walkStack_eq _ _ _ (by simp [sizeAll]), walk_eq_preorder]
    simp [preorder]
  · rw [walkStack_eq _ _ _ (Nat.le_add_right _ _), localNodes_eq]

end Framewise.Node
