import Framewise.Binding.Tracker
import Framewise.Proofs.Success
import Framewise.Proofs.Tree

/-! # Classification and what is known of names

  A resolver that knows less gives weaker facts: where it says that an expression
  is a frame, a resolver that knows more says the same. The facts of an
  expression are read off the facts of its receiver, so the comparison goes along
  receivers.

  Main definitions:
  - `Facts.Abstracts`: what the first facts say of a frame the second say too.
  - `Resolver.Abstracts`: the same of two resolvers, for every name.
  - `Node.Named`: every node of kind `name` in a tree has a name.
  - `Reading`: how facts are read off those of a receiver.

  Main results:
  - `classify_induction`: the facts of an expression come from names by readings.
  - `classify_abstracts`: a resolver that knows less gives weaker facts.
-/

namespace Framewise

/-! ## The facts of an expression -/

theorem receiverFacts_eq (resolve : Resolver) (n : Node) :
    receiverFacts resolve n.children = frameFacts resolve (n.child? Role.receiver) := by
  unfold Node.child?
  induction n.children with
  | nil => rw [receiverFacts]; rfl
  | cons c cs ih =>
    rw [receiverFacts]
    by_cases hrole : c.role = Role.receiver
    · simp [hrole, frameFacts]
    · simpa [hrole] using ih

theorem methodReceiverFacts_eq (resolve : Resolver) (n : Node) :
    methodReceiverFacts resolve n.children = frameFacts resolve (Frame.methodReceiver n) := by
  unfold Frame.methodReceiver
  rw [show n.child? Role.func = n.children.find? fun c => c.role = Role.func from rfl]
  induction n.children with
  | nil => rw [methodReceiverFacts]; rfl
  | cons c cs ih =>
    have hinner := receiverFacts_eq resolve c
    cases c with
    | mk kind span role tag name literal attrs inner =>
      rw [methodReceiverFacts]
      by_cases hrole : role = Role.func
      · by_cases hkind : kind = .attribute
        · simpa [hrole, hkind] using hinner
        · simp [hrole, hkind, frameFacts]
      · simpa [hrole] using ih

theorem accessedFacts_eq (resolve : Resolver) (n : Node) {receiver : Node}
    (h : n.child? Role.receiver = some receiver) :
    accessedFacts resolve n.children = frameFacts resolve (receiver.child? Role.receiver) := by
  unfold Node.child? at h
  revert h
  induction n.children with
  | nil => exact nofun
  | cons c cs ih =>
    have hinner := receiverFacts_eq resolve c
    cases c with
    | mk kind span role tag name literal attrs inner =>
      intro h
      rw [accessedFacts]
      by_cases hrole : role = Role.receiver
      · simp only [hrole, List.find?_cons, decide_true, Option.some.injEq] at h
        subst h
        simpa [hrole] using hinner
      · simp only [hrole, List.find?_cons, decide_false] at h
        simpa [hrole] using ih h

/-- The facts of a call, from the facts of its receiver. -/
theorem classify_call (resolve : Resolver) {n : Node} (hkind : n.kind = .call) :
    classify resolve n =
      match Frame.calleeName n with
      | none => .ok .unknown
      | some callee => (frameFacts resolve (Frame.methodReceiver n)).map (callFacts n callee) := by
  rw [← methodReceiverFacts_eq]
  cases n
  cases hkind
  rw [classify.eq_def]
  rfl

/-- The facts of a subscript, from the facts of its receiver, or of what the receiver accesses. -/
theorem classify_subscript (resolve : Resolver) {n : Node} (hkind : n.kind = .subscript) :
    classify resolve n =
      match n.child? Role.receiver, n.child? Role.index with
      | some receiver, some index =>
        if receiver.kind = .attribute && Frame.listed Frame.rowAccessors receiver.name then
          (frameFacts resolve (receiver.child? Role.receiver)).map
            (accessorFacts receiver.name index)
        else (frameFacts resolve (some receiver)).map (selectionFacts index)
      | _, _ => .ok .unknown := by
  have hunfold : classify resolve n =
      match n.child? Role.receiver, n.child? Role.index with
      | some receiver, some index =>
        if receiver.kind = .attribute && Frame.listed Frame.rowAccessors receiver.name then
          (accessedFacts resolve n.children).map (accessorFacts receiver.name index)
        else (receiverFacts resolve n.children).map (selectionFacts index)
      | _, _ => .ok .unknown := by
    cases n
    cases hkind
    rw [classify.eq_def]
    rfl
  rw [hunfold, receiverFacts_eq]
  -- what the receiver accesses is read off the children again, so it has to be found among them
  cases hreceiver : n.child? Role.receiver with
  | none => rfl
  | some receiver =>
    rw [accessedFacts_eq resolve n hreceiver]
    cases n.child? Role.index with
    | none => rfl
    | some index => rfl

theorem classify_name (resolve : Resolver) {n : Node} (hkind : n.kind = .name) :
    classify resolve n = (resolve n.name).map factsOf := by
  cases n
  cases hkind
  rw [classify.eq_def]
  rfl

theorem classify_other (resolve : Resolver) {n : Node} (hname : n.kind ≠ .name)
    (hcall : n.kind ≠ .call) (hsubscript : n.kind ≠ .subscript) :
    classify resolve n = .ok .unknown := by
  cases n with
  | mk kind span role tag name literal attrs children =>
    rw [classify.eq_def]
    cases kind with
    | name => exact absurd rfl hname
    | call => exact absurd rfl hcall
    | subscript => exact absurd rfl hsubscript
    | _ => rfl

/-! ## Weaker facts -/

/-- What the first facts say of a frame the second say too. -/
def Facts.Abstracts (f g : Facts) : Prop := f.isFrame = true → g = f

/-- What the first option holds the second holds too. -/
def Held {α : Type} (a b : Option α) : Prop := ∀ x, a = some x → b = some x

theorem Facts.Abstracts.refl (f : Facts) : f.Abstracts f := fun _ => rfl

theorem Facts.unknown_abstracts (f : Facts) : Facts.unknown.Abstracts f := nofun

theorem Facts.Abstracts.frame? {f g : Facts} (h : f.Abstracts g) : Held f.frame? g.frame? := by
  intro x hx
  unfold Facts.frame? at hx
  split at hx
  next hframe => rw [h hframe, Facts.frame?, if_pos hframe, hx]
  next => cases hx

theorem factsOf_abstracts {b c : Option Binding} (h : Held b c) :
    (factsOf b).Abstracts (factsOf c) := by
  cases b with
  | none => exact Facts.unknown_abstracts _
  | some b => rw [h b rfl]; exact .refl _

/-- A test that only accepts more of the last entry finds what a stricter one finds. -/
theorem find?_of_stricter {α : Type} {p q : α → Bool} {rows : List α} {row : α}
    (hweaker : ∀ r ∈ rows, p r = true → q r = true)
    (hlast : ∀ r ∈ rows.dropLast, q r = true → p r = true) (h : rows.find? p = some row) :
    rows.find? q = some row := by
  induction rows with
  | nil => cases h
  | cons r rows ih =>
    cases hp : p r with
    | true =>
      have hq := hweaker r List.mem_cons_self hp
      simpa [List.find?_cons, hp, hq] using h
    | false =>
      cases rows with
      | nil => simp [hp] at h
      | cons r' rows =>
        -- the row is not the last one, so both tests refuse it
        have hq : q r = false := by
          cases hq : q r with
          | false => rfl
          | true => exact absurd (hlast r List.mem_cons_self hq) (by simp [hp])
        rw [List.find?_cons, hp] at h
        rw [List.find?_cons, hq]
        exact ih (fun s hs => hweaker s (List.mem_cons_of_mem _ hs))
          (fun s hs => hlast s (List.mem_cons_of_mem _ hs)) h

theorem onFrame_last : ∀ row ∈ Frame.origins.dropLast, row.onFrame = false := by
  simp [Frame.origins]

/-- Only the last row of the table of origins asks for a frame, so a call that matches a row
    without knowing its receiver matches the same row when it is known. -/
theorem callFacts_abstracts (call : Node) (callee : String) {a b : Option Facts} (h : Held a b) :
    (callFacts call callee a).Abstracts (callFacts call callee b) := by
  cases a with
  | some facts => rw [h facts rfl]; exact .refl _
  | none =>
    unfold callFacts
    dsimp only
    split
    next row hrow =>
      -- knowing the receiver only makes the last row fit more calls
      rw [find?_of_stricter (fun r _ => ?_) (fun r hr => ?_) hrow]
      · exact .refl _
      · simp +contextual
      · simp +contextual [onFrame_last r hr]
    next => exact Facts.unknown_abstracts _

theorem accessorFacts_abstracts (accessor : Ident) (index : Node) {a b : Option Facts}
    (h : Held a b) :
    (accessorFacts accessor index a).Abstracts (accessorFacts accessor index b) := by
  cases a with
  | none => exact Facts.unknown_abstracts _
  | some facts => rw [h facts rfl]; exact .refl _

theorem selectionFacts_abstracts (index : Node) {a b : Option Facts} (h : Held a b) :
    (selectionFacts index a).Abstracts (selectionFacts index b) := by
  cases a with
  | none => exact Facts.unknown_abstracts _
  | some facts => rw [h facts rfl]; exact .refl _

/-! ## Named trees -/

namespace Node

variable {n c m : Node}

/-- A node that lies below another one. -/
def Below (m n : Node) : Prop := ∃ c ∈ n.children, m ∈ c.preorder

theorem below_of_child? {role : String} (h : n.child? role = some c) : c.Below n :=
  ⟨c, child?_mem h, c.self_mem_preorder⟩

theorem Below.trans_child? {role : String} (h : m.Below n) (hc : m.child? role = some c) :
    c.Below n := by
  obtain ⟨d, hd, hm⟩ := h
  have hcm : c ∈ m.preorder := mem_preorder_of_child (child?_mem hc) c.self_mem_preorder
  exact ⟨d, hd, mem_preorder_trans hm hcm⟩

theorem methodReceiver_below (h : Frame.methodReceiver n = some m) : m.Below n := by
  unfold Frame.methodReceiver at h
  split at h
  next func hfunc =>
    split at h
    · exact (below_of_child? hfunc).trans_child? h
    · cases h
  next => cases h

/-- Every node of kind `name` in a tree has a name. -/
def Named (n : Node) : Prop := ∀ m ∈ n.preorder, m.kind = .name → m.name.isSome = true

instance (n : Node) : Decidable n.Named :=
  inferInstanceAs (Decidable (∀ m ∈ n.preorder, m.kind = .name → m.name.isSome = true))

theorem Named.of_mem (h : n.Named) (hm : m ∈ n.preorder) : m.Named :=
  fun k hk => h k (mem_preorder_trans hm hk)

theorem Named.child (h : n.Named) (hc : c ∈ n.children) : c.Named :=
  fun m hm => h m (mem_preorder_of_child hc hm)

theorem Named.below (h : n.Named) (hm : m.Below n) : m.Named := by
  obtain ⟨c, hc, hmc⟩ := hm
  exact (h.child hc).of_mem hmc

theorem Named.name (h : n.Named) (hkind : n.kind = .name) : ∃ s, n.name = some s :=
  Option.isSome_iff_exists.mp (h n n.self_mem_preorder hkind)

end Node

/-! ## Where facts come from -/

/-- The ways in which the facts of an expression are read off those of its receiver. -/
inductive Reading : (Option Facts → Facts) → Prop
  | call (n : Node) (callee : String) : Reading (callFacts n callee)
  | rows (accessor : Ident) (index : Node) : Reading (accessorFacts accessor index)
  | columns (index : Node) : Reading (selectionFacts index)

/-- Facts come from nothing, from a name, or from the facts of a receiver by a reading. So a
    property of classifications is proved of a name and for each reading, and holds of every
    expression. -/
theorem classify_induction {P : (Resolver → Except Fault Facts) → Prop} {n : Node}
    (unknown : P fun _ => .ok .unknown)
    (name : ∀ m ∈ n.preorder, m.kind = .name → P fun r => (r m.name).map factsOf)
    (alone : ∀ read, Reading read → P fun _ => .ok (read none))
    (receiver : ∀ read, Reading read → ∀ m, P (fun r => classify r m) →
      P fun r => (classify r m).map fun facts => read facts.frame?) :
    P fun r => classify r n := by
  induction n using Node.descent with
  | step n ih =>
    -- whatever receiver the facts depend on, it lies below the node
    have hreading : ∀ read, Reading read → ∀ o : Option Node, (∀ m, o = some m → m.Below n) →
        P fun r => (frameFacts r o).map read := by
      intro read hread o hbelow
      cases o with
      | none => exact alone read hread
      | some m =>
        obtain ⟨c, hc, hmc⟩ := hbelow m rfl
        have hm := ih c hc m hmc fun k hk =>
          name k (Node.mem_preorder_of_child hc (Node.mem_preorder_trans hmc hk))
        have heq : (fun r => (frameFacts r (some m)).map read) =
            fun r => (classify r m).map fun facts => read facts.frame? := by
          funext r
          rw [frameFacts]
          cases classify r m <;> rfl
        rw [heq]
        exact receiver read hread m hm
    by_cases hname : n.kind = .name
    · rw [funext fun r => classify_name r hname]
      exact name n n.self_mem_preorder hname
    by_cases hcall : n.kind = .call
    · rw [funext fun r => classify_call r hcall]
      cases Frame.calleeName n with
      | none => exact unknown
      | some callee =>
        exact hreading _ (.call n callee) _ fun m hm => Node.methodReceiver_below hm
    by_cases hsubscript : n.kind = .subscript
    · rw [funext fun r => classify_subscript r hsubscript]
      cases hfound : n.child? Role.receiver with
      | none => exact unknown
      | some found =>
        have hbelow := Node.below_of_child? hfound
        cases n.child? Role.index with
        | none => exact unknown
        | some index =>
          dsimp only
          split
          · exact hreading _ (.rows found.name index) _ fun m hm => hbelow.trans_child? hm
          · exact hreading _ (.columns index) _ fun m hm => Option.some.inj hm ▸ hbelow
    · rw [funext fun r => classify_other r hname hcall hsubscript]
      exact unknown

theorem Reading.abstracts {read : Option Facts → Facts} (h : Reading read) {a b : Option Facts}
    (hab : Held a b) : (read a).Abstracts (read b) := by
  cases h with
  | call n callee => exact callFacts_abstracts n callee hab
  | rows accessor index => exact accessorFacts_abstracts accessor index hab
  | columns index => exact selectionFacts_abstracts index hab

/-! ## Resolvers -/

/-- On every name both resolvers answer, and a frame known to the first is known to the
    second. -/
def Resolver.Abstracts (r r' : Resolver) : Prop := ∀ s, BothOk Held (r (some s)) (r' (some s))

section Resolvers

variable {r r' : Resolver}

/-- A resolver that knows less gives weaker facts. -/
theorem classify_abstracts (h : r.Abstracts r') {n : Node} (hn : n.Named) :
    BothOk Facts.Abstracts (classify r n) (classify r' n) := by
  refine classify_induction (P := fun facts => BothOk Facts.Abstracts (facts r) (facts r'))
    (.pure (.refl _)) ?_ ?_ ?_
  · intro m hm hkind
    obtain ⟨s, hs⟩ := Option.isSome_iff_exists.mp (hn m hm hkind)
    dsimp only
    rw [hs]
    exact (h s).map fun _ _ => factsOf_abstracts
  · exact fun read _ => .pure (.refl _)
  · intro read hread m hm
    exact BothOk.map hm fun f g hfg => hread.abstracts hfg.frame?

theorem frameFacts_abstracts (h : r.Abstracts r') {o : Option Node}
    (ho : ∀ m, o = some m → m.Named) : BothOk Held (frameFacts r o) (frameFacts r' o) := by
  cases o with
  | none => exact .pure nofun
  | some m => exact (classify_abstracts h (ho m rfl)).bind fun f g hfg => .pure hfg.frame?

end Resolvers

end Framewise
