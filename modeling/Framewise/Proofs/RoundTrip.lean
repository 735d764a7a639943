import Framewise.Node.Mapping
import Framewise.Proofs.Tree

/-! # Reading back trees

  The object form of a tree loses nothing: reading it gives the same tree, with every
  field of every node, as long as lines and columns count from 1 and the tree is not
  too high. A tree that is higher than the reader allows is refused because of its
  depth and for no other reason.

  A node is read field by field; only its children can make the reading fail. So both
  results follow by induction on the levels that the reader has left.

  Main definitions:
  - `Node.height`: the number of levels of a tree.
  - `Node.CountsFromOne`: no line or column of a tree is below 1.

  Main results: `Node.readNode_of_height_le` and `Node.readNode_of_lt_height`.
-/

namespace Framewise

/-- No line or column of a span is below 1. -/
structure Span.CountsFromOne (s : Span) : Prop where
  startLine : 1 ≤ s.startLine
  startColumn : 1 ≤ s.startColumn
  endLine : 1 ≤ s.endLine
  endColumn : 1 ≤ s.endColumn

namespace Node

open Schema (Step Cause Problem)

/-! ## Levels -/

mutual

/-- The number of levels of a tree. -/
def height : Node → Nat
  | { children := cs, .. } => heightAll cs + 1

/-- The number of levels of the highest of several trees. -/
def heightAll : List Node → Nat
  | [] => 0
  | c :: cs => max (height c) (heightAll cs)

end

theorem height_eq (n : Node) : n.height = heightAll n.children + 1 := by
  cases n
  rw [height]

theorem heightAll_le_iff {cs : List Node} {k : Nat} :
    heightAll cs ≤ k ↔ ∀ c ∈ cs, c.height ≤ k := by
  induction cs with
  | nil => simp [heightAll]
  | cons c cs ih =>
    rw [heightAll, List.forall_mem_cons, ← ih]
    omega

theorem lt_heightAll_iff {cs : List Node} {k : Nat} :
    k < heightAll cs ↔ ∃ c ∈ cs, k < c.height := by
  induction cs with
  | nil => simp [heightAll]
  | cons c cs ih =>
    have hmem : (∃ d ∈ c :: cs, k < d.height) ↔ k < c.height ∨ ∃ d ∈ cs, k < d.height := by simp
    rw [heightAll, hmem, ← ih]
    omega

/-- No line or column of a tree is below 1. -/
def CountsFromOne (n : Node) : Prop := ∀ m ∈ n.preorder, m.span.CountsFromOne

theorem CountsFromOne.child {n c : Node} (h : n.CountsFromOne) (hc : c ∈ n.children) :
    c.CountsFromOne := fun m hm => h m (mem_preorder_of_child hc hm)

/-! ## Fields -/

/-- The entries of the object form of a node. -/
def entries (n : Node) : List (String × Value) :=
  [("kind", .text n.kind.label), ("span", spanValue n.span),
    ("children", .list (n.children.map toValue)), ("name", identValue n.name),
    ("role", .text n.role), ("tag", .text n.tag), ("attrs", .table n.attrs)] ++
    (n.literal.map fun v => ("literal", v)).toList

theorem toValues_eq (ns : List Node) : toValues ns = ns.map toValue := by
  induction ns with
  | nil => rfl
  | cons n ns ih => rw [toValues, ih, List.map_cons]

theorem toValue_eq (n : Node) : n.toValue = .table n.entries := by
  cases n
  rw [toValue, toValues_eq]
  rfl

section Lookup

variable {α : Type} {es : List (String × Value)} {key : String} {v : Value} {a : α}

theorem readRequired_ok {read : Value → FirstProblem α} (hlookup : Value.lookup es key = some v)
    (hread : read v = .ok a) : readRequired es key read = .ok a := by
  simp only [readRequired, hlookup, hread]
  rfl

theorem readDefaulted_ok {read : Value → Schema.Read α} (fallback : α)
    (hlookup : Value.lookup es key = some v) (hread : read v = .ok a) :
    readDefaulted es key fallback read = .ok a := by
  simp only [readDefaulted, hlookup, readHere, hread]
  rfl

end Lookup

/-- A kind is read back from its name, because no other kind has it. -/
theorem listed_label (kind : NodeKind) :
    Schema.listed NodeKind.all NodeKind.label (.text kind.label) = .ok kind := by
  have hfind : (NodeKind.all.find? fun k => k.label = kind.label) = some kind := by
    cases kind <;> decide
  simp only [Schema.listed, hfind]

theorem positiveInt_int {i : Int} (h : 1 ≤ i) : Schema.positiveInt (.int i) = .ok i := by
  have hnot : ¬i < 1 := by omega
  show (if i < 1 then _ else _) = _
  rw [if_neg hnot]
  rfl

theorem readSpan_spanValue {s : Span} (h : s.CountsFromOne) : readSpan (spanValue s) = .ok s := by
  have hfield : ∀ {i : Int}, 1 ≤ i → readHere Schema.positiveInt (.int i) = .ok i := by
    intro i hi
    rw [readHere, positiveInt_int hi]
    rfl
  simp only [readSpan, spanValue]
  rw [readRequired_ok rfl (hfield h.startLine), readRequired_ok rfl (hfield h.startColumn),
    readRequired_ok rfl (hfield h.endLine), readRequired_ok rfl (hfield h.endColumn)]
  rfl

/-- A name that is absent is written as null. -/
theorem optional_identValue (name : Ident) :
    Schema.optional Schema.text (identValue name) = .ok name := by
  cases name with
  | none => rfl
  | some s => rfl

/-- A value that is absent is not written, so that null can be told from it. -/
theorem lookup_literal (n : Node) : Value.lookup n.entries "literal" = n.literal := by
  cases h : n.literal with
  | none => simp [entries, Value.lookup, h]
  | some v => simp [entries, Value.lookup, h]

theorem readFields_entries (n : Node) (children : List Node) :
    readFields n.entries n.kind n.span children = .ok { n with children := children } := by
  rw [readFields, readDefaulted_ok none rfl (optional_identValue n.name),
    readDefaulted_ok "" rfl (a := n.role) rfl, readDefaulted_ok "" rfl (a := n.tag) rfl,
    readDefaulted_ok [] rfl (a := n.attrs) rfl, lookup_literal]
  rfl

/-- Only the children of a node can make its reading fail. -/
theorem readNode_succ {n : Node} (levels : Nat) (h : n.span.CountsFromOne) :
    readNode (levels + 1) n.toValue =
      (inside (.key "children") (readItems (readNode levels) 0 (n.children.map toValue))).map
        fun children => { n with children := children } := by
  have hkind : readHere (Schema.listed NodeKind.all NodeKind.label) (.text n.kind.label) =
      .ok n.kind := by
    rw [readHere, listed_label]
    rfl
  rw [toValue_eq, readNode, readRequired_ok rfl hkind, readRequired_ok rfl (readSpan_spanValue h)]
  -- kind and span have been read; what is left are the children and then the other fields
  show readChildren (readNode levels) n.entries >>= readFields n.entries n.kind n.span = _
  have hchildren : readChildren (readNode levels) n.entries =
      inside (.key "children") (readItems (readNode levels) 0 (n.children.map toValue)) := rfl
  rw [hchildren]
  cases inside (.key "children") (readItems (readNode levels) 0 (n.children.map toValue)) with
  | error problem => rfl
  | ok children => exact readFields_entries n children

/-! ## Trees -/

/-- A reading that fails because of the depth. -/
def TooDeep {α : Type} (r : FirstProblem α) : Prop := ∃ place, r = .error ⟨place, .tooDeep⟩

theorem TooDeep.inside {α : Type} {r : FirstProblem α} (h : TooDeep r) (step : Step) :
    TooDeep (inside step r) := by
  obtain ⟨place, rfl⟩ := h
  exact ⟨step :: place, rfl⟩

section Items

variable {read : Value → FirstProblem Node} {cs : List Node}

theorem readItems_ok (h : ∀ c ∈ cs, read c.toValue = .ok c) (index : Nat) :
    readItems read index (cs.map toValue) = .ok cs := by
  induction cs generalizing index with
  | nil => rfl
  | cons c cs ih =>
    obtain ⟨hc, hcs⟩ := List.forall_mem_cons.mp h
    rw [List.map_cons, readItems, hc]
    show readItems read (index + 1) (cs.map toValue) >>= (fun ns => .ok (c :: ns)) = _
    rw [ih hcs]
    rfl

/-- If the trees in front of one that is too high can be read, the reading fails at that one. -/
theorem readItems_tooDeep (h : ∀ c ∈ cs, read c.toValue = .ok c ∨ TooDeep (read c.toValue))
    (hdeep : ∃ c ∈ cs, TooDeep (read c.toValue)) (index : Nat) :
    TooDeep (readItems read index (cs.map toValue)) := by
  induction cs generalizing index with
  | nil =>
    obtain ⟨c, hc, -⟩ := hdeep
    cases hc
  | cons c cs ih =>
    obtain ⟨hc, hcs⟩ := List.forall_mem_cons.mp h
    rw [List.map_cons, readItems]
    rcases hc with hok | hc
    · -- the first can be read, so one of the others is too high
      rw [hok]
      have hlater : ∃ c ∈ cs, TooDeep (read c.toValue) := by
        obtain ⟨d, hd, hdeep⟩ := hdeep
        rcases List.mem_cons.mp hd with rfl | hd
        · obtain ⟨place, herror⟩ := hdeep
          rw [hok] at herror
          cases herror
        · exact ⟨d, hd, hdeep⟩
      obtain ⟨place, hplace⟩ := ih hcs hlater (index + 1)
      show TooDeep (readItems read (index + 1) (cs.map toValue) >>= fun ns => .ok (c :: ns))
      rw [hplace]
      exact ⟨place, rfl⟩
    · -- the reading ends here
      obtain ⟨place, hplace⟩ := hc.inside (.item index)
      rw [hplace]
      exact ⟨place, rfl⟩

end Items

/-- The object form of a tree that is not too high is read as that tree. -/
theorem readNode_of_height_le {n : Node} {levels : Nat} (h : n.CountsFromOne)
    (hheight : n.height ≤ levels) : readNode levels n.toValue = .ok n := by
  induction levels generalizing n with
  | zero =>
    rw [height_eq] at hheight
    omega
  | succ levels ih =>
    rw [height_eq] at hheight
    have hchildren : ∀ c ∈ n.children, readNode levels c.toValue = .ok c := by
      intro c hc
      exact ih (h.child hc) (heightAll_le_iff.mp (by omega) c hc)
    rw [readNode_succ levels (h n n.self_mem_preorder), readItems_ok hchildren]
    cases n
    rfl

/-- The object form of a tree that is too high is refused because of its depth. -/
theorem readNode_of_lt_height {n : Node} {levels : Nat} (h : n.CountsFromOne)
    (hheight : levels < n.height) : TooDeep (readNode levels n.toValue) := by
  induction levels generalizing n with
  | zero => exact ⟨[], by rw [readNode]⟩
  | succ levels ih =>
    rw [height_eq] at hheight
    -- some child is too high, and each child that is not can be read
    obtain ⟨c, hc, hlt⟩ : ∃ c ∈ n.children, levels < c.height := lt_heightAll_iff.mp (by omega)
    have hall : ∀ d ∈ n.children,
        readNode levels d.toValue = .ok d ∨ TooDeep (readNode levels d.toValue) := by
      intro d hd
      by_cases hd' : d.height ≤ levels
      · exact .inl (readNode_of_height_le (h.child hd) hd')
      · exact .inr (ih (h.child hd) (by omega))
    have hdeep := readItems_tooDeep hall ⟨c, hc, ih (h.child hc) hlt⟩ 0
    obtain ⟨place, hplace⟩ := hdeep.inside (.key "children")
    rw [readNode_succ levels (h n n.self_mem_preorder), hplace]
    exact ⟨place, rfl⟩

end Node

end Framewise
