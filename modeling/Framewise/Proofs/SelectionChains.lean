import Framewise.Proofs.Classification
import Mathlib.Data.List.Induction

/-! # Chains over a frame

  Code on frames is written in chains: `df.dropna()[["a", "b"]].loc[rows].head()`. Each
  step takes the expression in front of it as its receiver, so what is known of the
  frame at the start reaches the end of a chain of any length. A step that lists
  columns pins them, and no later step takes the pin away.

  Main definitions:
  - `Extends`: one expression is another one with a step put behind it.
  - `Chain`: an expression with any number of steps put behind it.

  Main results:
  - `Extends.classify`: the facts behind a step.
  - `chain_carries_pin`: the facts at the end of a chain.
-/

namespace Framewise

/-! ## Steps -/

/-- What a step makes of a frame. -/
inductive StepKind where
  /-- Some columns, listed by name. -/
  | selection
  /-- Another frame with the columns of the one before. -/
  | derivation
  deriving DecidableEq, Repr

/-- The origin of a frame that a step has made. -/
def StepKind.origin : StepKind → Origin
  | .selection => .selection
  | .derivation => .derived

/-- The facts behind a step, from those in front of it. -/
def Facts.after (f : Facts) (kind : StepKind) : Facts :=
  { origin := kind.origin, pinned := f.pinned || kind = .selection }

namespace Node

/-- A list display of column names, none of them starred. -/
def ListsColumns (n : Node) : Prop :=
  n.kind = .sequence ∧ n.tag = "List" ∧
    ∀ c ∈ n.children, c.kind = .literal ∧ (∃ s, c.literal = some (.text s)) ∧ c.starred = false

/-- A tuple of two elements. -/
def IsPair (n first second : Node) : Prop :=
  n.kind = .sequence ∧ n.tag = "Tuple" ∧ n.children = [first, second]

end Node

/-- The accessors that select rows of a frame. -/
def sliceAccessors : List String := ["loc", "iloc"]

/-- The second expression is the first with one step put behind it. -/
inductive Extends (base : Node) : StepKind → Node → Prop
  /-- `base.method(...)`, not told to change its receiver. -/
  | method {call func : Node} {name : String} (hcall : call.kind = .call)
      (hfunc : call.child? Role.func = some func) (hattribute : func.kind = .attribute)
      (hname : func.name = some name) (hreceiver : func.child? Role.receiver = some base)
      (hmethod : name ∈ Frame.returningMethods)
      (hkeeps : Frame.isTrueLiteral (Frame.keywordValue call Frame.inPlaceKeyword) = false) :
      Extends base .derivation call
  /-- `base[a < b]`. -/
  | mask {n index : Node} (hkind : n.kind = .subscript)
      (hreceiver : n.child? Role.receiver = some base) (hindex : n.child? Role.index = some index)
      (hcompare : index.kind = .compare) : Extends base .derivation n
  /-- `base[["a", "b"]]`. -/
  | columns {n index : Node} (hkind : n.kind = .subscript)
      (hreceiver : n.child? Role.receiver = some base) (hindex : n.child? Role.index = some index)
      (hlists : index.ListsColumns) : Extends base .selection n
  /-- `base.loc[rows, ["a", "b"]]`. -/
  | rowsOfColumns {n accessor index first second : Node} {name : String}
      (hkind : n.kind = .subscript) (hreceiver : n.child? Role.receiver = some accessor)
      (hindex : n.child? Role.index = some index) (hattribute : accessor.kind = .attribute)
      (hname : accessor.name = some name) (haccessor : name ∈ sliceAccessors)
      (hbase : accessor.child? Role.receiver = some base) (hpair : index.IsPair first second)
      (hlists : second.ListsColumns) : Extends base .selection n
  /-- `base.loc[rows]`, also with a second element, unless that is a literal. -/
  | rows {n accessor index : Node} {name : String}
      (hkind : n.kind = .subscript) (hreceiver : n.child? Role.receiver = some accessor)
      (hindex : n.child? Role.index = some index) (hattribute : accessor.kind = .attribute)
      (hname : accessor.name = some name) (haccessor : name ∈ sliceAccessors)
      (hbase : accessor.child? Role.receiver = some base)
      (hother : ∀ first second, index.IsPair first second →
        second.kind ≠ .literal ∧ ¬second.ListsColumns) : Extends base .derivation n

/-! ## One step -/

theorem isColumnList_iff (n : Node) : Frame.isColumnList n = true ↔ n.ListsColumns := by
  have htext : ∀ c : Node, c.text?.isSome = true ↔ ∃ s, c.literal = some (.text s) := by
    intro c
    unfold Node.text? Value.text?
    cases c.literal with
    | none => simp
    | some v => cases v <;> simp
  simp only [Frame.isColumnList, Frame.isColumnKey, Node.ListsColumns, Bool.and_eq_true,
    decide_eq_true_eq, List.all_eq_true, htext, Bool.not_eq_true', and_assoc]

/-- No method that returns a frame is in the table of origins. -/
theorem returningMethods_covered_by_none :
    ∀ name ∈ Frame.returningMethods, ∀ row ∈ Frame.origins, row.covers name = false := by
  decide +kernel

/-- The facts of a call of a method that returns a frame. -/
theorem callFacts_returning {call : Node} {name : String} (facts : Facts)
    (hmethod : name ∈ Frame.returningMethods)
    (hkeeps : Frame.isTrueLiteral (Frame.keywordValue call Frame.inPlaceKeyword) = false) :
    callFacts call name (some facts) = facts.after .derivation := by
  -- the table of origins comes first, but has no row for the method
  have hnone : Frame.origins.find? (fun row => row.covers name &&
      (!row.onFrame || (some facts).isSome) && (!row.onLibrary || Frame.isLibraryCall call)) =
      none := by
    rw [List.find?_eq_none]
    intro row hrow
    simp [returningMethods_covered_by_none name hmethod row hrow]
  unfold callFacts
  dsimp only
  rw [hnone]
  simp [hmethod, hkeeps, Facts.after, StepKind.origin]

theorem sliceAccessors_listed {name : String} (h : name ∈ sliceAccessors) :
    Frame.listed Frame.rowAccessors (some name) = true ∧
      Frame.listed Frame.cellAccessors (some name) = false := by
  revert name
  decide +kernel

/-- The facts of a slice of rows and listed columns. -/
theorem accessorFacts_columns {name : String} {index first second : Node} (facts : Facts)
    (haccessor : name ∈ sliceAccessors) (hpair : index.IsPair first second)
    (hlists : second.ListsColumns) :
    accessorFacts (some name) index (some facts) = facts.after .selection := by
  obtain ⟨hkind, htag, hchildren⟩ := hpair
  have hlist := (isColumnList_iff second).mpr hlists
  simp [accessorFacts, (sliceAccessors_listed haccessor).2, hkind, htag, hchildren, hlist,
    Facts.after, StepKind.origin]

/-- The facts of any other slice of rows. -/
theorem accessorFacts_rows {name : String} {index : Node} (facts : Facts)
    (haccessor : name ∈ sliceAccessors)
    (hother : ∀ first second, index.IsPair first second →
      second.kind ≠ .literal ∧ ¬second.ListsColumns) :
    accessorFacts (some name) index (some facts) = facts.after .derivation := by
  have hrows : facts.after .derivation = { origin := .derived, pinned := facts.pinned } := by
    simp [Facts.after, StepKind.origin]
  rw [hrows, accessorFacts]
  dsimp only
  rw [(sliceAccessors_listed haccessor).2, if_neg Bool.false_ne_true]
  by_cases htuple : index.kind = .sequence ∧ index.tag = "Tuple"
  · obtain ⟨hkind, htag⟩ := htuple
    simp only [hkind, htag, decide_true, Bool.and_self, if_true]
    -- only a pair can say something about columns
    split
    next first second hchildren =>
      obtain ⟨hliteral, hlists⟩ := hother first second ⟨hkind, htag, hchildren⟩
      have hlist : Frame.isColumnList second = false :=
        Bool.eq_false_iff.mpr fun h => hlists ((isColumnList_iff second).mp h)
      simp [hlist, hliteral]
    next => rfl
  · rw [if_neg]
    simpa using htuple

section Steps

variable {resolve : Resolver} {base n : Node} {facts : Facts} {kind : StepKind}

theorem frameFacts_of_frame (hbase : classify resolve base = .ok facts)
    (hframe : facts.isFrame = true) : frameFacts resolve (some base) = .ok (some facts) := by
  rw [frameFacts, hbase]
  exact congrArg Except.ok (if_pos hframe)

/-- Only names, calls and subscripts are taken for frames. -/
theorem kind_ne_attribute (hbase : classify resolve base = .ok facts)
    (hframe : facts.isFrame = true) : base.kind ≠ .attribute := by
  intro hkind
  rw [classify_other resolve (by simp [hkind]) (by simp [hkind]) (by simp [hkind])] at hbase
  cases hbase
  exact absurd hframe (by decide)

/-- A frame stays one after a step. -/
theorem Facts.isFrame_after (f : Facts) (kind : StepKind) : (f.after kind).isFrame = true := by
  cases kind <;> rfl

/-- The facts behind a step come from those in front of it. -/
theorem Extends.classify (h : Extends base kind n) (hbase : classify resolve base = .ok facts)
    (hframe : facts.isFrame = true) : classify resolve n = .ok (facts.after kind) := by
  have hfacts := frameFacts_of_frame hbase hframe
  cases h with
  | @method _ func name hcall hfunc hattribute hname hreceiver hmethod hkeeps =>
    have hcallee : Frame.calleeName n = some name := by
      simp [Frame.calleeName, hfunc, hattribute, hname]
    have hmethodReceiver : Frame.methodReceiver n = some base := by
      simp [Frame.methodReceiver, hfunc, hattribute, hreceiver]
    rw [classify_call resolve hcall, hcallee, hmethodReceiver, hfacts]
    exact congrArg Except.ok (callFacts_returning facts hmethod hkeeps)
  | @mask _ index hkind hreceiver hindex hcompare =>
    have hlist : Frame.isColumnList index = false := by simp [Frame.isColumnList, hcompare]
    rw [classify_subscript resolve hkind, hreceiver, hindex]
    simp [kind_ne_attribute hbase hframe, hfacts, Except.map, selectionFacts, hlist, hcompare,
      Facts.after, StepKind.origin]
  | @columns _ index hkind hreceiver hindex hlists =>
    rw [classify_subscript resolve hkind, hreceiver, hindex]
    simp [kind_ne_attribute hbase hframe, hfacts, Except.map, selectionFacts,
      (isColumnList_iff index).mpr hlists, Facts.after, StepKind.origin]
  | @rowsOfColumns _ accessor index first second name hkind hreceiver hindex hattribute hname
      haccessor haccessed hpair hlists =>
    rw [classify_subscript resolve hkind, hreceiver, hindex]
    simp only [hattribute, hname, (sliceAccessors_listed haccessor).1, decide_true, Bool.and_self,
      if_true, haccessed, hfacts]
    exact congrArg Except.ok (accessorFacts_columns facts haccessor hpair hlists)
  | @rows _ accessor index name hkind hreceiver hindex hattribute hname haccessor haccessed hother =>
    rw [classify_subscript resolve hkind, hreceiver, hindex]
    simp only [hattribute, hname, (sliceAccessors_listed haccessor).1, decide_true, Bool.and_self,
      if_true, haccessed, hfacts]
    exact congrArg Except.ok (accessorFacts_rows facts haccessor hother)

end Steps

/-! ## Chains -/

/-- An expression made from another by putting steps of the given kinds behind it. -/
inductive Chain (base : Node) : List StepKind → Node → Prop
  | start : Chain base [] base
  | step {steps : List StepKind} {kind : StepKind} {m n : Node} (hchain : Chain base steps m)
      (hstep : Extends m kind n) : Chain base (steps ++ [kind]) n

section Chains

variable {resolve : Resolver} {base n : Node} {facts : Facts} {steps : List StepKind}

/-- The facts after several steps. -/
def Facts.afterAll (f : Facts) (steps : List StepKind) : Facts := steps.foldl Facts.after f

theorem Facts.afterAll_append (f : Facts) (steps : List StepKind) (kind : StepKind) :
    f.afterAll (steps ++ [kind]) = (f.afterAll steps).after kind := by
  simp [Facts.afterAll]

theorem Facts.pinned_afterAll (f : Facts) (steps : List StepKind) :
    (f.afterAll steps).pinned = true ↔ f.pinned = true ∨ .selection ∈ steps := by
  induction steps using List.reverseRecOn with
  | nil => simp [Facts.afterAll]
  | append_singleton steps kind ih =>
    rw [afterAll_append, List.mem_append, List.mem_singleton, ← or_assoc, ← ih]
    cases kind <;> simp [Facts.after]

/-- The frame at the start of a chain is a frame after every step. -/
theorem Chain.classify (h : Chain base steps n) (hbase : classify resolve base = .ok facts)
    (hframe : facts.isFrame = true) :
    classify resolve n = .ok (facts.afterAll steps) ∧ (facts.afterAll steps).isFrame = true := by
  induction h with
  | start => exact ⟨hbase, hframe⟩
  | step _ hstep ih =>
    rw [Facts.afterAll_append]
    exact ⟨hstep.classify ih.1 ih.2, Facts.isFrame_after _ _⟩

/-- At the end of a chain over a frame stands a frame. It is pinned if the frame at the start is
    or if some step lists columns, and its origin is that of the last step. -/
theorem chain_carries_pin (h : Chain base steps n) (hbase : classify resolve base = .ok facts)
    (hframe : facts.isFrame = true) :
    ∃ result, classify resolve n = .ok result ∧ result.isFrame = true ∧
      (result.pinned = true ↔ facts.pinned = true ∨ .selection ∈ steps) ∧
      result.origin = (steps.getLast?.map StepKind.origin).getD facts.origin := by
  obtain ⟨hclassify, hresult⟩ := h.classify hbase hframe
  refine ⟨_, hclassify, hresult, facts.pinned_afterAll steps, ?_⟩
  cases steps using List.reverseRecOn with
  | nil => rfl
  | append_singleton steps kind =>
    rw [Facts.afterAll_append, List.getLast?_concat]
    rfl

end Chains

/-! ### A chain -/

/-- A node with nothing but a name. -/
def chainName (role id : String) : Node :=
  { kind := .name, span := ⟨1, 1, 1, 1⟩, role := role, name := some id }

/-- An attribute of an expression. -/
def attributeOf (base : Node) (role id : String) : Node :=
  { kind := .attribute, span := ⟨1, 1, 1, 1⟩, role := role, name := some id,
    children := [{ base with role := Role.receiver }] }

/-- A call of a method of an expression. -/
def methodCallOf (base : Node) (role id : String) : Node :=
  { kind := .call, span := ⟨1, 1, 1, 1⟩, role := role,
    children := [attributeOf base Role.func id] }

/-- A subscript of an expression. -/
def subscriptOf (base index : Node) (role : String) : Node :=
  { kind := .subscript, span := ⟨1, 1, 1, 1⟩, role := role,
    children := [{ base with role := Role.receiver }, index] }

/-- The list `["a", "b"]`. -/
def twoColumns (role : String) : Node :=
  let key (s : String) : Node :=
    { kind := .literal, span := ⟨1, 1, 1, 1⟩, role := Role.element, literal := some (.text s) }
  { kind := .sequence, span := ⟨1, 1, 1, 1⟩, role := role, tag := "List",
    children := [key "a", key "b"] }

/-- The pair `rows, ["a", "b"]` in brackets. -/
def rowsAndColumns : Node :=
  { kind := .sequence, span := ⟨1, 1, 1, 1⟩, role := Role.index, tag := "Tuple",
    children := [chainName Role.element "rows", twoColumns Role.element] }

/-- The beginning `df.dropna()` of a chain, as a receiver. -/
def withoutGaps : Node := methodCallOf (chainName Role.receiver "df") Role.receiver "dropna"

/-- The expression `df.dropna().loc[rows, ["a", "b"]]`, as a receiver. -/
def someCells : Node :=
  subscriptOf (attributeOf withoutGaps Role.receiver "loc") rowsAndColumns Role.receiver

theorem twoColumns_listed (role : String) : (twoColumns role).ListsColumns := by
  refine ⟨rfl, rfl, fun c hc => ?_⟩
  simp only [twoColumns, List.mem_cons, List.not_mem_nil, or_false] at hc
  rcases hc with rfl | rfl
  · exact ⟨rfl, ⟨_, rfl⟩, rfl⟩
  · exact ⟨rfl, ⟨_, rfl⟩, rfl⟩

/-- The pin of the second of three steps is there at the end, and `head` makes the origin. -/
theorem pin_kept_by_head :
    Chain (chainName Role.receiver "df") [.derivation, .selection, .derivation]
      (methodCallOf someCells Role.value "head") ∧
    Tracker.start.classify (chainName Role.receiver "df") = .ok { origin := .convention } ∧
    ∃ result, Tracker.start.classify (methodCallOf someCells Role.value "head") = .ok result ∧
      result.isFrame = true ∧ result.pinned = true ∧ result.origin = .derived := by
  have hdropna : Extends (chainName Role.receiver "df") .derivation withoutGaps :=
    .method rfl rfl rfl rfl rfl (by decide) rfl
  have hcells : Extends withoutGaps .selection someCells :=
    .rowsOfColumns rfl rfl rfl rfl rfl (by decide) rfl ⟨rfl, rfl, rfl⟩ (twoColumns_listed _)
  have hhead : Extends someCells .derivation (methodCallOf someCells Role.value "head") :=
    .method rfl rfl rfl rfl rfl (by decide) rfl
  have hchain := ((Chain.start.step hdropna).step hcells).step hhead
  have hbase : classify Tracker.start.resolve (chainName Role.receiver "df") =
      .ok { origin := .convention } := by decide +kernel
  obtain ⟨result, hresult, hframe, hpinned, horigin⟩ := chain_carries_pin hchain hbase rfl
  exact ⟨hchain, hbase, result, hresult, hframe, hpinned.mpr (.inr (by decide)), horigin⟩

end Framewise
