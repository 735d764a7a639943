import Framewise.Proofs.StraightBodies
import Mathlib.Data.List.Induction

/-! # The latest assignment of a name

  The summary of a function reads the body from top to bottom and holds for every
  name what the latest assignment before has given to it. A return is judged by
  what is held where it stands. So the return of a name counts as the return of a
  frame if the latest assignment to the name before it gives it one, whatever
  stands in between; an assignment further up, or one behind the return, is not
  looked at.

  Main definitions:
  - `Node.IsAlwaysFrame`: an expression that is a frame whatever its names stand for.
  - `Summary.record`, `Summary.knownAfter`: what names stand for after some nodes.

  Main results:
  - `Summary.readNode_records`, `Summary.readNodes_record`: a step of the reading and
    the whole of it, by what names stand for.
  - `return_judged_by_latest_assignment`.
-/

namespace Framewise

/-! ## Frames under every resolver -/

/-- A resolver that answers for every name, a missing one included. -/
def Resolver.Answers (resolve : Resolver) : Prop := ∀ name, ∃ b, resolve name = .ok b

/-- The resolver that knows no name. -/
def Resolver.blank : Resolver := fun _ => .ok none

/-- What is a frame without knowing any name is the same frame for every resolver. -/
theorem classify_blank (resolve : Resolver) (n : Node) :
    ∃ facts, classify .blank n = .ok facts ∧
      ∀ facts', classify resolve n = .ok facts' → facts.Abstracts facts' := by
  refine classify_induction (P := fun classified => ∃ facts, classified .blank = .ok facts ∧
    ∀ facts', classified resolve = .ok facts' → facts.Abstracts facts') ?_ ?_ ?_ ?_
  · exact ⟨_, rfl, fun _ _ => Facts.unknown_abstracts _⟩
  · intro m _ _
    exact ⟨_, rfl, fun _ _ => Facts.unknown_abstracts _⟩
  · intro read _
    refine ⟨_, rfl, fun facts' h => ?_⟩
    obtain rfl := Except.ok.inj h
    exact .refl _
  · rintro read hread m ⟨facts, hfacts, habstracts⟩
    refine ⟨read facts.frame?, by simp [hfacts, Except.map], fun facts' h => ?_⟩
    obtain ⟨found, hfound, rfl⟩ := of_map_ok h
    exact hread.abstracts (habstracts found hfound).frame?

/-- A resolver that answers comes to facts. -/
theorem classify_answered {resolve : Resolver} (h : Resolver.Answers resolve) (n : Node) :
    ∃ facts, classify resolve n = .ok facts := by
  refine classify_induction (P := fun classified => ∃ facts, classified resolve = .ok facts)
    ⟨_, rfl⟩ ?_ ?_ ?_
  · intro m _ _
    obtain ⟨b, hb⟩ := h m.name
    exact ⟨factsOf b, by simp [hb, Except.map]⟩
  · intro read _
    exact ⟨_, rfl⟩
  · rintro read _ m ⟨facts, hfacts⟩
    exact ⟨read facts.frame?, by simp [hfacts, Except.map]⟩

namespace Node

/-- An expression that is a frame whatever its names stand for. -/
def IsAlwaysFrame (n : Node) : Prop :=
  ∀ resolve, Resolver.Answers resolve →
    ∃ facts, classify resolve n = .ok facts ∧ facts.isFrame = true

/-- It is enough to know no name at all. -/
theorem isAlwaysFrame_iff {n : Node} :
    n.IsAlwaysFrame ↔ ∃ facts, classify .blank n = .ok facts ∧ facts.isFrame = true := by
  constructor
  · intro h
    exact h .blank fun _ => ⟨none, rfl⟩
  · rintro ⟨facts, hfacts, hframe⟩ resolve hresolve
    obtain ⟨facts', hfacts'⟩ := classify_answered hresolve n
    obtain ⟨blank, hblank, habstracts⟩ := classify_blank resolve n
    obtain rfl := Except.ok.inj (hblank.symm.trans hfacts)
    exact ⟨facts', hfacts', by rw [habstracts facts' hfacts' hframe]; exact hframe⟩

/-- A resolver that does not answer for all names may fail, but it never comes to other facts. -/
theorem IsAlwaysFrame.isFrame {n : Node} (h : n.IsAlwaysFrame) {resolve : Resolver} {facts : Facts}
    (hfacts : classify resolve n = .ok facts) : facts.isFrame = true := by
  obtain ⟨blank, hblank, hframe⟩ := isAlwaysFrame_iff.mp h
  obtain ⟨blank', hblank', habstracts⟩ := classify_blank resolve n
  obtain rfl := Except.ok.inj (hblank.symm.trans hblank')
  rw [habstracts facts hfacts hframe]
  exact hframe

/-- True for an assignment that gives its value to a plain name. -/
def gives (m : Node) (name : Ident) : Bool :=
  m.kind = .assignment && m.tag != "AugAssign" && m.plainTargets.contains name

/-- A statement that returns a name. -/
def Returns (m : Node) (name : Ident) : Prop :=
  m.kind = .return ∧ ∃ value, m.child? Role.value = some value ∧ value.kind = .name ∧
    value.name = name

theorem gives_eq_false {m : Node} (h : ¬ (m.kind = .assignment ∧ m.tag ≠ "AugAssign"))
    (name : Ident) : m.gives name = false := by
  unfold gives
  rw [not_and_or, not_not] at h
  rcases h with hkind | htag
  · simp [hkind]
  · simp [htag]

theorem gives_eq_contains {m : Node} (hkind : m.kind = .assignment) (htag : m.tag ≠ "AugAssign")
    (name : Ident) : m.gives name = m.plainTargets.contains name := by
  simp [gives, hkind, htag]

end Node

/-! ## What names stand for -/

namespace Summary

/-- The facts that an assignment gives to its names. -/
def givenFacts (known : Resolver) (m : Node) : Except Fault Facts :=
  match m.child? Role.value with
  | some value => classify known value
  | none => .ok .unknown

/-- What names stand for after a node: those that it gives a value stand for that, if it is a
    frame, and for nothing known otherwise; all others stand for what they stood for. -/
def record (known : Resolver) (m : Node) : Resolver := fun name =>
  if m.gives name then
    (givenFacts known m).map fun facts =>
      if facts.isFrame then some { name := name, origin := facts.origin, pinned := facts.pinned }
      else none
  else known name

/-- What names stand for in a function after some nodes of its body. -/
def knownAfter (function : Node) (outer : Resolver) (nodes : List Node) : Resolver :=
  nodes.foldl record
    (resolveIn (parameterStore (parametersOf function) (frameParametersOf function)) outer)

/-- A return of something that is a frame by what names stand for. -/
def ReturnsFrame (known : Resolver) (m : Node) : Prop :=
  m.kind = .return ∧ ∃ value facts, m.child? Role.value = some value ∧
    classify known value = .ok facts ∧ facts.isFrame = true

theorem knownAfter_append (function : Node) (outer : Resolver) (nodes more : List Node) :
    knownAfter function outer (nodes ++ more) = more.foldl record (knownAfter function outer nodes) :=
  List.foldl_append

/-- A name stands for what it was given last. -/
theorem foldl_record_of_notGiven {nodes : List Node} {name : Ident}
    (h : ∀ m ∈ nodes, m.gives name = false) (known : Resolver) :
    nodes.foldl record known name = known name := by
  induction nodes generalizing known with
  | nil => rfl
  | cons m nodes ih =>
    obtain ⟨hm, hrest⟩ := List.forall_mem_cons.mp h
    rw [List.foldl_cons, ih hrest]
    simp [record, hm]

theorem resolveIn_put (store : Store) (outer : Resolver) (name name' : Ident) (b : Binding) :
    resolveIn (store.put name b) outer name' =
      if name' = name then .ok (if b.isFrame then some b else none)
      else resolveIn store outer name' := by
  unfold resolveIn
  rw [Store.get?_put]
  by_cases h : name' = name
  · simp [h]
  · simp [h]

/-- The names of an assignment are bound one after the other, all to the same facts. -/
theorem resolveIn_foldl_put (outer : Resolver) (facts : Facts) (names : List Ident) (store : Store)
    (name : Ident) :
    resolveIn (names.foldl (fun store name => store.put name
      { name := name, origin := facts.origin, pinned := facts.pinned }) store) outer name =
    if names.contains name then .ok (if facts.isFrame then
        some { name := name, origin := facts.origin, pinned := facts.pinned } else none)
    else resolveIn store outer name := by
  induction names generalizing store with
  | nil => rfl
  | cons first rest ih =>
    rw [List.foldl_cons, ih, resolveIn_put]
    by_cases hrest : name ∈ rest
    · simp [hrest]
    · by_cases hfirst : name = first
      · simp [hfirst, Binding.isFrame, Facts.isFrame]
      · simp [hrest, hfirst]

theorem resolveIn_answers {outer : Resolver} (h : Resolver.Answers outer) (store : Store) :
    Resolver.Answers (resolveIn store outer) := by
  intro name
  unfold resolveIn
  cases store.get? name with
  | none => exact h name
  | some b => exact ⟨_, rfl⟩

/-! ## Reading a body -/

section Reading

variable {outer : Resolver} {store store' : Store} {returns returns' : Bool} {m : Node}

/-- One node: names stand for what is recorded, and a return of a frame is noticed. -/
theorem readNode_records (h : readNode outer (store, returns) m = .ok (store', returns')) :
    resolveIn store' outer = record (resolveIn store outer) m ∧
      (returns' = true ↔ returns = true ∨ ReturnsFrame (resolveIn store outer) m) := by
  by_cases hassigns : m.kind = .assignment ∧ m.tag ≠ "AugAssign"
  · obtain ⟨hkind, htag⟩ := hassigns
    rw [readNode_assignment _ _ _ hkind htag] at h
    obtain ⟨facts, hfacts, heq⟩ := of_map_ok h
    obtain ⟨rfl, rfl⟩ := Prod.mk.inj heq
    have hgiven : givenFacts (resolveIn store outer) m = .ok facts := hfacts
    refine ⟨?_, by simp [ReturnsFrame, hkind]⟩
    funext name
    rw [resolveIn_foldl_put]
    unfold record
    rw [Node.gives_eq_contains hkind htag, hgiven]
    rfl
  · -- nothing is given to a name, so only a return can matter
    have hrecord : record (resolveIn store outer) m = resolveIn store outer := by
      funext name
      simp [record, Node.gives_eq_false hassigns]
    rw [hrecord]
    by_cases hreturn : m.kind = .return
    · rw [readNode_return _ _ _ hreturn] at h
      unfold ReturnsFrame
      cases hvalue : m.child? Role.value with
      | none =>
        rw [hvalue] at h
        cases h
        exact ⟨rfl, by simp⟩
      | some value =>
        rw [hvalue] at h
        obtain ⟨facts, hfacts, heq⟩ := of_map_ok h
        obtain ⟨rfl, rfl⟩ := Prod.mk.inj heq
        exact ⟨rfl, by simp [hreturn, hfacts]⟩
    · have hsame : readNode outer (store, returns) m = .ok (store, returns) := by
        unfold readNode
        simp [hassigns, hreturn]
        rfl
      rw [hsame] at h
      cases h
      exact ⟨rfl, by simp [ReturnsFrame, hreturn]⟩

/-- An assignment that has been read gave facts to its names. -/
theorem givenFacts_ok {name : Ident} {next : Store × Bool} (hgives : m.gives name = true)
    (h : readNode outer (store, returns) m = .ok next) :
    ∃ facts, givenFacts (resolveIn store outer) m = .ok facts := by
  have hassigns : m.kind = .assignment ∧ m.tag ≠ "AugAssign" := by
    by_contra hnot
    simp [Node.gives_eq_false hnot] at hgives
  rw [readNode_assignment _ _ _ hassigns.1 hassigns.2] at h
  obtain ⟨facts, hfacts, -⟩ := of_map_ok h
  exact ⟨facts, hfacts⟩

/-- At every node of a body, names stand for what has been recorded before it. -/
theorem readNodes_at {before after : List Node} {last : Store × Bool}
    (h : (before ++ m :: after).foldlM (readNode outer) (store, returns) = .ok last) :
    ∃ (here : Store) (found : Bool) (next : Store × Bool),
      readNode outer (here, found) m = .ok next ∧
      resolveIn here outer = before.foldl record (resolveIn store outer) := by
  induction before generalizing store returns with
  | nil =>
    rw [List.nil_append, List.foldlM_cons] at h
    obtain ⟨next, hnext, -⟩ := of_bind_ok h
    exact ⟨store, returns, next, hnext, rfl⟩
  | cons first before ih =>
    rw [List.cons_append, List.foldlM_cons] at h
    obtain ⟨⟨middle, found⟩, hfirst, hrest⟩ := of_bind_ok h
    obtain ⟨here, found', next, hnext, hhere⟩ := ih hrest
    rw [(readNode_records hfirst).1] at hhere
    exact ⟨here, found', next, hnext, hhere⟩

/-- All nodes: a return counts by what names stand for where it is. -/
theorem readNodes_record {nodes : List Node}
    (h : nodes.foldlM (readNode outer) (store, returns) = .ok (store', returns')) :
    returns' = true ↔ returns = true ∨ ∃ before m after, nodes = before ++ m :: after ∧
      ReturnsFrame (before.foldl record (resolveIn store outer)) m := by
  induction nodes generalizing store returns with
  | nil =>
    cases h
    simp
  | cons m nodes ih =>
    rw [List.foldlM_cons] at h
    obtain ⟨⟨middle, found⟩, hm, hrest⟩ := of_bind_ok h
    obtain ⟨hknown, hfound⟩ := readNode_records hm
    rw [ih hrest, hfound, hknown, or_assoc]
    refine or_congr_right ?_
    constructor
    · rintro (hfirst | ⟨before, k, after, rfl, hk⟩)
      · exact ⟨[], m, nodes, rfl, hfirst⟩
      · exact ⟨m :: before, k, after, rfl, hk⟩
    · rintro ⟨before, k, after, hsplit, hk⟩
      cases before with
      | nil =>
        obtain ⟨rfl, rfl⟩ := List.cons.inj hsplit
        exact .inl hk
      | cons first before =>
        obtain ⟨rfl, rfl⟩ := List.cons.inj hsplit
        exact .inr ⟨before, k, after, rfl, hk⟩

theorem readNode_ok (h : Resolver.Answers outer) (state : Store × Bool) (m : Node) :
    ∃ next, readNode outer state m = .ok next := by
  have hvalues := classify_answered (resolveIn_answers h state.1)
  unfold readNode
  dsimp only
  split
  · cases m.child? Role.value with
    | none => exact ⟨_, rfl⟩
    | some value =>
      obtain ⟨facts, hfacts⟩ := hvalues value
      dsimp only
      rw [hfacts]
      exact ⟨_, rfl⟩
  · split
    · cases m.child? Role.value with
      | none => exact ⟨_, rfl⟩
      | some value =>
        obtain ⟨facts, hfacts⟩ := hvalues value
        dsimp only
        rw [hfacts]
        exact ⟨_, rfl⟩
    · exact ⟨_, rfl⟩

theorem readNodes_ok (h : Resolver.Answers outer) (state : Store × Bool) (nodes : List Node) :
    ∃ last, nodes.foldlM (readNode outer) state = .ok last := by
  induction nodes generalizing state with
  | nil => exact ⟨state, rfl⟩
  | cons m nodes ih =>
    obtain ⟨next, hnext⟩ := readNode_ok h state m
    rw [List.foldlM_cons, hnext]
    exact ih next

end Reading

/-! ## Summaries -/

/-- A summary comes from a reading of the nodes of the body. -/
theorem of_of_ok {function : Node} {outer : Resolver} {s : Summary}
    (h : Summary.of function outer = .ok s) :
    ∃ store, function.localNodes.foldlM (readNode outer)
      (parameterStore (parametersOf function) (frameParametersOf function), false) =
        .ok (store, s.returnsFrame) := by
  obtain ⟨⟨store, returns⟩, hread, hs⟩ := of_bind_ok h
  cases hs
  exact ⟨store, hread⟩

theorem of_answered {outer : Resolver} (h : Resolver.Answers outer) (function : Node) :
    ∃ s, Summary.of function outer = .ok s := by
  obtain ⟨⟨store, returns⟩, hread⟩ := readNodes_ok h
    (parameterStore (parametersOf function) (frameParametersOf function), false) function.localNodes
  unfold Summary.of
  dsimp only
  rw [hread]
  exact ⟨_, rfl⟩

/-- The return of a name counts if the name stands for a frame. -/
theorem returnsFrame_of_name {known : Resolver} {m : Node} {name : Ident} (h : m.Returns name) :
    ReturnsFrame known m ↔ ∃ b, known name = .ok (some b) ∧ b.isFrame = true := by
  obtain ⟨hkind, value, hvalue, hname, rfl⟩ := h
  constructor
  · rintro ⟨-, value', facts, hvalue', hfacts, hframe⟩
    obtain rfl := Option.some.inj (hvalue.symm.trans hvalue')
    rw [classify_name _ hname] at hfacts
    obtain ⟨b, hb, rfl⟩ := of_map_ok hfacts
    cases b with
    | none => simp [factsOf, Facts.unknown, Facts.isFrame] at hframe
    | some b => exact ⟨b, hb, hframe⟩
  · rintro ⟨b, hb, hframe⟩
    refine ⟨hkind, value, b.facts, hvalue, ?_, hframe⟩
    rw [classify_name _ hname, hb]
    rfl

/-! ## The latest assignment -/

/-- Of some nodes, an assignment is the latest that gives a name a value; `earlier` are the nodes
    before it. -/
def LatestGives (nodes : List Node) (name : Ident) (earlier : List Node) (assignment : Node) :
    Prop :=
  assignment.gives name = true ∧ ∃ between, nodes = earlier ++ assignment :: between ∧
    ∀ m ∈ between, m.gives name = false

/-- A name is given a value by some latest assignment, or by none. -/
theorem latestGives_or (nodes : List Node) (name : Ident) :
    (∃ earlier assignment, LatestGives nodes name earlier assignment) ∨
      ∀ m ∈ nodes, m.gives name = false := by
  induction nodes using List.reverseRecOn with
  | nil => exact .inr nofun
  | append_singleton nodes m ih =>
    by_cases hm : m.gives name = true
    · exact .inl ⟨nodes, m, hm, [], rfl, nofun⟩
    · rw [Bool.not_eq_true] at hm
      rcases ih with ⟨earlier, assignment, hgives, between, rfl, hbetween⟩ | hnone
      · refine .inl ⟨earlier, assignment, hgives, between ++ [m], by simp, ?_⟩
        exact List.forall_mem_append.mpr ⟨hbetween, by simpa using hm⟩
      · exact .inr (List.forall_mem_append.mpr ⟨hnone, by simpa using hm⟩)

variable {function : Node} {outer : Resolver} {nodes earlier : List Node} {name : Ident}
  {assignment : Node}

/-- A name that an assignment gave a value last stands for a frame if the value was one. -/
theorem knownAfter_of_latest (h : LatestGives nodes name earlier assignment) :
    (∃ b, knownAfter function outer nodes name = .ok (some b) ∧ b.isFrame = true) ↔
      ∃ facts, givenFacts (knownAfter function outer earlier) assignment = .ok facts ∧
        facts.isFrame = true := by
  obtain ⟨hgives, between, rfl, hbetween⟩ := h
  have hknown : knownAfter function outer (earlier ++ assignment :: between) name =
      record (knownAfter function outer earlier) assignment name := by
    rw [knownAfter_append, List.foldl_cons, foldl_record_of_notGiven hbetween]
  rw [hknown, record, if_pos hgives]
  constructor
  · rintro ⟨b, hb, -⟩
    obtain ⟨facts, hfacts, hsome⟩ := of_map_ok hb
    refine ⟨facts, hfacts, ?_⟩
    by_contra hframe
    simp [hframe] at hsome
  · rintro ⟨facts, hfacts, hframe⟩
    exact ⟨⟨name, facts.origin, facts.pinned⟩, by rw [hfacts]; simp [Except.map, hframe], hframe⟩

theorem knownAfter_of_notGiven (h : ∀ m ∈ nodes, m.gives name = false) :
    knownAfter function outer nodes name = knownAfter function outer [] name :=
  foldl_record_of_notGiven h _

end Summary

/-- A summary is made if the resolver of the enclosing scopes answers. It says that a function
    returns a frame if, in the order of the text, a name is given something that is a frame under
    every resolver, is given nothing else after that, and is then returned. It says no more than
    this: where only that name is returned, a return counts just if the latest assignment before it
    gave the name a frame, or if none gave it anything and it was a frame from the beginning. -/
theorem return_judged_by_latest_assignment (function : Node) (outer : Resolver) (name : Ident) :
    (Resolver.Answers outer → ∃ s, Summary.of function outer = .ok s) ∧
    ∀ s, Summary.of function outer = .ok s →
      (∀ before assignment between ret after value,
        function.localNodes = before ++ assignment :: (between ++ ret :: after) →
        assignment.gives name = true → assignment.child? Role.value = some value →
        value.IsAlwaysFrame → (∀ m ∈ between, m.gives name = false) → ret.Returns name →
        s.returnsFrame = true) ∧
      ((∀ m ∈ function.localNodes, m.kind = .return → m.Returns name) →
        (s.returnsFrame = true ↔ ∃ before ret after,
          function.localNodes = before ++ ret :: after ∧ ret.kind = .return ∧
          ((∃ earlier assignment facts, Summary.LatestGives before name earlier assignment ∧
              Summary.givenFacts (Summary.knownAfter function outer earlier) assignment = .ok facts ∧
              facts.isFrame = true) ∨
            ((∀ m ∈ before, m.gives name = false) ∧
              ∃ b, Summary.knownAfter function outer [] name = .ok (some b) ∧
                b.isFrame = true)))) := by
  refine ⟨fun h => Summary.of_answered h function, fun s hs => ?_⟩
  obtain ⟨store, hread⟩ := Summary.of_of_ok hs
  have hreturns : s.returnsFrame = true ↔ ∃ before m after,
      function.localNodes = before ++ m :: after ∧
        Summary.ReturnsFrame (Summary.knownAfter function outer before) m := by
    rw [Summary.readNodes_record hread]
    simp [Summary.knownAfter]
  refine ⟨?_, ?_⟩
  · intro before assignment between ret after value hsplit hgives hvalue hframe hbetween hret
    -- the assignment was read, so its value came to facts
    obtain ⟨facts, hfacts⟩ : ∃ facts,
        Summary.givenFacts (Summary.knownAfter function outer before) assignment = .ok facts := by
      rw [hsplit] at hread
      obtain ⟨here, found, next, hnext, hhere⟩ := Summary.readNodes_at hread
      unfold Summary.knownAfter
      rw [← hhere]
      exact Summary.givenFacts_ok hgives hnext
    refine hreturns.mpr ⟨before ++ assignment :: between, ret, after, by simp [hsplit], ?_⟩
    have hlatest : Summary.LatestGives (before ++ assignment :: between) name before assignment :=
      ⟨hgives, between, rfl, hbetween⟩
    rw [Summary.returnsFrame_of_name hret, Summary.knownAfter_of_latest hlatest]
    refine ⟨facts, hfacts, ?_⟩
    unfold Summary.givenFacts at hfacts
    rw [hvalue] at hfacts
    exact hframe.isFrame hfacts
  · intro hall
    rw [hreturns]
    constructor
    · rintro ⟨before, ret, after, hsplit, hframe⟩
      refine ⟨before, ret, after, hsplit, hframe.1, ?_⟩
      have hret : ret.Returns name := hall ret (by simp [hsplit]) hframe.1
      rw [Summary.returnsFrame_of_name hret] at hframe
      rcases Summary.latestGives_or before name with ⟨earlier, assignment, hlatest⟩ | hnone
      · obtain ⟨facts, hfacts⟩ := (Summary.knownAfter_of_latest hlatest).mp hframe
        exact .inl ⟨earlier, assignment, facts, hlatest, hfacts⟩
      · exact .inr ⟨hnone, Summary.knownAfter_of_notGiven hnone ▸ hframe⟩
    · rintro ⟨before, ret, after, hsplit, hkind, hknown⟩
      refine ⟨before, ret, after, hsplit, ?_⟩
      have hret : ret.Returns name := hall ret (by simp [hsplit]) hkind
      rw [Summary.returnsFrame_of_name hret]
      rcases hknown with ⟨earlier, assignment, facts, hlatest, hfacts⟩ | ⟨hnone, hknown⟩
      · exact (Summary.knownAfter_of_latest hlatest).mpr ⟨facts, hfacts⟩
      · exact (Summary.knownAfter_of_notGiven hnone).symm ▸ hknown

/-! ### Two functions -/

/-- A name in a role. -/
def dataName (role id : String) : Node :=
  { kind := .name, span := ⟨1, 1, 1, 1⟩, role := role, name := some id }

/-- The expression `pd.read_csv(path)`. -/
def csvReading : Node :=
  { kind := .call, span := ⟨1, 1, 1, 1⟩, role := Role.value, children :=
    [{ kind := .attribute, span := ⟨1, 1, 1, 1⟩, role := Role.func, name := some "read_csv",
       children := [dataName Role.receiver "pd"] },
      dataName Role.arg "path"] }

/-- The number 1. -/
def oneLiteral : Node :=
  { kind := .literal, span := ⟨1, 1, 1, 1⟩, role := Role.value, literal := some (.int 1) }

/-- The assignment of a value to `data`. -/
def dataAssignment (value : Node) : Node :=
  { kind := .assignment, span := ⟨1, 1, 1, 1⟩, role := Role.body, tag := "Assign",
    children := [dataName Role.target "data", value] }

/-- The statement `return data`. -/
def dataReturn : Node :=
  { kind := .return, span := ⟨1, 1, 1, 1⟩, role := Role.body,
    children := [dataName Role.value "data"] }

/-- A function that gives two values to `data` and returns it. -/
def loader (first second : Node) : Node :=
  { kind := .functionDef, span := ⟨1, 1, 1, 1⟩, name := some "load", children :=
    [{ kind := .parameter, span := ⟨1, 1, 1, 1⟩, role := Role.param, name := some "path" },
      { kind := .block, span := ⟨1, 1, 1, 1⟩, role := Role.body,
        children := [dataAssignment first, dataAssignment second, dataReturn] }] }

theorem csvReading_isAlwaysFrame : csvReading.IsAlwaysFrame := by
  rw [Node.isAlwaysFrame_iff]
  exact ⟨{ origin := .read }, by decide +kernel, rfl⟩

/-- What is read last counts, although the name held something else before. -/
theorem read_after_number_returned :
    ∃ s, Summary.of (loader oneLiteral csvReading) .blank = .ok s ∧ s.returnsFrame = true := by
  obtain ⟨hmade, hjudged⟩ :=
    return_judged_by_latest_assignment (loader oneLiteral csvReading) .blank (some "data")
  obtain ⟨s, hs⟩ := hmade fun _ => ⟨none, rfl⟩
  have hbetween : ∀ m ∈ (dataAssignment csvReading).children.flatMap Node.preorder,
      m.gives (some "data") = false := by decide +kernel
  exact ⟨s, hs, (hjudged s hs).1 ((loader oneLiteral csvReading).localNodes.take 4)
    (dataAssignment csvReading) _ dataReturn [dataName Role.value "data"] csvReading rfl rfl rfl
    csvReading_isAlwaysFrame hbetween ⟨rfl, _, rfl, rfl, rfl⟩⟩

/-- What was read is forgotten once the name is given a number, although an assignment of the
    body makes the name a frame. -/
theorem read_before_number_not_returned :
    (∃ m ∈ (loader csvReading oneLiteral).localNodes, m.gives (some "data") = true ∧
      ∃ value, m.child? Role.value = some value ∧ value.IsAlwaysFrame) ∧
    (∃ m ∈ (loader csvReading oneLiteral).localNodes, m.Returns (some "data")) ∧
    Summary.of (loader csvReading oneLiteral) .blank =
      .ok { name := "load", parameters := ["path"], frameParameters := [],
            returnsFrame := false } := by
  have hnodes : (loader csvReading oneLiteral).localNodes =
      (loader csvReading oneLiteral).localNodes.take 1 ++ dataAssignment csvReading ::
        ((loader csvReading oneLiteral).localNodes.drop 2).take 8 ++ dataReturn ::
          [dataName Role.value "data"] := rfl
  have hassigned : dataAssignment csvReading ∈ (loader csvReading oneLiteral).localNodes := by
    rw [hnodes]
    simp
  have hreturned : dataReturn ∈ (loader csvReading oneLiteral).localNodes := by
    rw [hnodes]
    simp
  exact ⟨⟨_, hassigned, rfl, csvReading, rfl, csvReading_isAlwaysFrame⟩,
    ⟨_, hreturned, rfl, _, rfl, rfl, rfl⟩, by decide +kernel⟩

end Framewise
