import Framewise.Proofs.BoundNames

/-! # Loops and their passes

  The walk runs the arm of a loop once and merges with what was there before, so
  what it knows after a loop is true of no pass and of one. It need not be true of
  two: in `while c: b = a; a = 1` the first pass copies one frame over another and
  only the second copies something else. A loop is safe from this exactly if two
  passes are enough to see it: if the facts that survive one pass survive two, from
  whatever state the loop is begun, they survive any number.

  Main definitions:
  - `Node.IsLoop`: a `for` or a `while`.
  - `loopHead`, `loopPass`: what happens before a loop, and in one pass of it.
  - `afterLoop`: where the walk over a loop leads.
  - `passes`: several passes in a row.
  - `HoldsAfter`: what a tracker says of frames holds after a number of passes.

  Main result: `loop_sound_iff_two_passes`.
-/

namespace Framewise

/-! ## Loops -/

/-- A `for` or a `while`. -/
def Node.IsLoop (n : Node) : Prop := n.kind = .branch ∧ (n.tag = "For" ∨ n.tag = "While")

instance (n : Node) : Decidable n.IsLoop := by
  unfold Node.IsLoop
  infer_instance

namespace Steps

variable {α β : Type}

/-- What happens once, before the passes of a loop. -/
def loopHead (s : Steps α) (n : Node) (calls : List (Node × α)) : α :=
  s.chain (callsWhere (playing (if n.tag = "For" then Role.iter else Role.test)) calls)

/-- One pass of a loop: its target, if it has one, and its body. -/
def loopPass (s : Steps α) (n : Node) (calls : List (Node × α)) : α :=
  if n.tag = "For" then
    s.andThen (s.loopTarget calls) (s.chain (callsWhere inLoop calls))
  else s.andThen (s.firstIn Role.body calls) (s.firstIn Role.orelse calls)

/-- A loop is a fork between one pass and none. -/
theorem passage_loop (s : Steps α) {n : Node} (h : n.IsLoop) (calls : List (Node × α)) :
    s.passage n calls = s.andThen (s.loopHead n calls) (s.fork [s.loopPass n calls] true) := by
  obtain ⟨hkind, htag⟩ := h
  unfold passage branching loopHead loopPass
  rcases htag with htag | htag
  · simp [hkind, htag]
  · simp [hkind, htag]

theorem Respects.loopPass {R : α → β → Prop} {s : Steps α} {s' : Steps β} {n : Node}
    (hs : Respects R s s' n) {calls : List (Node × α)} {calls' : List (Node × β)}
    (h : CallsRelated R n calls calls') : R (s.loopPass n calls) (s'.loopPass n calls') := by
  unfold Steps.loopPass
  split
  · exact hs.andThen (hs.loopTarget h) (hs.chainWhere _ h)
  · exact hs.andThen (hs.firstIn _ h) (hs.firstIn _ h)

end Steps

section Passes

variable (loop : Node)

/-- What happens before the passes of a loop. -/
def loopHead : Leg :=
  (legSteps .merged).loopHead loop (tourCalls (fun _ => .merged) [] loop 0 loop.children)

/-- One pass of a loop. -/
def loopPass : Leg :=
  (legSteps .merged).loopPass loop (tourCalls (fun _ => .merged) [] loop 0 loop.children)

/-- Where the walk over a loop leads from the state in which its passes begin. -/
def afterLoop (start : Tracker) : Except Fault Tracker :=
  (Leg.merged [loopPass loop] true start).result

/-- Several passes in a row. -/
def passes : Nat → Tracker → Except Fault Tracker
  | 0, t => .ok t
  | k + 1, t => do passes k (← (loopPass loop t).result)

/-- The frames that `after` knows are known as the same after `k` passes from `start`. -/
def HoldsAfter (start after : Tracker) (k : Nat) : Prop :=
  ∃ last, passes loop k start = .ok last ∧
    ∀ name b, after.lookup name = some b → b.isFrame = true → last.lookup name = some b

theorem passes_succ {start once : Tracker} (honce : (loopPass loop start).result = .ok once)
    (k : Nat) : passes loop (k + 1) start = passes loop k once := by
  rw [passes, honce]
  rfl

theorem passes_one (start : Tracker) : passes loop 1 start = (loopPass loop start).result := by
  cases honce : (loopPass loop start).result with
  | error fault => rw [passes, honce]; rfl
  | ok once => rw [passes_succ loop honce]; rfl

end Passes

variable {loop : Node}

/-- A visit of a loop runs its head, and its passes begin there. -/
theorem visit_loop (hloop : loop.IsLoop) {survey : Survey} {parent : Option Node}
    {walk last : Walk} (h : visit survey parent loop walk = .ok () last) :
    ∃ start, (loopHead loop walk.tracker).result = .ok start ∧
      afterLoop loop start = .ok last.tracker := by
  have hresult := (visit_follows survey [] parent loop).result h
  rw [tour_eq, (legSteps .merged).passage_loop hloop] at hresult
  have hlegs : ((loopHead loop).andThen (Leg.merged [loopPass loop] true) walk.tracker).result =
      .ok last.tracker := hresult
  exact Leg.of_andThen_ok hlegs

/-- A pass binds names that can be read off the loop. -/
theorem loopPass_binds (loop : Node) : ∃ names, (loopPass loop).Binds names := by
  refine ⟨boundSteps.loopPass loop (boundCalls loop.children), ?_⟩
  apply (Leg.Binds.respects loop).loopPass
  rw [tourCalls_eq, boundCalls_eq _ 0]
  exact Steps.callsRelated_zipIdx (fun c _ i => tour_binds ([] ++ [i]) (some loop) c) 0

/-- After a loop the stores of one pass and of none are merged. -/
theorem afterLoop_eq (loop : Node) (start : Tracker) :
    afterLoop loop start = (do
      let once ← (loopPass loop start).result
      (Store.merge [once.current.store, start.current.store]).map start.withStore) := by
  unfold afterLoop Leg.merged
  cases hpass : (loopPass loop start).result with
  | error fault => rw [Leg.outcomes_error hpass]; rfl
  | ok once => rw [Leg.outcomes_ok hpass]; rfl

theorem of_afterLoop {start after : Tracker} (h : afterLoop loop start = .ok after) :
    ∃ once merged, (loopPass loop start).result = .ok once ∧
      Store.merge [once.current.store, start.current.store] = .ok merged ∧
      start.withStore merged = after := by
  rw [afterLoop_eq] at h
  obtain ⟨once, honce, h⟩ := of_bind_ok h
  obtain ⟨merged, hmerged, h⟩ := of_map_ok h
  exact ⟨once, merged, honce, hmerged, h⟩

/-- A loop ends if the names that are bound can be put in order, and keeps what one pass and no
    pass agree on. -/
theorem afterLoop_ok {start once : Tracker} (honce : (loopPass loop start).result = .ok once)
    (hnames : Store.unorderable
      ([once.current.store, start.current.store].flatMap Store.names) = false) :
    ∃ after, afterLoop loop start = .ok after ∧ start.SameScopes after ∧
      ∀ name held, once.local? name = held → start.local? name = held →
        after.local? name = held := by
  obtain ⟨merged, hmerge⟩ := Store.merge_ok hnames
  refine ⟨start.withStore merged, ?_, .withStore start merged, fun name held honce' hstart => ?_⟩
  · rw [afterLoop_eq, honce]
    show Except.map _ (Store.merge _) = _
    rw [hmerge]
    rfl
  · refine Store.get?_merge_eq hmerge (by simp) ?_
    simpa using ⟨honce', hstart⟩

/-! ## What is known after a loop -/

namespace Tracker

/-- A name that the innermost scope does not know is looked up in the scopes around it. -/
theorem SameScopes.lookup_eq {t t' : Tracker} (h : t.SameScopes t') {name : Ident}
    (hlocal : t.local? name = none) (hlocal' : t'.local? name = none) :
    t'.lookup name = t.lookup name := by
  unfold Tracker.local? at hlocal hlocal'
  simp [lookup, scopes, hlocal, hlocal', h.outer]

/-- A frame that a merge knows is known wherever one of the merged stores is. -/
theorem lookup_of_merge {t e : Tracker} {stores : List Store} {merged : Store}
    (hmerge : Store.merge stores = .ok merged) (hscopes : t.SameScopes e)
    (hmem : e.current.store ∈ stores) {name : Ident} {b : Binding}
    (hb : (t.withStore merged).lookup name = some b) (hframe : b.isFrame = true) :
    e.lookup name = some b := by
  have hmerged : (t.withStore merged).local? name = merged.get? name := rfl
  cases hget : merged.get? name with
  | some known =>
    rw [lookup_of_local (hmerged.trans hget)] at hb
    cases hb
    exact lookup_of_local (Store.get?_merge_frame hmerge hget hframe _ hmem)
  | none =>
    -- no path knows the name, so all of them ask the scopes around
    have hlocal : e.local? name = none := (Store.get?_merge_none hmerge).mp hget _ hmem
    have hsame : (t.withStore merged).SameScopes e := ⟨hscopes.name, hscopes.summary, hscopes.outer⟩
    rw [hsame.lookup_eq (hmerged.trans hget) hlocal]
    exact hb

end Tracker

/-! ## Few passes -/

section Few

variable {start after : Tracker}

theorem holdsAfter_zero (h : afterLoop loop start = .ok after) :
    HoldsAfter loop start after 0 := by
  obtain ⟨once, merged, _, hmerge, rfl⟩ := of_afterLoop h
  refine ⟨start, rfl, fun name b hb hframe => ?_⟩
  exact Tracker.lookup_of_merge hmerge (.refl start) (by simp) hb hframe

theorem holdsAfter_one (h : afterLoop loop start = .ok after) :
    HoldsAfter loop start after 1 := by
  obtain ⟨once, merged, honce, hmerge, rfl⟩ := of_afterLoop h
  obtain ⟨names, hbinds⟩ := loopPass_binds loop
  refine ⟨once, (passes_one loop start).trans honce, fun name b hb hframe => ?_⟩
  exact Tracker.lookup_of_merge hmerge (hbinds.scopes honce) (by simp) hb hframe

theorem passes_of_fixed {t : Tracker} (h : (loopPass loop t).result = .ok t) (k : Nat) :
    passes loop k t = .ok t := by
  induction k with
  | zero => rfl
  | succ k ih => rw [passes_succ loop h, ih]

/-- If the second pass changes nothing, nor does any later one. -/
theorem holdsAfter_of_fixed (h : afterLoop loop start = .ok after)
    (hfixed : passes loop 2 start = passes loop 1 start) (k : Nat) :
    HoldsAfter loop start after k := by
  obtain ⟨once, _, honce, _⟩ := of_afterLoop h
  obtain ⟨last, hlast, hholds⟩ := holdsAfter_one h
  have hone : passes loop 1 start = .ok once := (passes_one loop start).trans honce
  obtain rfl : once = last := Except.ok.inj (hone.symm.trans hlast)
  have hagain : (loopPass loop once).result = .ok once := by
    rw [← passes_one, ← passes_succ loop honce, hfixed, hone]
  cases k with
  | zero => exact holdsAfter_zero h
  | succ k => exact ⟨once, by rw [passes_succ loop honce, passes_of_fixed hagain], hholds⟩

end Few

/-! ## Many passes -/

/-- If two passes keep what is known after a loop, the loop can be begun again after the first,
    and what was known is known again. -/
theorem afterLoop_again {start after once : Tracker} (h : afterLoop loop start = .ok after)
    (honce : (loopPass loop start).result = .ok once) (htwo : HoldsAfter loop start after 2) :
    ∃ again, afterLoop loop once = .ok again ∧
      ∀ name b, after.lookup name = some b → b.isFrame = true → again.lookup name = some b := by
  obtain ⟨names, hbinds⟩ := loopPass_binds loop
  obtain ⟨twice, htwice, hholds⟩ := htwo
  have hpass : (loopPass loop once).result = .ok twice := by
    rw [← passes_one, ← passes_succ loop honce, htwice]
  obtain ⟨once', merged, honce', hmerge, rfl⟩ := of_afterLoop h
  obtain rfl : once = once' := Except.ok.inj (honce.symm.trans honce')
  have hfirst := hbinds.store honce
  have hsecond := hbinds.store hpass
  -- the second pass binds no name that the first has not made known
  have habsent : ∀ name, once.local? name = none → twice.local? name = none := by
    intro name hnone
    have hname : name ∉ names := fun hmem => hfirst.known name hmem hnone
    exact (hsecond.untouched name hname).trans hnone
  have hknown : ∀ name, once.local? name ≠ none → twice.local? name ≠ none := by
    intro name hsome
    by_cases hname : name ∈ names
    · exact hsecond.known name hname
    · exact fun hnone => hsome ((hsecond.untouched name hname).symm.trans hnone)
  -- so the same names are merged as after the first pass, and they can be put in order
  have hnames : [twice.current.store, once.current.store].flatMap Store.names ⊆
      [once.current.store, start.current.store].flatMap Store.names := by
    intro name hname
    have hmem : name ∈ once.current.store.names := by
      rw [Store.mem_names_iff]
      intro hnone
      have hboth : twice.current.store.get? name = none := habsent name hnone
      simp only [List.flatMap_cons, List.flatMap_nil, List.append_nil, List.mem_append,
        Store.mem_names_iff] at hname
      rcases hname with hname | hname
      · exact hname hboth
      · exact hname hnone
    simp [hmem]
  obtain ⟨again, hagain, hscopes, hagrees⟩ :=
    afterLoop_ok hpass (Store.unorderable_of_subset hnames (Store.of_merge hmerge).1)
  refine ⟨again, hagain, fun name b hb hframe => ?_⟩
  have honceFrame : once.lookup name = some b :=
    Tracker.lookup_of_merge hmerge (hbinds.scopes honce) (by simp) hb hframe
  have htwiceFrame : twice.lookup name = some b := hholds name b hb hframe
  cases hget : once.local? name with
  | none =>
    have hnone := hagrees name none (habsent name hget) hget
    rw [hscopes.lookup_eq hget hnone]
    exact honceFrame
  | some known =>
    rw [Tracker.lookup_of_local hget] at honceFrame
    cases honceFrame
    obtain ⟨known', hget'⟩ := Option.ne_none_iff_exists'.mp (hknown name (by simp [hget]))
    rw [Tracker.lookup_of_local hget'] at htwiceFrame
    cases htwiceFrame
    exact Tracker.lookup_of_local (hagrees name (some b) hget' hget)

/-- If two passes always keep what is known after a loop, so does any number of them. -/
theorem holdsAfter_of_two
    (htwo : ∀ start after, afterLoop loop start = .ok after → HoldsAfter loop start after 2)
    (k : Nat) : ∀ start after, afterLoop loop start = .ok after → HoldsAfter loop start after k := by
  induction k with
  | zero => exact fun _ _ h => holdsAfter_zero h
  | succ k ih =>
    intro start after h
    obtain ⟨once, _, honce, _⟩ := of_afterLoop h
    -- the first pass is made, and the loop is begun again from where it has led
    obtain ⟨again, hagain, hkept⟩ := afterLoop_again h honce (htwo start after h)
    obtain ⟨last, hlast, hholds⟩ := ih once again hagain
    refine ⟨last, (passes_succ loop honce k).trans hlast, fun name b hb hframe => ?_⟩
    exact hholds name b (hkept name b hb hframe) hframe

/-- After a loop the walk knows what is true of no pass and of one. It knows only what is true
    of any number of passes, from every state in which the loop can be begun, exactly if it knows
    only what is true of two; and from a single state, if the second pass changes nothing. -/
theorem loop_sound_iff_two_passes (hloop : loop.IsLoop) :
    (∀ (survey : Survey) (parent : Option Node) (walk last : Walk),
      visit survey parent loop walk = .ok () last →
      ∃ start, (loopHead loop walk.tracker).result = .ok start ∧
        afterLoop loop start = .ok last.tracker) ∧
    (∀ start after, afterLoop loop start = .ok after →
      HoldsAfter loop start after 0 ∧ HoldsAfter loop start after 1 ∧
      (passes loop 2 start = passes loop 1 start → ∀ k, HoldsAfter loop start after k)) ∧
    ((∀ start after, afterLoop loop start = .ok after → ∀ k, HoldsAfter loop start after k) ↔
      ∀ start after, afterLoop loop start = .ok after → HoldsAfter loop start after 2) := by
  refine ⟨fun survey parent walk last => visit_loop hloop, ?_, ?_⟩
  · intro start after h
    exact ⟨holdsAfter_zero h, holdsAfter_one h, holdsAfter_of_fixed h⟩
  · constructor
    · exact fun h start after hafter => h start after hafter 2
    · exact fun h start after hafter k => holdsAfter_of_two h k start after hafter

/-! ### Two loops -/

/-- Two frames that were read. -/
def bothRead : Tracker :=
  (Tracker.start.bind (some "a") { origin := .read }).bind (some "b") { origin := .read }

/-- A loop that binds `b` to `a`, and then does more. -/
def copyingLoop (more : List Node) : Node :=
  let name (role id : String) : Node :=
    { kind := .name, span := ⟨1, 1, 1, 1⟩, role := role, name := some id }
  let copy : Node :=
    { kind := .assignment, span := ⟨1, 1, 1, 1⟩, role := Role.body,
      children := [name Role.target "b", name Role.value "a"] }
  { kind := .branch, span := ⟨1, 1, 1, 1⟩, tag := "While",
    children := [name Role.test "c",
      { kind := .block, span := ⟨1, 1, 1, 1⟩, role := Role.body, children := copy :: more }] }

/-- Binds `a` to a number. -/
def forgetSource : Node :=
  { kind := .assignment, span := ⟨1, 1, 1, 1⟩, role := Role.body, children :=
    [{ kind := .name, span := ⟨1, 1, 1, 1⟩, role := Role.target, name := some "a" },
      { kind := .literal, span := ⟨1, 1, 1, 1⟩, role := Role.value, literal := some (.int 1) }] }

/-- A loop that only copies is safe: its second pass changes nothing. -/
theorem copyingLoop_sound :
    (copyingLoop []).IsLoop ∧ ∃ after, afterLoop (copyingLoop []) bothRead = .ok after ∧
      after.lookup (some "b") = some { name := some "b", origin := .read } ∧
      ∀ k, HoldsAfter (copyingLoop []) bothRead after k := by
  have hloop : (copyingLoop []).IsLoop := by decide
  have honce : (loopPass (copyingLoop []) bothRead).result = .ok bothRead := by decide +kernel
  have hfixed : passes (copyingLoop []) 2 bothRead = passes (copyingLoop []) 1 bothRead := by
    decide +kernel
  obtain ⟨after, hafter, _, hagrees⟩ := afterLoop_ok honce (by decide +kernel)
  refine ⟨hloop, after, hafter, Tracker.lookup_of_local (hagrees _ _ rfl rfl), ?_⟩
  exact ((loop_sound_iff_two_passes hloop).2.1 bothRead after hafter).2.2 hfixed

/-- If the source is bound to something else after it is copied, the walk still takes the copy
    for a frame, and a second pass shows that it need not be one. -/
theorem second_pass_forgets :
    ∃ last twice,
      visit { rules := [] } none (copyingLoop [forgetSource]) { tracker := bothRead } =
        .ok () last ∧
      last.tracker.lookup (some "b") = some { name := some "b", origin := .read } ∧
      passes (copyingLoop [forgetSource]) 2 bothRead = .ok twice ∧
      twice.lookup (some "b") = some { name := some "b", origin := .unknown } := by
  have hloop : (copyingLoop [forgetSource]).IsLoop := by decide
  have honce : (loopPass (copyingLoop [forgetSource]) bothRead).result =
      .ok (bothRead.bind (some "a") .unknown) := by decide +kernel
  obtain ⟨last, hlast⟩ : ∃ last, visit { rules := [] } none (copyingLoop [forgetSource])
      { tracker := bothRead } = .ok () last := ⟨_, rfl⟩
  -- the head of the loop binds nothing, so the passes begin where the visit begins
  obtain ⟨start, hstart, hafter⟩ := visit_loop hloop hlast
  obtain rfl : bothRead = start := Except.ok.inj hstart
  obtain ⟨after, hafter', _, hagrees⟩ := afterLoop_ok honce (by decide +kernel)
  obtain rfl : last.tracker = after := Except.ok.inj (hafter.symm.trans hafter')
  refine ⟨last, _, hlast, Tracker.lookup_of_local (hagrees _ _ rfl rfl), rfl, ?_⟩
  decide +kernel

end Framewise
