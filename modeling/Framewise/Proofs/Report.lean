import Framewise.Diagnostic.Resolve
import Framewise.Proofs.TextOrder
import Mathlib.Data.List.Basic
import Mathlib.Order.Defs.Unbundled

/-! # Reports

  A report is made of raw diagnostics in four steps: filter, first of each
  identity, severity, order. All of them treat diagnostics with different sort
  keys apart from each other: what a report holds under a key is made of the raw
  diagnostics with that key alone. A sorted list is determined by what it holds
  under each key, so a report is too.

  Main definitions:
  - `Diagnostic.SortKey`: what diagnostics are sorted by.
  - `Diagnostic.prepare`: a report before it is sorted.

  Main results:
  - `filter_mergeSort`: sorting keeps the order of elements with the same key.
  - `eq_of_sorted`: a sorted list is determined by its elements under each key.
  - `mergeSort_filter`: elements may be dropped before or after sorting.
  - `Diagnostic.resolve_eq_filter`: part of a report, from part of the diagnostics.
-/

namespace Framewise

/-! ## Stable sorting -/

section StableSort

variable {α κ : Type} [DecidableEq κ] {le : α → α → Bool} {key : α → κ}

/-- Sorting keeps the elements with the same key in their order. -/
theorem filter_mergeSort (htrans : ∀ a b c, le a b → le b c → le a c)
    (htotal : ∀ a b, le a b || le b a) (hkey : ∀ a b, key a = key b → le a b) (items : List α)
    (k : κ) :
    (items.mergeSort le).filter (fun a => key a = k) = items.filter fun a => key a = k := by
  have htied : (items.filter fun a => key a = k).Pairwise (fun a b => le a b) := by
    refine List.pairwise_of_forall_mem_list fun a ha b hb => hkey a b ?_
    have hka := of_decide_eq_true (List.mem_filter.mp ha).2
    have hkb := of_decide_eq_true (List.mem_filter.mp hb).2
    exact hka.trans hkb.symm
  -- the elements with the key are a sorted sublist, so they are still one after sorting
  have hsub : (items.filter fun a => key a = k).Sublist
      ((items.mergeSort le).filter fun a => key a = k) := by
    have h := (List.sublist_mergeSort htrans htotal htied List.filter_sublist).filter
      fun a => key a = k
    simpa only [List.filter_filter, Bool.and_self] using h
  have hperm := (List.mergeSort_perm items le).filter fun a => key a = k
  exact (hsub.eq_of_length hperm.length_eq.symm).symm

theorem mem_iff_of_keys {items items' : List α}
    (hkeys : ∀ k, items.filter (fun a => key a = k) = items'.filter fun a => key a = k) (a : α) :
    a ∈ items ↔ a ∈ items' := by
  have hmem : a ∈ items.filter (fun b => key b = key a) ↔
      a ∈ items'.filter fun b => key b = key a := by rw [hkeys]
  simpa using hmem

/-- A sorted list is determined by its elements under each key. -/
theorem eq_of_sorted (hanti : ∀ a b, le a b → le b a → key a = key b) {items items' : List α}
    (h : items.Pairwise (fun a b => le a b)) (h' : items'.Pairwise (fun a b => le a b))
    (hkeys : ∀ k, items.filter (fun a => key a = k) = items'.filter fun a => key a = k) :
    items = items' := by
  induction items generalizing items' with
  | nil =>
    cases items' with
    | nil => rfl
    | cons b items' =>
      have hb := (mem_iff_of_keys hkeys b).mpr List.mem_cons_self
      exact absurd hb List.not_mem_nil
  | cons a items ih =>
    have hmem := mem_iff_of_keys hkeys
    cases items' with
    | nil => exact absurd ((hmem a).mp List.mem_cons_self) List.not_mem_nil
    | cons b items' =>
      obtain ⟨hfirst, hrest⟩ := List.pairwise_cons.mp h
      obtain ⟨hfirst', hrest'⟩ := List.pairwise_cons.mp h'
      -- the heads come before each other, so they share their key, and are the first under it
      have hkey : key a = key b := by
        rcases List.mem_cons.mp ((hmem a).mp List.mem_cons_self) with rfl | ha
        · rfl
        · rcases List.mem_cons.mp ((hmem b).mpr List.mem_cons_self) with rfl | hb
          · rfl
          · exact hanti a b (hfirst b hb) (hfirst' a ha)
      have hheads := hkeys (key a)
      rw [List.filter_cons_of_pos (by simp), List.filter_cons_of_pos (by simp [hkey])] at hheads
      obtain ⟨rfl, _⟩ := List.cons.inj hheads
      -- without the common head the lists still agree under each key
      have htails : ∀ k, items.filter (fun a => key a = k) =
          items'.filter fun a => key a = k := by
        intro k
        have hk := hkeys k
        by_cases hak : key a = k
        · simpa [List.filter_cons, hak] using hk
        · simpa [List.filter_cons, hak] using hk
      rw [ih hrest hrest' htails]

/-- It makes no difference whether elements are dropped before or after sorting. -/
theorem mergeSort_filter (htrans : ∀ a b c, le a b → le b c → le a c)
    (htotal : ∀ a b, le a b || le b a) (hkey : ∀ a b, key a = key b → le a b)
    (hanti : ∀ a b, le a b → le b a → key a = key b) (keep : α → Bool) (items : List α) :
    (items.filter keep).mergeSort le = (items.mergeSort le).filter keep := by
  have hsorted := List.pairwise_mergeSort htrans htotal
  refine eq_of_sorted hanti (hsorted _) ((hsorted _).filter _) fun k => ?_
  calc ((items.filter keep).mergeSort le).filter (fun a => key a = k)
      = (items.filter keep).filter fun a => key a = k := filter_mergeSort htrans htotal hkey _ k
    _ = (items.filter fun a => key a = k).filter keep := List.filter_comm _ _ _
    _ = ((items.mergeSort le).filter fun a => key a = k).filter keep := by
        rw [filter_mergeSort htrans htotal hkey]
    _ = ((items.mergeSort le).filter keep).filter fun a => key a = k := List.filter_comm _ _ _

end StableSort

/-! ## Order of diagnostics -/

namespace Diagnostic

/-- What diagnostics are sorted by. -/
structure SortKey where
  line : Int
  column : Int
  ruleId : String
  subject : String
  deriving DecidableEq

/-- The key of a diagnostic. -/
def sortKey (d : Diagnostic) : SortKey :=
  ⟨d.span.startLine, d.span.startColumn, d.ruleId, d.subject⟩

/-- A comparison of parts is as good as the comparison of wholes. -/
theorem transCmp_comap {α β : Type} (cmp : β → β → Ordering) [Std.TransCmp cmp] (part : α → β) :
    Std.TransCmp fun a b => cmp (part a) (part b) where
  eq_swap := Std.OrientedCmp.eq_swap
  isLE_trans := Std.TransCmp.isLE_trans

theorem order_eq :
    order =
      compareLex (compareOn fun d : Diagnostic => d.span.startLine)
        (compareLex (compareOn fun d : Diagnostic => d.span.startColumn)
          (compareLex (fun a b => Text.compare a.ruleId b.ruleId)
            fun a b => Text.compare a.subject b.subject)) := by
  funext a b
  -- the nested comparisons are the four keys in turn
  unfold order compareLex compareOn
  rw [Int.compare_eq_ite_lt, Int.compare_eq_ite_lt]
  split
  · rfl
  · split
    · rfl
    · split
      · rfl
      · split <;> rfl

instance : Std.TransCmp order := by
  have := transCmp_comap Text.compare Diagnostic.ruleId
  have := transCmp_comap Text.compare Diagnostic.subject
  rw [order_eq]
  infer_instance

theorem order_eq_iff {a b : Diagnostic} : order a b = .eq ↔ a.sortKey = b.sortKey := by
  simp [order_eq, compareLex_eq_eq, compareOn, Text.compare_eq_iff, sortKey]

theorem le_trans (a b c : Diagnostic) (h : le a b = true) (h' : le b c = true) :
    le a c = true := Std.TransCmp.isLE_trans h h'

theorem le_total (a b : Diagnostic) : (le a b || le b a) = true := by
  have hswap : order b a = (order a b).swap := Std.OrientedCmp.eq_swap
  unfold le
  rw [hswap]
  cases order a b <;> rfl

theorem le_of_sortKey (a b : Diagnostic) (h : a.sortKey = b.sortKey) : le a b = true := by
  unfold le
  rw [order_eq_iff.mpr h]
  rfl

theorem sortKey_eq_of_le (a b : Diagnostic) (h : le a b = true) (h' : le b a = true) :
    a.sortKey = b.sortKey := order_eq_iff.mp (Std.OrientedCmp.isLE_antisymm h h')

/-! ## First of each identity -/

/-- Only identities that occur make a difference. -/
theorem firsts_congr {seen seen' : List Identity} {ds : List Diagnostic}
    (h : ∀ d ∈ ds, (d.identity ∈ seen ↔ d.identity ∈ seen')) :
    firsts seen ds = firsts seen' ds := by
  induction ds generalizing seen seen' with
  | nil => rfl
  | cons d ds ih =>
    obtain ⟨hd, hds⟩ := List.forall_mem_cons.mp h
    simp only [firsts, List.contains_iff_mem, hd]
    split
    · exact ih hds
    · rw [ih]
      intro d' hd'
      simp only [List.mem_cons, hds d' hd']

/-- The first of each identity among some identities, from the diagnostics of these alone. -/
theorem filter_firsts {keep : Diagnostic → Bool}
    (hkeep : ∀ d d', d.identity = d'.identity → keep d = keep d') (seen : List Identity)
    (ds : List Diagnostic) : (firsts seen ds).filter keep = firsts seen (ds.filter keep) := by
  induction ds generalizing seen with
  | nil => rfl
  | cons d ds ih =>
    cases hd : keep d with
    | true =>
      rw [List.filter_cons_of_pos hd, firsts, firsts]
      split
      · exact ih seen
      · rw [List.filter_cons_of_pos hd, ih]
    | false =>
      have hd' : ¬ keep d = true := by simp [hd]
      rw [List.filter_cons_of_neg hd', firsts]
      split
      · exact ih seen
      · rw [List.filter_cons_of_neg hd', ih]
        -- what is kept has another identity than what is dropped
        refine firsts_congr fun e he => ?_
        have hne : e.identity ≠ d.identity := by
          intro heq
          rw [← hkeep e d heq, (List.mem_filter.mp he).2] at hd
          cases hd
        simp [hne]

/-! ## Reports -/

/-- A report before it is sorted. -/
def prepare (policy : Policy) (suppressed : Option Suppression) (crashId : String)
    (raw : List Diagnostic) : List Diagnostic :=
  (firsts [] (raw.filter (isKept policy suppressed crashId))).map (withPolicy policy)

section Reports

variable {policy policy' : Policy} {suppressed : Option Suppression} {crashId : String}
variable {raw raw' : List Diagnostic} {keep : Diagnostic → Bool}

theorem resolve_eq :
    resolve policy suppressed crashId raw = (prepare policy suppressed crashId raw).mergeSort le :=
  rfl

/-- A choice of diagnostics that looks at their identity only can be made before or after the
    report is prepared. -/
theorem filter_prepare (hkeep : ∀ d d', d.identity = d'.identity → keep d = keep d') :
    (prepare policy suppressed crashId raw).filter keep =
      prepare policy suppressed crashId (raw.filter keep) := by
  -- a new severity does not change the identity
  have hseverity : keep ∘ withPolicy policy = keep := by
    funext d
    exact hkeep _ _ rfl
  unfold prepare
  rw [List.filter_map, hseverity, filter_firsts hkeep, List.filter_comm]

theorem mem_of_mem_firsts {seen : List Identity} {ds : List Diagnostic} {d : Diagnostic}
    (h : d ∈ firsts seen ds) : d ∈ ds := by
  induction ds generalizing seen with
  | nil => exact h
  | cons e ds ih =>
    unfold firsts at h
    split at h
    · exact List.mem_cons_of_mem _ (ih h)
    · rcases List.mem_cons.mp h with rfl | h
      · exact List.mem_cons_self
      · exact List.mem_cons_of_mem _ (ih h)

/-- Policies that treat the diagnostics alike prepare the same report. -/
theorem prepare_congr
    (hkept : ∀ d ∈ raw, isKept policy' suppressed crashId d = isKept policy suppressed crashId d)
    (hpolicy : ∀ d ∈ raw, withPolicy policy' d = withPolicy policy d) :
    prepare policy' suppressed crashId raw = prepare policy suppressed crashId raw := by
  unfold prepare
  rw [List.filter_congr hkept]
  refine List.map_congr_left fun d hd => hpolicy d ?_
  exact (List.mem_filter.mp (mem_of_mem_firsts hd)).1

theorem sortKey_of_identity {d d' : Diagnostic} (h : d.identity = d'.identity) :
    d.sortKey = d'.sortKey := by
  obtain ⟨hrule, hspan, hsubject⟩ := Identity.mk.inj h
  simp only [sortKey, hrule, hspan, hsubject]

/-- A report holds under a key what is prepared of the diagnostics with that key. -/
theorem filter_resolve (k : SortKey) :
    (resolve policy suppressed crashId raw).filter (fun d => d.sortKey = k) =
      prepare policy suppressed crashId (raw.filter fun d => d.sortKey = k) := by
  rw [resolve_eq, filter_mergeSort le_trans le_total le_of_sortKey]
  exact filter_prepare fun d d' h => by rw [sortKey_of_identity h]

theorem resolve_sorted :
    (resolve policy suppressed crashId raw).Pairwise (fun a b => le a b) :=
  List.pairwise_mergeSort le_trans le_total _

/-- A report of kept diagnostics, from a report of all. Under every key the diagnostics that are
    kept have to be the same ones in the same order, and both policies treat them alike. -/
theorem resolve_eq_filter (hkeep : ∀ d d', d.identity = d'.identity → keep d = keep d')
    (hraw : ∀ k, raw'.filter (fun d => d.sortKey = k) =
      (raw.filter keep).filter fun d => d.sortKey = k)
    (hkept : ∀ d ∈ raw', isKept policy' suppressed crashId d = isKept policy suppressed crashId d)
    (hpolicy : ∀ d ∈ raw', withPolicy policy' d = withPolicy policy d) :
    resolve policy' suppressed crashId raw' =
      (resolve policy suppressed crashId raw).filter keep := by
  refine eq_of_sorted sortKey_eq_of_le resolve_sorted (resolve_sorted.filter _) fun k => ?_
  calc (resolve policy' suppressed crashId raw').filter (fun d => d.sortKey = k)
      = prepare policy' suppressed crashId (raw'.filter fun d => d.sortKey = k) :=
        filter_resolve k
    _ = prepare policy suppressed crashId (raw'.filter fun d => d.sortKey = k) :=
        prepare_congr (fun d hd => hkept d (List.mem_filter.mp hd).1)
          fun d hd => hpolicy d (List.mem_filter.mp hd).1
    _ = prepare policy suppressed crashId ((raw.filter fun d => d.sortKey = k).filter keep) := by
        rw [hraw, List.filter_comm]
    _ = ((resolve policy suppressed crashId raw).filter fun d => d.sortKey = k).filter keep := by
        rw [filter_resolve, filter_prepare hkeep]
    _ = ((resolve policy suppressed crashId raw).filter keep).filter fun d => d.sortKey = k :=
        List.filter_comm _ _ _

end Reports

end Diagnostic

end Framewise
