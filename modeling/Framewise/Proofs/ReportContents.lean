import Framewise.Proofs.Report
import Mathlib.Data.List.Sort
import Mathlib.Data.Prod.Lex
import Mathlib.Data.String.Basic

/-! # What a report consists of

  A report is described here without the steps by which it is made: how it is
  sorted, which identities it holds, and what it says about each of them. There
  is one list that fits the description, and it is the report.

  Ties need care. The sort key is coarser than the identity, so diagnostics that
  differ in where they end, or of which only the first is reported, may share
  their key; they stand in the order in which their identities first occur.

  Main definitions:
  - `Diagnostic.rank`: what diagnostics are sorted by, as an element of a linear order.
  - `Diagnostic.Kept`: a diagnostic that is to be reported.
  - `Diagnostic.IsReport`: the description of a report.

  Main result: `Diagnostic.isReport_iff`.
-/

namespace Framewise

/-! ## The order of a report -/

namespace Diagnostic

/-- Start line, start column, rule and subject, compared in this order. -/
def rank (d : Diagnostic) : ℤ ×ₗ ℤ ×ₗ String ×ₗ String :=
  toLex (d.span.startLine, toLex (d.span.startColumn, toLex (d.ruleId, d.subject)))

theorem rank_eq_iff {a b : Diagnostic} : a.rank = b.rank ↔ a.sortKey = b.sortKey := by
  simp [rank, sortKey]

theorem order_lt_iff {a b : Diagnostic} : order a b = .lt ↔ a.rank < b.rank := by
  simp only [order_eq, rank, Prod.Lex.toLex_lt_toLex, compareLex, compareOn,
    Ordering.then_eq_lt, Text.compare_lt_iff, Text.compare_eq_iff,
    Std.LawfulEqCmp.compare_eq_iff_eq, compare_lt_iff_lt]

theorem le_iff_rank_le {a b : Diagnostic} : le a b = true ↔ a.rank ≤ b.rank := by
  rw [le_iff_lt_or_eq, ← order_lt_iff, rank_eq_iff, ← order_eq_iff, le]
  cases order a b <;> simp

/-! ## The description of a report -/

/-- A diagnostic that is to be reported: its rule is on, if it is a crash the rule that crashed is
    on too, and its line does not suppress its rule. Without a crash id nothing is a crash. -/
structure Kept (policy : Policy) (suppressed : Option Suppression) (crashId : String)
    (d : Diagnostic) : Prop where
  enabled : d.ruleId ∉ policy.disabled
  crashed : crashId ≠ "" → d.ruleId = crashId → d.subject ∉ policy.disabled
  heard : ∀ suppresses, suppressed = some suppresses →
    suppresses d.span.startLine d.ruleId = false

/-- Where the identity of a diagnostic first occurs in a list. -/
def firstIndex (raw : List Diagnostic) (d : Diagnostic) : Nat :=
  raw.findIdx fun e => e.identity = d.identity

/-- A list that reports raw diagnostics as it should. -/
structure IsReport (policy : Policy) (suppressed : Option Suppression) (crashId : String)
    (raw report : List Diagnostic) : Prop where
  /-- It is sorted. -/
  sorted : report.Pairwise fun a b => a.rank ≤ b.rank
  /-- What the sorting leaves open goes by the first occurrence. -/
  stable : report.Pairwise fun a b => a.rank = b.rank → firstIndex raw a < firstIndex raw b
  /-- No identity is reported twice. -/
  nodup : (report.map identity).Nodup
  /-- The identities are those of the diagnostics that are kept. -/
  kept : ∀ i, (∃ d ∈ report, d.identity = i) ↔
    ∃ d ∈ raw, d.identity = i ∧ d.Kept policy suppressed crashId
  /-- The first diagnostic of an identity is reported, with its severity replaced if need be. -/
  first : ∀ d ∈ report, ∃ e, raw.find? (fun e => e.identity = d.identity) = some e ∧
    d = { e with severity := policy.severityOf e.ruleId e.severity }

section Reports

variable {policy : Policy} {suppressed : Option Suppression} {crashId : String}
variable {raw report report' : List Diagnostic}

theorem isKept_iff {d : Diagnostic} :
    d.isKept policy suppressed crashId = true ↔ d.Kept policy suppressed crashId := by
  have hheard : (!((suppressed.map fun suppresses =>
      suppresses d.span.startLine d.ruleId).getD false)) = true ↔
      ∀ suppresses, suppressed = some suppresses →
        suppresses d.span.startLine d.ruleId = false := by
    cases suppressed <;> simp
  have hcrashed : (crashId.isEmpty || d.ruleId != crashId || policy.enables d.subject) = true ↔
      (crashId ≠ "" → d.ruleId = crashId → d.subject ∉ policy.disabled) := by
    simp only [Policy.enables, Bool.or_eq_true, String.isEmpty_iff, bne_iff_ne,
      Bool.not_eq_true', List.contains_eq_mem, decide_eq_false_iff_not]
    tauto
  unfold isKept
  rw [Bool.and_eq_true, Bool.and_eq_true, hheard, hcrashed]
  simp only [Policy.enables, Bool.not_eq_true', List.contains_eq_mem, decide_eq_false_iff_not]
  exact ⟨fun ⟨⟨h, h'⟩, h''⟩ => ⟨h, h', h''⟩, fun h => ⟨⟨h.enabled, h.crashed⟩, h.heard⟩⟩

/-- Whether a diagnostic is kept depends on its identity alone. -/
theorem isKept_congr {d d' : Diagnostic} (h : d.identity = d'.identity) :
    d.isKept policy suppressed crashId = d'.isKept policy suppressed crashId := by
  obtain ⟨hrule, hspan, hsubject⟩ := Identity.mk.inj h
  simp only [isKept, hrule, hspan, hsubject]

/-! ## There is at most one -/

namespace IsReport

/-- A report holds the first diagnostics of the identities that are kept, and nothing else. -/
theorem mem_iff (h : IsReport policy suppressed crashId raw report) (d : Diagnostic) :
    d ∈ report ↔
      (∃ e ∈ raw, e.identity = d.identity ∧ e.Kept policy suppressed crashId) ∧
      ∃ e, raw.find? (fun e => e.identity = d.identity) = some e ∧
        d = { e with severity := policy.severityOf e.ruleId e.severity } := by
  constructor
  · intro hd
    exact ⟨(h.kept d.identity).mp ⟨d, hd, rfl⟩, h.first d hd⟩
  · rintro ⟨hkept, e, hfind, hd⟩
    obtain ⟨d', hd', hidentity⟩ := (h.kept d.identity).mpr hkept
    -- what is reported under the identity is made of the same diagnostic
    obtain ⟨e', hfind', hd''⟩ := h.first d' hd'
    rw [hidentity, hfind] at hfind'
    obtain rfl := Option.some.inj hfind'
    rw [hd, ← hd'']
    exact hd'

/-- With the first occurrence as the last criterion the order is strict. -/
theorem strict (h : IsReport policy suppressed crashId raw report) :
    report.Pairwise fun a b =>
      toLex (a.rank, firstIndex raw a) < toLex (b.rank, firstIndex raw b) := by
  refine (h.sorted.and h.stable).imp ?_
  rintro a b ⟨hle, htie⟩
  rw [Prod.Lex.toLex_lt_toLex]
  rcases hle.lt_or_eq with hlt | heq
  · exact .inl hlt
  · exact .inr ⟨heq, htie heq⟩

theorem unique (h : IsReport policy suppressed crashId raw report)
    (h' : IsReport policy suppressed crashId raw report') : report = report' := by
  let before (a b : Diagnostic) : Prop :=
    toLex (a.rank, firstIndex raw a) < toLex (b.rank, firstIndex raw b)
  have hirrefl : Std.Irrefl before := ⟨fun _ => lt_irrefl _⟩
  have hantisymm : Std.Antisymm before := ⟨fun _ _ hab hba => absurd hba hab.asymm⟩
  refine List.Pairwise.eq_of_mem_iff (r := before) h.strict h'.strict fun d => ?_
  rw [h.mem_iff, h'.mem_iff]

end IsReport

/-! ## First of each identity -/

/-- A diagnostic is first of its identity if none before it has the identity, and none of those
    that were seen earlier. -/
theorem mem_firsts_iff {seen : List Identity} {d : Diagnostic} :
    d ∈ firsts seen raw ↔
      d.identity ∉ seen ∧ raw.find? (fun e => e.identity = d.identity) = some d := by
  induction raw generalizing seen with
  | nil => simp [firsts]
  | cons e raw ih =>
    rw [firsts, List.find?_cons]
    by_cases hseen : e.identity ∈ seen
    · rw [if_pos (List.contains_iff_mem.mpr hseen), ih]
      -- an identity that was not seen is not that of the first diagnostic
      refine and_congr_right fun hd => ?_
      have hne : e.identity ≠ d.identity := fun heq => hd (heq ▸ hseen)
      simp [hne]
    · rw [if_neg (mt List.contains_iff_mem.mp hseen), List.mem_cons, ih]
      by_cases heq : e.identity = d.identity
      · simp only [heq, decide_true, List.mem_cons, true_or, not_true_eq_false, false_and,
          or_false, Option.some.injEq]
        exact ⟨fun h => ⟨heq ▸ hseen, h.symm⟩, fun h => h.2.symm⟩
      · have hne : d ≠ e := fun h => heq (h ▸ rfl)
        simp [heq, hne, Ne.symm heq]

/-- The first diagnostics of their identities stand in the order of these. -/
theorem firsts_pairwise (seen : List Identity) :
    (firsts seen raw).Pairwise fun a b => firstIndex raw a < firstIndex raw b := by
  induction raw generalizing seen with
  | nil => exact .nil
  | cons e raw ih =>
    -- one step further on, for everything with another identity
    have hshift : ∀ seen : List Identity, e.identity ∈ seen →
        (firsts seen raw).Pairwise fun a b =>
          firstIndex (e :: raw) a < firstIndex (e :: raw) b := by
      intro seen hseen
      refine (ih seen).imp_of_mem fun {a b} ha hb hlt => ?_
      have hne : ∀ d ∈ firsts seen raw, ¬ e.identity = d.identity :=
        fun d hd heq => (mem_firsts_iff.mp hd).1 (heq ▸ hseen)
      simpa [firstIndex, List.findIdx_cons, hne a ha, hne b hb] using hlt
    rw [firsts]
    split
    next hseen => exact hshift seen (List.contains_iff_mem.mp hseen)
    next =>
      refine List.pairwise_cons.mpr ⟨fun d hd => ?_, hshift _ List.mem_cons_self⟩
      have hne : ¬ e.identity = d.identity :=
        fun heq => (mem_firsts_iff.mp hd).1 (heq ▸ List.mem_cons_self)
      simp [firstIndex, List.findIdx_cons, hne]

/-! ## There is one -/

/-- It makes no difference whether what is dropped is dropped before or after the first
    diagnostics are picked. -/
theorem prepare_eq :
    prepare policy suppressed crashId raw =
      ((firsts [] raw).filter (isKept policy suppressed crashId)).map (withPolicy policy) := by
  rw [prepare, filter_firsts fun _ _ => isKept_congr]

theorem mem_resolve_iff {d : Diagnostic} :
    d ∈ resolve policy suppressed crashId raw ↔
      ∃ e, raw.find? (fun e => e.identity = d.identity) = some e ∧
        e.Kept policy suppressed crashId ∧ d = withPolicy policy e := by
  rw [resolve_eq, List.mem_mergeSort, prepare_eq, List.mem_map]
  simp only [List.mem_filter, mem_firsts_iff, List.not_mem_nil, not_false_eq_true, true_and,
    isKept_iff]
  -- a new severity does not change the identity
  constructor
  · rintro ⟨e, ⟨hfind, hkept⟩, rfl⟩
    exact ⟨e, hfind, hkept, rfl⟩
  · rintro ⟨e, hfind, hkept, rfl⟩
    exact ⟨e, ⟨hfind, hkept⟩, rfl⟩

/-- What holds of the elements under each key, in their order, holds of those that share a key. -/
theorem pairwise_of_filter {α κ : Type} [DecidableEq κ] {key : α → κ} {R : α → α → Prop}
    {items : List α} (h : ∀ k, (items.filter fun a => key a = k).Pairwise R) :
    items.Pairwise fun a b => key a = key b → R a b := by
  induction items with
  | nil => exact .nil
  | cons a items ih =>
    refine List.pairwise_cons.mpr ⟨fun b hb hkey => ?_, ih fun k => ?_⟩
    · have hfirst := h (key a)
      rw [List.filter_cons_of_pos (by simp)] at hfirst
      refine (List.pairwise_cons.mp hfirst).1 b (List.mem_filter.mpr ⟨hb, ?_⟩)
      exact decide_eq_true hkey.symm
    · exact (h k).sublist ((List.sublist_cons_self a items).filter _)

theorem prepare_pairwise :
    (prepare policy suppressed crashId raw).Pairwise fun a b =>
      firstIndex raw a < firstIndex raw b := by
  rw [prepare_eq, List.pairwise_map]
  exact (firsts_pairwise []).filter _

theorem resolve_isReport :
    IsReport policy suppressed crashId raw (resolve policy suppressed crashId raw) where
  sorted := resolve_sorted.imp le_iff_rank_le.mp
  stable := by
    -- under each key the report is as it was before it was sorted
    have hkeys : ∀ k, ((resolve policy suppressed crashId raw).filter
        fun d => d.sortKey = k).Pairwise fun a b => firstIndex raw a < firstIndex raw b := by
      intro k
      rw [resolve_eq, filter_mergeSort le_trans le_total le_of_sortKey]
      exact prepare_pairwise.filter _
    exact (pairwise_of_filter hkeys).imp fun h hrank => h (rank_eq_iff.mp hrank)
  nodup := by
    rw [resolve_eq, ((List.mergeSort_perm _ le).map identity).nodup_iff]
    refine List.pairwise_map.mpr (prepare_pairwise.imp fun {a b} hlt heq => ?_)
    simp [firstIndex, heq] at hlt
  kept := by
    intro i
    constructor
    · rintro ⟨d, hd, rfl⟩
      obtain ⟨e, hfind, hkept, rfl⟩ := mem_resolve_iff.mp hd
      exact ⟨e, List.mem_of_find?_eq_some hfind, rfl, hkept⟩
    · rintro ⟨d, hd, rfl, hkept⟩
      -- the first diagnostic of the identity is kept because this one is
      obtain ⟨e, hfind⟩ : ∃ e, raw.find? (fun e => e.identity = d.identity) = some e :=
        Option.isSome_iff_exists.mp (List.find?_isSome.mpr ⟨d, hd, by simp⟩)
      have hidentity : e.identity = d.identity := by simpa using List.find?_some hfind
      have hkept' : e.Kept policy suppressed crashId := by
        rw [← isKept_iff, isKept_congr hidentity]
        exact isKept_iff.mpr hkept
      refine ⟨withPolicy policy e, mem_resolve_iff.mpr ⟨e, ?_, hkept', rfl⟩, hidentity⟩
      rw [← hfind, ← hidentity]
      rfl
  first := by
    intro d hd
    obtain ⟨e, hfind, _, hd⟩ := mem_resolve_iff.mp hd
    exact ⟨e, hfind, hd⟩

/-- The report made of raw diagnostics fits the description of a report, and no other list
    does. -/
theorem isReport_iff :
    IsReport policy suppressed crashId raw report ↔
      report = resolve policy suppressed crashId raw :=
  ⟨fun h => h.unique resolve_isReport, fun h => h ▸ resolve_isReport⟩

end Reports

end Diagnostic

end Framewise
