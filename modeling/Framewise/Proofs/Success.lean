/-! # Computations that succeed

  Steps of a walk can fail. Two kinds of facts about them recur: what follows from
  the success of a composed computation, and that two computations succeed
  together, with related results. A construction that may give nothing is judged by
  what it gives.

  Main definitions: `BothOk`, `Yields`.

  Main results:
  - `of_map_ok`, `of_bind_ok`, `foldlM_invariant`: from the success of the whole to
    that of its parts.
  - `BothOk.bind`, `BothOk.foldlM`: composed computations succeed together.
-/

namespace Framewise

/-! ## Parts of a computation -/

section Parts

variable {ε α β : Type}

theorem of_map_ok {x : Except ε α} {f : α → β} {b : β} (h : x.map f = .ok b) :
    ∃ a, x = .ok a ∧ f a = b := by
  cases x with
  | error e => cases h
  | ok a => exact ⟨a, rfl, Except.ok.inj h⟩

theorem of_bind_ok {x : Except ε α} {f : α → Except ε β} {b : β} (h : x >>= f = .ok b) :
    ∃ a, x = .ok a ∧ f a = .ok b := by
  cases x with
  | error e => cases h
  | ok a => exact ⟨a, rfl, h⟩

/-- What every step keeps holds of the state in which a loop ends. -/
theorem foldlM_invariant {P : β → Prop} {f : β → α → Except ε β} {items : List α} {b c : β}
    (h : P b) (hstep : ∀ a ∈ items, ∀ b b', P b → f b a = .ok b' → P b')
    (hfold : items.foldlM f b = .ok c) : P c := by
  induction items generalizing b with
  | nil =>
    cases hfold
    exact h
  | cons a items ih =>
    rw [List.foldlM_cons] at hfold
    obtain ⟨next, hnext, hrest⟩ := of_bind_ok hfold
    have hnextP : P next := hstep a List.mem_cons_self b next h hnext
    exact ih hnextP (fun a' ha' => hstep a' (List.mem_cons_of_mem _ ha')) hrest

end Parts

/-! ## Computations that succeed together -/

/-- Two computations succeed, with related results. -/
def BothOk {ε α β : Type} (R : α → β → Prop) (x : Except ε α) (y : Except ε β) : Prop :=
  ∃ a b, x = .ok a ∧ y = .ok b ∧ R a b

namespace BothOk

variable {ε α β γ δ : Type} {R : α → β → Prop} {S : γ → δ → Prop}
variable {x : Except ε α} {y : Except ε β}

theorem pure {a : α} {b : β} (h : R a b) :
    BothOk R (pure a : Except ε α) (pure b : Except ε β) := ⟨a, b, rfl, rfl, h⟩

theorem bind {f : α → Except ε γ} {g : β → Except ε δ} (h : BothOk R x y)
    (hnext : ∀ a b, R a b → BothOk S (f a) (g b)) : BothOk S (x >>= f) (y >>= g) := by
  obtain ⟨a, b, rfl, rfl, hab⟩ := h
  exact hnext a b hab

theorem map {f : α → γ} {g : β → δ} (h : BothOk R x y) (hmap : ∀ a b, R a b → S (f a) (g b)) :
    BothOk S (x.map f) (y.map g) := by
  obtain ⟨a, b, rfl, rfl, hab⟩ := h
  exact ⟨f a, g b, rfl, rfl, hmap a b hab⟩

theorem mapError (h : BothOk R x y) {ε' : Type} (f : ε → ε') :
    BothOk R (x.mapError f) (y.mapError f) := by
  obtain ⟨a, b, rfl, rfl, hab⟩ := h
  exact ⟨a, b, rfl, rfl, hab⟩

/-- The same items read from related states. -/
theorem foldlM {f : α → γ → Except ε α} {g : β → γ → Except ε β} {items : List γ} {a : α} {b : β}
    (h : R a b) (hstep : ∀ c ∈ items, ∀ a b, R a b → BothOk R (f a c) (g b c)) :
    BothOk R (items.foldlM f a) (items.foldlM g b) := by
  induction items generalizing a b with
  | nil => exact .pure h
  | cons c items ih =>
    rw [List.foldlM_cons, List.foldlM_cons]
    refine (hstep c List.mem_cons_self a b h).bind fun a' b' h' => ih h' fun c' hc' => ?_
    exact hstep c' (List.mem_cons_of_mem _ hc')

end BothOk

/-! ## Results of a construction -/

/-- A construction, if it succeeds, gives something with a property. -/
def Yields {α : Type} (P : α → Prop) (result : Option α) : Prop := ∀ a ∈ result, P a

namespace Yields

variable {α β : Type} {P : α → Prop} {Q : β → Prop}

theorem some {a : α} (h : P a) : Yields P (some a) := by
  rintro b ⟨⟩
  exact h

theorem bind {first : Option α} {next : α → Option β} (h : Yields P first)
    (hnext : ∀ a, P a → Yields Q (next a)) : Yields Q (first >>= next) := by
  intro b hb
  obtain ⟨a, ha, hb⟩ := Option.bind_eq_some_iff.mp hb
  exact hnext a (h a ha) b hb

/-- Where nothing is asked of the first result. -/
theorem bind_any {first : Option α} {next : α → Option β} (h : ∀ a, Yields Q (next a)) :
    Yields Q (first >>= next) :=
  bind (P := fun _ => True) (fun _ _ => trivial) fun a _ => h a

theorem mono {P' : α → Prop} {result : Option α} (h : Yields P result) (himp : ∀ a, P a → P' a) :
    Yields P' result := fun a ha => himp a (h a ha)

theorem and {P' : α → Prop} {result : Option α} (h : Yields P result) (h' : Yields P' result) :
    Yields (fun a => P a ∧ P' a) result := fun a ha => ⟨h a ha, h' a ha⟩

theorem none : Yields P none := nofun

theorem map {f : α → β} {result : Option α} (h : Yields P result) (hf : ∀ a, P a → Q (f a)) :
    Yields Q (result.map f) := by
  intro b hb
  obtain ⟨a, ha, rfl⟩ := Option.map_eq_some_iff.mp hb
  exact hf a (h a ha)

theorem ite {c : Prop} [Decidable c] {x y : Option α} (hx : c → Yields P x)
    (hy : ¬c → Yields P y) : Yields P (if c then x else y) := by
  by_cases hc : c
  · rw [if_pos hc]
    exact hx hc
  · rw [if_neg hc]
    exact hy hc

end Yields

end Framewise
