import Mathlib.Data.List.Basic

/-!
# Computations That May Be Refused

A program that checks before it changes is written as a computation in
`Except`: a check refuses, and whatever follows it is done only where it was
passed. What such a computation did is read off its result, one step at a
time, from the first check to the last.

## Theorems

* `bind_ok`: What a sequence came to, both parts did.
* `unless_ok`: A check that was passed, of a condition to refuse.
* `when_ok`: The same, of a check that is only sometimes made.
* `maybe_ok`: The same, of a change.
* `unless_none`: A check that had no reason against.
* `map_ok`: A result that was wrapped.
* `forM_ok`: A check of every element that was passed.
* `foldlM_invariant`: What one turn preserves, the whole loop does.
-/

namespace CopilotFleet

namespace Refusal

variable {ε α β : Type}

theorem bind_ok {x : Except ε α} {f : α → Except ε β} {b : β} (h : x >>= f = .ok b) :
    ∃ a, x = .ok a ∧ f a = .ok b := by
  cases x with
  | error e => cases h
  | ok a => exact ⟨a, rfl, h⟩

/-- A check that was passed. -/
theorem unless_ok {p : Prop} [Decidable p] {e : ε} {x : Except ε α} {a : α}
    (h : (if p then throw e else x) = .ok a) : ¬p ∧ x = .ok a := by
  by_cases hp : p
  · rw [if_pos hp] at h
    cases h
  · rw [if_neg hp] at h
    exact ⟨hp, h⟩

/-- A check that is made only where a condition holds, and was passed. -/
theorem when_ok {p : Prop} [Decidable p] {x : Except ε Unit} {f : Unit → Except ε α} {a : α}
    (h : (if p then x >>= f else f ()) = .ok a) : (p → x = .ok ()) ∧ f () = .ok a := by
  by_cases hp : p
  · rw [if_pos hp] at h
    rcases bind_ok h with ⟨_, hx, hf⟩
    exact ⟨fun _ => hx, hf⟩
  · rw [if_neg hp] at h
    exact ⟨fun hp' => absurd hp' hp, h⟩

/-- A change that is made only where a condition holds. -/
theorem maybe_ok {σ : Type} {p : Prop} [Decidable p] {x : Except ε σ} {s : σ}
    {f : σ → Except ε α} {a : α} (h : (if p then x >>= f else pure s >>= f) = .ok a) :
    ∃ t, (t = s ∨ (p ∧ x = .ok t)) ∧ f t = .ok a := by
  by_cases hp : p
  · rw [if_pos hp] at h
    rcases bind_ok h with ⟨t, hx, hf⟩
    exact ⟨t, .inr ⟨hp, hx⟩, hf⟩
  · rw [if_neg hp] at h
    exact ⟨s, .inl rfl, h⟩

/-- The same, of checks that answer with a reason or with nothing. -/
theorem unless_none {p : Prop} [Decidable p] {e : ε} {x : Option ε}
    (h : (if p then some e else x) = none) : ¬p ∧ x = none := by
  by_cases hp : p
  · rw [if_pos hp] at h
    cases h
  · rw [if_neg hp] at h
    exact ⟨hp, h⟩

theorem map_ok {x : Except ε α} {f : α → β} {b : β} (h : f <$> x = .ok b) :
    ∃ a, x = .ok a ∧ f a = b := by
  cases x with
  | error e => cases h
  | ok a => exact ⟨a, rfl, Except.ok.inj h⟩

theorem forM_ok {f : α → Except ε Unit} {xs : List α} {u : Unit} (h : xs.forM f = .ok u) :
    ∀ x ∈ xs, f x = .ok () := by
  induction xs with
  | nil => exact fun _ hx => nomatch hx
  | cons y rest ih =>
      have h : (f y >>= fun _ => rest.forM f) = .ok u := h
      rcases bind_ok h with ⟨_, hy, hrest⟩
      intro x hx
      rcases List.mem_cons.mp hx with rfl | hx
      · exact hy
      · exact ih hrest x hx

/-- What one turn of a loop preserves, the whole loop does. -/
theorem foldlM_invariant {σ : Type} (P : σ → Prop) {f : σ → α → Except ε σ} {xs : List α}
    (hstep : ∀ s, ∀ x ∈ xs, ∀ t, P s → f s x = .ok t → P t) {s t : σ} (hs : P s)
    (h : xs.foldlM f s = .ok t) : P t := by
  induction xs generalizing s with
  | nil =>
      rw [List.foldlM_nil] at h
      cases h
      exact hs
  | cons x rest ih =>
      rw [List.foldlM_cons] at h
      rcases bind_ok h with ⟨u, hu, hrest⟩
      exact ih (fun s y hy t hP hf => hstep s y (List.mem_cons_of_mem x hy) t hP hf)
        (hstep s x List.mem_cons_self u hs hu) hrest

/-- A loop none of whose turns refuses. -/
theorem mapM_ok_of {f : α → Except ε β} {g : α → β} {xs : List α}
    (h : ∀ x ∈ xs, f x = .ok (g x)) : xs.mapM f = .ok (xs.map g) := by
  induction xs with
  | nil => rfl
  | cons x rest ih =>
      rw [List.mapM_cons, h x List.mem_cons_self, ih fun y hy => h y (List.mem_cons_of_mem x hy)]
      rfl

end Refusal

end CopilotFleet
