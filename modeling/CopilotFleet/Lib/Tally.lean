import CopilotFleet.Lib.First
import Mathlib.Algebra.BigOperators.Group.List.Basic
import Mathlib.Tactic.Abel

/-!
# Counters That Are Sums

A program keeps a counter beside a list of entries, and moves the counter by
the right amount whenever it changes an entry. What the counter should be is
the sum of what the entries weigh. It is, as long as every change of an entry
moves the counter by the change in its weight; the three ways in which a list
changes are an entry at the end, the first entry of some kind rewritten, and
every entry rewritten while a loop moves the counter.

## Main definitions

* `tally`: What the entries weigh.

## Theorems

* `tally_setFirst`: The first entry that meets a condition, rewritten.
* `foldl_tally`: Every entry rewritten, and the counter moved in a loop.
* `forall₂_setFirst`, `forall₂_map`: Entry by entry, only some are changed.
-/

namespace CopilotFleet

namespace Tally

variable {α β γ M : Type*} [AddCommGroup M]

/-- What the entries weigh, by `f`. -/
def tally (f : α → M) (xs : List α) : M := (xs.map f).sum

@[simp] theorem tally_nil (f : α → M) : tally f [] = 0 := rfl

@[simp] theorem tally_cons (f : α → M) (x : α) (xs : List α) :
    tally f (x :: xs) = f x + tally f xs := by
  unfold tally
  rw [List.map_cons, List.sum_cons]

@[simp] theorem tally_append (f : α → M) (xs ys : List α) :
    tally f (xs ++ ys) = tally f xs + tally f ys := by
  unfold tally
  rw [List.map_append, List.sum_append]

theorem tally_setFirst {p : α → Bool} {x : α} {xs : List α} (h : xs.find? p = some x)
    (f : α → M) (g : α → α) :
    tally f (First.setFirst p g xs) = tally f xs + (f (g x) - f x) := by
  rcases First.setFirst_split h g with ⟨before, after, hsplit, _, hset⟩
  rw [hset, hsplit]
  simp only [tally_append, tally_cons]
  abel

/-- A loop that moves the counter by what each rewriting changes. -/
theorem foldl_tally {σ : Type*} (value : σ → M) (f : α → M) (g : α → α) {move : σ → α → σ}
    {xs : List α} (h : ∀ s, ∀ x ∈ xs, value (move s x) = value s + (f (g x) - f x)) (s : σ) :
    value (xs.foldl move s) = value s + (tally f (xs.map g) - tally f xs) := by
  induction xs generalizing s with
  | nil => simp
  | cons x rest ih =>
      rw [List.foldl_cons, ih (fun s y hy => h s y (List.mem_cons_of_mem x hy)),
        h s x List.mem_cons_self, List.map_cons, tally_cons, tally_cons]
      abel

theorem forall₂_map {R : α → α → Prop} {g : α → α} {xs : List α} (h : ∀ x ∈ xs, R x (g x)) :
    List.Forall₂ R xs (xs.map g) := by
  induction xs with
  | nil => exact .nil
  | cons x rest ih =>
      exact .cons (h x List.mem_cons_self) (ih fun y hy => h y (List.mem_cons_of_mem x hy))

theorem forall₂_setFirst {R : α → α → Prop} (hrefl : ∀ x, R x x) {p : α → Bool} {g : α → α}
    {xs : List α} (h : ∀ x, xs.find? p = some x → R x (g x)) :
    List.Forall₂ R xs (First.setFirst p g xs) := by
  induction xs with
  | nil => exact .nil
  | cons x rest ih =>
      unfold First.setFirst
      by_cases hx : p x = true
      · rw [if_pos hx]
        refine .cons (h x ?_) (List.forall₂_same.mpr fun y _ => hrefl y)
        rw [List.find?_cons, hx]
      · rw [if_neg hx]
        refine .cons (hrefl x) (ih fun y hy => h y ?_)
        rw [List.find?_cons, Bool.eq_false_iff.mpr hx]
        exact hy

end Tally

end CopilotFleet
