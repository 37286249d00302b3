import Mathlib.Data.List.Forall2

/-!
# Texts that End Where They End

A text inside a larger one is read from its first unit on, and the reader has
to know where it stops. Either the text says so itself, as one in brackets
does, or it is made of one class of units and ends where a unit of no such
class stands. In both cases what is read is the same whatever comes after, so
long as what comes after stops it.

What is shown here is that a list of such texts, with a separator between two
and a bracket behind the last, is read in one way only (`joined_unique`).

## Main definitions

* `Stops`: Nothing follows, or a unit that ends what came before.

## Theorems

* `append_unique_of_all`: A text of one class of units ends where another unit stands.
* `joined_unique`: A list in brackets is read in one way.
-/

namespace CopilotFleet

namespace Joined

variable {α β : Type*}

/-- Nothing follows, or a unit that ends what came before. -/
def Stops (stop : α → Bool) (rest : List α) : Prop := ∀ u, rest.head? = some u → stop u = true

theorem stops_nil (stop : α → Bool) : Stops stop [] := fun _ h => by cases h

theorem stops_cons {stop : α → Bool} {u : α} (h : stop u = true) (rest : List α) :
    Stops stop (u :: rest) := by
  intro v hv
  rw [List.head?_cons, Option.some.injEq] at hv
  rw [← hv]
  exact h

/-- A text of one class of units ends where another unit stands. -/
theorem append_unique_of_all {stop : α → Bool} {a b r r' : List α}
    (ha : ∀ u ∈ a, stop u = false) (hb : ∀ u ∈ b, stop u = false) (hr : Stops stop r)
    (hr' : Stops stop r') (h : a ++ r = b ++ r') : a = b ∧ r = r' := by
  induction a generalizing b with
  | nil =>
      cases b with
      | nil => exact ⟨rfl, h⟩
      | cons v b =>
          rw [List.nil_append] at h
          have hstop := hr v (by rw [h]; rfl)
          rw [hb v List.mem_cons_self] at hstop
          cases hstop
  | cons u a ih =>
      cases b with
      | nil =>
          rw [List.nil_append] at h
          have hstop := hr' u (by rw [← h]; rfl)
          rw [ha u List.mem_cons_self] at hstop
          cases hstop
      | cons v b =>
          rw [List.cons_append, List.cons_append, List.cons.injEq] at h
          rcases ih (fun w hw => ha w (List.mem_cons_of_mem u hw))
            (fun w hw => hb w (List.mem_cons_of_mem v hw)) h.2 with ⟨rfl, hrest⟩
          exact ⟨by rw [h.1], hrest⟩

variable {separator close : α} {stop : α → Bool} {enc : β → List α}

/-- What stands behind one text of a list: another one, or the end. -/
def behind (separator close : α) (enc : β → List α) (r : List α) : List β → List α
  | [] => close :: r
  | x :: xs => separator :: ([separator].intercalate ((x :: xs).map enc) ++ close :: r)

theorem joined_cons (x : β) (xs : List β) (r : List α) :
    [separator].intercalate ((x :: xs).map enc) ++ close :: r =
      enc x ++ behind separator close enc r xs := by
  cases xs with
  | nil => rw [List.map_singleton, List.intercalate_singleton, behind]
  | cons y ys =>
      rw [behind, List.map_cons, List.map_cons, List.intercalate_cons_cons, ← List.map_cons,
        List.append_assoc, List.append_assoc, List.singleton_append]

theorem behind_stops (hseparator : stop separator = true) (hclose : stop close = true)
    (xs : List β) (r : List α) : Stops stop (behind separator close enc r xs) := by
  cases xs with
  | nil => exact stops_cons hclose r
  | cons x xs => exact stops_cons hseparator _

/-- A list in brackets is read in one way: its texts one by one, and what comes after. -/
theorem joined_unique {R : β → β → Prop} (hne : separator ≠ close)
    (hseparator : stop separator = true) (hclose : stop close = true) {xs ys : List β}
    {r r' : List α}
    (hxs : ∀ x ∈ xs, ∃ u, (enc x).head? = some u ∧ u ≠ close)
    (hys : ∀ y ∈ ys, ∃ u, (enc y).head? = some u ∧ u ≠ close)
    (hread : ∀ x ∈ xs, ∀ y ∈ ys, ∀ r r', Stops stop r → Stops stop r' →
      enc x ++ r = enc y ++ r' → R x y ∧ r = r')
    (h : [separator].intercalate (xs.map enc) ++ close :: r =
      [separator].intercalate (ys.map enc) ++ close :: r') :
    List.Forall₂ R xs ys ∧ r = r' := by
  -- A text that is there does not begin with the bracket that would end the list.
  have hends : ∀ (x : β) (rest : List β) (s s' : List α),
      (∃ u, (enc x).head? = some u ∧ u ≠ close) →
        close :: s ≠ [separator].intercalate ((x :: rest).map enc) ++ close :: s' := by
    rintro x rest s s' ⟨u, hhead, hu⟩ heq
    rw [joined_cons] at heq
    have hfirst := congrArg List.head? heq
    rw [List.head?_cons, List.head?_append, hhead, Option.some_or, Option.some.injEq] at hfirst
    exact hu hfirst.symm
  induction xs generalizing ys with
  | nil =>
      cases ys with
      | nil =>
          rw [List.map_nil, List.intercalate_nil, List.nil_append, List.nil_append,
            List.cons.injEq] at h
          exact ⟨.nil, h.2⟩
      | cons y ys => exact absurd h (hends y ys r r' (hys y List.mem_cons_self))
  | cons x xs ih =>
      cases ys with
      | nil => exact absurd h.symm (hends x xs r' r (hxs x List.mem_cons_self))
      | cons y ys =>
          rw [joined_cons, joined_cons] at h
          rcases hread x List.mem_cons_self y List.mem_cons_self _ _
            (behind_stops hseparator hclose xs r) (behind_stops hseparator hclose ys r') h
            with ⟨hxy, hbehind⟩
          have hread' : ∀ x' ∈ xs, ∀ y' ∈ ys, ∀ r r', Stops stop r → Stops stop r' →
              enc x' ++ r = enc y' ++ r' → R x' y' ∧ r = r' := fun x' hx' y' hy' =>
            hread x' (List.mem_cons_of_mem x hx') y' (List.mem_cons_of_mem y hy')
          cases xs with
          | nil =>
              cases ys with
              | nil =>
                  rw [behind, behind, List.cons.injEq] at hbehind
                  exact ⟨.cons hxy .nil, hbehind.2⟩
              | cons y' ys =>
                  rw [behind, behind, List.cons.injEq] at hbehind
                  exact absurd hbehind.1.symm hne
          | cons x' xs =>
              cases ys with
              | nil =>
                  rw [behind, behind, List.cons.injEq] at hbehind
                  exact absurd hbehind.1 hne
              | cons y' ys =>
                  rw [behind, behind, List.cons.injEq] at hbehind
                  rcases ih (fun z hz => hxs z (List.mem_cons_of_mem x hz))
                    (fun z hz => hys z (List.mem_cons_of_mem y hz)) hread' hbehind.2
                    with ⟨hrest, hr⟩
                  exact ⟨.cons hxy hrest, hr⟩

end Joined

end CopilotFleet
