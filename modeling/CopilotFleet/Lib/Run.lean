import Mathlib.Data.List.Basic

/-!
# Runs of a Deterministic System

A system here is a state and a function from a state and an operation to the
next state. Whatever the environment decides, an adversary's choice or a
failure or a clock reading, is part of the operation, so a run is a list of
operations and nothing else.

Claims about a program are claims about every run, and they come in three
kinds. An invariant holds wherever a run ends (`invariant`). A conditional
invariant holds wherever a run ends that only ever took admissible operations
(`invariant_of_admits`), where whether an operation is admissible may depend
on the state it meets. A monotone quantity only ever grows along a run
(`monotone`), which is what makes "from then on" a statement about two points
of one run.

## Main definitions

* `final`: Where a run ends.
* `Admits`: Every operation of the run meets a condition at its own state.
* `Each`: Every element of a list meets a condition on what is before it.

## Theorems

* `final_append`: A run splits at any point.
* `admits_append`: Admissibility splits with it.
* `invariant`: What every step preserves holds at the end.
* `invariant_of_admits`: The same, for steps that meet the condition.
* `monotone`: A relation every step respects relates both ends of a run.
* `each_snoc`, `forall_snoc`, `nodup_snoc`: One more element, one more condition.
* `foldl_visits`: What one turn of a loop preserves, the whole loop does.
-/

namespace CopilotFleet

namespace Run

variable {σ α : Type*}

/-- Where a run of `ops` from `s` ends. -/
def final (step : σ → α → σ) : σ → List α → σ
  | s, [] => s
  | s, op :: rest => final step (step s op) rest

/-- Every operation of the run meets `ok`, read at the state it is taken in. -/
def Admits (step : σ → α → σ) (ok : σ → α → Prop) : σ → List α → Prop
  | _, [] => True
  | s, op :: rest => ok s op ∧ Admits step ok (step s op) rest

/-- Whether a run is admissible can be computed where whether an operation is can. -/
instance decidableAdmits (step : σ → α → σ) (ok : σ → α → Prop)
    [∀ s op, Decidable (ok s op)] : ∀ s ops, Decidable (Admits step ok s ops)
  | _, [] => isTrue trivial
  | s, op :: rest =>
      have := decidableAdmits step ok (step s op) rest
      inferInstanceAs (Decidable (ok s op ∧ Admits step ok (step s op) rest))

/-- Every element meets `ok`, read against the elements before it. -/
def Each (ok : List α → α → Prop) (xs : List α) : Prop :=
  ∀ before x after, xs = before ++ x :: after → ok before x

theorem each_nil (ok : List α → α → Prop) : Each ok [] := by
  intro before x after h
  cases before <;> cases h

theorem each_snoc {ok : List α → α → Prop} {xs : List α} {x : α} :
    Each ok (xs ++ [x]) ↔ Each ok xs ∧ ok xs x := by
  constructor
  · intro h
    refine ⟨fun before y after hxs => ?_, h xs x [] rfl⟩
    exact h before y (after ++ [x]) (by rw [hxs, List.append_assoc, List.cons_append])
  · rintro ⟨hxs, hx⟩ before y after hsplit
    -- The element is the new one, or it stands in the old list.
    rcases List.eq_nil_or_concat after with rfl | ⟨after', z, rfl⟩
    · have hlast := List.append_inj' hsplit rfl
      rw [← hlast.1, ← List.head_eq_of_cons_eq hlast.2]
      exact hx
    · have hsplit' : xs ++ [x] = (before ++ y :: after') ++ [z] := by
        rw [hsplit, List.concat_eq_append, List.append_assoc, List.cons_append]
      exact hxs before y after' (List.append_inj' hsplit' rfl).1

/-- A condition of each element, and of one more. -/
theorem forall_snoc {p : α → Prop} {xs : List α} {x : α} (hxs : ∀ y ∈ xs, p y) (hx : p x) :
    ∀ y ∈ xs ++ [x], p y :=
  List.forall_mem_append.mpr ⟨hxs, List.forall_mem_singleton.mpr hx⟩

/-- An element was there before, or is the new one. -/
theorem old_or_new {p : α → Prop} {xs : List α} {x : α} (hx : p x) :
    ∀ y ∈ xs ++ [x], y ∈ xs ∨ p y :=
  forall_snoc (fun _ => .inl) (.inr hx)

/-- A name that no element had. -/
theorem nodup_snoc {β : Type*} {f : α → β} {xs : List α} {x : α} (hxs : (xs.map f).Nodup)
    (hx : f x ∉ xs.map f) : ((xs ++ [x]).map f).Nodup := by
  rw [List.map_append, List.map_singleton, List.nodup_append]
  refine ⟨hxs, List.pairwise_singleton _ _, fun a ha b hb hab => ?_⟩
  rw [List.mem_singleton.mp hb] at hab
  exact hx (hab ▸ ha)

/-- A loop over a list, where what is preserved may speak of the rest to visit. -/
theorem foldl_visits {f : σ → α → σ} (I : List α → σ → Prop)
    (hstep : ∀ x rest s, I (x :: rest) s → I rest (f s x)) :
    ∀ (xs : List α) (s : σ), I xs s → I [] (xs.foldl f s) := by
  intro xs
  induction xs with
  | nil =>
      intro s hs
      exact hs
  | cons x rest ih =>
      intro s hs
      exact ih (f s x) (hstep x rest s hs)

variable (step : σ → α → σ)

@[simp] theorem final_nil (s : σ) : final step s [] = s := rfl

@[simp] theorem final_cons (s : σ) (op : α) (rest : List α) :
    final step s (op :: rest) = final step (step s op) rest := rfl

@[simp] theorem final_append (s : σ) (xs ys : List α) :
    final step s (xs ++ ys) = final step (final step s xs) ys := by
  induction xs generalizing s with
  | nil => rfl
  | cons op rest ih => exact ih (step s op)

/-- Every run meets a condition that always holds. -/
theorem admits_of_forall {step : σ → α → σ} {ok : σ → α → Prop} (h : ∀ s op, ok s op) (s : σ)
    (ops : List α) : Admits step ok s ops := by
  induction ops generalizing s with
  | nil => trivial
  | cons op rest ih => exact ⟨h s op, ih (step s op)⟩

@[simp] theorem admits_append (ok : σ → α → Prop) (s : σ) (xs ys : List α) :
    Admits step ok s (xs ++ ys) ↔
      Admits step ok s xs ∧ Admits step ok (final step s xs) ys := by
  induction xs generalizing s with
  | nil => simp [Admits]
  | cons op rest ih => simp [Admits, ih (step s op), and_assoc]

theorem invariant_of_admits (ok : σ → α → Prop) (I : σ → Prop)
    (hstep : ∀ s op, I s → ok s op → I (step s op)) :
    ∀ (ops : List α) (s : σ), I s → Admits step ok s ops → I (final step s ops) := by
  intro ops
  induction ops with
  | nil =>
      intro s hs _
      exact hs
  | cons op rest ih =>
      intro s hs hok
      exact ih (step s op) (hstep s op hs hok.1) hok.2

theorem invariant (I : σ → Prop) (hstep : ∀ s op, I s → I (step s op))
    (ops : List α) (s : σ) (hs : I s) : I (final step s ops) := by
  induction ops generalizing s with
  | nil => exact hs
  | cons op rest ih => exact ih (step s op) (hstep s op hs)

theorem monotone (R : σ → σ → Prop) (hrefl : ∀ s, R s s)
    (htrans : ∀ a b c, R a b → R b c → R a c) (hstep : ∀ s op, R s (step s op))
    (ops : List α) (s : σ) : R s (final step s ops) := by
  induction ops generalizing s with
  | nil => exact hrefl s
  | cons op rest ih => exact htrans _ _ _ (hstep s op) (ih (step s op))

end Run

end CopilotFleet
