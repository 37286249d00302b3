import Mathlib.Data.List.Nodup
import CopilotFleet.Lib.Run

/-!
# At Most Once

A system that releases something under a key, a prompt or an operation or a
command, often has to do so at most once per key for the whole of its life.
What makes it so is always the same: each key has a phase that only moves
forward, and a release moves its key from before a mark to the mark or past it.
A second release would have to find the key before the mark again.

`released` collects the keys a run releases, in order. `released_nodup` is the
argument above, with an invariant of the states at hand, and
`past_of_released` is what remains true of a key from then on.

## Main definitions

* `released`: The keys a run releases.
* `Forward`: Phases never move back, and a release crosses the mark.

## Theorems

* `Forward.keeps_run`: The invariant holds at the end of a run.
* `Forward.phase_le`: A phase at the end of a run is no earlier than at its start.
* `Forward.past_of_released`: A released key has crossed the mark.
* `Forward.released_nodup`: No key is released twice.
-/

namespace CopilotFleet

namespace Once

variable {σ α κ : Type*} (step : σ → α → σ) (out : σ → α → List κ)

/-- The keys a run releases, in order. -/
def released : σ → List α → List κ
  | _, [] => []
  | s, op :: rest => out s op ++ released (step s op) rest

@[simp] theorem released_cons (s : σ) (op : α) (rest : List α) :
    released step out s (op :: rest) = out s op ++ released step out (step s op) rest := rfl

/-- Phases never move back, and a release takes its key from before `mark` to
    `mark` or past it. -/
structure Forward (I : σ → Prop) (ok : σ → α → Prop) (phase : σ → κ → Nat) (mark : Nat) :
    Prop where
  keeps : ∀ s op, I s → ok s op → I (step s op)
  grows : ∀ s op k, I s → ok s op → phase s k ≤ phase (step s op) k
  crosses : ∀ s op k, I s → ok s op → k ∈ out s op →
    phase s k < mark ∧ mark ≤ phase (step s op) k
  single : ∀ s op, I s → ok s op → (out s op).Nodup

variable {step out} {I : σ → Prop} {ok : σ → α → Prop} {phase : σ → κ → Nat} {mark : Nat}

theorem Forward.keeps_run (h : Forward step out I ok phase mark) (ops : List α) (s : σ)
    (hs : I s) (hok : Run.Admits step ok s ops) : I (Run.final step s ops) :=
  Run.invariant_of_admits step ok I h.keeps ops s hs hok

/-- The phase of a key at the end of a run is no earlier than at its start. -/
theorem Forward.phase_le (h : Forward step out I ok phase mark) (k : κ) :
    ∀ (ops : List α) (s : σ), I s → Run.Admits step ok s ops →
      phase s k ≤ phase (Run.final step s ops) k := by
  intro ops
  induction ops with
  | nil =>
      intro s _ _
      exact Nat.le_refl _
  | cons op rest ih =>
      intro s hs hok
      have hstep := h.grows s op k hs hok.1
      have hrest := ih (step s op) (h.keeps s op hs hok.1) hok.2
      exact Nat.le_trans hstep hrest

/-- A key that a run releases is before the mark at its start and past it at its end. -/
theorem Forward.past_of_released (h : Forward step out I ok phase mark) (k : κ) :
    ∀ (ops : List α) (s : σ), I s → Run.Admits step ok s ops → k ∈ released step out s ops →
      phase s k < mark ∧ mark ≤ phase (Run.final step s ops) k := by
  intro ops
  induction ops with
  | nil =>
      intro s _ _ hk
      exact absurd hk List.not_mem_nil
  | cons op rest ih =>
      intro s hs hok hk
      have hs' := h.keeps s op hs hok.1
      rw [released_cons, List.mem_append] at hk
      rcases hk with hk | hk
      · -- Released by the first step; from there the phase only grows.
        have hcross := h.crosses s op k hs hok.1 hk
        have hrest := h.phase_le k rest (step s op) hs' hok.2
        exact ⟨hcross.1, Nat.le_trans hcross.2 hrest⟩
      · have hgrow := h.grows s op k hs hok.1
        have hrest := ih (step s op) hs' hok.2 hk
        exact ⟨Nat.lt_of_le_of_lt hgrow hrest.1, hrest.2⟩

/-- No run releases a key twice. -/
theorem Forward.released_nodup (h : Forward step out I ok phase mark) :
    ∀ (ops : List α) (s : σ), I s → Run.Admits step ok s ops →
      (released step out s ops).Nodup := by
  intro ops
  induction ops with
  | nil =>
      intro s _ _
      exact List.nodup_nil
  | cons op rest ih =>
      intro s hs hok
      have hs' := h.keeps s op hs hok.1
      rw [released_cons, List.nodup_append]
      refine ⟨h.single s op hs hok.1, ih (step s op) hs' hok.2, ?_⟩
      intro k hk j hj hkj
      -- The first step put the key past the mark, where no later step releases it.
      have hcross := h.crosses s op k hs hok.1 hk
      have hlater := h.past_of_released j rest (step s op) hs' hok.2 hj
      rw [← hkj] at hlater
      omega

end Once

end CopilotFleet
