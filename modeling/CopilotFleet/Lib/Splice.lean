import Mathlib.Data.List.Infix

/-!
# Copies Continued by Length

A copy of a sequence is made in two ways that know of each other only by how
long the copy is. First elements are put at its end as they come by, and some
may be missed. Then the copy is continued from the sequence itself, at the place
its length points to.

The length counts what was copied, not what came by. So what was missed is
never filled in, and the copy is the sequence in the end exactly where what was
put there at first was a prefix of it (`eq_iff`).

## Main definitions

* `Continued`: A copy that began with some elements and goes on by length.

## Theorems

* `Continued.refl`: A copy that has not been continued.
* `Continued.grow`: The sequence becomes longer.
* `Continued.advance`: The copy is continued.
* `Continued.eq_iff`: When a copy is the whole sequence.
-/

namespace CopilotFleet

variable {α : Type*} {begun whole copy : List α}

/-- A copy began with some elements and was continued from the whole by length. -/
structure Continued (begun whole copy : List α) : Prop where
  begun_le : begun.length ≤ copy.length
  le_whole : copy.length ≤ whole.length
  eq : copy = begun ++ (whole.drop begun.length).take (copy.length - begun.length)

namespace Continued

theorem refl (h : begun.length ≤ whole.length) : Continued begun whole begun := by
  refine ⟨Nat.le_refl _, h, ?_⟩
  rw [Nat.sub_self, List.take_zero, List.append_nil]

/-- The whole becomes longer at its end. -/
theorem grow (h : Continued begun whole copy) (more : List α) :
    Continued begun (whole ++ more) copy := by
  have hbegun := h.begun_le
  have hwhole := h.le_whole
  refine ⟨hbegun, ?_, ?_⟩
  · rw [List.length_append]
    omega
  · have htake : (whole.drop begun.length ++ more).take (copy.length - begun.length) =
        (whole.drop begun.length).take (copy.length - begun.length) := by
      refine List.take_append_of_le_length ?_
      rw [List.length_drop]
      omega
    rw [List.drop_append_of_le_length (by omega), htake]
    exact h.eq

/-- The copy is continued with what comes next in the whole. -/
theorem advance (h : Continued begun whole copy) (n : Nat) :
    Continued begun whole (copy ++ (whole.drop copy.length).take n) := by
  have hbegun := h.begun_le
  have hwhole := h.le_whole
  have hlength : ((whole.drop copy.length).take n).length = min n (whole.length - copy.length) := by
    rw [List.length_take, List.length_drop]
  refine ⟨?_, ?_, ?_⟩
  · rw [List.length_append]
    omega
  · rw [List.length_append, hlength]
    omega
  · -- What is taken after `copy` is taken after `begun` and what continued it.
    have hsplit : (copy ++ (whole.drop copy.length).take n).length - begun.length =
        (copy.length - begun.length) + min n (whole.length - copy.length) := by
      rw [List.length_append, hlength]
      omega
    have hdrop : (whole.drop begun.length).drop (copy.length - begun.length) =
        whole.drop copy.length := by
      rw [List.drop_drop]
      congr 1
      omega
    have htake : (whole.drop copy.length).take (min n (whole.length - copy.length)) =
        (whole.drop copy.length).take n := by
      rw [← List.length_drop, ← List.take_take, List.take_length]
    rw [hsplit, List.take_add, hdrop, htake, ← List.append_assoc, ← h.eq]

/-- A copy is the whole exactly where it is as long and began as the whole does. -/
theorem eq_iff (h : Continued begun whole copy) :
    copy = whole ↔ begun <+: whole ∧ whole.length ≤ copy.length := by
  constructor
  · intro hcopy
    refine ⟨?_, ?_⟩
    · rw [← hcopy, h.eq]
      exact List.prefix_append _ _
    · rw [hcopy]
  · rintro ⟨hstart, hlength⟩
    have hwhole := h.le_whole
    have hall : copy.length - begun.length = (whole.drop begun.length).length := by
      rw [List.length_drop]
      omega
    rw [h.eq, hall, List.take_length]
    conv_rhs => rw [← List.take_append_drop begun.length whole]
    rw [List.prefix_iff_eq_take.mp hstart, List.length_take,
      Nat.min_eq_left hstart.length_le]

end Continued

end CopilotFleet
