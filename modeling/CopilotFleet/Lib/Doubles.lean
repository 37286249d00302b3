import Mathlib.Algebra.Order.Floor.Semiring
import Mathlib.Data.Int.Log
import Mathlib.Data.Rat.Floor
import Mathlib.Tactic.Linarith
import Mathlib.Tactic.NormNum
import Mathlib.Tactic.Ring

/-!
# Doubles

A number of the source is a double. It is kept as the rational it is, and each
operation is the exact one with its result rounded: to fifty-three binary
digits, to the nearest, and between two nearest to the even one. No bound is
put on the exponent, so this is what a machine computes of numbers that are far
from the ends of its range.

Sums of doubles depend on the order they are added in, once they are past
`2 ^ 53`. Up to there whole numbers are exact (`rounded_natCast`), past it they
stay whole (`rounded_whole`), and no number moves by more than its part in
`2 ^ 53` (`rounded_error`).

## Main definitions

* `roundEven`: The nearest whole number.
* `rounded`: The nearest double.

## Theorems

* `rounded_natCast`: Whole numbers up to `2 ^ 53` are doubles.
* `rounded_whole`: The double of a whole number is whole.
* `rounded_error`: How far a number is from its double.
-/

namespace CopilotFleet

namespace Doubles

/-- The nearest whole number, the even one of two. -/
def roundEven (q : ℚ) : ℤ :=
  if q - ⌊q⌋ < 1 / 2 then ⌊q⌋
  else if q - ⌊q⌋ = 1 / 2 then (if ⌊q⌋ % 2 = 0 then ⌊q⌋ else ⌊q⌋ + 1)
  else ⌊q⌋ + 1

/-- What the last of fifty-three binary digits of a number stands for. -/
def lastPlace (q : ℚ) : ℚ := 2 ^ (Int.log 2 |q| - 52)

/-- The nearest double. -/
def rounded (q : ℚ) : ℚ := if q = 0 then 0 else roundEven (q / lastPlace q) * lastPlace q

theorem roundEven_intCast (n : ℤ) : roundEven n = n := by
  unfold roundEven
  rw [Int.floor_intCast, sub_self, if_pos (by norm_num)]

theorem roundEven_error (q : ℚ) : |roundEven q - q| ≤ 1 / 2 := by
  have hlow := Int.floor_le q
  have hhigh := Int.lt_floor_add_one q
  unfold roundEven
  rw [abs_le]
  -- Below the middle it is the floor, above it the next one, and at it either will do.
  split
  · constructor <;> linarith
  · split
    · split
      · constructor <;> linarith
      · push_cast
        constructor <;> linarith
    · push_cast
      constructor <;> linarith

theorem lastPlace_pos (q : ℚ) : 0 < lastPlace q := zpow_pos (by norm_num) _

/-- A multiple of the last place is a double. -/
theorem rounded_of_multiple {q : ℚ} {n : ℤ} (h : q = n * lastPlace q) : rounded q = q := by
  unfold rounded
  split
  · rename_i hzero
    exact hzero.symm
  · have hdiv : q / lastPlace q = n := by
      rw [div_eq_iff (lastPlace_pos q).ne']
      exact h
    rw [hdiv, roundEven_intCast, ← h]

/-- Whole numbers up to `2 ^ 53` are doubles. -/
theorem rounded_natCast {n : ℕ} (h : n ≤ 2 ^ 53) : rounded n = n := by
  have hlog : Int.log 2 |(n : ℚ)| = Nat.log 2 n := by
    rw [Nat.abs_cast, Int.log_natCast]
  rcases Nat.lt_or_eq_of_le h with hlt | rfl
  · -- The last place is a fraction of one, or one.
    have hsmall : Nat.log 2 n ≤ 52 := by
      rcases Nat.eq_zero_or_pos n with rfl | hpos
      · rw [Nat.log_zero_right]
        exact Nat.zero_le _
      · exact Nat.le_of_lt_succ (Nat.log_lt_of_lt_pow hpos.ne' hlt)
    refine rounded_of_multiple (n := ((n * 2 ^ (52 - Nat.log 2 n) : ℕ) : ℤ)) ?_
    unfold lastPlace
    rw [hlog]
    push_cast
    rw [mul_assoc, ← zpow_natCast, ← zpow_add₀ (by norm_num), Nat.cast_sub hsmall]
    norm_num
  · refine rounded_of_multiple (n := 2 ^ 52) ?_
    unfold lastPlace
    rw [hlog, Nat.log_pow (by decide)]
    norm_num

/-- The last place is a part in `2 ^ 52` at most. -/
theorem lastPlace_le {q : ℚ} (h : q ≠ 0) : lastPlace q ≤ |q| / 2 ^ 52 := by
  have hlow := Int.zpow_log_le_self (b := 2) (by decide) (abs_pos.mpr h)
  rw [Nat.cast_ofNat] at hlow
  unfold lastPlace
  rw [zpow_sub₀ (by norm_num)]
  exact div_le_div_of_nonneg_right hlow (by norm_num)

/-- A number and its double differ by a part in `2 ^ 53` at most. -/
theorem rounded_error (q : ℚ) : |rounded q - q| ≤ |q| / 2 ^ 53 := by
  unfold rounded
  split
  · rename_i hzero
    rw [hzero]
    norm_num
  · rename_i hne
    have hpos := lastPlace_pos q
    have hplaces : (roundEven (q / lastPlace q) : ℚ) * lastPlace q - q =
        (roundEven (q / lastPlace q) - q / lastPlace q) * lastPlace q := by
      rw [sub_mul, div_mul_cancel₀ _ hpos.ne']
    calc |(roundEven (q / lastPlace q) : ℚ) * lastPlace q - q|
        = |(roundEven (q / lastPlace q) : ℚ) - q / lastPlace q| * lastPlace q := by
          rw [hplaces, abs_mul, abs_of_pos hpos]
      _ ≤ 1 / 2 * lastPlace q := mul_le_mul_of_nonneg_right (roundEven_error _) hpos.le
      _ ≤ 1 / 2 * (|q| / 2 ^ 52) := mul_le_mul_of_nonneg_left (lastPlace_le hne) (by norm_num)
      _ = |q| / 2 ^ 53 := by ring

/-- The bounds this puts on a double. -/
theorem rounded_bounds {q : ℚ} (h : 0 ≤ q) :
    q - q / 2 ^ 53 ≤ rounded q ∧ rounded q ≤ q + q / 2 ^ 53 := by
  have herror := abs_le.mp (rounded_error q)
  rw [abs_of_nonneg h] at herror
  constructor <;> linarith

theorem rounded_nonneg {q : ℚ} (h : 0 ≤ q) : 0 ≤ rounded q := by
  have hlow := (rounded_bounds h).1
  linarith

theorem roundEven_nonneg {q : ℚ} (h : 0 ≤ q) : 0 ≤ roundEven q := by
  have hlow := (abs_le.mp (roundEven_error q)).1
  have hint : (-1 : ℚ) < roundEven q := by linarith
  have hless : -1 < roundEven q := by exact_mod_cast hint
  omega

/-- The double of a whole number is whole. -/
theorem rounded_whole (n : ℕ) : ∃ m : ℕ, rounded n = m := by
  rcases Nat.lt_or_ge (2 ^ 53) n with hlarge | hsmall
  · -- The last place stands for a whole number itself.
    have hlog : 53 ≤ Nat.log 2 n := Nat.le_log_of_pow_le (by decide) hlarge.le
    have hplace : lastPlace n = ((2 ^ (Nat.log 2 n - 52) : ℕ) : ℚ) := by
      unfold lastPlace
      rw [Nat.abs_cast, Int.log_natCast, Nat.cast_pow, ← zpow_natCast, Nat.cast_sub (by omega)]
      norm_num
    rcases Int.eq_ofNat_of_zero_le (roundEven_nonneg
      (div_nonneg (Nat.cast_nonneg n) (lastPlace_pos n).le)) with ⟨k, hk⟩
    refine ⟨k * 2 ^ (Nat.log 2 n - 52), ?_⟩
    unfold rounded
    rw [if_neg (Nat.cast_ne_zero.mpr (by omega)), hk, hplace, Int.cast_natCast, ← Nat.cast_mul]
  · exact ⟨n, rounded_natCast hsmall⟩

example : rounded (2 ^ 53 + 1) = 2 ^ 53 := by decide +kernel

end Doubles

end CopilotFleet
