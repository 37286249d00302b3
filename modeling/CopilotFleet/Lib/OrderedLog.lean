import Mathlib.Data.List.Sort
import Mathlib.Order.Defs.LinearOrder

/-!
# A Log Read in Order

A log keeps its entries by a number of each, and an entry may arrive after
others with greater numbers. It is read from the front in batches: the next so
many entries past a cursor, which is then moved to the last one read.

Whoever folds the batches as they come has, at any time, folded the log up to
the cursor (`upTo_batch`), and with a batch that was not full the whole of it
(`upTo_of_short`). An entry that arrives past the cursor changes nothing of what
was read (`filter_insert_neg`); one behind it does. One past the whole log is
simply the next (`filter_insert_last`).

## Main definitions

* `insert`: An entry among those that are there.
* `past`, `upTo`: What is behind a cursor, and what is not.
* `batch`: The next entries past a cursor.
* `cursor`: Where a batch leaves the cursor.

## Theorems

* `pairwise_insert`: The log stays in order.
* `filter_insert_neg`, `filter_insert_last`: What a selection sees of a new entry.
* `upTo_append_past`: The log, cut at a cursor.
* `upTo_batch`: A batch is what the cursor passes.
* `upTo_of_short`: A batch that is not full reaches the end.
-/

namespace CopilotFleet

namespace OrderedLog

variable {α : Type*} (number : α → Nat)

/-- An entry in front of the first that does not come before it. -/
def insert (x : α) (xs : List α) : List α :=
  xs.orderedInsert (fun a b => number a ≤ number b) x

theorem mem_insert {x y : α} {xs : List α} : y ∈ insert number x xs ↔ y = x ∨ y ∈ xs :=
  List.mem_orderedInsert _

theorem pairwise_insert (x : α) {xs : List α}
    (h : xs.Pairwise fun a b => number a ≤ number b) :
    (insert number x xs).Pairwise fun a b => number a ≤ number b := by
  have htotal : Std.Total fun a b : α => number a ≤ number b :=
    ⟨fun a b => Nat.le_total (number a) (number b)⟩
  have htrans : IsTrans α fun a b => number a ≤ number b := ⟨fun _ _ _ => Nat.le_trans⟩
  exact List.Pairwise.orderedInsert x xs h

/-- A symmetric relation of the entries, and of the new one to them. -/
theorem pairwise_insert_of {R : α → α → Prop} (hsymm : ∀ a b, R a b → R b a) {x : α} {xs : List α}
    (hxs : xs.Pairwise R) (hx : ∀ y ∈ xs, R x y) : (insert number x xs).Pairwise R := by
  have hperm : (insert number x xs).Perm (x :: xs) := List.perm_orderedInsert _ x xs
  exact (hperm.pairwise_iff fun hab => hsymm _ _ hab).mpr (List.pairwise_cons.mpr ⟨hx, hxs⟩)

/-- A selection without the new entry does not see it. -/
theorem filter_insert_neg {p : α → Bool} {x : α} (hx : p x = false) (xs : List α) :
    (insert number x xs).filter p = xs.filter p := by
  have hnot : ¬p x = true := by simp [hx]
  induction xs with
  | nil => exact List.filter_cons_of_neg hnot
  | cons y ys ih =>
      unfold insert at ih ⊢
      rw [List.orderedInsert_cons]
      by_cases hle : number x ≤ number y
      · rw [if_pos hle, List.filter_cons_of_neg hnot]
      · rw [if_neg hle]
        by_cases hy : p y = true
        · rw [List.filter_cons_of_pos hy, List.filter_cons_of_pos hy, ih]
        · rw [List.filter_cons_of_neg hy, List.filter_cons_of_neg hy, ih]

/-- A selection that is all before the new entry has it last. -/
theorem filter_insert_last {p : α → Bool} {x : α} (hx : p x = true) {xs : List α}
    (hsorted : xs.Pairwise fun a b => number a ≤ number b)
    (hlast : ∀ y ∈ xs, p y = true → number y < number x) :
    (insert number x xs).filter p = xs.filter p ++ [x] := by
  induction xs with
  | nil => exact List.filter_cons_of_pos hx
  | cons y ys ih =>
      rw [List.pairwise_cons] at hsorted
      have hrest := ih hsorted.2 fun z hz => hlast z (List.mem_cons_of_mem y hz)
      unfold insert at hrest ⊢
      rw [List.orderedInsert_cons]
      by_cases hle : number x ≤ number y
      · -- Everything from here on is past the new entry, and none of it is selected.
        have hnone : (y :: ys).filter p = [] := by
          refine List.filter_eq_nil_iff.mpr fun z hz hp => ?_
          have hlt := hlast z hz hp
          rcases List.mem_cons.mp hz with rfl | hz
          · omega
          · have hyz := hsorted.1 z hz
            omega
        rw [if_pos hle, List.filter_cons_of_pos hx, hnone, List.nil_append]
      · rw [if_neg hle]
        by_cases hy : p y = true
        · rw [List.filter_cons_of_pos hy, List.filter_cons_of_pos hy, hrest, List.cons_append]
        · rw [List.filter_cons_of_neg hy, List.filter_cons_of_neg hy, hrest]

/-! ### Reading in batches -/

/-- What is not behind the cursor yet. -/
def past (cursor : Nat) (xs : List α) : List α := xs.filter fun x => decide (cursor < number x)

def upTo (cursor : Nat) (xs : List α) : List α := xs.filter fun x => decide (number x ≤ cursor)

/-- The next entries past the cursor. -/
def batch (cursor limit : Nat) (xs : List α) : List α := (past number cursor xs).take limit

/-- The last entry of a batch is where the next one starts. -/
def cursor (start : Nat) (read : List α) : Nat := (read.getLast?.map number).getD start

theorem upTo_append_past (cut : Nat) {xs : List α}
    (h : xs.Pairwise fun a b => number a < number b) :
    upTo number cut xs ++ past number cut xs = xs := by
  induction xs with
  | nil => rfl
  | cons x xs ih =>
      rw [List.pairwise_cons] at h
      unfold upTo past at ih ⊢
      by_cases hx : number x ≤ cut
      · rw [List.filter_cons_of_pos (by simpa using hx),
          List.filter_cons_of_neg (by simpa using hx), List.cons_append, ih h.2]
      · -- An entry past the cut has only such entries behind it.
        have hnone : xs.filter (fun x => decide (number x ≤ cut)) = [] := by
          refine List.filter_eq_nil_iff.mpr fun y hy hle => ?_
          have hlt := h.1 y hy
          have hle' : number y ≤ cut := of_decide_eq_true hle
          omega
        rw [hnone, List.nil_append] at ih
        rw [List.filter_cons_of_neg (by simpa using hx), hnone,
          List.filter_cons_of_pos (by simpa using hx), List.nil_append, ih h.2]

/-- Of a list in order, what is not past the last of its first entries is these entries. -/
theorem upTo_last {xs ys : List α} {l : α} (h : (xs ++ ys).Pairwise fun a b => number a < number b)
    (hl : xs.getLast? = some l) : upTo number (number l) (xs ++ ys) = xs := by
  rw [List.pairwise_append] at h
  have hmem : l ∈ xs := List.mem_of_getLast? hl
  rcases List.getLast?_eq_some_iff.mp hl with ⟨front, rfl⟩
  rw [List.pairwise_append] at h
  unfold upTo
  rw [List.filter_append, List.filter_eq_self.mpr, List.filter_eq_nil_iff.mpr, List.append_nil]
  · intro y hy hle
    have hlt := h.2.2 l hmem y hy
    have hle' : number y ≤ number l := of_decide_eq_true hle
    omega
  · intro x hx
    rcases List.mem_append.mp hx with hx | hx
    · exact decide_eq_true (Nat.le_of_lt (h.1.2.2 x hx l List.mem_cons_self))
    · rw [List.mem_singleton.mp hx]
      exact decide_eq_true (Nat.le_refl _)

/-- A batch is what the cursor passes. -/
theorem upTo_batch (start limit : Nat) {xs : List α}
    (h : xs.Pairwise fun a b => number a < number b) :
    upTo number (cursor number start (batch number start limit xs)) xs =
      upTo number start xs ++ batch number start limit xs := by
  have hsplit := upTo_append_past number start h
  have hrest : upTo number start xs ++ batch number start limit xs ++
      (past number start xs).drop limit = xs := by
    unfold batch
    rw [List.append_assoc, List.take_append_drop, hsplit]
  unfold cursor
  cases hlast : (batch number start limit xs).getLast? with
  | none =>
      rw [List.getLast?_eq_none_iff.mp hlast, List.append_nil]
      rfl
  | some l =>
      have hend : (upTo number start xs ++ batch number start limit xs).getLast? = some l := by
        rw [List.getLast?_append, hlast, Option.some_or]
      have hread := upTo_last number (by rw [hrest]; exact h) hend
      rw [hrest] at hread
      exact hread

/-- A batch that is not full reaches the end. -/
theorem upTo_of_short {start limit : Nat} {xs : List α}
    (h : xs.Pairwise fun a b => number a < number b)
    (hshort : (batch number start limit xs).length < limit) :
    upTo number (cursor number start (batch number start limit xs)) xs = xs := by
  rw [upTo_batch number start limit h]
  have hall : batch number start limit xs = past number start xs := by
    unfold batch at hshort ⊢
    rw [List.length_take] at hshort
    exact List.take_of_length_le (by omega)
  rw [hall]
  exact upTo_append_past number start h

end OrderedLog

end CopilotFleet
