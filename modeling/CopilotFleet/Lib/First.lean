import Mathlib.Data.List.Basic

/-!
# Rewriting the First of Several

A program that keeps a list of entries finds the one that it means, which is
the first that meets some condition, and rewrites it where it stands. Every
fact about the rewritten list comes from one: the list is split at that entry,
and only the entry is changed (`setFirst_split`).

## Main definitions

* `setFirst`: The first entry that meets a condition, rewritten.
* `put`: The same, or the entry at the end where none meets it.

## Theorems

* `setFirst_split`: The list before and after, split at the entry.
* `setFirst_find`: The rewritten entry is found.
* `setFirst_find_ne`: Others are found as they were.
* `mem_setFirst`: What is in the rewritten list.
* `put_find_self`: What was put is found.
-/

namespace CopilotFleet

namespace First

variable {α β : Type*}

/-- The first entry that meets `p`, rewritten by `f`. -/
def setFirst (p : α → Bool) (f : α → α) : List α → List α
  | [] => []
  | x :: rest => if p x then f x :: rest else x :: setFirst p f rest

theorem setFirst_split {p : α → Bool} {x : α} {xs : List α} (h : xs.find? p = some x)
    (f : α → α) : ∃ before after, xs = before ++ x :: after ∧ (∀ y ∈ before, p y = false) ∧
      setFirst p f xs = before ++ f x :: after := by
  induction xs with
  | nil => cases h
  | cons y rest ih =>
      unfold setFirst
      by_cases hy : p y = true
      · rw [List.find?_cons, hy] at h
        rw [if_pos hy, ← Option.some.inj h]
        exact ⟨[], rest, rfl, fun _ hz => (nomatch hz), rfl⟩
      · rw [List.find?_cons, Bool.eq_false_iff.mpr hy] at h
        rw [if_neg hy]
        rcases ih h with ⟨before, after, hsplit, hno, hset⟩
        refine ⟨y :: before, after, by rw [hsplit]; rfl, ?_, by rw [hset]; rfl⟩
        intro z hz
        rcases List.mem_cons.mp hz with rfl | hz
        · exact Bool.eq_false_iff.mpr hy
        · exact hno z hz

theorem setFirst_of_none {p : α → Bool} {xs : List α} (h : xs.find? p = none) (f : α → α) :
    setFirst p f xs = xs := by
  induction xs with
  | nil => rfl
  | cons y rest ih =>
      have hno := List.find?_eq_none.mp h
      unfold setFirst
      rw [if_neg (hno y List.mem_cons_self)]
      exact congrArg _ (ih (List.find?_eq_none.mpr fun z hz => hno z (List.mem_cons_of_mem y hz)))

/-- The rewritten entry is found, if it still meets the condition. -/
theorem setFirst_find {p : α → Bool} {x : α} {xs : List α} (h : xs.find? p = some x)
    {f : α → α} (hf : p (f x) = true) : (setFirst p f xs).find? p = some (f x) := by
  rcases setFirst_split h f with ⟨before, after, _, hno, hset⟩
  have hbefore : before.find? p = none :=
    List.find?_eq_none.mpr fun y hy => Bool.eq_false_iff.mp (hno y hy)
  rw [hset, List.find?_append, hbefore, List.find?_cons, hf]
  rfl

/-- Entries that meet another condition are found as they were. -/
theorem setFirst_find_ne {p q : α → Bool} {f : α → α}
    (h : ∀ x, p x = true → q x = false ∧ q (f x) = false) (xs : List α) :
    (setFirst p f xs).find? q = xs.find? q := by
  induction xs with
  | nil => rfl
  | cons y rest ih =>
      unfold setFirst
      by_cases hy : p y = true
      · rw [if_pos hy, List.find?_cons, List.find?_cons, (h y hy).1, (h y hy).2]
      · rw [if_neg hy, List.find?_cons, List.find?_cons, ih]

/-- A property that is read off the entries is kept by a rewriting that keeps it. -/
theorem map_setFirst {p : α → Bool} {f : α → α} {g : α → β} (hf : ∀ x, p x = true → g (f x) = g x)
    (xs : List α) : (setFirst p f xs).map g = xs.map g := by
  induction xs with
  | nil => rfl
  | cons y rest ih =>
      unfold setFirst
      by_cases hy : p y = true
      · rw [if_pos hy, List.map_cons, List.map_cons, hf y hy]
      · rw [if_neg hy, List.map_cons, List.map_cons, ih]

theorem mem_setFirst {p : α → Bool} {f : α → α} {y : α} {xs : List α}
    (h : y ∈ setFirst p f xs) : y ∈ xs ∨ ∃ x, xs.find? p = some x ∧ y = f x := by
  cases hfind : xs.find? p with
  | none =>
      rw [setFirst_of_none hfind] at h
      exact .inl h
  | some x =>
      rcases setFirst_split hfind f with ⟨before, after, hsplit, _, hset⟩
      rw [hset] at h
      rcases List.mem_append.mp h with hmem | hmem
      · exact .inl (hsplit ▸ List.mem_append_left _ hmem)
      · rcases List.mem_cons.mp hmem with rfl | hmem
        · exact .inr ⟨x, rfl, rfl⟩
        · exact .inl (hsplit ▸ List.mem_append_right _ (List.mem_cons_of_mem _ hmem))

/-- The first entry that meets `p` is replaced by `x`, or `x` is added. -/
def put (p : α → Bool) (x : α) (xs : List α) : List α :=
  if xs.any p then setFirst p (fun _ => x) xs else xs ++ [x]

theorem put_split {p : α → Bool} {x : α} {xs : List α} :
    (xs.find? p = none ∧ put p x xs = xs ++ [x]) ∨
      ∃ y before after, xs = before ++ y :: after ∧ p y = true ∧ (∀ z ∈ before, p z = false) ∧
        put p x xs = before ++ x :: after := by
  cases hfind : xs.find? p with
  | none =>
      have hany : xs.any p = false := by
        rw [List.any_eq_false]
        exact List.find?_eq_none.mp hfind
      refine .inl ⟨rfl, ?_⟩
      unfold put
      rw [hany]
      rfl
  | some y =>
      rcases setFirst_split hfind fun _ => x with ⟨before, after, hsplit, hno, hset⟩
      have hany : xs.any p = true :=
        List.any_eq_true.mpr ⟨y, List.mem_of_find?_eq_some hfind, List.find?_some hfind⟩
      refine .inr ⟨y, before, after, hsplit, List.find?_some hfind, hno, ?_⟩
      unfold put
      rw [hany]
      exact hset

/-- What was put is found. -/
theorem put_find_self {p : α → Bool} {x : α} (hx : p x = true) (xs : List α) :
    (put p x xs).find? p = some x := by
  rcases @put_split _ p x xs with ⟨hnone, hput⟩ | ⟨y, before, after, _, _, hno, hput⟩
  · rw [hput, List.find?_append, hnone, List.find?_cons, hx]
    rfl
  · have hbefore : before.find? p = none :=
      List.find?_eq_none.mpr fun z hz => Bool.eq_false_iff.mp (hno z hz)
    rw [hput, List.find?_append, hbefore, List.find?_cons, hx]
    rfl

/-- Entries that meet another condition are found as they were. -/
theorem put_find_ne {p q : α → Bool} {x : α} (hx : q x = false) {xs : List α}
    (hp : ∀ y ∈ xs, p y = true → q y = false) : (put p x xs).find? q = xs.find? q := by
  rcases @put_split _ p x xs with ⟨_, hput⟩ | ⟨y, before, after, hsplit, hy, _, hput⟩
  · rw [hput, List.find?_append, List.find?_cons, hx, List.find?_nil, Option.or_none]
  · have hqy : q y = false := hp y (hsplit ▸ List.mem_append_right _ List.mem_cons_self) hy
    rw [hput, hsplit, List.find?_append, List.find?_append, List.find?_cons, List.find?_cons, hx,
      hqy]

end First

end CopilotFleet
