import Mathlib.Algebra.BigOperators.Group.List.Basic
import Mathlib.Algebra.GroupWithZero.Nat
import Mathlib.Data.List.Nodup

/-!
# Keyed Tables

A table keeps one value for each of finitely many keys, in the order the keys
were first written. It is what a `Map` of the source is, and what a database
table with a primary key is; a later write to a key replaces the value where
it stands, and a key written again after its removal goes to the end.

That there is one value for a key is a field of the structure, so no lemma has
to assume it. Everything else follows from three facts about reading: after a
write (`get_set`), after a removal (`get_erase`) and in a list of the entries
(`mem_entries_iff`).

## Main definitions

* `Table`: Entries with distinct keys.
* `get`: The value of a key.
* `set`: Write one key.
* `erase`: Remove one key.
* `mapValues`: Rewrite every value, keys unchanged.
* `keep`: Only the entries that meet a condition.
* `total`: What the values come to, each by a weight.

## Theorems

* `mem_entries_iff`: An entry is in the table exactly when its key reads it.
* `get_set`, `get_set_some`: Reading after a write.
* `get_erase`: Reading after a removal.
* `get_mapValues`: Reading after a rewrite.
* `get_keep`: Reading after a selection.
* `get_foldl_set`: Reading after a list of writes.
* `perm_of_get`, `set_perm`: An entry and the rest, before and after a write.
* `total_set`, `total_erase`, `total_keep`: Totals after a write, a removal and a
  selection.
* `countP_set`: Counting after a write.
-/

namespace CopilotFleet

/-- Entries with distinct keys, in the order they were first written. -/
structure Table (κ α : Type*) where
  entries : List (κ × α)
  nodup : (entries.map Prod.fst).Nodup

namespace Table

variable {κ α β : Type*}

theorem eq_of_mem (t : Table κ α) {k : κ} {v w : α} (hv : (k, v) ∈ t.entries)
    (hw : (k, w) ∈ t.entries) : v = w := by
  have h := List.inj_on_of_nodup_map t.nodup hv hw rfl
  exact congrArg Prod.snd h

def empty : Table κ α := { entries := [], nodup := List.nodup_nil }

instance : Inhabited (Table κ α) := ⟨empty⟩

/-- The values, in the order of their keys. -/
def values (t : Table κ α) : List α := t.entries.map Prod.snd

def size (t : Table κ α) : Nat := t.entries.length

/-- Every value rewritten, with its key at hand. -/
def mapValues (t : Table κ α) (f : κ → α → β) : Table κ β where
  entries := t.entries.map fun e => (e.1, f e.1 e.2)
  nodup := by
    rw [List.map_map]
    exact t.nodup

/-- The entries that meet a condition. -/
def keep (t : Table κ α) (p : κ → α → Bool) : Table κ α where
  entries := t.entries.filter fun e => p e.1 e.2
  nodup := t.nodup.sublist (List.filter_sublist.map _)

theorem nodup_entries (t : Table κ α) : t.entries.Nodup := List.Nodup.of_map _ t.nodup

variable {M : Type*} [AddCommMonoid M]

/-- What the values come to, each by a weight. -/
def total (t : Table κ α) (weight : α → M) : M := (t.values.map weight).sum

theorem total_of_perm {s : Table κ α} {es : List (κ × α)} (h : s.entries.Perm es)
    (weight : α → M) : s.total weight = (es.map fun e => weight e.2).sum := by
  unfold total values
  rw [List.map_map]
  exact (h.map _).sum_eq

/-- What is left out and what is kept make up the table. -/
theorem total_keep (t : Table κ α) (p : κ → α → Bool) (weight : α → M) :
    (t.keep fun k v => !p k v).total weight +
        ((t.entries.filter fun e => p e.1 e.2).map fun e => weight e.2).sum =
      t.total weight := by
  rw [total_of_perm (List.Perm.refl _), total_of_perm (List.Perm.refl _), add_comm,
    ← List.sum_append, ← List.map_append]
  exact ((List.filter_append_perm (fun e : κ × α => p e.1 e.2) t.entries).map _).sum_eq

theorem total_keep_values (t : Table κ α) (p : α → Bool) (weight : α → M) :
    (t.keep fun _ v => !p v).total weight + ((t.values.filter p).map weight).sum =
      t.total weight := by
  rw [← t.total_keep fun _ v => p v]
  unfold values
  rw [List.filter_map, List.map_map]
  rfl

variable [DecidableEq κ]

/-- The value of a key. -/
def get (t : Table κ α) (k : κ) : Option α := (t.entries.find? fun e => e.1 = k).map (·.2)

/-- An entry is in the table exactly when its key reads it. -/
theorem mem_entries_iff (t : Table κ α) (k : κ) (v : α) :
    (k, v) ∈ t.entries ↔ t.get k = some v := by
  unfold get
  rw [Option.map_eq_some_iff]
  constructor
  · intro hmem
    cases hfind : t.entries.find? (fun e => e.1 = k) with
    | none =>
        rw [List.find?_eq_none] at hfind
        exact absurd (hfind (k, v) hmem) (by simp)
    | some e =>
        have hkey : e.1 = k := by simpa using List.find?_some hfind
        have he : (k, e.2) ∈ t.entries := by
          rw [← hkey]
          exact List.mem_of_find?_eq_some hfind
        exact ⟨e, rfl, t.eq_of_mem he hmem⟩
  · rintro ⟨e, hfind, rfl⟩
    have hkey : e.1 = k := by simpa using List.find?_some hfind
    rw [← hkey]
    exact List.mem_of_find?_eq_some hfind

theorem get_eq_none_iff (t : Table κ α) (k : κ) :
    t.get k = none ↔ ∀ v, (k, v) ∉ t.entries := by
  rw [Option.eq_none_iff_forall_ne_some]
  simp only [ne_eq, mem_entries_iff]

theorem mem_values_iff (t : Table κ α) (v : α) : v ∈ t.values ↔ ∃ k, t.get k = some v := by
  unfold values
  rw [List.mem_map]
  constructor
  · rintro ⟨⟨k, w⟩, hmem, rfl⟩
    exact ⟨k, (t.mem_entries_iff k w).mp hmem⟩
  · rintro ⟨k, hk⟩
    exact ⟨(k, v), (t.mem_entries_iff k v).mpr hk, rfl⟩

/-- Tables with one reading of every key agree on reading; this is how a read
    is computed from the entries it may come from. -/
theorem get_eq_of_mem_iff {s : Table κ α} {k : κ} {o : Option α}
    (h : ∀ v, (k, v) ∈ s.entries ↔ o = some v) : s.get k = o := by
  cases o with
  | none =>
      rw [get_eq_none_iff]
      intro v hv
      exact absurd ((h v).mp hv) (by simp)
  | some v => exact (s.mem_entries_iff k v).mp ((h v).mpr rfl)

/-- Write one key: in place when it is there, at the end when it is new. -/
def set (t : Table κ α) (k : κ) (v : α) : Table κ α :=
  if hk : k ∈ t.entries.map Prod.fst then
    { entries := t.entries.map fun e => if e.1 = k then (k, v) else e
      nodup := by
        have hfst : (t.entries.map fun e => if e.1 = k then (k, v) else e).map Prod.fst =
            t.entries.map Prod.fst := by
          rw [List.map_map]
          refine List.map_congr_left fun e _ => ?_
          by_cases he : e.1 = k
          · simp [he]
          · simp [he]
        rw [hfst]
        exact t.nodup }
  else
    { entries := t.entries ++ [(k, v)]
      nodup := by
        rw [List.map_append, List.map_cons, List.map_nil, List.nodup_append]
        refine ⟨t.nodup, List.nodup_singleton _, ?_⟩
        intro a ha b hb hab
        rw [List.mem_singleton] at hb
        rw [hab, hb] at ha
        exact hk ha }

/-- Remove one key. -/
def erase (t : Table κ α) (k : κ) : Table κ α := t.keep fun key _ => key ≠ k

@[simp] theorem get_empty (k : κ) : (empty : Table κ α).get k = none := rfl

theorem get_set (t : Table κ α) (k : κ) (v : α) (j : κ) :
    (t.set k v).get j = if j = k then some v else t.get j := by
  refine get_eq_of_mem_iff fun w => ?_
  unfold set
  by_cases hk : k ∈ t.entries.map Prod.fst
  · rw [dif_pos hk, List.mem_map]
    rw [List.mem_map] at hk
    rcases hk with ⟨⟨k', v'⟩, hmem, rfl⟩
    by_cases hj : j = k'
    · rw [if_pos hj, Option.some.injEq]
      constructor
      · rintro ⟨e, _, he⟩
        by_cases hek : e.1 = k'
        · rw [if_pos hek, Prod.mk.injEq] at he
          exact he.2
        · rw [if_neg hek] at he
          exact absurd (by rw [he]; exact hj) hek
      · intro hvw
        exact ⟨(k', v'), hmem, by rw [if_pos rfl, hj, hvw]⟩
    · rw [if_neg hj, ← mem_entries_iff]
      constructor
      · rintro ⟨e, hmem', he⟩
        by_cases hek : e.1 = k'
        · rw [if_pos hek, Prod.mk.injEq] at he
          exact absurd he.1.symm hj
        · rw [if_neg hek] at he
          rw [← he]
          exact hmem'
      · intro hmem'
        exact ⟨(j, w), hmem', if_neg hj⟩
  · rw [dif_neg hk, List.mem_append, List.mem_singleton, Prod.mk.injEq, mem_entries_iff]
    by_cases hj : j = k
    · have hnone : t.get k = none := by
        rw [get_eq_none_iff]
        exact fun v hv => hk (List.mem_map_of_mem hv)
      rw [if_pos hj, hj, hnone]
      simp [eq_comm]
    · rw [if_neg hj]
      simp [hj]

@[simp] theorem get_set_self (t : Table κ α) (k : κ) (v : α) : (t.set k v).get k = some v := by
  rw [get_set, if_pos rfl]

@[simp] theorem get_set_ne (t : Table κ α) {k j : κ} (v : α) (h : j ≠ k) :
    (t.set k v).get j = t.get j := by
  rw [get_set, if_neg h]

/-- A value that is read after a write is the one that was written, or was there. -/
theorem get_set_some {t : Table κ α} {k j : κ} {v w : α} (h : (t.set k v).get j = some w) :
    (j = k ∧ w = v) ∨ (j ≠ k ∧ t.get j = some w) := by
  by_cases hkey : j = k
  · rw [hkey, get_set_self, Option.some.injEq] at h
    exact .inl ⟨hkey, h.symm⟩
  · rw [get_set_ne _ _ hkey] at h
    exact .inr ⟨hkey, h⟩

/-- A new key goes to the end. -/
theorem values_set_new (t : Table κ α) {k : κ} (v : α) (h : t.get k = none) :
    (t.set k v).values = t.values ++ [v] := by
  have hk : k ∉ t.entries.map Prod.fst := by
    intro hmem
    rcases List.mem_map.mp hmem with ⟨⟨k', w⟩, hw, rfl⟩
    exact (t.get_eq_none_iff k').mp h w hw
  unfold set values
  rw [dif_neg hk, List.map_append, List.map_singleton]

theorem get_keep (t : Table κ α) (p : κ → α → Bool) (j : κ) :
    (t.keep p).get j = (t.get j).filter (p j) := by
  refine get_eq_of_mem_iff fun w => ?_
  unfold keep
  rw [List.mem_filter, mem_entries_iff, Option.filter_eq_some_iff]

theorem get_erase (t : Table κ α) (k j : κ) :
    (t.erase k).get j = if j = k then none else t.get j := by
  unfold erase
  rw [get_keep]
  by_cases hj : j = k
  · rw [if_pos hj]
    cases t.get j <;> simp [hj]
  · rw [if_neg hj]
    cases t.get j <;> simp [hj]

@[simp] theorem get_erase_self (t : Table κ α) (k : κ) : (t.erase k).get k = none := by
  rw [get_erase, if_pos rfl]

@[simp] theorem get_erase_ne (t : Table κ α) {k j : κ} (h : j ≠ k) :
    (t.erase k).get j = t.get j := by
  rw [get_erase, if_neg h]

theorem get_mapValues (t : Table κ α) (f : κ → α → β) (j : κ) :
    (t.mapValues f).get j = (t.get j).map (f j) := by
  refine get_eq_of_mem_iff fun w => ?_
  unfold mapValues
  rw [List.mem_map, Option.map_eq_some_iff]
  constructor
  · rintro ⟨⟨k, v⟩, hmem, he⟩
    simp only [Prod.mk.injEq] at he
    rw [he.1] at hmem
    exact ⟨v, (t.mem_entries_iff j v).mp hmem, by rw [← he.2, he.1]⟩
  · rintro ⟨v, hv, rfl⟩
    exact ⟨(j, v), (t.mem_entries_iff j v).mpr hv, rfl⟩

theorem size_erase_lt (t : Table κ α) {k : κ} {v : α} (h : t.get k = some v) :
    (t.erase k).size < t.size := by
  unfold size erase keep
  refine List.length_filter_lt_length_iff_exists.mpr
    ⟨(k, v), (t.mem_entries_iff k v).mpr h, by simp⟩

/-- Reading after a list of writes: of several to one key, the last. -/
theorem get_foldl_set (key : β → κ) (value : β → α) (k : κ) :
    ∀ (xs : List β) (t : Table κ α),
      (xs.foldl (fun t x => t.set (key x) (value x)) t).get k =
        (((xs.filter fun x => key x = k).getLast?).map value).or (t.get k) := by
  intro xs
  induction xs with
  | nil =>
      intro t
      rfl
  | cons x rest ih =>
      intro t
      rw [List.foldl_cons, ih, get_set]
      by_cases hk : key x = k
      · rw [List.filter_cons_of_pos (by simpa using hk), List.getLast?_cons, if_pos hk.symm]
        cases (rest.filter fun x => key x = k).getLast? with
        | none => rfl
        | some last => rfl
      · rw [List.filter_cons_of_neg (by simpa using hk), if_neg (Ne.symm hk)]

/-- The first entry of a kind is still the first after its value was rewritten. -/
theorem find?_rewrite {p : κ × α → Bool} {k : κ} {v w : α} {entries : List (κ × α)}
    (hnodup : (entries.map Prod.fst).Nodup) (h : entries.find? p = some (k, v))
    (hw : p (k, w) = true) :
    (entries.map fun e => if e.1 = k then (k, w) else e).find? p = some (k, w) := by
  induction entries with
  | nil => cases h
  | cons entry rest ih =>
      rw [List.map_cons, List.nodup_cons] at hnodup
      rw [List.find?_cons] at h
      rw [List.map_cons, List.find?_cons]
      split at h
      · rw [Option.some.injEq] at h
        subst h
        rw [if_pos rfl, hw]
      · rename_i hentry
        -- The entry of the key is in the rest, and a key has one entry.
        have hne : entry.1 ≠ k := by
          intro hk
          refine hnodup.1 ?_
          rw [hk]
          exact List.mem_map_of_mem (List.mem_of_find?_eq_some h)
        rw [if_neg hne, hentry]
        exact ih hnodup.2 h

theorem find?_set {p : κ × α → Bool} {t : Table κ α} {k : κ} {v w : α}
    (h : t.entries.find? p = some (k, v)) (hw : p (k, w) = true) :
    (t.set k w).entries.find? p = some (k, w) := by
  have hmem : k ∈ t.entries.map Prod.fst := List.mem_map_of_mem (List.mem_of_find?_eq_some h)
  unfold set
  rw [dif_pos hmem]
  exact find?_rewrite t.nodup h hw

/-! ### Totals -/

/-- Tables that read alike have the same entries, in some order. -/
theorem entries_perm {s t : Table κ α} (h : ∀ k, s.get k = t.get k) :
    s.entries.Perm t.entries := by
  rw [List.perm_ext_iff_of_nodup s.nodup_entries t.nodup_entries]
  rintro ⟨k, v⟩
  rw [mem_entries_iff, mem_entries_iff, h]

/-- An entry and the rest. -/
theorem perm_of_get (t : Table κ α) {k : κ} {v : α} (h : t.get k = some v) :
    t.entries.Perm ((k, v) :: (t.erase k).entries) := by
  have hfresh : (k, v) ∉ (t.erase k).entries := by
    rw [mem_entries_iff, get_erase_self]
    exact nofun
  rw [List.perm_ext_iff_of_nodup t.nodup_entries
    (List.nodup_cons.mpr ⟨hfresh, (t.erase k).nodup_entries⟩)]
  rintro ⟨j, w⟩
  rw [List.mem_cons, mem_entries_iff, mem_entries_iff, get_erase, Prod.mk.injEq]
  by_cases hj : j = k
  · subst hj
    simp [h, eq_comm]
  · simp [hj]

theorem erase_perm_of_none (t : Table κ α) {k : κ} (h : t.get k = none) :
    t.entries.Perm (t.erase k).entries := by
  refine entries_perm fun j => ?_
  rw [get_erase]
  split
  · rename_i hj
    rw [hj, h]
  · rfl

/-- A written entry and the rest. -/
theorem set_perm (t : Table κ α) (k : κ) (v : α) :
    (t.set k v).entries.Perm ((k, v) :: (t.erase k).entries) := by
  refine ((t.set k v).perm_of_get (t.get_set_self k v)).trans (List.Perm.cons _ ?_)
  refine entries_perm fun j => ?_
  rw [get_erase, get_erase, get_set]
  split
  · rfl
  · rfl

theorem total_erase (t : Table κ α) (k : κ) (weight : α → M) :
    (t.erase k).total weight + ((t.get k).map weight).getD 0 = t.total weight := by
  cases h : t.get k with
  | none =>
      rw [total_of_perm (t.erase_perm_of_none h), total_of_perm (List.Perm.refl _)]
      exact add_zero _
  | some v =>
      rw [total_of_perm (t.perm_of_get h), total_of_perm (List.Perm.refl _)]
      simp [add_comm]

/-- A written value and the rest. -/
theorem total_set_erase (t : Table κ α) (k : κ) (v : α) (weight : α → M) :
    (t.set k v).total weight = weight v + (t.erase k).total weight := by
  rw [total_of_perm (t.set_perm k v), total_of_perm (List.Perm.refl _), List.map_cons,
    List.sum_cons]

theorem total_set (t : Table κ α) (k : κ) (v : α) (weight : α → M) :
    (t.set k v).total weight + ((t.get k).map weight).getD 0 = t.total weight + weight v := by
  rw [← t.total_erase k, total_set_erase, add_comm (weight v), add_right_comm]

/-- Writing a key that is there adds no entry. -/
theorem size_set_of_get (t : Table κ α) {k : κ} {w : α} (v : α) (h : t.get k = some w) :
    (t.set k v).size = t.size := by
  unfold size
  rw [(t.set_perm k v).length_eq, (t.perm_of_get h).length_eq]
  rfl

/-- Writing one key counts the new value and no longer the old one. -/
theorem countP_set (t : Table κ α) (p : α → Bool) (k : κ) (v : α) :
    (t.set k v).values.countP p + (t.get k).toList.countP p = t.values.countP p + [v].countP p := by
  unfold values
  rw [((t.set_perm k v).map Prod.snd).countP_eq p, List.map_cons, List.countP_cons,
    List.countP_singleton]
  cases h : t.get k with
  | none =>
      rw [((t.erase_perm_of_none h).map Prod.snd).countP_eq p]
      simp
  | some w =>
      rw [((t.perm_of_get h).map Prod.snd).countP_eq p]
      simp only [Option.toList_some, List.map_cons, List.countP_cons, List.countP_nil]
      omega

end Table

end CopilotFleet
