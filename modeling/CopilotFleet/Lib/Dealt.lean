import Mathlib.Data.List.Basic

/-!
# Dealing a List by Keys

A list is dealt by asking for keys, one after the other: each time the first
element left that has the key is handed out and taken from the list. What can
be asked for is told by counting keys (`deal_of_count`), and what comes back is
told key by key: of each one its first elements, in their order
(`deal_eq_some_iff`).

So asking for the keys of a sublist gives that sublist back exactly where it
has, of every key, the first elements the list has (`deal_sublist_iff`).

## Main definitions

* `deal`: What is handed out for some keys.

## Theorems

* `deal_eq_some_iff`: What comes back, key by key.
* `deal_of_count`: As much as there is of each key can be had.
* `deal_sublist_iff`: When a sublist comes back for its own keys.
-/

namespace CopilotFleet

namespace Dealt

variable {α κ : Type*} [DecidableEq κ] (key : α → κ)

/-- What is handed out of a list for some keys, each time the first that is left. -/
def deal : List κ → List α → Option (List α)
  | [], _ => some []
  | k :: ks, xs =>
      match xs.find? fun x => key x = k with
      | none => none
      | some x => (deal ks (xs.eraseP fun x => key x = k)).map (x :: ·)

/-- The elements of one key. -/
def having (k : κ) (xs : List α) : List α := xs.filter fun x => key x = k

variable {key}

theorem having_cons_self {k : κ} {x : α} (hx : key x = k) (xs : List α) :
    having key k (x :: xs) = x :: having key k xs := by
  rw [having, List.filter_cons_of_pos (by simp [hx]), having]

theorem having_cons_ne {k : κ} {x : α} (hx : key x ≠ k) (xs : List α) :
    having key k (x :: xs) = having key k xs := by
  rw [having, List.filter_cons_of_neg (by simp [hx]), having]

/-- The first element of a key is the first of those that have it, and taking
    it leaves the others, and those of every other key. -/
theorem find_having {k : κ} {xs : List α} {x : α} (h : (xs.find? fun x => key x = k) = some x) :
    key x = k ∧ having key k xs = x :: having key k (xs.eraseP fun x => key x = k) ∧
      ∀ k', k' ≠ k → having key k' (xs.eraseP fun x => key x = k) = having key k' xs := by
  rw [List.find?_eq_some_iff_append] at h
  rcases h with ⟨hx, before, after, rfl, hbefore⟩
  have hx : key x = k := of_decide_eq_true hx
  have hnone : ∀ y ∈ before, ¬(decide (key y = k) = true) := by
    intro y hy
    simpa using hbefore y hy
  have herase : (before ++ x :: after).eraseP (fun x => key x = k) = before ++ after := by
    rw [List.eraseP_append_right _ hnone, List.eraseP_cons_of_pos (by simp [hx])]
  have hempty : having key k before = [] := List.filter_eq_nil_iff.mpr hnone
  refine ⟨hx, ?_, fun k' hk' => ?_⟩
  · rw [herase]
    unfold having at hempty ⊢
    rw [List.filter_append, List.filter_append, hempty, List.filter_cons_of_pos (by simp [hx])]
    rfl
  · rw [herase]
    unfold having
    rw [List.filter_append, List.filter_append, List.filter_cons_of_neg]
    simp only [hx, decide_eq_true_eq]
    exact hk'.symm

/-- What comes back has the keys asked for, and of each key it is the first elements. -/
theorem deal_eq_some_iff {ks : List κ} {xs ys : List α} :
    deal key ks xs = some ys ↔
      ys.map key = ks ∧ ∀ k, having key k ys <+: having key k xs := by
  induction ks generalizing xs ys with
  | nil =>
      rw [deal, Option.some.injEq, List.map_eq_nil_iff]
      constructor
      · rintro rfl
        exact ⟨rfl, fun k => List.nil_prefix⟩
      · exact fun h => h.1.symm
  | cons k ks ih =>
      rw [deal]
      cases hfind : xs.find? fun x => key x = k with
      | none =>
          -- Nothing of the key is left, so nothing that has it can be a first element.
          constructor
          · intro h
            cases h
          · rintro ⟨hkeys, hfirst⟩
            have hempty : having key k xs = [] := by
              rw [List.find?_eq_none] at hfind
              exact List.filter_eq_nil_iff.mpr hfind
            cases ys with
            | nil => cases hkeys
            | cons y ys =>
                rw [List.map_cons, List.cons.injEq] at hkeys
                have hprefix := hfirst k
                rw [having_cons_self hkeys.1, hempty] at hprefix
                cases List.prefix_nil.mp hprefix
      | some x =>
          rcases find_having hfind with ⟨hx, hself, hother⟩
          simp only [Option.map_eq_some_iff, ih]
          constructor
          · rintro ⟨ys, ⟨hkeys, hfirst⟩, rfl⟩
            refine ⟨by rw [List.map_cons, hx, hkeys], fun k' => ?_⟩
            by_cases hk : k' = k
            · subst hk
              rw [having_cons_self hx, hself]
              exact List.prefix_cons_inj x |>.mpr (hfirst k')
            · rw [having_cons_ne (fun heq => hk (heq.symm.trans hx)), ← hother k' hk]
              exact hfirst k'
          · rintro ⟨hkeys, hfirst⟩
            cases ys with
            | nil => cases hkeys
            | cons y ys =>
                rw [List.map_cons, List.cons.injEq] at hkeys
                have hhead := hfirst k
                rw [having_cons_self hkeys.1, hself, List.cons_prefix_cons] at hhead
                rcases hhead with ⟨rfl, hrest⟩
                refine ⟨ys, ⟨hkeys.2, fun k' => ?_⟩, rfl⟩
                by_cases hk : k' = k
                · subst hk
                  exact hrest
                · have hprefix := hfirst k'
                  rw [having_cons_ne (fun heq => hk (heq.symm.trans hkeys.1)), ← hother k' hk]
                    at hprefix
                  exact hprefix

/-- As much as there is of each key can be had. -/
theorem deal_of_count {ks : List κ} {xs : List α} (h : ∀ k, ks.count k ≤ (having key k xs).length) :
    ∃ ys, deal key ks xs = some ys := by
  induction ks generalizing xs with
  | nil => exact ⟨[], rfl⟩
  | cons k ks ih =>
      rw [deal]
      cases hfind : xs.find? fun x => key x = k with
      | none =>
          have hcount := h k
          have hempty : having key k xs = [] := by
            rw [List.find?_eq_none] at hfind
            exact List.filter_eq_nil_iff.mpr hfind
          rw [hempty, List.count_cons_self] at hcount
          cases hcount
      | some x =>
          rcases find_having hfind with ⟨hx, hself, hother⟩
          have hrest : ∀ k', ks.count k' ≤
              (having key k' (xs.eraseP fun x => key x = k)).length := by
            intro k'
            have hcount := h k'
            by_cases hk : k' = k
            · subst hk
              rw [List.count_cons_self, hself, List.length_cons] at hcount
              omega
            · rw [List.count_cons_of_ne (Ne.symm hk)] at hcount
              rw [hother k' hk]
              exact hcount
          rcases ih hrest with ⟨ys, hys⟩
          exact ⟨x :: ys, by rw [hys]; rfl⟩

/-- A sublist comes back for its own keys exactly where it has, of every key, the first
    elements of the list. -/
theorem deal_sublist_iff {xs ys : List α} (h : ys.Sublist xs) :
    ∃ zs, deal key (ys.map key) xs = some zs ∧ zs.map key = ys.map key ∧
      (∀ k, having key k zs <+: having key k xs) ∧
        (zs = ys ↔ ∀ k, having key k ys <+: having key k xs) := by
  have hcount : ∀ k, (ys.map key).count k ≤ (having key k xs).length := by
    intro k
    rw [having, ← List.countP_eq_length_filter, List.count, List.countP_map]
    refine Nat.le_trans (Nat.le_of_eq ?_) h.countP_le
    refine List.countP_congr fun y _ => ?_
    simp
  rcases deal_of_count hcount with ⟨zs, hzs⟩
  rcases deal_eq_some_iff.mp hzs with ⟨hkeys, hfirst⟩
  refine ⟨zs, hzs, hkeys, hfirst, ?_⟩
  constructor
  · rintro rfl
    exact hfirst
  · intro hys
    have hsame := deal_eq_some_iff.mpr ⟨rfl, hys⟩
    rw [hzs, Option.some.injEq] at hsame
    exact hsame

/-- Dealing what something else is read from deals that. -/
theorem deal_map {β : Type*} (f : β → α) {ks : List κ} {xs : List β} :
    deal key ks (xs.map f) = (deal (fun x => key (f x)) ks xs).map fun ys => ys.map f := by
  induction ks generalizing xs with
  | nil => rfl
  | cons k ks ih =>
      rw [deal, deal, List.find?_map, List.eraseP_map]
      have hcomp : (fun x => decide (key x = k)) ∘ f = fun x => decide (key (f x) = k) := rfl
      rw [hcomp]
      cases xs.find? fun x => key (f x) = k with
      | none => rfl
      | some x =>
          rw [Option.map_some, Option.map_map]
          dsimp only
          rw [ih, Option.map_map]
          rfl

end Dealt

end CopilotFleet
