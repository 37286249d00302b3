import Mathlib.Data.List.Sort

/-!
# Reading a Long List Page by Page

A list whose entries have keys in rising order is read in pages. A page holds
as many entries past a cursor as fit, by their weight and by their number, and
names the next cursor. That cursor is the key of the last entry of the page, or
further on: whoever serves the page may jump past keys that no entry has.

Whether a reader who follows the cursors to the end sees every entry depends on
these jumps alone. Where an entry no longer fits, the next page starts from the
cursor, so a jump at such a cut must stop short of the entry. `walk_iff` says
that this is all there is to it.

## Main definitions

* `fit`: The longest start of a list that fits on a page.
* `rest`: What comes after it.
* `Page`: What is read at once.
* `pageOf`: The page past a cursor.
* `walk`: What a reader gets who goes on while there is more.
* `Clear`: What is asked of the keys on both sides of a cut holds at each.

## Theorems

* `fit_append_rest`: A page and what follows it are the list.
* `walk_keys`: A reader sees only what is past the cursor.
* `walk_iff`: A reader sees everything exactly when the cuts are clear.
-/

namespace CopilotFleet

namespace Pages

variable {α ε : Type*}

structure Page (α : Type*) where
  items : List α
  next : Nat
  more : Bool

/-- What a reader gets who goes on from the cursor while there is more. -/
def walk (page : Nat → Except ε (Page α)) : Nat → Nat → Option (List α)
  | 0, _ => none
  | fuel + 1, after =>
      match page after with
      | .error _ => none
      | .ok p =>
          if p.more then (walk page fuel p.next).map (p.items ++ ·) else some p.items

section Cut

variable (key weight : α → Nat) (limit most : Nat) (jump : Nat → Nat)

/-- One more entry does not fit. -/
def full (used taken : Nat) (x : α) : Bool := limit < used + weight x || most ≤ taken

/-- The longest start of a list that fits beside what is taken. -/
def fit (used taken : Nat) : List α → List α
  | [] => []
  | x :: xs => if full weight limit most used taken x then []
      else x :: fit (used + weight x) (taken + 1) xs

/-- What comes after it. -/
def rest (used taken : Nat) : List α → List α
  | [] => []
  | x :: xs => if full weight limit most used taken x then x :: xs
      else rest (used + weight x) (taken + 1) xs

/-- The key of the last entry, or where there is none, the one before. -/
def lastKey (last : Nat) : List α → Nat
  | [] => last
  | x :: xs => lastKey (key x) xs

/-- Wherever one page ends and the next begins, the last key of the one and
    the first key of the other are as asked. -/
def Clear (apart : Nat → Nat → Prop) (used taken last : Nat) : List α → Prop
  | [] => True
  | x :: xs =>
      if full weight limit most used taken x then
        apart last (key x) ∧ Clear apart (weight x) 1 (key x) xs
      else Clear apart (used + weight x) (taken + 1) (key x) xs

instance Clear.decidable (apart : Nat → Nat → Prop) [∀ a b, Decidable (apart a b)] :
    ∀ used taken last xs, Decidable (Clear key weight limit most apart used taken last xs)
  | _, _, _, [] => .isTrue trivial
  | used, taken, last, x :: xs =>
      haveI := Clear.decidable apart (weight x) 1 (key x) xs
      haveI := Clear.decidable apart (used + weight x) (taken + 1) (key x) xs
      inferInstanceAs (Decidable (if full weight limit most used taken x then
        apart last (key x) ∧ Clear key weight limit most apart (weight x) 1 (key x) xs
          else Clear key weight limit most apart (used + weight x) (taken + 1) (key x) xs))

/-- The page past a cursor; a page that would be empty although there is more is refused. -/
def pageOf (refusal : α → ε) (entries : List α) (after : Nat) : Except ε (Page α) :=
  let rows := (entries.filter fun x => after < key x).take (most + 1)
  let items := fit weight limit most 0 0 rows
  match rows, items with
  | x :: _, [] => .error (refusal x)
  | _, _ => .ok
      { items
        next := jump (lastKey key after items)
        more := decide (items.length < rows.length) }

variable {key weight limit most jump}

theorem fit_append_rest (used taken : Nat) (xs : List α) :
    fit weight limit most used taken xs ++ rest weight limit most used taken xs = xs := by
  induction xs generalizing used taken with
  | nil => rfl
  | cons x xs ih =>
      unfold fit rest
      by_cases hfull : full weight limit most used taken x
      · rw [if_pos hfull, if_pos hfull, List.nil_append]
      · rw [if_neg hfull, if_neg hfull, List.cons_append, ih]

/-- A page holds no more than it may. -/
theorem fit_length (used taken : Nat) (xs : List α) :
    (fit weight limit most used taken xs).length ≤ most - taken := by
  induction xs generalizing used taken with
  | nil => exact Nat.zero_le _
  | cons x xs ih =>
      unfold fit
      by_cases hfull : full weight limit most used taken x
      · rw [if_pos hfull]
        exact Nat.zero_le _
      · rw [if_neg hfull, List.length_cons]
        have hrest := ih (used + weight x) (taken + 1)
        simp only [full, Bool.or_eq_true, decide_eq_true_eq, not_or, not_le] at hfull
        omega

/-- Rows past what a page may hold change nothing but that there is more. -/
theorem fit_take (used taken : Nat) {n : Nat} (xs : List α) (hn : most - taken ≤ n) :
    fit weight limit most used taken (xs.take n) = fit weight limit most used taken xs := by
  induction xs generalizing used taken n with
  | nil => rw [List.take_nil]
  | cons x xs ih =>
      cases n with
      | zero =>
          have hfull : full weight limit most used taken x = true := by
            simp only [full, Bool.or_eq_true, decide_eq_true_eq]
            omega
          rw [List.take_zero]
          unfold fit
          rw [if_pos hfull]
      | succ n =>
          rw [List.take_succ_cons]
          unfold fit
          rw [ih _ _ (by omega)]

theorem lastKey_mono {last : Nat} {xs : List α} (hsorted : xs.Pairwise fun x y => key x < key y)
    (hlast : ∀ x ∈ xs, last < key x) :
    last ≤ lastKey key last xs ∧ ∀ x ∈ xs, key x ≤ lastKey key last xs := by
  induction xs generalizing last with
  | nil => exact ⟨le_rfl, fun x hx => absurd hx List.not_mem_nil⟩
  | cons y ys ih =>
      have hy := hlast y List.mem_cons_self
      have hpair := List.pairwise_cons.mp hsorted
      have hrest := ih hpair.2 hpair.1
      refine ⟨hy.le.trans hrest.1, fun x hx => ?_⟩
      rcases List.mem_cons.mp hx with rfl | hx
      · exact hrest.1
      · exact hrest.2 x hx

/-- What is clear from inside a page on is clear at its end and from there on. -/
theorem clear_iff {apart : Nat → Nat → Prop} (hmost : 0 < most) (used taken last : Nat) (xs : List α)
    (hfits : ∀ x ∈ xs, weight x ≤ limit) (start : Nat) :
    Clear key weight limit most apart used taken last xs ↔
      (∀ x ∈ (rest weight limit most used taken xs).head?,
        apart (lastKey key last (fit weight limit most used taken xs)) (key x)) ∧
        Clear key weight limit most apart 0 0 start (rest weight limit most used taken xs) := by
  induction xs generalizing used taken last with
  | nil =>
      unfold Clear rest
      simp
  | cons x xs ih =>
      have hx := hfits x List.mem_cons_self
      have hnew : ¬ full weight limit most 0 0 x = true := by
        simp only [full, Bool.or_eq_true, decide_eq_true_eq]
        omega
      unfold rest fit
      rw [Clear]
      by_cases hfull : full weight limit most used taken x = true
      · -- The entry begins the next page, where it fits.
        rw [if_pos hfull, if_pos hfull, if_pos hfull]
        rw [Clear, if_neg hnew, Nat.zero_add, Nat.zero_add]
        simp [lastKey]
      · rw [if_neg hfull, if_neg hfull, if_neg hfull]
        exact ih _ _ _ fun y hy => hfits y (List.mem_cons_of_mem x hy)

/-- Only the keys that follow each other in the list are compared. -/
theorem clear_congr {apart apart' : Nat → Nat → Prop}
    (h : ∀ a b, a < b → (apart a b ↔ apart' a b)) (used taken last : Nat) {xs : List α}
    (hsorted : xs.Pairwise fun x y => key x < key y) (hlast : ∀ x ∈ xs, last < key x) :
    Clear key weight limit most apart used taken last xs ↔
      Clear key weight limit most apart' used taken last xs := by
  induction xs generalizing used taken last with
  | nil => exact Iff.rfl
  | cons x xs ih =>
      have hpair := List.pairwise_cons.mp hsorted
      unfold Clear
      by_cases hfull : full weight limit most used taken x = true
      · rw [if_pos hfull, if_pos hfull, h last (key x) (hlast x List.mem_cons_self),
          ih _ _ _ hpair.2 hpair.1]
      · rw [if_neg hfull, if_neg hfull, ih _ _ _ hpair.2 hpair.1]

/-- Only an entry that no page can hold is refused. -/
theorem pageOf_error_iff (hmost : 0 < most) (refusal : α → ε) (entries : List α) (after : Nat)
    (e : ε) :
    pageOf key weight limit most jump refusal entries after = .error e ↔
      ∃ x ∈ (entries.filter fun x => after < key x).head?, limit < weight x ∧ refusal x = e := by
  unfold pageOf
  cases entries.filter fun x => after < key x with
  | nil => simp
  | cons x xs =>
      have hfit : fit weight limit most 0 0 (x :: xs.take most) =
          if full weight limit most 0 0 x = true then []
          else x :: fit weight limit most (0 + weight x) (0 + 1) (xs.take most) := by
        rw [fit]
      have hfull : full weight limit most 0 0 x = true ↔ limit < weight x := by
        simp only [full, Bool.or_eq_true, decide_eq_true_eq]
        omega
      simp only [List.take_succ_cons, hfit, List.head?_cons, Option.mem_some_iff, exists_eq_left']
      by_cases hheavy : limit < weight x
      · rw [if_pos (hfull.mpr hheavy)]
        exact ⟨fun h => ⟨hheavy, Except.error.inj h⟩, fun h => congrArg Except.error h.2⟩
      · rw [if_neg fun hf => hheavy (hfull.mp hf)]
        exact iff_of_false (fun h => nomatch h) fun h => hheavy h.1

/-- There is a cursor that every entry is next to. -/
theorem head?_filter {entries : List α} (hsorted : entries.Pairwise fun x y => key x < key y)
    {x : α} (hx : x ∈ entries) (hpositive : 0 < key x) :
    (entries.filter fun y => key x - 1 < key y).head? = some x := by
  have hmem : x ∈ entries.filter fun y => key x - 1 < key y :=
    List.mem_filter.mpr ⟨hx, decide_eq_true (by omega)⟩
  have hpair := hsorted.sublist (List.filter_sublist (p := fun y => key x - 1 < key y))
  have hpast : ∀ y ∈ entries.filter fun y => key x - 1 < key y, key x - 1 < key y :=
    fun y hy => of_decide_eq_true (List.mem_filter.mp hy).2
  cases hrows : entries.filter fun y => key x - 1 < key y with
  | nil =>
      rw [hrows] at hmem
      exact absurd hmem List.not_mem_nil
  | cons y ys =>
      rw [hrows] at hmem hpair hpast
      rcases List.mem_cons.mp hmem with rfl | hlater
      · rfl
      · have hlt := (List.pairwise_cons.mp hpair).1 x hlater
        have hy := hpast y List.mem_cons_self
        omega

/-! ### A whole walk -/

/-- The page past a cursor that divides the entries. -/
theorem pageOf_split (hmost : 0 < most) (refusal : α → ε) {before xs : List α} {after : Nat}
    (hbefore : ∀ x ∈ before, key x ≤ after) (hafter : ∀ x ∈ xs, after < key x)
    (hfits : ∀ x ∈ xs, weight x ≤ limit) :
    pageOf key weight limit most jump refusal (before ++ xs) after = .ok
      { items := fit weight limit most 0 0 xs
        next := jump (lastKey key after (fit weight limit most 0 0 xs))
        more := decide (rest weight limit most 0 0 xs ≠ []) } := by
  have hrows : (before ++ xs).filter (fun x => after < key x) = xs := by
    rw [List.filter_append, List.filter_eq_nil_iff.mpr, List.filter_eq_self.mpr, List.nil_append]
    · exact fun x hx => decide_eq_true (hafter x hx)
    · exact fun x hx => by simpa using hbefore x hx
  have hitems := @fit_take _ weight limit most 0 0 _ xs
    (show most - 0 ≤ most + 1 by omega)
  have hlength := congrArg List.length (@fit_append_rest _ weight limit most 0 0 xs)
  have hmany := @fit_length _ weight limit most 0 0 xs
  rw [List.length_append] at hlength
  have hmore : (fit weight limit most 0 0 xs).length < (xs.take (most + 1)).length ↔
      rest weight limit most 0 0 xs ≠ [] := by
    rw [List.length_take, ← List.length_pos_iff]
    omega
  unfold pageOf
  rw [hrows]
  simp only [hitems, hmore]
  cases xs with
  | nil => rfl
  | cons x xs =>
      have hx := hfits x List.mem_cons_self
      have hnew : ¬ full weight limit most 0 0 x = true := by
        simp only [full, Bool.or_eq_true, decide_eq_true_eq]
        omega
      rw [List.take_succ_cons, fit, if_neg hnew]

theorem pageOf_ok {refusal : α → ε} {entries : List α} {after : Nat} {p : Page α}
    (hsorted : entries.Pairwise fun x y => key x < key y) (hjump : ∀ n, n ≤ jump n)
    (h : pageOf key weight limit most jump refusal entries after = .ok p) :
    (∀ x ∈ p.items, after < key x) ∧ after ≤ p.next := by
  set rows := (entries.filter fun x => after < key x).take (most + 1) with hrows
  have hsub : (fit weight limit most 0 0 rows).Sublist entries := by
    have hfit := List.sublist_append_left (fit weight limit most 0 0 rows)
      (rest weight limit most 0 0 rows)
    rw [fit_append_rest] at hfit
    exact hfit.trans ((List.take_sublist _ _).trans List.filter_sublist)
  have hkeys : ∀ x ∈ fit weight limit most 0 0 rows, after < key x := by
    intro x hx
    have hmem : x ∈ rows := by
      rw [← @fit_append_rest _ weight limit most 0 0 rows]
      exact List.mem_append_left _ hx
    exact of_decide_eq_true (List.mem_filter.mp (List.mem_of_mem_take hmem)).2
  have hnext := (lastKey_mono (hsorted.sublist hsub) hkeys).1
  unfold pageOf at h
  simp only [← hrows] at h
  split at h
  · cases h
  · cases h
    exact ⟨hkeys, hnext.trans (hjump _)⟩

/-- A reader sees only what is past the cursor; the induction is on the pages. -/
theorem walk_keys {refusal : α → ε} {entries : List α}
    (hsorted : entries.Pairwise fun x y => key x < key y) (hjump : ∀ n, n ≤ jump n)
    (fuel : Nat) {after : Nat} {seen : List α}
    (h : walk (pageOf key weight limit most jump refusal entries) fuel after = some seen) :
    ∀ x ∈ seen, after < key x := by
  induction fuel generalizing after seen with
  | zero => cases h
  | succ fuel ih =>
      rw [walk] at h
      cases hpage : pageOf key weight limit most jump refusal entries after with
      | error e =>
          rw [hpage] at h
          cases h
      | ok p =>
          have hp := pageOf_ok hsorted hjump hpage
          rw [hpage] at h
          simp only at h
          by_cases hmore : p.more = true
          · rw [if_pos hmore, Option.map_eq_some_iff] at h
            rcases h with ⟨later, hlater, rfl⟩
            intro x hx
            rcases List.mem_append.mp hx with hx | hx
            · exact hp.1 x hx
            · exact hp.2.trans_lt (ih hlater x hx)
          · rw [if_neg hmore, Option.some.injEq] at h
            exact h ▸ hp.1

/-- From a cursor that divides the entries, a reader sees the rest of them
    exactly when the cuts that are to come are clear. The induction is on how
    many are left: a page that is cut takes some of them, and the cut is either
    clear, or the next entry is passed for good. -/
theorem walk_split (hmost : 0 < most) (hjump : ∀ n, n ≤ jump n) (refusal : α → ε)
    {before xs : List α} {after : Nat}
    (hsorted : (before ++ xs).Pairwise fun x y => key x < key y)
    (hbefore : ∀ x ∈ before, key x ≤ after) (hafter : ∀ x ∈ xs, after < key x)
    (hfits : ∀ x ∈ xs, weight x ≤ limit) :
    (∃ fuel, walk (pageOf key weight limit most jump refusal (before ++ xs)) fuel after = some xs) ↔
      Clear key weight limit most (fun a b => jump a < b) 0 0 after xs := by
  induction hn : xs.length using Nat.strong_induction_on generalizing before xs after with
  | _ n ih =>
    set items := fit weight limit most 0 0 xs with hitems
    set later := rest weight limit most 0 0 xs with hlater
    have hsplit : items ++ later = xs := fit_append_rest 0 0 xs
    have hpage := @pageOf_split _ _ _ _ _ _ jump hmost refusal _ _ _ hbefore hafter hfits
    have hlast := @lastKey_mono _ key after items
      (((List.pairwise_append.mp hsorted).2.1).sublist
        (hsplit ▸ List.sublist_append_left items later))
      fun x hx => hafter x (hsplit ▸ List.mem_append_left _ hx)
    rw [clear_iff hmost 0 0 after xs hfits (jump (lastKey key after items)), ← hitems, ← hlater]
    cases hcut : later with
    | nil =>
        -- Everything is on this page.
        rw [hcut, List.append_nil] at hsplit
        refine iff_of_true ⟨1, ?_⟩ ⟨fun _ hx => absurd hx (by simp), trivial⟩
        rw [walk, hpage]
        simp only [← hlater, hcut, ne_eq, not_true_eq_false, decide_false, Bool.false_eq_true,
          if_false]
        rw [← hitems, hsplit]
    | cons y ys =>
        have hwalk : ∀ fuel, walk (pageOf key weight limit most jump refusal (before ++ xs))
            (fuel + 1) after = (walk (pageOf key weight limit most jump refusal (before ++ xs)) fuel
              (jump (lastKey key after items))).map (items ++ ·) := by
          intro fuel
          rw [walk, hpage]
          simp only [← hlater, ← hitems, hcut, ne_eq, reduceCtorEq, not_false_eq_true, decide_true,
            if_true]
        have hiff : (∃ fuel, walk (pageOf key weight limit most jump refusal (before ++ xs)) fuel
              after = some xs) ↔
            ∃ fuel, walk (pageOf key weight limit most jump refusal (before ++ xs)) fuel
              (jump (lastKey key after items)) = some later := by
          constructor
          · rintro ⟨fuel, h⟩
            cases fuel with
            | zero => cases h
            | succ fuel =>
                rw [hwalk, Option.map_eq_some_iff] at h
                rcases h with ⟨seen, hseen, heq⟩
                rw [← hsplit] at heq
                rw [← List.append_cancel_left heq]
                exact ⟨fuel, hseen⟩
          · rintro ⟨fuel, h⟩
            exact ⟨fuel + 1, by rw [hwalk, h, Option.map_some, hsplit]⟩
        have hpair : (before ++ items ++ later).Pairwise fun x y => key x < key y := by
          rw [List.append_assoc, hsplit]
          exact hsorted
        rw [hiff, ← hcut]
        have hhead : (∀ x ∈ later.head?, jump (lastKey key after items) < key x) ↔
            jump (lastKey key after items) < key y := by
          rw [hcut]
          simp
        rw [hhead]
        by_cases hclear : jump (lastKey key after items) < key y
        · rw [and_iff_right hclear]
          have hys : ∀ x ∈ later, jump (lastKey key after items) < key x := by
            have hrest := (List.pairwise_append.mp hpair).2.1
            rw [hcut] at hrest ⊢
            intro x hx
            rcases List.mem_cons.mp hx with rfl | hx
            · exact hclear
            · exact hclear.trans ((List.pairwise_cons.mp hrest).1 x hx)
          have hshort : later.length < n := by
            have hnone : items ≠ [] := by
              intro hnil
              rw [hnil, List.nil_append, hcut] at hsplit
              have hy := hfits y (hsplit ▸ List.mem_cons_self)
              rw [hitems, ← hsplit, fit, if_neg (by
                simp only [full, Bool.or_eq_true, decide_eq_true_eq]
                omega)] at hnil
              cases hnil
            have hlength := congrArg List.length hsplit
            have hpos := List.length_pos_iff.mpr hnone
            rw [List.length_append] at hlength
            omega
          have hrec := ih later.length hshort hpair (fun x hx => ?_) hys
            (fun x hx => hfits x (hsplit ▸ List.mem_append_right _ hx)) rfl
          · rw [List.append_assoc, hsplit] at hrec
            exact hrec
          · rcases List.mem_append.mp hx with hx | hx
            · exact (hbefore x hx).trans (hlast.1.trans (hjump _))
            · exact (hlast.2 x hx).trans (hjump _)
        · -- The entry after the cut is behind the cursor, and no page shows it.
          refine iff_of_false (fun ⟨fuel, h⟩ => ?_) fun h => hclear h.1
          have hseen := walk_keys hsorted hjump fuel h y (by rw [hcut]; exact List.mem_cons_self)
          exact hclear hseen

/-- A reader who starts before all entries sees them all, each once and in
    order, exactly when the cuts are clear. -/
theorem walk_iff (hmost : 0 < most) (hjump : ∀ n, n ≤ jump n) (refusal : α → ε)
    {entries : List α} (hsorted : entries.Pairwise fun x y => key x < key y)
    (hpositive : ∀ x ∈ entries, 0 < key x) (hfits : ∀ x ∈ entries, weight x ≤ limit) :
    (∃ fuel, walk (pageOf key weight limit most jump refusal entries) fuel 0 = some entries) ↔
      Clear key weight limit most (fun a b => jump a < b) 0 0 0 entries :=
  have hbefore : ∀ x ∈ ([] : List α), key x ≤ 0 := fun _ hx => absurd hx List.not_mem_nil
  walk_split hmost hjump refusal hsorted hbefore hpositive hfits

end Cut

end Pages

end CopilotFleet
