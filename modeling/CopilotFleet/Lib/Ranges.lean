import Mathlib.Data.List.Sort
import Mathlib.Data.List.Pairwise

/-!
# Lists of Ranges of Numbers

A set of numbers that has few pieces is kept as a list of ranges, both ends
included. Ranges that come in any order are sorted and then taken up one by
one from the left: one that touches the last piece makes that piece longer,
and any other begins a new piece. What comes out is `Normal`, its pieces in
order and apart from each other, and holds the same numbers. When there are
too many pieces, the tail is made one piece, which may hold more.

How far such a set reaches from one on without a hole is found in one pass
over any list that is sorted.

## Main definitions

* `Range`: All numbers from one to another.
* `Covers`: A number is in one of the ranges.
* `Normal`: Pieces in order that do not touch.
* `merge`: The same numbers in pieces.
* `compress`: A tail of too many pieces is one piece.
* `reach`: How far the ranges go without a hole.
* `skip`: From a number on past the ranges that touch it.

## Theorems

* `merge_spec`: Merging keeps the numbers and sorts the pieces.
* `compress_normal`, `compress_covers`: Compressing loses no number.
* `le_reach`: A number is reached exactly when all below it are covered.
* `skip_lt_iff`: Pieces are passed one at a time, never into the next.
-/

namespace CopilotFleet

structure Range where
  first : Nat
  last : Nat
deriving DecidableEq

namespace Ranges

def Covers (ranges : List Range) (n : Nat) : Prop := ∃ r ∈ ranges, r.first ≤ n ∧ n ≤ r.last

instance (ranges : List Range) (n : Nat) : Decidable (Covers ranges n) :=
  inferInstanceAs (Decidable (∃ r ∈ ranges, r.first ≤ n ∧ n ≤ r.last))

/-- Pieces in order that do not touch. -/
structure Normal (ranges : List Range) : Prop where
  apart : ranges.Pairwise fun a b => a.last + 1 < b.first
  valid : ∀ r ∈ ranges, r.first ≤ r.last

theorem covers_append (xs ys : List Range) (n : Nat) :
    Covers (xs ++ ys) n ↔ Covers xs n ∨ Covers ys n := by
  unfold Covers
  simp only [List.mem_append, or_and_right, exists_or]

theorem covers_singleton (r : Range) (n : Nat) : Covers [r] n ↔ r.first ≤ n ∧ n ≤ r.last := by
  unfold Covers
  simp

theorem Covers.perm {xs ys : List Range} {n : Nat} (h : xs.Perm ys) (hx : Covers xs n) :
    Covers ys n := by
  rcases hx with ⟨r, hr, hn⟩
  exact ⟨r, h.subset hr, hn⟩

theorem normal_nil : Normal [] := ⟨List.Pairwise.nil, fun _ h => absurd h List.not_mem_nil⟩

/-- The pieces before the last one end before it begins. -/
theorem Normal.before_last {ranges : List Range} {l : Range} (h : Normal (ranges ++ [l]))
    {r : Range} (hr : r ∈ ranges) : r.last + 1 < l.first :=
  (List.pairwise_append.mp h.apart).2.2 r hr l (List.mem_singleton.mpr rfl)

theorem Normal.init {ranges tail : List Range} (h : Normal (ranges ++ tail)) : Normal ranges :=
  ⟨(List.pairwise_append.mp h.apart).1, fun r hr => h.valid r (List.mem_append_left _ hr)⟩

theorem Normal.concat {ranges : List Range} (h : Normal ranges) {l : Range}
    (hl : l.first ≤ l.last) (hbefore : ∀ r ∈ ranges, r.last + 1 < l.first) :
    Normal (ranges ++ [l]) := by
  refine ⟨List.pairwise_append.mpr ⟨h.apart, List.pairwise_singleton _ _, ?_⟩, ?_⟩
  · intro r hr x hx
    rw [List.mem_singleton.mp hx]
    exact hbefore r hr
  · intro r hr
    rcases List.mem_append.mp hr with hr | hr
    · exact h.valid r hr
    · rw [List.mem_singleton.mp hr]
      exact hl

/-! ### Merging -/

/-- One more range, from the left, into pieces. -/
def absorb (merged : List Range) (range : Range) : List Range :=
  match merged.getLast? with
  | none => [range]
  | some last =>
      if range.first ≤ last.last + 1 then
        merged.dropLast ++ [{ last with last := max last.last range.last }]
      else merged ++ [range]

/-- Ranges in any order, as pieces. -/
def merge (ranges : List Range) : List Range :=
  (ranges.insertionSort fun a b => a.first ≤ b.first).foldl absorb []

theorem absorb_nil (range : Range) : absorb [] range = [range] := rfl

theorem absorb_concat (merged : List Range) (l range : Range) :
    absorb (merged ++ [l]) range =
      if range.first ≤ l.last + 1 then merged ++ [{ l with last := max l.last range.last }]
      else merged ++ [l] ++ [range] := by
  unfold absorb
  rw [List.getLast?_concat, List.dropLast_concat]

theorem absorb_normal {merged : List Range} (h : Normal merged) {range : Range}
    (hvalid : range.first ≤ range.last) (hsorted : ∀ r ∈ merged, r.first ≤ range.first) :
    Normal (absorb merged range) := by
  rcases List.eq_nil_or_concat merged with rfl | ⟨before, l, rfl⟩
  · rw [absorb_nil]
    exact normal_nil.concat hvalid fun r hr => absurd hr List.not_mem_nil
  · rw [List.concat_eq_append] at h hsorted ⊢
    have hl := h.valid l (List.mem_append_right _ (List.mem_singleton.mpr rfl))
    rw [absorb_concat]
    by_cases htouch : range.first ≤ l.last + 1
    · rw [if_pos htouch]
      refine h.init.concat ?_ fun r hr => h.before_last hr
      exact hl.trans (Nat.le_max_left _ _)
    · rw [if_neg htouch]
      refine h.concat hvalid fun r hr => ?_
      rcases List.mem_append.mp hr with hr | hr
      · have hbefore := h.before_last hr
        omega
      · rw [List.mem_singleton.mp hr]
        omega

theorem absorb_covers {merged : List Range} {range : Range}
    (hsorted : ∀ r ∈ merged, r.first ≤ range.first) (n : Nat) :
    Covers (absorb merged range) n ↔ Covers merged n ∨ range.first ≤ n ∧ n ≤ range.last := by
  rcases List.eq_nil_or_concat merged with rfl | ⟨before, l, rfl⟩
  · rw [absorb_nil, covers_singleton]
    simp [Covers]
  · rw [List.concat_eq_append] at hsorted ⊢
    have hl := hsorted l (List.mem_append_right _ (List.mem_singleton.mpr rfl))
    rw [absorb_concat]
    by_cases htouch : range.first ≤ l.last + 1
    · rw [if_pos htouch]
      have hjoin : l.first ≤ n ∧ n ≤ max l.last range.last ↔
          (l.first ≤ n ∧ n ≤ l.last) ∨ (range.first ≤ n ∧ n ≤ range.last) := by omega
      simp only [covers_append, covers_singleton, hjoin, or_assoc]
    · rw [if_neg htouch]
      simp only [covers_append, covers_singleton]

/-- The pieces begin no later than the range that was taken up last. -/
theorem absorb_first {merged : List Range} {range : Range}
    (hsorted : ∀ r ∈ merged, r.first ≤ range.first) :
    ∀ r ∈ absorb merged range, r.first ≤ range.first := by
  rcases List.eq_nil_or_concat merged with rfl | ⟨before, l, rfl⟩
  · intro r hr
    rw [absorb_nil, List.mem_singleton] at hr
    rw [hr]
  · rw [List.concat_eq_append] at hsorted ⊢
    intro r hr
    rw [absorb_concat] at hr
    split at hr
    · rcases List.mem_append.mp hr with hr | hr
      · exact hsorted r (List.mem_append_left _ hr)
      · rw [List.mem_singleton.mp hr]
        exact hsorted l (List.mem_append_right _ (List.mem_singleton.mpr rfl))
    · rcases List.mem_append.mp hr with hr | hr
      · exact hsorted r hr
      · rw [List.mem_singleton.mp hr]

/-- The whole pass, by induction on what is still to be taken up. -/
theorem foldl_absorb {ranges : List Range} (hvalid : ∀ r ∈ ranges, r.first ≤ r.last)
    (hsorted : ranges.Pairwise fun a b => a.first ≤ b.first) {merged : List Range}
    (hmerged : Normal merged) (hbefore : ∀ r ∈ merged, ∀ x ∈ ranges, r.first ≤ x.first) :
    Normal (ranges.foldl absorb merged) ∧
      ∀ n, Covers (ranges.foldl absorb merged) n ↔ Covers merged n ∨ Covers ranges n := by
  induction ranges generalizing merged with
  | nil =>
      refine ⟨hmerged, fun n => ?_⟩
      simp [Covers]
  | cons range rest ih =>
      have hhead : ∀ r ∈ merged, r.first ≤ range.first := fun r hr =>
        hbefore r hr range List.mem_cons_self
      have hstep := absorb_normal hmerged (hvalid range List.mem_cons_self) hhead
      rcases ih (fun r hr => hvalid r (List.mem_cons_of_mem _ hr)) hsorted.of_cons hstep
        (fun r hr x hx => (absorb_first hhead r hr).trans
          ((List.pairwise_cons.mp hsorted).1 x hx)) with ⟨hnormal, hcovers⟩
      refine ⟨hnormal, fun n => ?_⟩
      rw [List.foldl_cons, hcovers n, absorb_covers hhead n]
      unfold Covers
      simp [or_assoc]

theorem sorted_first (ranges : List Range) :
    (ranges.insertionSort fun a b => a.first ≤ b.first).Pairwise fun a b => a.first ≤ b.first := by
  have : Std.Total fun a b : Range => a.first ≤ b.first := ⟨fun a b => Nat.le_total _ _⟩
  have : IsTrans Range fun a b => a.first ≤ b.first := ⟨fun _ _ _ => Nat.le_trans⟩
  exact List.pairwise_insertionSort _ _

theorem merge_spec {ranges : List Range} (hvalid : ∀ r ∈ ranges, r.first ≤ r.last) :
    Normal (merge ranges) ∧ ∀ n, Covers (merge ranges) n ↔ Covers ranges n := by
  have hperm := List.perm_insertionSort (fun a b : Range => a.first ≤ b.first) ranges
  rcases foldl_absorb (fun r hr => hvalid r (hperm.subset hr)) (sorted_first ranges) normal_nil
    (fun r hr => absurd hr List.not_mem_nil) with ⟨hnormal, hcovers⟩
  refine ⟨hnormal, fun n => ?_⟩
  unfold merge
  rw [hcovers n]
  constructor
  · rintro (h | h)
    · exact absurd h (by simp [Covers])
    · exact h.perm hperm
  · intro h
    exact .inr (h.perm hperm.symm)

/-! ### Too many pieces -/

/-- From the piece `keep` on, a tail is one piece. -/
def compress (keep : Nat) (ranges : List Range) : List Range :=
  match ranges[keep]?, ranges.getLast? with
  | some first, some last =>
      if keep + 1 < ranges.length then
        ranges.take keep ++ [{ first := first.first, last := last.last }]
      else ranges
  | _, _ => ranges

theorem compress_length (keep : Nat) (ranges : List Range) :
    (compress keep ranges).length ≤ keep + 1 := by
  unfold compress
  split
  · split
    · simp only [List.length_append, List.length_take, List.length_singleton]
      omega
    · omega
  · next hnone =>
      by_cases hlen : keep < ranges.length
      · have hlast : ranges ≠ [] := List.ne_nil_of_length_pos (Nat.zero_lt_of_lt hlen)
        exact absurd (List.getLast?_eq_getLast_of_ne_nil hlast)
          (hnone _ _ (List.getElem?_eq_getElem hlen))
      · omega

theorem Normal.first_le_last {ranges : List Range} (h : Normal ranges) {r l : Range}
    (hr : r ∈ ranges) (hl : ranges.getLast? = some l) : r.last ≤ l.last := by
  rcases List.eq_nil_or_concat ranges with rfl | ⟨before, x, rfl⟩
  · cases hl
  · rw [List.concat_eq_append] at h hr hl
    rw [List.getLast?_concat, Option.some.injEq] at hl
    subst hl
    rcases List.mem_append.mp hr with hr | hr
    · have hbefore := h.before_last hr
      have hx := h.valid x (List.mem_append_right _ (List.mem_singleton.mpr rfl))
      omega
    · rw [List.mem_singleton.mp hr]

/-- Compressing is taking the head, and one piece from the first of the tail on. -/
theorem compress_cases (keep : Nat) (ranges : List Range) :
    compress keep ranges = ranges ∨
      ∃ first last tail, ranges = ranges.take keep ++ first :: tail ∧
        ranges.getLast? = some last ∧
          compress keep ranges =
            ranges.take keep ++ [{ first := first.first, last := last.last }] := by
  unfold compress
  split
  · next first last hfirst hlast =>
      split
      · refine .inr ⟨first, last, ranges.drop (keep + 1), ?_, hlast, rfl⟩
        have hdrop : ranges.drop keep = first :: ranges.drop (keep + 1) := by
          rcases List.getElem?_eq_some_iff.mp hfirst with ⟨hlt, rfl⟩
          exact List.drop_eq_getElem_cons hlt
        rw [← hdrop, List.take_append_drop]
      · exact .inl rfl
  · exact .inl rfl

theorem compress_normal (keep : Nat) {ranges : List Range} (h : Normal ranges) :
    Normal (compress keep ranges) := by
  rcases compress_cases keep ranges with heq | ⟨first, last, tail, hsplit, hlast, heq⟩
  · rw [heq]
    exact h
  · have hmem : first ∈ ranges := by
      rw [hsplit]
      exact List.mem_append_right _ List.mem_cons_self
    have hinit : Normal (ranges.take keep) := by
      rw [hsplit] at h
      exact h.init
    rw [heq]
    refine hinit.concat ?_ fun r hr => ?_
    · have hend : first.last ≤ last.last := h.first_le_last hmem hlast
      exact (h.valid first hmem).trans hend
    · rw [hsplit] at h
      exact (List.pairwise_append.mp h.apart).2.2 r hr first List.mem_cons_self

theorem compress_covers (keep : Nat) {ranges : List Range} (h : Normal ranges) {n : Nat}
    (hn : Covers ranges n) : Covers (compress keep ranges) n := by
  rcases compress_cases keep ranges with heq | ⟨first, last, tail, hsplit, hlast, heq⟩
  · rw [heq]
    exact hn
  · rcases hn with ⟨r, hr, hfirst, hle⟩
    rw [heq, covers_append]
    have hr' := hr
    rw [hsplit] at hr'
    rcases List.mem_append.mp hr' with hmem | hmem
    · exact .inl ⟨r, hmem, hfirst, hle⟩
    · -- The tail is in order, so its first piece begins before `n` and its last ends after.
      have hend : r.last ≤ last.last := h.first_le_last hr hlast
      refine .inr ((covers_singleton _ _).mpr ⟨?_, hle.trans hend⟩)
      rcases List.mem_cons.mp hmem with rfl | htail
      · exact hfirst
      · rw [hsplit] at h
        have hpair := (List.pairwise_append.mp h.apart).2.1
        have hapart := (List.pairwise_cons.mp hpair).1 r htail
        have hvalid := h.valid first (List.mem_append_right _ List.mem_cons_self)
        change first.first ≤ n
        omega

/-! ### How far it goes -/

/-- From `through` on, how far sorted ranges go without a hole. -/
def reach (through : Nat) : List Range → Nat
  | [] => through
  | range :: rest =>
      if through + 1 < range.first then through else reach (max through range.last) rest

/-- A number is reached exactly when everything from the start up to it is
    covered; the induction is on the ranges, with the start moving along. -/
theorem le_reach {ranges : List Range} (hsorted : ranges.Pairwise fun a b => a.first ≤ b.first)
    (through n : Nat) :
    n ≤ reach through ranges ↔ ∀ m, through < m → m ≤ n → Covers ranges m := by
  induction ranges generalizing through with
  | nil =>
      unfold reach
      constructor
      · intro hle m hlt hm
        omega
      · intro h
        by_contra hlt
        rcases h n (by omega) le_rfl with ⟨r, hr, _⟩
        exact absurd hr List.not_mem_nil
  | cons range rest ih =>
      have hrest := (List.pairwise_cons.mp hsorted).1
      unfold reach
      split
      · next hhole =>
          constructor
          · intro hle m hlt hm
            omega
          · intro h
            by_contra hlt
            rcases h (through + 1) (by omega) (by omega) with ⟨r, hr, hfirst, _⟩
            rcases List.mem_cons.mp hr with rfl | hr
            · omega
            · have hle := hrest r hr
              omega
      · next hnext =>
          rw [ih hsorted.of_cons]
          constructor
          · intro h m hlt hm
            by_cases hin : m ≤ range.last
            · exact ⟨range, List.mem_cons_self, by omega, hin⟩
            · rcases h m (by omega) hm with ⟨r, hr, hcov⟩
              exact ⟨r, List.mem_cons_of_mem _ hr, hcov⟩
          · intro h m hlt hm
            rcases h m (by omega) hm with ⟨r, hr, hfirst, hlast⟩
            rcases List.mem_cons.mp hr with rfl | hr
            · omega
            · exact ⟨r, hr, hfirst, hlast⟩

/-! ### Past what touches -/

/-- From a number on past each range in turn that begins no later than right after it. -/
def skip (ranges : List Range) (n : Nat) : Nat :=
  ranges.foldl (fun n range => if range.first ≤ n + 1 && n < range.last then range.last else n) n

theorem skip_cons (range : Range) (ranges : List Range) (n : Nat) :
    skip (range :: ranges) n =
      skip ranges (if range.first ≤ n + 1 && n < range.last then range.last else n) := rfl

theorem le_skip (ranges : List Range) (n : Nat) : n ≤ skip ranges n := by
  induction ranges generalizing n with
  | nil => exact le_rfl
  | cons range ranges ih =>
      rw [skip_cons]
      refine le_trans ?_ (ih _)
      split
      · next h =>
          rw [Bool.and_eq_true, decide_eq_true_eq, decide_eq_true_eq] at h
          exact h.2.le
      · exact le_rfl

theorem skip_far {ranges : List Range} {n : Nat} (h : ∀ r ∈ ranges, n + 1 < r.first) :
    skip ranges n = n := by
  induction ranges with
  | nil => rfl
  | cons range ranges ih =>
      have hrange := h range List.mem_cons_self
      rw [skip_cons, if_neg (by
        rw [Bool.and_eq_true, decide_eq_true_eq]
        omega)]
      exact ih fun r hr => h r (List.mem_cons_of_mem _ hr)

/-- Pieces lie apart, so the end of one touches no other: a number stays ahead
    unless one of the pieces that are touched reaches it. -/
theorem skip_lt_iff {ranges : List Range} (h : Normal ranges) {n m : Nat} (hlt : n < m) :
    skip ranges n < m ↔ ∀ r ∈ ranges, r.first ≤ n + 1 → r.last < m := by
  induction ranges with
  | nil => exact iff_of_true hlt fun r hr => absurd hr List.not_mem_nil
  | cons range ranges ih =>
      have hpair := List.pairwise_cons.mp h.apart
      have hrest : Normal ranges :=
        ⟨hpair.2, fun r hr => h.valid r (List.mem_cons_of_mem _ hr)⟩
      have hvalid := h.valid range List.mem_cons_self
      rw [skip_cons, List.forall_mem_cons]
      by_cases htouch : range.first ≤ n + 1
      · have hfar : ∀ r ∈ ranges, range.last + 1 < r.first := hpair.1
        by_cases hends : n < range.last
        · rw [if_pos (by
            rw [Bool.and_eq_true, decide_eq_true_eq, decide_eq_true_eq]
            exact ⟨htouch, hends⟩), skip_far hfar]
          refine ⟨fun hm => ⟨fun _ => hm, fun r hr hfirst => ?_⟩, fun hm => hm.1 htouch⟩
          have hapart := hfar r hr
          omega
        · rw [if_neg (by
            rw [Bool.and_eq_true, decide_eq_true_eq, decide_eq_true_eq]
            exact fun hboth => hends hboth.2), ih hrest]
          refine ⟨fun hm => ⟨fun _ => by omega, hm⟩, fun hm => hm.2⟩
      · rw [if_neg (by
          rw [Bool.and_eq_true, decide_eq_true_eq]
          exact fun hboth => htouch hboth.1), ih hrest]
        exact ⟨fun hm => ⟨fun hfirst => absurd hfirst htouch, hm⟩, fun hm => hm.2⟩

end Ranges

end CopilotFleet
