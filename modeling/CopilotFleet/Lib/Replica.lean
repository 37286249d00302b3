import Mathlib.Data.List.Basic
import Mathlib.Data.Nat.Basic
import Mathlib.Order.Nat

/-!
# Following a Document Change by Change

A document is a list of blocks that evolves by numbered changes. Each change
rewrites the block at one position or adds one at the end, so every position
that exists keeps its meaning for ever. `version r` is the document after the
first `r` changes.

A copy holds a window of the document, from some start through the end as of
its own revision. It may also hold blocks from a later revision than its own,
because a page of blocks can be read after changes that are still on their way
to it. Each block therefore carries a stamp, the revision it was read at, and
a block is right when it is the document's at its stamp or at the copy's
revision, whichever is later. That is `Follows`, and the lemmas below are the
ways a copy can move and still follow.

The one move with a real side condition is `Follows.older`. A page of older
blocks may also have been read *before* changes the copy has already passed,
and those changes are gone; it can be joined on only if none of them touched
the blocks it brings.

## Main definitions

* `Edits`: Where a change applies and what it makes of the block there.
* `write`: The document after one change.
* `version`: The document after the first so many changes.
* `Consistent`: Every change applies where it is made.
* `Copy`: A window of the document with its stamps.
* `Follows`: Every block of the copy is the document's.

## Theorems

* `version_stable`: A position nothing touched reads the same.
* `Follows.page`: A page through the end follows.
* `Follows.older`: Joining on older blocks nothing has touched since.
* `Follows.skip`: Passing a change before the window.
* `Follows.kept`: Passing a change a block was read after.
* `Follows.replace`: Applying a change inside the window.
* `Follows.push`: Applying a change at its end.
* `Follows.drop`: Forgetting the oldest blocks.
* `Follows.more`: The document moving on without the copy.
* `Follows.agrees`: A copy at the last revision is the document's window.
-/

namespace CopilotFleet

namespace Replica

/-- Where a change applies, and what it makes of the block already there. -/
structure Edits (β γ : Type*) where
  index : γ → Nat
  changed : Option β → γ → Option β

variable {β γ : Type*} (E : Edits β γ)

/-- The document after one change. -/
def write (doc : List β) (c : γ) : List β :=
  match E.changed doc[E.index c]? c with
  | none => doc
  | some b => if E.index c < doc.length then doc.set (E.index c) b else doc ++ [b]

/-- The change applies: to a block that exists, or as the next one. -/
def Fits (doc : List β) (c : γ) : Prop :=
  E.index c ≤ doc.length ∧ (E.changed doc[E.index c]? c).isSome = true

/-- The document after the first `r` changes. -/
def version (base : List β) (cs : List γ) (r : Nat) : List β := (cs.take r).foldl (write E) base

/-- Every change applies to the document it is made to. -/
def Consistent (base : List β) (cs : List γ) : Prop :=
  ∀ r c, cs[r]? = some c → Fits E (version E base cs r) c

theorem write_of_lt {doc : List β} {c : γ} {b : β} (hb : E.changed doc[E.index c]? c = some b)
    (h : E.index c < doc.length) : write E doc c = doc.set (E.index c) b := by
  unfold write
  rw [hb]
  exact if_pos h

theorem write_length_le (doc : List β) (c : γ) : doc.length ≤ (write E doc c).length := by
  unfold write
  cases E.changed doc[E.index c]? c with
  | none => exact le_rfl
  | some b =>
      by_cases h : E.index c < doc.length
      · simp [h]
      · simp [h]

theorem write_get_ne (doc : List β) (c : γ) {q : Nat} (hq : q < doc.length)
    (hne : E.index c ≠ q) : (write E doc c)[q]? = doc[q]? := by
  unfold write
  cases E.changed doc[E.index c]? c with
  | none => rfl
  | some b =>
      by_cases h : E.index c < doc.length
      · simp only [if_pos h]
        rw [List.getElem?_set_ne hne]
      · simp only [if_neg h]
        rw [List.getElem?_append_left hq]

theorem write_get_self {doc : List β} {c : γ} (h : Fits E doc c) :
    (write E doc c)[E.index c]? = E.changed doc[E.index c]? c := by
  unfold write
  cases hchanged : E.changed doc[E.index c]? c with
  | none =>
      have hsome := h.2
      rw [hchanged] at hsome
      exact absurd hsome (by simp)
  | some b =>
      by_cases hlt : E.index c < doc.length
      · simp only [if_pos hlt]
        rw [List.getElem?_set_self hlt]
      · have heq : E.index c = doc.length := by
          have hle := h.1
          omega
        simp [heq]

theorem write_length {doc : List β} {c : γ} (h : Fits E doc c) :
    (write E doc c).length = max doc.length (E.index c + 1) := by
  unfold write
  cases hchanged : E.changed doc[E.index c]? c with
  | none =>
      have hsome := h.2
      rw [hchanged] at hsome
      exact absurd hsome (by simp)
  | some b =>
      have hle := h.1
      by_cases hlt : E.index c < doc.length
      · simp only [if_pos hlt, List.length_set]
        omega
      · simp only [if_neg hlt, List.length_append, List.length_singleton]
        omega

theorem version_succ (base : List β) {cs : List γ} {r : Nat} {c : γ} (h : cs[r]? = some c) :
    version E base cs (r + 1) = write E (version E base cs r) c := by
  unfold version
  rw [List.take_add_one, h, List.foldl_append]
  rfl

theorem version_append (base : List β) (cs more : List γ) {r : Nat} (h : r ≤ cs.length) :
    version E base (cs ++ more) r = version E base cs r := by
  unfold version
  rw [List.take_append_of_le_length h]

theorem consistent_append {base : List β} {cs : List γ} (h : Consistent E base cs) {c : γ}
    (hc : Fits E (version E base cs cs.length) c) : Consistent E base (cs ++ [c]) := by
  intro r d hd
  rcases Nat.lt_or_ge r cs.length with hr | hr
  · rw [List.getElem?_append_left hr] at hd
    rw [version_append E base cs [c] hr.le]
    exact h r d hd
  · rw [List.getElem?_append_right hr, List.getElem?_singleton] at hd
    split at hd
    · have heq : r = cs.length := by omega
      rw [Option.some.injEq] at hd
      rw [heq, version_append E base cs [c] le_rfl, ← hd]
      exact hc
    · contradiction

theorem version_length_mono (base : List β) (cs : List γ) {r s : Nat} (h : r ≤ s) :
    (version E base cs r).length ≤ (version E base cs s).length := by
  induction s, h using Nat.le_induction with
  | base => exact le_rfl
  | succ s _ ih =>
      refine ih.trans ?_
      cases hs : cs[s]? with
      | none =>
          unfold version
          rw [List.take_add_one, hs]
          simp
      | some c =>
          rw [version_succ E base hs]
          exact write_length_le E _ _

/-- A position no change touched reads the same at both revisions. -/
theorem version_stable (base : List β) (cs : List γ) {r s q : Nat} (h : r ≤ s)
    (hq : q < (version E base cs r).length)
    (hclean : ∀ k c, r ≤ k → k < s → cs[k]? = some c → E.index c ≠ q) :
    (version E base cs s)[q]? = (version E base cs r)[q]? := by
  induction s, h using Nat.le_induction with
  | base => rfl
  | succ s hrs ih =>
      have hold := ih fun k c hk hks => hclean k c hk (by omega)
      cases hs : cs[s]? with
      | none =>
          rw [← hold]
          unfold version
          rw [List.take_add_one, hs]
          simp
      | some c =>
          rw [version_succ E base hs, ← hold]
          refine write_get_ne E _ _ ?_ (hclean s c hrs (by omega) hs)
          exact hq.trans_le (version_length_mono E base cs hrs)

/-- A window of the document: its blocks, the revision each was read at, and
    the revision the copy has followed to. -/
structure Copy (β : Type*) where
  start : Nat
  revision : Nat
  blocks : List β
  stamps : List Nat

/-- The window ends where the document of its revision does, and each block is
    the document's at its stamp or at the copy's revision, whichever is later. -/
structure Follows (base : List β) (cs : List γ) (v : Copy β) : Prop where
  revision_le : v.revision ≤ cs.length
  reach : v.start + v.blocks.length = (version E base cs v.revision).length
  stamps_length : v.stamps.length = v.blocks.length
  stamp_le : ∀ s ∈ v.stamps, s ≤ cs.length
  block_eq : ∀ (i s : Nat), v.stamps[i]? = some s →
    (version E base cs (max s v.revision))[v.start + i]? = v.blocks[i]?

namespace Follows

variable {E} {base : List β} {cs : List γ} {v : Copy β}

/-- A page read at one revision through the end of the document. -/
theorem page {r start : Nat} {blocks : List β} (hr : r ≤ cs.length)
    (hreach : start + blocks.length = (version E base cs r).length)
    (hblocks : ∀ i < blocks.length, (version E base cs r)[start + i]? = blocks[i]?) :
    Follows E base cs
      { start, revision := r, blocks, stamps := blocks.map fun _ => r } where
  revision_le := hr
  reach := hreach
  stamps_length := by simp
  stamp_le s hs := by
    rw [List.mem_map] at hs
    rcases hs with ⟨_, _, rfl⟩
    exact hr
  block_eq i s hs := by
    have hi : i < blocks.length := by
      simpa using (List.getElem?_eq_some_iff.mp hs).1
    rw [List.getElem?_map, Option.map_eq_some_iff] at hs
    rcases hs with ⟨_, _, rfl⟩
    rw [max_self]
    exact hblocks i hi

/-- Older blocks read at revision `r` join on in front, as long as no change
    between `r` and the copy's revision touched one of them. -/
theorem older (h : Follows E base cs v) {r start : Nat} {blocks : List β} (hr : r ≤ cs.length)
    (hstart : start + blocks.length = v.start)
    (hblocks : ∀ i < blocks.length, (version E base cs r)[start + i]? = blocks[i]?)
    (hclean : ∀ k c, r ≤ k → k < v.revision → cs[k]? = some c →
      ¬ (start ≤ E.index c ∧ E.index c < v.start)) :
    Follows E base cs
      { start, revision := v.revision, blocks := blocks ++ v.blocks
        stamps := blocks.map (fun _ => r) ++ v.stamps } where
  revision_le := h.revision_le
  reach := by
    have hreach := h.reach
    simp only [List.length_append]
    omega
  stamps_length := by
    simp [h.stamps_length]
  stamp_le s hs := by
    rcases List.mem_append.mp hs with hs | hs
    · rw [List.mem_map] at hs
      rcases hs with ⟨_, _, rfl⟩
      exact hr
    · exact h.stamp_le s hs
  block_eq i s hs := by
    rcases Nat.lt_or_ge i blocks.length with hi | hi
    · rw [List.getElem?_append_left (by simpa using hi), List.getElem?_map,
        Option.map_eq_some_iff] at hs
      rcases hs with ⟨_, _, rfl⟩
      simp only
      rw [List.getElem?_append_left hi, ← hblocks i hi]
      have hlt : start + i < (version E base cs r).length := by
        by_contra hge
        rw [not_lt] at hge
        have hnone := hblocks i hi
        rw [List.getElem?_eq_none hge, List.getElem?_eq_getElem hi] at hnone
        exact absurd hnone (by simp)
      -- No change since `r` was to a block of the page, so the old block is still the current one.
      refine version_stable E base cs (le_max_left r v.revision) hlt ?_
      intro k c hk hks hc heq
      have hrev : k < v.revision := by omega
      exact hclean k c hk hrev hc ⟨by omega, by omega⟩
    · rw [List.getElem?_append_right (by simpa using hi)] at hs
      simp only [List.length_map] at hs
      rw [List.getElem?_append_right hi, ← h.block_eq _ _ hs]
      simp only
      rw [show start + i = v.start + (i - blocks.length) by omega]

/-- Passing one change leaves every other block what it was. -/
theorem pass (h : Follows E base cs v) {c : γ}
    (hc : cs[v.revision]? = some c) {i s : Nat} (hs : v.stamps[i]? = some s)
    (hne : E.index c ≠ v.start + i ∨ v.revision < s) :
    (version E base cs (max s (v.revision + 1)))[v.start + i]? = v.blocks[i]? := by
  rw [← h.block_eq i s hs]
  rcases Nat.lt_or_ge v.revision s with hlt | hge
  · rw [max_eq_left (by omega), max_eq_left (by omega)]
  · rw [max_eq_right (by omega), max_eq_right hge, version_succ E base hc]
    have hi : i < v.stamps.length := (List.getElem?_eq_some_iff.mp hs).1
    have hreach := h.reach
    have hlen := h.stamps_length
    refine write_get_ne E _ _ (by omega) ?_
    rcases hne with hne | hlt
    · exact hne
    · omega

theorem length_succ (hcons : Consistent E base cs) {r : Nat} {c : γ} (hc : cs[r]? = some c) :
    (version E base cs (r + 1)).length =
      max (version E base cs r).length (E.index c + 1) := by
  rw [version_succ E base hc]
  exact write_length E (hcons r c hc)

/-- A change to a block before the window needs nothing. -/
theorem skip (hcons : Consistent E base cs) (h : Follows E base cs v) {c : γ}
    (hc : cs[v.revision]? = some c) (hindex : E.index c < v.start) :
    Follows E base cs { v with revision := v.revision + 1 } where
  revision_le := (List.getElem?_eq_some_iff.mp hc).1
  reach := by
    have hreach := h.reach
    simp only [length_succ hcons hc]
    omega
  stamps_length := h.stamps_length
  stamp_le := h.stamp_le
  block_eq i s hs := pass h hc hs (.inl (by omega))

/-- A change to a block that was read after it needs nothing either. -/
theorem kept (hcons : Consistent E base cs) (h : Follows E base cs v) {c : γ}
    (hc : cs[v.revision]? = some c) (offset : Nat) {s : Nat} (hindex : E.index c = v.start + offset)
    (hstamp : v.stamps[offset]? = some s) (hlate : v.revision < s) :
    Follows E base cs { v with revision := v.revision + 1 } where
  revision_le := (List.getElem?_eq_some_iff.mp hc).1
  reach := by
    have hreach := h.reach
    have hlt : offset < v.stamps.length := (List.getElem?_eq_some_iff.mp hstamp).1
    have hlen := h.stamps_length
    simp only [length_succ hcons hc]
    omega
  stamps_length := h.stamps_length
  stamp_le := h.stamp_le
  block_eq i t ht := by
    refine pass h hc ht ?_
    rcases eq_or_ne i offset with rfl | hne
    · rw [hstamp, Option.some.injEq] at ht
      exact .inr (by omega)
    · exact .inl (by omega)

/-- A change inside the window, applied to the copy's own block. -/
theorem replace (hcons : Consistent E base cs) (h : Follows E base cs v) {c : γ}
    (hc : cs[v.revision]? = some c) (offset : Nat) {s : Nat} (hindex : E.index c = v.start + offset)
    (hstamp : v.stamps[offset]? = some s) (hearly : s ≤ v.revision) {b : β}
    (hb : E.changed v.blocks[offset]? c = some b) :
    Follows E base cs
      { v with
        revision := v.revision + 1
        blocks := v.blocks.set offset b
        stamps := v.stamps.set offset (v.revision + 1) } where
  revision_le := (List.getElem?_eq_some_iff.mp hc).1
  reach := by
    have hreach := h.reach
    have hlt : offset < v.stamps.length := (List.getElem?_eq_some_iff.mp hstamp).1
    have hlen := h.stamps_length
    simp only [length_succ hcons hc, List.length_set]
    omega
  stamps_length := by
    simp [h.stamps_length]
  stamp_le t ht := by
    rcases List.mem_or_eq_of_mem_set ht with ht | rfl
    · exact h.stamp_le t ht
    · exact (List.getElem?_eq_some_iff.mp hc).1
  block_eq i t ht := by
    have hlt : offset < v.stamps.length := (List.getElem?_eq_some_iff.mp hstamp).1
    have hlen := h.stamps_length
    rcases eq_or_ne i offset with rfl | hne
    · simp only [List.getElem?_set_self hlt, Option.some.injEq] at ht
      subst ht
      simp only [max_self, List.getElem?_set_self (hlen ▸ hlt)]
      have hself := write_get_self E (hcons _ _ hc)
      rw [version_succ E base hc, ← hindex, hself, ← hb]
      have hold := h.block_eq i s hstamp
      rw [max_eq_right hearly] at hold
      rw [hindex, hold]
    · simp only [List.getElem?_set_ne (Ne.symm hne)] at ht ⊢
      exact pass h hc ht (.inl (by omega))

/-- A change that adds the block after the window. -/
theorem push (hcons : Consistent E base cs) (h : Follows E base cs v) {c : γ}
    (hc : cs[v.revision]? = some c) (hindex : E.index c = v.start + v.blocks.length) {b : β}
    (hb : E.changed none c = some b) :
    Follows E base cs
      { v with
        revision := v.revision + 1
        blocks := v.blocks ++ [b]
        stamps := v.stamps ++ [v.revision + 1] } where
  revision_le := (List.getElem?_eq_some_iff.mp hc).1
  reach := by
    have hreach := h.reach
    simp only [length_succ hcons hc, List.length_append, List.length_singleton]
    omega
  stamps_length := by
    simp [h.stamps_length]
  stamp_le t ht := by
    rcases List.mem_append.mp ht with ht | ht
    · exact h.stamp_le t ht
    · rw [List.mem_singleton] at ht
      rw [ht]
      exact (List.getElem?_eq_some_iff.mp hc).1
  block_eq i t ht := by
    have hreach := h.reach
    have hlen := h.stamps_length
    rcases Nat.lt_or_ge i v.stamps.length with hi | hi
    · simp only [List.getElem?_append_left hi] at ht
      simp only [List.getElem?_append_left (hlen ▸ hi)]
      exact pass h hc ht (.inl (by omega))
    · simp only [List.getElem?_append_right hi, List.getElem?_singleton] at ht
      split at ht
      · rename_i hzero
        rw [Option.some.injEq] at ht
        have hi' : i = v.blocks.length := by omega
        have hself := write_get_self E (hcons _ _ hc)
        have hnone : (version E base cs v.revision)[E.index c]? = none :=
          List.getElem?_eq_none (by omega)
        rw [← ht, hi']
        simp only [max_self]
        rw [version_succ E base hc, ← hindex, hself, hnone, hb]
        simp
      · contradiction

/-- Forgetting the oldest blocks moves the start. -/
theorem drop (h : Follows E base cs v) {k : Nat} (hk : k ≤ v.blocks.length) :
    Follows E base cs
      { v with start := v.start + k, blocks := v.blocks.drop k, stamps := v.stamps.drop k } where
  revision_le := h.revision_le
  reach := by
    have hreach := h.reach
    simp only [List.length_drop]
    omega
  stamps_length := by
    simp [h.stamps_length]
  stamp_le s hs := h.stamp_le s (List.mem_of_mem_drop hs)
  block_eq i s hs := by
    simp only [List.getElem?_drop] at hs ⊢
    rw [← h.block_eq (k + i) s hs, Nat.add_assoc]

/-- The document moves on; the copy still follows. -/
theorem more (h : Follows E base cs v) (c : γ) : Follows E base (cs ++ [c]) v where
  revision_le := by
    have hrev := h.revision_le
    simp only [List.length_append]
    omega
  reach := by
    rw [version_append E base cs [c] h.revision_le]
    exact h.reach
  stamps_length := h.stamps_length
  stamp_le s hs := by
    have hle := h.stamp_le s hs
    simp only [List.length_append]
    omega
  block_eq i s hs := by
    have hmem : s ∈ v.stamps := List.mem_of_getElem? hs
    rw [version_append E base cs [c] (max_le (h.stamp_le s hmem) h.revision_le)]
    exact h.block_eq i s hs

/-- A copy that has followed to the last revision is the document's window. -/
theorem agrees (h : Follows E base cs v) (hlast : v.revision = cs.length) {i : Nat}
    (hi : i < v.blocks.length) :
    v.blocks[i]? = (version E base cs cs.length)[v.start + i]? := by
  have hlen : i < v.stamps.length := by
    rw [h.stamps_length]
    exact hi
  have hs := List.getElem?_eq_getElem hlen
  have hle := h.stamp_le _ (List.getElem_mem hlen)
  rw [← h.block_eq i _ hs, max_eq_right (by omega), hlast]

end Follows

end Replica

end CopilotFleet
