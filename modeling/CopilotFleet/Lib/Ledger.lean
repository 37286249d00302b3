import Mathlib.Logic.Function.Basic
import Mathlib.Logic.Relation
import Mathlib.Data.List.Pairwise
import Mathlib.Data.List.Nodup

/-!
# Ledgers with a Write Buffer

A ledger numbers entries of many streams. An entry is admitted to a buffer
with a number above every number its stream has seen, the buffer is committed
as a whole, and what was committed is then handed over to a reader. A crash
loses the buffer and whatever was committed but not handed over. A stream can
be retired: its number stays, the identities of its entries go.

What a ledger is for are three promises. The reader sees the numbers of a
stream strictly increase, across crashes (`Sound.handed_ordered`). No two
entries that were committed or are buffered share a stream and a number
(`Sound.distinct`). And the identity of an entry, its stream, number and
content, stays what it was for as long as the ledger knows it and its stream
is not retired (`Moves.identity_kept`, `identity_crash`).

All of it rests on one invariant, `Sound`, that every move preserves: numbers
in the log lie at or below the watermark of their stream, and numbers in the
buffer above it.

## Main definitions

* `Entry`: An identity with its stream, number and content.
* `last`: The number of the last entry of a stream in a list.
* `Ledger`: Watermarks, log, kept identities, buffer, and what was handed over.
* `Ledger.ahead`: The watermark with the buffer counted.
* `Move`: What can happen to a ledger, short of a crash.
* `Sound`: The invariant.

## Theorems

* `Sound.move`: Every move preserves the invariant.
* `Sound.crash`: So does a crash.
* `Sound.handed_ordered`: The reader sees increasing numbers.
* `Sound.distinct`: No stream gives a number twice.
* `Sound.identity_of_mem`: What was committed or is buffered is known as what it is.
* `Moves.identity_kept`: Moves keep identities of streams that are not retired.
* `identity_crash`: A crash keeps what was committed.
-/

namespace CopilotFleet

namespace Ledgers

set_option linter.unusedSectionVars false

variable {ι σ κ : Type*}

/-- An identity with its stream, its number there and its content. -/
structure Entry (ι σ κ : Type*) where
  id : ι
  stream : σ
  sequence : Nat
  content : κ

/-- Entries of one stream have increasing numbers. -/
def Ordered (xs : List (Entry ι σ κ)) : Prop :=
  xs.Pairwise fun a b => a.stream = b.stream → a.sequence < b.sequence

variable [DecidableEq σ]

/-- The number of the last entry of a stream. -/
def last : List (Entry ι σ κ) → σ → Option Nat
  | [], _ => none
  | e :: rest, s => (last rest s).or (if e.stream = s then some e.sequence else none)

theorem last_append (xs ys : List (Entry ι σ κ)) (s : σ) :
    last (xs ++ ys) s = (last ys s).or (last xs s) := by
  induction xs with
  | nil => simp [last]
  | cons e rest ih => simp only [List.cons_append, last, ih, Option.or_assoc]

theorem last_eq_none {xs : List (Entry ι σ κ)} {s : σ} :
    last xs s = none ↔ ∀ e ∈ xs, e.stream ≠ s := by
  induction xs with
  | nil => simp [last]
  | cons e rest ih =>
      simp only [last, Option.or_eq_none_iff, ih, List.forall_mem_cons]
      by_cases he : e.stream = s
      · simp [he]
      · simp [he]

theorem mem_of_last {xs : List (Entry ι σ κ)} {s : σ} {n : Nat} (h : last xs s = some n) :
    ∃ e ∈ xs, e.stream = s ∧ e.sequence = n := by
  induction xs with
  | nil => simp [last] at h
  | cons e rest ih =>
      simp only [last, Option.or_eq_some_iff] at h
      rcases h with h | ⟨_, h⟩
      · rcases ih h with ⟨e', hmem, he'⟩
        exact ⟨e', List.mem_cons_of_mem e hmem, he'⟩
      · by_cases he : e.stream = s
        · rw [if_pos he, Option.some.injEq] at h
          exact ⟨e, List.mem_cons_self, he, h⟩
        · rw [if_neg he] at h
          cases h

/-- The last entry of a stream has its largest number. -/
theorem le_last {xs : List (Entry ι σ κ)} (hord : Ordered xs) {e : Entry ι σ κ} (he : e ∈ xs) :
    ∃ n, last xs e.stream = some n ∧ e.sequence ≤ n := by
  induction xs with
  | nil => cases he
  | cons e' rest ih =>
      have hord' := List.pairwise_cons.mp hord
      cases hrest : last rest e.stream with
      | some n =>
          refine ⟨n, by simp [last, hrest], ?_⟩
          rcases List.mem_cons.mp he with rfl | he
          · rcases mem_of_last hrest with ⟨e'', hmem, hstream, rfl⟩
            exact Nat.le_of_lt (hord'.1 e'' hmem hstream.symm)
          · rcases ih hord'.2 he with ⟨m, hm, hle⟩
            rw [hrest, Option.some.injEq] at hm
            omega
      | none =>
          rcases List.mem_cons.mp he with rfl | he
          · exact ⟨e.sequence, by simp [last, hrest], Nat.le_refl _⟩
          · exact absurd rfl (last_eq_none.mp hrest e he)

variable [DecidableEq ι]

/-- The state of a ledger. `rows` are the identities it still knows of what was
    committed, `outbox` what was committed and not yet handed over. -/
@[ext] structure Ledger (ι σ κ : Type*) where
  water : σ → Option Nat
  retired : σ → Prop
  rows : ι → Option (Entry ι σ κ)
  buffer : List (Entry ι σ κ)
  outbox : List (Entry ι σ κ)
  log : List (Entry ι σ κ)
  handed : List (Entry ι σ κ)

namespace Ledger

variable (L : Ledger ι σ κ)

/-- The watermark of a stream with the buffer counted. -/
def ahead (s : σ) : Option Nat := (last L.buffer s).or (L.water s)

/-- The entry in the buffer with an identity. -/
def buffered (id : ι) : Option (Entry ι σ κ) := L.buffer.find? fun e => e.id = id

/-- What the ledger knows an identity as. -/
def identity (id : ι) : Option (Entry ι σ κ) := (L.buffered id).or (L.rows id)

/-- A crash: the buffer is lost, and what was not handed over never will be. -/
def crash : Ledger ι σ κ := { L with buffer := [], outbox := [] }

end Ledger

open Ledger

/-- What can happen to a ledger. -/
inductive Move : Ledger ι σ κ → Ledger ι σ κ → Prop
  /-- A stream begins, at any number. -/
  | enroll (L : Ledger ι σ κ) (s : σ) (n : Nat) (hnew : L.water s = none) :
      Move L { L with water := Function.update L.water s (some n) }
  /-- A new identity is admitted, above the watermark. -/
  | enqueue (L : Ledger ι σ κ) (e : Entry ι σ κ) (n : Nat) (hid : L.identity e.id = none)
      (hahead : L.ahead e.stream = some n) (hn : n < e.sequence) :
      Move L { L with buffer := L.buffer ++ [e] }
  | commit (L : Ledger ι σ κ) (hout : L.outbox = []) :
      Move L { L with
        water := L.ahead
        rows := L.identity
        buffer := []
        outbox := L.buffer
        log := L.log ++ L.buffer }
  | hand (L : Ledger ι σ κ) :
      Move L { L with outbox := [], handed := L.handed ++ L.outbox }
  | retire (L : Ledger ι σ κ) (s : σ) :
      Move L { L with
        retired := fun t => t = s ∨ L.retired t
        rows := fun id => (L.rows id).filter fun e => e.stream ≠ s }

/-- Any number of moves. -/
abbrev Moves : Ledger ι σ κ → Ledger ι σ κ → Prop := Relation.ReflTransGen Move

/-- The invariant of a ledger. -/
structure Sound (L : Ledger ι σ κ) : Prop where
  row_id : ∀ id e, L.rows id = some e → e.id = id
  log_ordered : Ordered L.log
  log_below : ∀ e ∈ L.log, ∃ n, L.water e.stream = some n ∧ e.sequence ≤ n
  row_below : ∀ id e, L.rows id = some e → ∃ n, L.water e.stream = some n ∧ e.sequence ≤ n
  buffer_ordered : Ordered L.buffer
  buffer_above : ∀ e ∈ L.buffer, ∃ n, L.water e.stream = some n ∧ n < e.sequence
  buffer_nodup : (L.buffer.map Entry.id).Nodup
  buffer_new : ∀ e ∈ L.buffer, L.rows e.id = none
  log_kept : ∀ e ∈ L.log, ¬L.retired e.stream → L.rows e.id = some e
  handed_log : (L.handed ++ L.outbox).Sublist L.log

namespace Sound

variable {L : Ledger ι σ κ}

theorem handed_ordered (h : Sound L) : Ordered L.handed :=
  h.log_ordered.sublist ((List.sublist_append_left L.handed L.outbox).trans h.handed_log)

/-- Log and buffer together are ordered, since a watermark lies between them. -/
theorem all_ordered (h : Sound L) : Ordered (L.log ++ L.buffer) := by
  refine List.pairwise_append.mpr ⟨h.log_ordered, h.buffer_ordered, ?_⟩
  intro a ha b hb hstream
  rcases h.log_below a ha with ⟨n, hn, hle⟩
  rcases h.buffer_above b hb with ⟨m, hm, hlt⟩
  rw [hstream, hm, Option.some.injEq] at hn
  omega

/-- No stream gives one number to two entries. -/
theorem distinct (h : Sound L) :
    (L.log ++ L.buffer).Pairwise fun a b => ¬(a.stream = b.stream ∧ a.sequence = b.sequence) := by
  refine h.all_ordered.imp ?_
  intro a b hlt heq
  have := hlt heq.1
  omega

/-- Every number a stream has given lies at or below its watermark with the
    buffer counted. -/
theorem below_ahead (h : Sound L) {e : Entry ι σ κ} (he : e ∈ L.log ++ L.buffer) :
    ∃ n, L.ahead e.stream = some n ∧ e.sequence ≤ n := by
  unfold ahead
  rcases List.mem_append.mp he with he | he
  · rcases h.log_below e he with ⟨n, hn, hle⟩
    cases hlast : last L.buffer e.stream with
    | none => exact ⟨n, by simpa using hn, hle⟩
    | some m =>
        rcases mem_of_last hlast with ⟨e', hmem, hstream, rfl⟩
        rcases h.buffer_above e' hmem with ⟨n', hn', hlt⟩
        rw [hstream, hn, Option.some.injEq] at hn'
        exact ⟨e'.sequence, rfl, by omega⟩
  · rcases le_last h.buffer_ordered he with ⟨n, hn, hle⟩
    exact ⟨n, by rw [hn]; rfl, hle⟩

/-- The watermark never lies above what it is with the buffer counted. -/
theorem water_le_ahead (h : Sound L) {s : σ} {n : Nat} (hn : L.water s = some n) :
    ∃ m, L.ahead s = some m ∧ n ≤ m := by
  unfold ahead
  cases hlast : last L.buffer s with
  | none => exact ⟨n, by simpa using hn, Nat.le_refl _⟩
  | some m =>
      rcases mem_of_last hlast with ⟨e, hmem, rfl, rfl⟩
      rcases h.buffer_above e hmem with ⟨n', hn', hlt⟩
      rw [hn, Option.some.injEq] at hn'
      exact ⟨e.sequence, rfl, by omega⟩

theorem buffered_id {id : ι} {e : Entry ι σ κ} (h : L.buffered id = some e) :
    e ∈ L.buffer ∧ e.id = id :=
  ⟨List.mem_of_find?_eq_some h, by simpa using List.find?_some h⟩

theorem identity_id (h : Sound L) {id : ι} {e : Entry ι σ κ} (he : L.identity id = some e) :
    e.id = id := by
  unfold identity at he
  rcases Option.or_eq_some_iff.mp he with he | ⟨_, he⟩
  · exact (buffered_id he).2
  · exact h.row_id id e he

/-- A known identity belongs to a known stream. -/
theorem identity_below (h : Sound L) {id : ι} {e : Entry ι σ κ} (he : L.identity id = some e) :
    ∃ n, L.ahead e.stream = some n ∧ e.sequence ≤ n := by
  unfold identity at he
  rcases Option.or_eq_some_iff.mp he with he | ⟨_, he⟩
  · exact h.below_ahead (List.mem_append_right _ (buffered_id he).1)
  · rcases h.row_below id e he with ⟨n, hn, hle⟩
    rcases h.water_le_ahead hn with ⟨m, hm, hnm⟩
    exact ⟨m, hm, Nat.le_trans hle hnm⟩

/-- What is in the buffer is found there. -/
theorem buffered_of_mem (h : Sound L) {e : Entry ι σ κ} (he : e ∈ L.buffer) :
    L.buffered e.id = some e := by
  unfold buffered
  cases hfind : L.buffer.find? (fun e' => e'.id = e.id) with
  | none =>
      rw [List.find?_eq_none] at hfind
      exact absurd (hfind e he) (by simp)
  | some e' =>
      have hid : e'.id = e.id := by simpa using List.find?_some hfind
      rw [List.inj_on_of_nodup_map h.buffer_nodup (List.mem_of_find?_eq_some hfind) he hid]

/-- What was committed or is buffered is known as what it is, unless its stream is
    retired. -/
theorem identity_of_mem (h : Sound L) {e : Entry ι σ κ} (he : e ∈ L.log ++ L.buffer)
    (hlive : ¬L.retired e.stream) : L.identity e.id = some e := by
  unfold identity
  rcases List.mem_append.mp he with he | he
  · have hrow := h.log_kept e he hlive
    have hnone : L.buffered e.id = none := by
      unfold buffered
      rw [List.find?_eq_none]
      intro e' he' hid
      have hnew := h.buffer_new e' he'
      rw [of_decide_eq_true hid, hrow] at hnew
      cases hnew
    rw [hnone, Option.none_or, hrow]
  · rw [h.buffered_of_mem he, Option.some_or]

/-! ### The invariant is preserved -/

theorem enroll (h : Sound L) (s : σ) (n : Nat) (hnew : L.water s = none) :
    Sound { L with water := Function.update L.water s (some n) } := by
  -- A stream that is known is not the new one, so its watermark is unchanged.
  have hknown : ∀ t m, L.water t = some m →
      Function.update L.water s (some n) t = some m := by
    intro t m hm
    rw [Function.update_of_ne (by rintro rfl; rw [hnew] at hm; cases hm), hm]
  refine
    { h with
      log_below := fun e he => ?_
      row_below := fun id e he => ?_
      buffer_above := fun e he => ?_ }
  · rcases h.log_below e he with ⟨m, hm, hle⟩
    exact ⟨m, hknown _ m hm, hle⟩
  · rcases h.row_below id e he with ⟨m, hm, hle⟩
    exact ⟨m, hknown _ m hm, hle⟩
  · rcases h.buffer_above e he with ⟨m, hm, hlt⟩
    exact ⟨m, hknown _ m hm, hlt⟩

theorem enqueue (h : Sound L) (e : Entry ι σ κ) (n : Nat) (hid : L.identity e.id = none)
    (hahead : L.ahead e.stream = some n) (hn : n < e.sequence) :
    Sound { L with buffer := L.buffer ++ [e] } := by
  have hparts := Option.or_eq_none_iff.mp hid
  have hfresh : ∀ e' ∈ L.buffer, e'.id ≠ e.id := by
    intro e' he'
    simpa using List.find?_eq_none.mp hparts.1 e' he'
  refine
    { h with
      buffer_ordered := ?_
      buffer_above := ?_
      buffer_nodup := ?_
      buffer_new := ?_ }
  · refine List.pairwise_append.mpr ⟨h.buffer_ordered, List.pairwise_singleton _ _, ?_⟩
    intro a ha b hb hstream
    rw [List.mem_singleton] at hb
    subst hb
    rcases h.below_ahead (List.mem_append_right L.log ha) with ⟨m, hm, hle⟩
    rw [hstream, hahead, Option.some.injEq] at hm
    omega
  · intro e' he'
    rcases List.mem_append.mp he' with he' | he'
    · exact h.buffer_above e' he'
    · rw [List.mem_singleton] at he'
      subst he'
      -- The stream is known, or the buffer could not count for it.
      cases hwater : L.water e'.stream with
      | none =>
          unfold ahead at hahead
          rw [hwater, Option.or_none] at hahead
          rcases mem_of_last hahead with ⟨e'', hmem, hstream, _⟩
          rcases h.buffer_above e'' hmem with ⟨m, hm, _⟩
          rw [hstream, hwater] at hm
          cases hm
      | some m =>
          rcases h.water_le_ahead hwater with ⟨m', hm', hle⟩
          rw [hahead, Option.some.injEq] at hm'
          exact ⟨m, rfl, by omega⟩
  · rw [List.map_append, List.nodup_append]
    refine ⟨h.buffer_nodup, List.nodup_singleton _, ?_⟩
    intro a ha b hb hab
    rcases List.mem_map.mp ha with ⟨e', he', rfl⟩
    rw [List.map_singleton, List.mem_singleton] at hb
    exact hfresh e' he' (hab.trans hb)
  · intro e' he'
    rcases List.mem_append.mp he' with he' | he'
    · exact h.buffer_new e' he'
    · rw [List.mem_singleton] at he'
      rw [he']
      exact hparts.2

theorem commit (h : Sound L) (hout : L.outbox = []) :
    Sound
      { L with
        water := L.ahead
        rows := L.identity
        buffer := []
        outbox := L.buffer
        log := L.log ++ L.buffer } where
  row_id := fun _ _ he => h.identity_id he
  log_ordered := h.all_ordered
  log_below := fun _ he => h.below_ahead he
  row_below := fun _ _ he => h.identity_below he
  buffer_ordered := List.Pairwise.nil
  buffer_above := by simp
  buffer_nodup := List.nodup_nil
  buffer_new := by simp
  log_kept := fun _ he hlive => h.identity_of_mem he hlive
  handed_log := by
    have hsub := h.handed_log
    rw [hout, List.append_nil] at hsub
    exact hsub.append (List.Sublist.refl _)

theorem hand (h : Sound L) : Sound { L with outbox := [], handed := L.handed ++ L.outbox } :=
  { h with
    handed_log := by
      rw [List.append_nil]
      exact h.handed_log }

theorem retire (h : Sound L) (s : σ) :
    Sound
      { L with
        retired := fun t => t = s ∨ L.retired t
        rows := fun id => (L.rows id).filter fun e => e.stream ≠ s } := by
  have hrow : ∀ id e, (L.rows id).filter (fun e => e.stream ≠ s) = some e → L.rows id = some e :=
    fun id e he => (Option.filter_eq_some_iff.mp he).1
  refine
    { h with
      row_id := fun id e he => h.row_id id e (hrow id e he)
      row_below := fun id e he => h.row_below id e (hrow id e he)
      buffer_new := fun e he => ?_
      log_kept := fun e he hlive => ?_ }
  · simp [h.buffer_new e he]
  · have hstream : e.stream ≠ s := fun heq => hlive (.inl heq)
    simp only [h.log_kept e he fun hretired => hlive (.inr hretired)]
    simp [hstream]

theorem move {L' : Ledger ι σ κ} (h : Sound L) (hmove : Move L L') : Sound L' := by
  cases hmove with
  | enroll s n hnew => exact h.enroll s n hnew
  | enqueue e n hid hahead hn => exact h.enqueue e n hid hahead hn
  | commit hout => exact h.commit hout
  | hand => exact h.hand
  | retire s => exact h.retire s

theorem moves {L' : Ledger ι σ κ} (h : Sound L) (hmoves : Moves L L') : Sound L' := by
  induction hmoves with
  | refl => exact h
  | tail _ hmove ih => exact ih.move hmove

theorem crash (h : Sound L) : Sound L.crash :=
  { h with
    buffer_ordered := List.Pairwise.nil
    buffer_above := by simp [Ledger.crash]
    buffer_nodup := List.nodup_nil
    buffer_new := by simp [Ledger.crash]
    handed_log := by
      change (L.handed ++ []).Sublist L.log
      rw [List.append_nil]
      exact (List.sublist_append_left _ _).trans h.handed_log }

end Sound

/-! ### What persists -/

theorem Move.retired {L L' : Ledger ι σ κ} (hmove : Move L L') {s : σ} (hs : L.retired s) :
    L'.retired s := by
  cases hmove with
  | enroll => exact hs
  | enqueue => exact hs
  | commit => exact hs
  | hand => exact hs
  | retire t => exact .inr hs

theorem Moves.retired {L L' : Ledger ι σ κ} (hmoves : Moves L L') {s : σ} (hs : L.retired s) :
    L'.retired s := by
  induction hmoves with
  | refl => exact hs
  | tail _ hmove ih => exact hmove.retired ih

theorem Move.identity_kept {L L' : Ledger ι σ κ} (hmove : Move L L') {id : ι} {e : Entry ι σ κ}
    (he : L.identity id = some e) (hs : ¬L'.retired e.stream) : L'.identity id = some e := by
  cases hmove with
  | enroll s n hnew => exact he
  | enqueue e' n hid hahead hn =>
      -- The new entry has another identity.
      have hne : e'.id ≠ id := by
        rintro rfl
        rw [hid] at he
        cases he
      unfold identity buffered at he ⊢
      simp only [List.find?_append, List.find?_singleton, hne, decide_false, Bool.false_eq_true,
        if_false, Option.or_none]
      exact he
  | commit hout => exact he
  | hand => exact he
  | retire s =>
      have hstream : e.stream ≠ s := fun heq => hs (.inl heq)
      unfold identity at he ⊢
      rcases Option.or_eq_some_iff.mp he with hbuf | ⟨hbuf, hrow⟩
      · exact Option.or_eq_some_iff.mpr (.inl hbuf)
      · refine Option.or_eq_some_iff.mpr (.inr ⟨hbuf, ?_⟩)
        simp only [hrow]
        simp [hstream]

/-- Moves keep the identity of what is known, unless its stream is retired. -/
theorem Moves.identity_kept {L L' : Ledger ι σ κ} (hmoves : Moves L L') {id : ι}
    {e : Entry ι σ κ} (he : L.identity id = some e) (hs : ¬L'.retired e.stream) :
    L'.identity id = some e := by
  induction hmoves with
  | refl => exact he
  | tail _ hmove ih => exact hmove.identity_kept (ih fun hret => hs (hmove.retired hret)) hs

/-- A crash keeps the identity of what was committed. -/
theorem identity_crash {L : Ledger ι σ κ} {id : ι} {e : Entry ι σ κ} (he : L.rows id = some e) :
    L.crash.identity id = some e := by
  unfold identity buffered Ledger.crash
  simpa using he

end Ledgers

end CopilotFleet
