import Mathlib.Data.List.Basic
import Mathlib.Data.List.Pairwise
import CopilotFleet.Lib.Run

/-!
# The Node's Event Outbox

Session events raised while the Host cannot be reached wait in an outbox until
a connection takes them. A Host that acknowledges is shown a frozen batch, as
often as connections break, and names the batch when it has it. An older Host
is sent the events one by one, and an event that was sent is gone. Events that
arrive meanwhile queue behind, and past the capacity the oldest of those go and
only their number is kept.

The books of a run tell one event from an equal one by when it was added, so
that a multiset of them can hide neither a duplicate nor a loss. They write
down every transmission, and the drop counts the two results report: an
acknowledgement's and an older Host's flush's. The `dropped` a batch carries is
a description of the batch and is shown with it, not reported.

An older Host's flush reports what stands in the outbox when it begins, and
clears it only with the batch that carries it. A flush that a failed send cuts
short leaves that batch in flight, and the next flush reports it again.
`Careful` is what a flush has to meet for its report to be final.

## Main definitions

* `EventOutbox`: Pending events, their drop count, and the batch in flight.
* `EventOutbox.flush`: The destructive flush for Hosts that do not acknowledge.
* `Books`: An outbox with the history of everything that went through it.
* `Careful`: A flush that leaves no drop count behind.

## Theorems

* `drain_spec`: What one pass over a batch sends and what it leaves.
* `flush_spec`: What a flush sends and what it leaves.
* `flush_settles`: The flushes that leave no drop count behind.
* `sound_step`: Every operation keeps the books.
* `accounted_iff`: The reports are exact where every flush was careful.
-/

namespace CopilotFleet

namespace Outbox

variable {ι α : Type*}

/-- A frozen prefix of the queue, under the id an acknowledgement names. -/
structure OutboxBatch (ι α : Type*) where
  flushId : ι
  events : List α
  dropped : Nat
  deriving DecidableEq

/-- What an older Host's flush returns. -/
structure OutboxFlush where
  sent : Nat
  dropped : Nat
  deriving DecidableEq

structure OutboxAcknowledgement where
  acknowledged : Bool
  removed : Nat
  dropped : Nat
  deriving DecidableEq

structure EventOutbox (ι α : Type*) where
  pending : List α := []
  pendingDropped : Nat := 0
  inFlight : Option (OutboxBatch ι α) := none
  deriving DecidableEq

namespace EventOutbox

variable (o : EventOutbox ι α)

/-- The events of the batch in flight. -/
def flying : List α := (o.inFlight.map OutboxBatch.events).getD []

/-- The drop count the batch in flight carries. -/
def flyingDropped : Nat := (o.inFlight.map OutboxBatch.dropped).getD 0

/-- Every event the outbox holds, in the order it will leave. -/
def held : List α := o.flying ++ o.pending

def size : Nat := o.flying.length + o.pending.length

def droppedCount : Nat := o.flyingDropped + o.pendingDropped

/-- The queue shifted until it fits the capacity, and the count that goes with it. -/
def shiftOver (capacity : Nat) : List α → Nat → List α × Nat
  | [], dropped => ([], dropped)
  | e :: rest, dropped =>
      if (e :: rest).length > capacity then shiftOver capacity rest (dropped + 1)
      else (e :: rest, dropped)

def add (capacity : Nat) (event : α) : EventOutbox ι α :=
  let shifted := shiftOver capacity (o.pending ++ [event]) o.pendingDropped
  { o with pending := shifted.1, pendingDropped := shifted.2 }

/-- Freezes what is pending, under a fresh id, where no batch is in flight. -/
def prepareFlush (includeEmpty : Bool) (fresh : ι) :
    Option (OutboxBatch ι α) × EventOutbox ι α :=
  match o.inFlight with
  | some batch => (some batch, o)
  | none =>
      if o.pending.isEmpty && !includeEmpty then (none, o)
      else
        let batch := { flushId := fresh, events := o.pending, dropped := o.pendingDropped }
        (some batch, { pending := [], pendingDropped := 0, inFlight := some batch })

def acknowledge [DecidableEq ι] (flushId : ι) : OutboxAcknowledgement × EventOutbox ι α :=
  match o.inFlight with
  | none => ({ acknowledged := false, removed := 0, dropped := 0 }, o)
  | some batch =>
      if batch.flushId ≠ flushId then ({ acknowledged := false, removed := 0, dropped := 0 }, o)
      else
        ({ acknowledged := true, removed := batch.events.length, dropped := batch.dropped },
          { o with inFlight := none })

/-- The events sent until a send fails: how many there are now, and what is left. The
    `n`-th send of a flush is answered by `send n`. -/
def drain (send : Nat → Bool) : Nat → List α → Nat × List α
  | sent, [] => (sent, [])
  | sent, e :: rest => if send sent then drain send (sent + 1) rest else (sent, e :: rest)

@[simp] theorem flying_none (es : List α) (d : Nat) :
    (⟨es, d, none⟩ : EventOutbox ι α).flying = [] := rfl

@[simp] theorem flying_some (es : List α) (d : Nat) (batch : OutboxBatch ι α) :
    (⟨es, d, some batch⟩ : EventOutbox ι α).flying = batch.events := rfl

@[simp] theorem flyingDropped_none (es : List α) (d : Nat) :
    (⟨es, d, none⟩ : EventOutbox ι α).flyingDropped = 0 := rfl

@[simp] theorem flyingDropped_some (es : List α) (d : Nat) (batch : OutboxBatch ι α) :
    (⟨es, d, some batch⟩ : EventOutbox ι α).flyingDropped = batch.dropped := rfl

/-- What one more pass of a flush can still take up. -/
def passes : Nat := o.pending.length + (if o.inFlight.isSome then 1 else 0)

theorem prepareFlush_flying {batch : OutboxBatch ι α} (h : o.inFlight = some batch)
    (includeEmpty : Bool) (fresh : ι) :
    o.prepareFlush includeEmpty fresh = (some batch, o) := by
  simp only [prepareFlush, h]

theorem passes_prepareFlush {fresh : ι} {batch : OutboxBatch ι α}
    (h : (o.prepareFlush false fresh).1 = some batch) :
    ({ (o.prepareFlush false fresh).2 with inFlight := none } : EventOutbox ι α).passes <
      o.passes := by
  cases hf : o.inFlight with
  | some flying =>
      rw [o.prepareFlush_flying hf]
      simp [passes, hf]
  | none =>
      simp only [prepareFlush, hf] at h ⊢
      by_cases hp : o.pending = []
      · simp [hp] at h
      · have hlength := List.length_pos_of_ne_nil hp
        simpa [hp, passes, hf] using hlength

/-- Batch after batch, until one is cut short or nothing is left to freeze. -/
def flushLoop (send : Nat → Bool) (fresh : ι) (o : EventOutbox ι α) (sent : Nat) :
    Nat × EventOutbox ι α :=
  match _h : (o.prepareFlush false fresh).1 with
  | none => (sent, o)
  | some batch =>
      let drained := drain send sent batch.events
      let prepared := (o.prepareFlush false fresh).2
      if drained.2.isEmpty then
        flushLoop send fresh { prepared with inFlight := none } drained.1
      else (drained.1, { prepared with inFlight := some { batch with events := drained.2 } })
  termination_by o.passes
  decreasing_by exact passes_prepareFlush o _h

def flush (send : Nat → Bool) (fresh : ι) : OutboxFlush × EventOutbox ι α :=
  let flushed := flushLoop send fresh o 0
  ({ sent := flushed.1, dropped := o.droppedCount }, flushed.2)

/-- What a reconnect shows an acknowledging Host: the batch from its first event until a
    send fails. The batch itself stays as it is. -/
def flushReconnectOutbox (send : Nat → Bool) : OutboxFlush :=
  { sent := (drain send 0 o.flying).1, dropped := o.flyingDropped }

/-! ### What the operations do to the queue -/

theorem shiftOver_spec (capacity : Nat) (es : List α) (dropped : Nat) :
    shiftOver capacity es dropped =
      (es.drop (es.length - capacity), dropped + (es.length - capacity)) := by
  induction es generalizing dropped with
  | nil => simp [shiftOver]
  | cons e rest ih =>
      by_cases hover : (e :: rest).length > capacity
      · have hstep : (e :: rest).length - capacity = (rest.length - capacity) + 1 := by
          simp only [List.length_cons] at hover ⊢
          omega
        rw [shiftOver, if_pos hover, ih, hstep, List.drop_succ_cons]
        simp only [Prod.mk.injEq, true_and]
        omega
      · have hfits : (e :: rest).length - capacity = 0 := by omega
        rw [shiftOver, if_neg hover, hfits, List.drop_zero, Nat.add_zero]

/-- A pass sends a prefix: every send of it succeeded, and the one after it failed. -/
theorem drain_spec (send : Nat → Bool) (es : List α) (sent : Nat) :
    ∃ n, n ≤ es.length ∧ drain send sent es = (sent + n, es.drop n) ∧
      (∀ i < n, send (sent + i) = true) ∧ (n < es.length → send (sent + n) = false) := by
  induction es generalizing sent with
  | nil => exact ⟨0, Nat.le_refl _, rfl, by omega, by simp⟩
  | cons e rest ih =>
      by_cases hsend : send sent = true
      · rcases ih (sent + 1) with ⟨n, hn, hdrain, hsent, hstop⟩
        refine ⟨n + 1, Nat.succ_le_succ hn, ?_, ?_, ?_⟩
        · rw [drain, if_pos hsend, hdrain, List.drop_succ_cons]
          simp only [Prod.mk.injEq, and_true]
          omega
        · intro i hi
          cases i with
          | zero => exact hsend
          | succ i =>
              rw [show sent + (i + 1) = sent + 1 + i by omega]
              exact hsent i (by omega)
        · intro hlt
          rw [show sent + (n + 1) = sent + 1 + n by omega]
          exact hstop (by simpa using hlt)
      · refine ⟨0, Nat.zero_le _, ?_, by omega, ?_⟩
        · simp [drain, hsend]
        · intro _
          simpa using hsend

theorem prepareFlush_empty (hflying : o.inFlight = none) (hpending : o.pending = [])
    (fresh : ι) : o.prepareFlush false fresh = (none, o) := by
  simp [prepareFlush, hflying, hpending]

theorem prepareFlush_freeze (hflying : o.inFlight = none) (hpending : o.pending ≠ [])
    (includeEmpty : Bool) (fresh : ι) :
    o.prepareFlush includeEmpty fresh =
      (some ⟨fresh, o.pending, o.pendingDropped⟩,
        ⟨[], 0, some ⟨fresh, o.pending, o.pendingDropped⟩⟩) := by
  simp [prepareFlush, hflying, hpending]

theorem flushLoop_empty {send : Nat → Bool} {fresh : ι} (hflying : o.inFlight = none)
    (hpending : o.pending = []) (sent : Nat) : flushLoop send fresh o sent = (sent, o) := by
  rw [flushLoop, o.prepareFlush_empty hflying hpending]

/-- Freezing what is pending and sending the batch is one pass. -/
theorem flushLoop_freeze {send : Nat → Bool} {fresh : ι} (hflying : o.inFlight = none)
    (hpending : o.pending ≠ []) (sent : Nat) :
    flushLoop send fresh o sent =
      flushLoop send fresh ⟨[], 0, some ⟨fresh, o.pending, o.pendingDropped⟩⟩ sent := by
  rw [flushLoop, flushLoop, o.prepareFlush_freeze hflying hpending, prepareFlush_flying _ rfl]

theorem flushLoop_batch {send : Nat → Bool} {fresh : ι} {batch : OutboxBatch ι α}
    (hflying : o.inFlight = some batch) (sent : Nat) :
    flushLoop send fresh o sent =
      if (drain send sent batch.events).2.isEmpty then
        flushLoop send fresh { o with inFlight := none } (drain send sent batch.events).1
      else ((drain send sent batch.events).1,
        { o with inFlight := some { batch with events := (drain send sent batch.events).2 } }) := by
  rw [flushLoop, o.prepareFlush_flying hflying]

/-- The drop count still standing after a flush that sent `n` events: a batch cut short
    keeps its own, and where it was the first the pending one with it. -/
def leftover (n : Nat) : Nat :=
  if n < o.flying.length then o.droppedCount
  else if n = o.size ∧ o.pending ≠ [] then 0
  else o.pendingDropped

/-- What a flush does that began with the sends from `sent` on. -/
def Flushed (send : Nat → Bool) (sent n : Nat) (result : Nat × EventOutbox ι α) : Prop :=
  n ≤ o.size ∧ result.1 = sent + n ∧ result.2.held = o.held.drop n ∧
    result.2.droppedCount = o.leftover n ∧
    (∀ i < n, send (sent + i) = true) ∧ (n < o.size → send (sent + n) = false)

/-- A flush without a batch in flight freezes what is pending, once. -/
theorem flushLoop_idle (send : Nat → Bool) (fresh : ι) (hflying : o.inFlight = none)
    (sent : Nat) : ∃ n, o.Flushed send sent n (flushLoop send fresh o sent) := by
  have hnone : o.flying = [] := by simp [flying, hflying]
  by_cases hpending : o.pending = []
  · refine ⟨0, Nat.zero_le _, ?_⟩
    rw [o.flushLoop_empty hflying hpending]
    simp [held, size, leftover, droppedCount, hnone, hpending, flyingDropped, hflying]
  · rcases drain_spec send o.pending sent with ⟨n, hn, hdrain, hsent, hstop⟩
    refine ⟨n, by simpa [size, hnone] using hn, ?_⟩
    rw [o.flushLoop_freeze hflying hpending, flushLoop_batch _ rfl, hdrain]
    by_cases hall : n = o.pending.length
    · -- The batch went out whole, so the outbox is empty and its counts are gone.
      rw [if_pos (by simp [hall]), flushLoop_empty _ rfl rfl]
      refine ⟨rfl, ?_, ?_, hsent, ?_⟩
      · simp [held, hnone, hall]
      · simp [leftover, hnone, size, hpending, hall, droppedCount]
      · simp [size, hnone, hall]
    · have hcut : n < o.pending.length := by omega
      rw [if_neg (by simpa using hcut)]
      refine ⟨rfl, ?_, ?_, hsent, ?_⟩
      · simp [held, hnone]
      · simp [leftover, hnone, size, hall, droppedCount]
      · intro _
        exact hstop hcut

/-- A flush sends a prefix of what the outbox holds, whatever is frozen and when. -/
theorem flushLoop_spec (send : Nat → Bool) (fresh : ι) (sent : Nat) :
    ∃ n, o.Flushed send sent n (flushLoop send fresh o sent) := by
  cases hflying : o.inFlight with
  | none => exact o.flushLoop_idle send fresh hflying sent
  | some batch =>
      have hevents : o.flying = batch.events := by simp [flying, hflying]
      rcases drain_spec send batch.events sent with ⟨n, hn, hdrain, hsent, hstop⟩
      rw [o.flushLoop_batch hflying, hdrain]
      by_cases hall : n = batch.events.length
      · -- The batch is through, and the flush goes on as one that had none.
        rw [if_pos (by simp [hall])]
        rcases flushLoop_idle { o with inFlight := none } send fresh rfl (sent + n) with
          ⟨m, hm, hcount, hheld, hleft, hsent', hstop'⟩
        have hm' : m ≤ o.pending.length := by simpa [size] using hm
        refine ⟨n + m, ?_, ?_, ?_, ?_, ?_, ?_⟩
        · simp only [size, hevents]
          omega
        · rw [hcount]
          omega
        · rw [hheld]
          simp [held, hevents, hall]
        · rw [hleft]
          simp only [leftover, size, hevents, hall, flying_none, droppedCount,
            flyingDropped_none, List.length_nil, Nat.not_lt_zero, Nat.zero_add, if_false,
            Nat.add_right_inj, show ¬batch.events.length + m < batch.events.length by omega]
        · intro i hi
          by_cases hlt : i < n
          · exact hsent i hlt
          · rw [show sent + i = sent + n + (i - n) by omega]
            exact hsent' (i - n) (by omega)
        · intro hlt
          rw [← Nat.add_assoc]
          refine hstop' ?_
          simp only [size, hevents, flying_none, List.length_nil] at hlt ⊢
          omega
      · -- A send failed, and the batch stays in flight from that event on.
        have hcut : n < batch.events.length := by omega
        rw [if_neg (by simpa using hcut)]
        refine ⟨n, ?_, rfl, ?_, ?_, hsent, ?_⟩
        · simp only [size, hevents]
          omega
        · simp [held, hevents, List.drop_append_of_le_length hn]
        · simp [leftover, hevents, hcut, droppedCount, flyingDropped, hflying]
        · intro _
          exact hstop hcut

theorem flush_spec (send : Nat → Bool) (fresh : ι) :
    o.Flushed send 0 (o.flush send fresh).1.sent
      ((o.flush send fresh).1.sent, (o.flush send fresh).2) := by
  rcases o.flushLoop_spec send fresh 0 with ⟨n, hn, hcount, hrest⟩
  have hsent : (o.flush send fresh).1.sent = n := by
    change (flushLoop send fresh o 0).1 = n
    rw [hcount, Nat.zero_add]
  rw [hsent]
  exact ⟨hn, (Nat.zero_add n).symm, hrest⟩

/-- A flush leaves no drop count: nothing was dropped, or the count goes with a batch that
    is sent whole. -/
def Settles (send : Nat → Bool) : Prop :=
  o.droppedCount = 0 ∨
    (o.pendingDropped = 0 ∧ ∀ i < o.flying.length, send i = true) ∨
    (o.pending ≠ [] ∧ ∀ i < o.size, send i = true)

theorem flush_settles (send : Nat → Bool) (fresh : ι) :
    (o.flush send fresh).2.droppedCount = 0 ↔ o.Settles send := by
  rcases o.flush_spec send fresh with ⟨hn, -, -, hleft, hsent, hstop⟩
  generalize (o.flush send fresh).1.sent = n at hn hleft hsent hstop
  simp only [Nat.zero_add] at hsent hstop
  change (o.flush send fresh).2.droppedCount = _ at hleft
  rw [hleft, leftover, Settles]
  by_cases hcut : n < o.flying.length
  · -- The first batch was cut short, so no pass over it was complete.
    have hfail : send n = false := hstop (by simp only [size]; omega)
    rw [if_pos hcut]
    constructor
    · exact Or.inl
    · rintro (h | ⟨-, h⟩ | ⟨-, h⟩)
      · exact h
      · simp [h n hcut] at hfail
      · simp [h n (by simp only [size]; omega)] at hfail
  · rw [if_neg hcut]
    by_cases hall : n = o.size ∧ o.pending ≠ []
    · rw [if_pos hall]
      exact ⟨fun _ => Or.inr (Or.inr ⟨hall.2, hall.1 ▸ hsent⟩), fun _ => rfl⟩
    · rw [if_neg hall]
      constructor
      · intro h
        exact Or.inr (Or.inl ⟨h, fun i hi => hsent i (by omega)⟩)
      · rintro (h | ⟨h, -⟩ | ⟨hpending, h⟩)
        · simp only [droppedCount] at h
          omega
        · exact h
        · have hlt : n < o.size := Nat.lt_of_le_of_ne hn fun he => hall ⟨he, hpending⟩
          simp [h n hlt] at hstop
          omega

end EventOutbox

/-! ### The books of a run -/

/-- What can happen to an outbox. The id a new batch would get is drawn with it, and each
    send of a pass is answered for itself. -/
inductive Operation (ι α : Type*) where
  | add (event : α)
  | prepareFlush (includeEmpty : Bool) (fresh : ι)
  | transmit (send : Nat → Bool)
  | acknowledge (flushId : ι)
  | flush (send : Nat → Bool) (fresh : ι)

/-- An outbox and everything that went through it, each event with its place among the
    events added. -/
structure Books (ι α : Type*) where
  outbox : EventOutbox ι (α × Nat) := {}
  added : List (α × Nat) := []
  acknowledged : List (α × Nat) := []
  sent : List (α × Nat) := []
  dropped : List (α × Nat) := []
  transmissions : List (α × Nat) := []
  reported : Nat := 0

namespace Books

variable [DecidableEq ι] (capacity : Nat)

def step (b : Books ι α) : Operation ι α → Books ι α
  | .add event =>
      let queue := b.outbox.pending ++ [(event, b.added.length)]
      let outbox := b.outbox.add capacity (event, b.added.length)
      { b with
        outbox := outbox
        added := b.added ++ [(event, b.added.length)]
        dropped := b.dropped ++ queue.take (queue.length - outbox.pending.length) }
  | .prepareFlush includeEmpty fresh =>
      { b with outbox := (b.outbox.prepareFlush includeEmpty fresh).2 }
  | .transmit send =>
      let shown := b.outbox.flushReconnectOutbox send
      { b with transmissions := b.transmissions ++ b.outbox.flying.take shown.sent }
  | .acknowledge flushId =>
      let answer := b.outbox.acknowledge flushId
      { b with
        outbox := answer.2
        acknowledged := b.acknowledged ++ b.outbox.flying.take answer.1.removed
        reported := b.reported + answer.1.dropped }
  | .flush send fresh =>
      let flushed := b.outbox.flush send fresh
      let gone := b.outbox.held.take flushed.1.sent
      { b with
        outbox := flushed.2
        sent := b.sent ++ gone
        transmissions := b.transmissions ++ gone
        reported := b.reported + flushed.1.dropped }

/-- A transmission repeats an earlier one, or its event was added after every event
    transmitted before it. -/
def InOrder (before : List (α × Nat)) (e : α × Nat) : Prop :=
  e ∈ before ∨ ∀ x ∈ before, x.2 < e.2

/-- What every operation keeps. -/
structure Sound (b : Books ι α) : Prop where
  conserved : b.added.Perm (b.acknowledged ++ b.sent ++ b.outbox.held ++ b.dropped)
  numbered : ∀ e ∈ b.added, e.2 < b.added.length
  sorted : b.outbox.held.Pairwise (·.2 < ·.2)
  taken : ∀ e ∈ b.transmissions, e ∈ b.added
  order : Run.Each InOrder b.transmissions
  ahead : ∀ e ∈ b.outbox.held, InOrder b.transmissions e

variable {b : Books ι α}

omit [DecidableEq ι] in
/-- The next events of a queue in order are sent in order, and the rest stays ahead. -/
theorem order_append {log es rest : List (α × Nat)}
    (hsorted : (es ++ rest).Pairwise (·.2 < ·.2)) (horder : Run.Each InOrder log)
    (hahead : ∀ e ∈ es ++ rest, InOrder log e) :
    Run.Each InOrder (log ++ es) ∧ ∀ e ∈ es ++ rest, InOrder (log ++ es) e := by
  induction es generalizing log with
  | nil => exact ⟨by simpa using horder, by simpa using hahead⟩
  | cons e es ih =>
      have hlater := (List.pairwise_cons.mp hsorted).1
      have hsent : Run.Each InOrder (log ++ [e]) :=
        Run.each_snoc.mpr ⟨horder, hahead e List.mem_cons_self⟩
      have hahead' : ∀ y ∈ es ++ rest, InOrder (log ++ [e]) y := by
        intro y hy
        rcases hahead y (List.mem_cons_of_mem e hy) with hmem | hlt
        · exact Or.inl (List.mem_append_left [e] hmem)
        · right
          intro x hx
          rcases List.mem_append.mp hx with hx | hx
          · exact hlt x hx
          · rw [List.mem_singleton.mp hx]
            exact hlater y hy
      rcases ih (List.pairwise_cons.mp hsorted).2 hsent hahead' with ⟨horder', hrest⟩
      rw [List.append_assoc, List.singleton_append] at horder' hrest
      refine ⟨horder', fun y hy => ?_⟩
      rcases List.mem_cons.mp hy with rfl | hy
      · exact Or.inl (by simp)
      · exact hrest y hy

omit [DecidableEq ι] in
theorem mem_added (h : b.Sound) {e : α × Nat} (he : e ∈ b.outbox.held) : e ∈ b.added := by
  rw [h.conserved.mem_iff]
  simp [he]

omit [DecidableEq ι] in
/-- Transmitting a prefix of what is held keeps the log in order. -/
theorem Sound.transmit (h : b.Sound) (n : Nat) :
    Run.Each InOrder (b.transmissions ++ b.outbox.held.take n) ∧
      (∀ e ∈ b.transmissions ++ b.outbox.held.take n, e ∈ b.added) ∧
      ∀ e ∈ b.outbox.held, InOrder (b.transmissions ++ b.outbox.held.take n) e := by
  have hsplit := List.take_append_drop n b.outbox.held
  rcases order_append (by rw [hsplit]; exact h.sorted) h.order (by rw [hsplit]; exact h.ahead)
    with ⟨horder, hahead⟩
  refine ⟨horder, fun e he => ?_, by rw [hsplit] at hahead; exact hahead⟩
  rcases List.mem_append.mp he with he | he
  · exact h.taken e he
  · exact mem_added h (List.mem_of_mem_take he)

theorem sound_add (h : b.Sound) (event : α) : (b.step capacity (.add event)).Sound := by
  classical
  have hshift := EventOutbox.shiftOver_spec capacity
    (b.outbox.pending ++ [(event, b.added.length)]) b.outbox.pendingDropped
  generalize hq : b.outbox.pending ++ [(event, b.added.length)] = queue at hshift
  have hpending : (b.outbox.add capacity (event, b.added.length)).pending =
      queue.drop (queue.length - capacity) := by
    simp only [EventOutbox.add, hq, hshift]
  have hdropped : queue.length - (queue.drop (queue.length - capacity)).length =
      queue.length - capacity := by
    rw [List.length_drop]
    omega
  have hheld : (b.outbox.add capacity (event, b.added.length)).held =
      b.outbox.flying ++ queue.drop (queue.length - capacity) := by
    rw [← hpending]
    rfl
  -- What the outbox held, with the new event behind it, is what all of it comes from.
  have hsub : (b.outbox.flying ++ queue.drop (queue.length - capacity)).Sublist
      (b.outbox.held ++ [(event, b.added.length)]) := by
    rw [EventOutbox.held, List.append_assoc, hq]
    exact (List.drop_sublist _ _).append_left _
  have hnew : ∀ e ∈ b.added, e.2 < b.added.length := h.numbered
  refine ⟨?_, ?_, ?_, ?_, h.order, ?_⟩
  · rw [List.perm_iff_count]
    intro a
    have hold := List.perm_iff_count.mp h.conserved a
    have hqueue : List.count a b.outbox.pending +
        List.count a [(event, b.added.length)] = List.count a queue := by
      rw [← hq, List.count_append]
    have hparts := congrArg (List.count a)
      (List.take_append_drop (queue.length - capacity) queue)
    simp only [EventOutbox.held, List.count_append] at hold hparts
    simp only [step, hq, hheld, hpending, hdropped, List.count_append]
    omega
  · intro e he
    rcases List.mem_append.mp he with he | he
    · have := hnew e he
      simp only [step, List.length_append, List.length_singleton]
      omega
    · rw [List.mem_singleton.mp he]
      simp [step]
  · change (b.outbox.add capacity (event, b.added.length)).held.Pairwise _
    rw [hheld]
    refine List.Pairwise.sublist hsub (List.pairwise_append.mpr ⟨h.sorted, by simp, ?_⟩)
    intro x hx y hy
    rw [List.mem_singleton.mp hy]
    exact hnew x (mem_added h hx)
  · exact fun e he => List.mem_append_left _ (h.taken e he)
  · intro e he
    change e ∈ (b.outbox.add capacity (event, b.added.length)).held at he
    rw [hheld] at he
    rcases List.mem_append.mp (hsub.subset he) with he | he
    · exact h.ahead e he
    · right
      intro x hx
      rw [List.mem_singleton.mp he]
      exact hnew x (h.taken x hx)

omit [DecidableEq ι] in
/-- Events that leave from the head of the queue, to either side of the books. -/
theorem Sound.leave {b' : Books ι α} (h : b.Sound) (n : Nat) (hadded : b'.added = b.added)
    (hdropped : b'.dropped = b.dropped)
    (hheld : b'.outbox.held = b.outbox.held.drop n)
    (hgone : (b'.acknowledged ++ b'.sent).Perm
      (b.acknowledged ++ b.sent ++ b.outbox.held.take n))
    (horder : Run.Each InOrder b'.transmissions)
    (htaken : ∀ e ∈ b'.transmissions, e ∈ b.added)
    (hahead : ∀ e ∈ b.outbox.held, InOrder b'.transmissions e) : b'.Sound := by
  classical
  refine ⟨?_, ?_, ?_, ?_, horder, ?_⟩
  · rw [List.perm_iff_count]
    intro a
    have hold := List.perm_iff_count.mp h.conserved a
    have hmoved := List.perm_iff_count.mp hgone a
    have hparts := congrArg (List.count a) (List.take_append_drop n b.outbox.held)
    simp only [List.count_append] at hold hmoved hparts
    simp only [hadded, hdropped, hheld, List.count_append]
    omega
  · rw [hadded]
    exact h.numbered
  · rw [hheld]
    exact h.sorted.sublist (List.drop_sublist _ _)
  · rw [hadded]
    exact htaken
  · rw [hheld]
    exact fun e he => hahead e (List.mem_of_mem_drop he)

omit [DecidableEq ι] in
theorem held_prepareFlush (o : EventOutbox ι α) (includeEmpty : Bool) (fresh : ι) :
    (o.prepareFlush includeEmpty fresh).2.held = o.held ∧
      (o.prepareFlush includeEmpty fresh).2.droppedCount = o.droppedCount := by
  cases hflying : o.inFlight with
  | some batch =>
      rw [o.prepareFlush_flying hflying]
      exact ⟨rfl, rfl⟩
  | none =>
      simp only [EventOutbox.prepareFlush, hflying]
      by_cases hempty : (o.pending.isEmpty && !includeEmpty) = true
      · rw [if_pos hempty]
        exact ⟨rfl, rfl⟩
      · rw [if_neg hempty]
        simp [EventOutbox.held, EventOutbox.droppedCount, EventOutbox.flying,
          EventOutbox.flyingDropped, hflying]

/-- An acknowledgement takes the batch it names off the queue and reports its drop count,
    and does nothing where no such batch is in flight. -/
theorem acknowledge_spec (o : EventOutbox ι α) (flushId : ι) :
    (∃ batch, o.inFlight = some batch ∧ batch.flushId = flushId ∧
        o.acknowledge flushId =
          (⟨true, batch.events.length, batch.dropped⟩, { o with inFlight := none })) ∨
      ((∀ batch, o.inFlight = some batch → batch.flushId ≠ flushId) ∧
        o.acknowledge flushId = (⟨false, 0, 0⟩, o)) := by
  cases hflying : o.inFlight with
  | none =>
      refine Or.inr ⟨fun batch h => ?_, by simp [EventOutbox.acknowledge, hflying]⟩
      cases h
  | some batch =>
      by_cases hid : batch.flushId = flushId
      · exact Or.inl ⟨batch, rfl, hid, by simp [EventOutbox.acknowledge, hflying, hid]⟩
      · refine Or.inr ⟨fun other h => ?_, by simp [EventOutbox.acknowledge, hflying, hid]⟩
        rw [← Option.some.inj h]
        exact hid

theorem sound_step (h : b.Sound) (op : Operation ι α) : (b.step capacity op).Sound := by
  cases op with
  | add event => exact sound_add capacity h event
  | prepareFlush includeEmpty fresh =>
      refine h.leave 0 rfl rfl ?_ ?_ h.order h.taken h.ahead
      · exact (held_prepareFlush b.outbox includeEmpty fresh).1
      · simp [step]
  | transmit send =>
      -- What a reconnect shows is a prefix of the batch, so of all that is held.
      rcases EventOutbox.drain_spec send b.outbox.flying 0 with ⟨n, hn, hdrain, -, -⟩
      have hshown : b.outbox.flying.take (b.outbox.flushReconnectOutbox send).sent =
          b.outbox.held.take n := by
        simp [EventOutbox.flushReconnectOutbox, hdrain, EventOutbox.held,
          List.take_append_of_le_length hn]
      rcases h.transmit n with ⟨horder, htaken, hahead⟩
      rw [← hshown] at horder htaken hahead
      exact h.leave 0 rfl rfl rfl (by simp [step]) horder htaken hahead
  | acknowledge flushId =>
      rcases acknowledge_spec b.outbox flushId with ⟨batch, hflying, -, hack⟩ | ⟨-, hack⟩
      · have hevents : b.outbox.flying = batch.events := by
          simp [EventOutbox.flying, hflying]
        refine h.leave batch.events.length rfl rfl ?_ ?_ h.order h.taken h.ahead
        · simp [step, hack, EventOutbox.held, hevents]
        · simp only [step, hack, EventOutbox.held, hevents, List.take_left, List.take_length]
          rw [List.append_assoc, List.append_assoc]
          exact List.perm_append_comm.append_left _
      · exact h.leave 0 rfl rfl (by simp [step, hack]) (by simp [step, hack]) h.order h.taken
          h.ahead
  | flush send fresh =>
      rcases b.outbox.flush_spec send fresh with ⟨-, -, hheld, -⟩
      rcases h.transmit (b.outbox.flush send fresh).1.sent with ⟨horder, htaken, hahead⟩
      exact h.leave _ rfl rfl hheld (by simp [step]) horder htaken hahead

theorem sound_run (ops : List (Operation ι α)) : (Run.final (step capacity) {} ops).Sound := by
  refine Run.invariant (step capacity) Sound (fun b op h => sound_step capacity h op) ops {} ?_
  refine ⟨List.Perm.refl _, ?_, List.Pairwise.nil, ?_, Run.each_nil _, ?_⟩
  all_goals
    intro e he
    cases he

/-! ### The counts reported -/

/-- The drops reported, and those still to report. -/
def accounted (b : Books ι α) : Nat := b.reported + b.outbox.droppedCount

/-- No flush stops short of a batch with a drop count in it. -/
def Careful (b : Books ι α) : Operation ι α → Prop
  | .flush send _ => b.outbox.Settles send
  | _ => True

/-- The account grows by what is dropped, and beyond that by the count a flush reports and
    leaves standing. -/
theorem accounted_step (b : Books ι α) (op : Operation ι α) :
    ∃ again, (b.step capacity op).accounted + b.dropped.length =
        b.accounted + (b.step capacity op).dropped.length + again ∧
      (again = 0 ↔ Careful b op) := by
  cases op with
  | add event =>
      refine ⟨0, ?_, by simp [Careful]⟩
      have hshift := EventOutbox.shiftOver_spec capacity
        (b.outbox.pending ++ [(event, b.added.length)]) b.outbox.pendingDropped
      simp only [step, accounted, EventOutbox.droppedCount, EventOutbox.add, hshift,
        EventOutbox.flyingDropped, List.length_append, List.length_take, List.length_drop,
        List.length_singleton]
      omega
  | prepareFlush includeEmpty fresh =>
      refine ⟨0, ?_, by simp [Careful]⟩
      simp only [step, accounted, (held_prepareFlush b.outbox includeEmpty fresh).2, Nat.add_zero]
  | transmit send => exact ⟨0, rfl, by simp [Careful]⟩
  | acknowledge flushId =>
      refine ⟨0, ?_, by simp [Careful]⟩
      rcases acknowledge_spec b.outbox flushId with ⟨batch, hflying, -, hack⟩ | ⟨-, hack⟩
      · have hcount : b.outbox.flyingDropped = batch.dropped := by
          simp [EventOutbox.flyingDropped, hflying]
        simp only [step, accounted, hack, EventOutbox.droppedCount, hcount,
          EventOutbox.flyingDropped_none]
        omega
      · simp only [step, accounted, hack, Nat.add_zero]
  | flush send fresh =>
      refine ⟨(b.outbox.flush send fresh).2.droppedCount, ?_, b.outbox.flush_settles send fresh⟩
      simp only [step, accounted, EventOutbox.flush]
      omega

theorem accounted_iff (ops : List (Operation ι α)) (b : Books ι α)
    (h : b.dropped.length ≤ b.accounted) :
    (Run.final (step capacity) b ops).accounted =
        (Run.final (step capacity) b ops).dropped.length ↔
      b.accounted = b.dropped.length ∧ Run.Admits (step capacity) Careful b ops := by
  induction ops generalizing b with
  | nil => simp [Run.Admits]
  | cons op rest ih =>
      rcases accounted_step capacity b op with ⟨again, hstep, hcareful⟩
      rw [Run.final_cons, ih (b.step capacity op) (by omega), Run.Admits, ← hcareful]
      -- What ran ahead once is never taken back.
      constructor
      · rintro ⟨heq, hrest⟩
        exact ⟨by omega, by omega, hrest⟩
      · rintro ⟨heq, hzero, hrest⟩
        exact ⟨by omega, hrest⟩

/-- The events the adds of a run brought, in their order. -/
def addedEvents : List (Operation ι α) → List α
  | [] => []
  | .add event :: rest => event :: addedEvents rest
  | _ :: rest => addedEvents rest

theorem added_run (ops : List (Operation ι α)) (b : Books ι α) :
    (Run.final (step capacity) b ops).added =
      b.added ++ (addedEvents ops).zipIdx b.added.length := by
  induction ops generalizing b with
  | nil => simp [addedEvents]
  | cons op rest ih =>
      rw [Run.final_cons, ih]
      cases op with
      | add event => simp [step, addedEvents]
      | prepareFlush includeEmpty fresh => rfl
      | transmit send => rfl
      | acknowledge flushId => rfl
      | flush send fresh => rfl

/-- In every run the events added are those acknowledged, sent, in flight, pending and
    dropped, first transmissions leave in the order added, an acknowledgement takes the
    batch it names and nothing else, and the drop counts reported or still to report are
    the number dropped exactly where every flush was careful. -/
theorem outbox_conserves_events (ops : List (Operation ι α)) :
    let b := Run.final (step capacity) {} ops
    ((addedEvents ops).zipIdx.Perm
        (b.acknowledged ++ b.sent ++ b.outbox.flying ++ b.outbox.pending ++ b.dropped) ∧
      (∀ e ∈ b.transmissions, e ∈ (addedEvents ops).zipIdx) ∧
      Run.Each InOrder b.transmissions) ∧
    (∀ flushId,
      (∀ batch, b.outbox.inFlight = some batch → batch.flushId = flushId →
        b.outbox.acknowledge flushId =
            (⟨true, batch.events.length, batch.dropped⟩, { b.outbox with inFlight := none }) ∧
          (b.step capacity (.acknowledge flushId)).acknowledged =
            b.acknowledged ++ batch.events) ∧
      ((∀ batch, b.outbox.inFlight = some batch → batch.flushId ≠ flushId) →
        b.outbox.acknowledge flushId = (⟨false, 0, 0⟩, b.outbox))) ∧
    (b.reported + b.outbox.droppedCount = b.dropped.length ↔
      Run.Admits (step capacity) Careful {} ops) := by
  intro b
  have hsound : b.Sound := sound_run capacity ops
  have hadded : b.added = (addedEvents ops).zipIdx := by
    rw [added_run capacity ops {}]
    rfl
  refine ⟨⟨?_, ?_, hsound.order⟩, fun flushId => ⟨?_, ?_⟩, ?_⟩
  · rw [← hadded]
    simpa only [EventOutbox.held, List.append_assoc] using hsound.conserved
  · rw [← hadded]
    exact hsound.taken
  · intro batch hflying hid
    rcases acknowledge_spec b.outbox flushId with ⟨other, hother, -, hack⟩ | ⟨hnone, -⟩
    · cases hflying.symm.trans hother
      refine ⟨hack, ?_⟩
      simp [step, hack, EventOutbox.flying, hflying]
    · exact absurd hid (hnone batch hflying)
  · intro hnone
    rcases acknowledge_spec b.outbox flushId with ⟨batch, hflying, hid, -⟩ | ⟨-, hack⟩
    · exact absurd hid (hnone batch hflying)
    · exact hack
  · have hiff := accounted_iff capacity ops {} (Nat.zero_le _)
    exact hiff.trans (and_iff_right rfl)

/-- One event is dropped, one send fails, and the next flush reports the same drop again. -/
def twiceReported : List (Operation Nat Nat) :=
  [.add 1, .add 2, .flush (fun _ => false) 0, .flush (fun _ => true) 1]

theorem drop_reported_twice :
    let b := Run.final (step 1) {} twiceReported
    b.outbox = {} ∧ b.dropped.length = 1 ∧ b.reported = 2 := by
  decide +kernel

end Books

end Outbox

end CopilotFleet
