import CopilotFleet.Host.TranscriptProjection
import CopilotFleet.Lib.OrderedLog
import CopilotFleet.Lib.Table

/-!
# The Projections a Host Keeps

Each session's transcript folded into blocks and kept warm. A projection is
built from the stored events in batches, and other events are stored between
two batches of it. Once it is ready it is advanced by one event at a time, as
events are stored.

Two things tell that a projection is not what is stored. An event that is
applied behind the cursor of a build makes the build start over, and one behind
a ready projection drops it. A write nobody applied shows in the count of the
session's writes, which is compared when a page is asked for.

What is retained is counted in bytes, and past a limit the projections that
were used least recently are dropped.

## Main definitions

* `EventStore`: The stored events, each session's in order, and its writes.
* `EventStore.appendEvent`: Storing one event, if it is not there.
* `EventStore.listTranscriptRows`: The next transcript events past a sequence.
* `TranscriptProjections`: The projections that are ready and those being built.
* `apply`, `invalidate`, `clear`, `request`, `turn`: What happens to them.

## Theorems

* `transcriptOf_unseen`, `transcriptOf_next`: What a session's transcript sees of a new event.
* `upTo_past`: What a build has read does not change past its cursor.
* `oldest_spec`: The projection that is dropped was used least recently.
* `evict_less`, `evict_keeps`, `clear_ready`, `clear_builds`: What dropping leaves.
-/

namespace CopilotFleet

namespace Transcript

open Utf16

/-! ### The stored events -/

/-- Pickers, usage and resume bookkeeping are no part of a transcript. -/
def isTranscriptEvent (event : SessionEvent) : Bool :=
  match event.payload with
  | .commands => false
  | .config => false
  | .usage => false
  | .agentSession => false
  | _ => true

/-- The event log. Its rows are kept in the order they are read in. -/
structure EventStore where
  rows : List SessionEvent
  writes : Table Text Nat
  sorted : rows.Pairwise fun a b => a.sequence ≤ b.sequence
  unique : rows.Pairwise fun a b => ¬(a.sessionId = b.sessionId ∧ a.sequence = b.sequence)
  positive : ∀ row ∈ rows, 0 < row.sequence

structure AppendResult where
  stored : Bool
  skipped : Nat
  conflict : Bool

namespace EventStore

def empty : EventStore where
  rows := []
  writes := .empty
  sorted := List.Pairwise.nil
  unique := List.Pairwise.nil
  positive _ h := absurd h List.not_mem_nil

/-- How many times this process has written a session's events. -/
def eventWrites (store : EventStore) (sessionId : Text) : Nat :=
  (store.writes.get sessionId).getD 0

def noteEventWrite (writes : Table Text Nat) (sessionId : Text) : Table Text Nat :=
  writes.set sessionId ((writes.get sessionId).getD 0 + 1)

def eventsOf (store : EventStore) (sessionId : Text) : List SessionEvent :=
  store.rows.filter fun row => row.sessionId = sessionId

/-- Of a session's events, those of its transcript. -/
def transcriptOf (store : EventStore) (sessionId : Text) : List SessionEvent :=
  store.rows.filter fun row => row.sessionId = sessionId && isTranscriptEvent row

def maxEventSequence (store : EventStore) (sessionId : Text) : Nat :=
  ((store.eventsOf sessionId).map (·.sequence)).foldl max 0

/-- The row an event cannot stand beside. -/
def duplicate (store : EventStore) (event : SessionEvent) : Option SessionEvent :=
  store.rows.find? fun row => row.eventId = event.eventId ||
    (row.sessionId = event.sessionId && row.sequence = event.sequence)

theorem unique_insert {store : EventStore} {event : SessionEvent}
    (h : store.duplicate event = none) :
    (OrderedLog.insert SessionEvent.sequence event store.rows).Pairwise fun a b =>
      ¬(a.sessionId = b.sessionId ∧ a.sequence = b.sequence) := by
  refine OrderedLog.pairwise_insert_of _ (fun a b hab hba => hab ⟨hba.1.symm, hba.2.symm⟩)
    store.unique fun row hrow hsame => ?_
  have hnot := List.find?_eq_none.mp h row hrow
  simp [hsame.1, hsame.2] at hnot

/-- The store with an event that it does not have. -/
def inserted (store : EventStore) (event : SessionEvent) (hpositive : 0 < event.sequence)
    (h : store.duplicate event = none) : EventStore where
  rows := OrderedLog.insert SessionEvent.sequence event store.rows
  writes := noteEventWrite store.writes event.sessionId
  sorted := OrderedLog.pairwise_insert _ event store.sorted
  unique := unique_insert h
  positive row hrow := by
    rcases (OrderedLog.mem_insert _).mp hrow with rfl | hrow
    · exact hpositive
    · exact store.positive row hrow

def appendEvent (store : EventStore) (event : SessionEvent) (hpositive : 0 < event.sequence) :
    EventStore × AppendResult :=
  match h : store.duplicate event with
  | some row => (store, { stored := false, skipped := 0, conflict := decide (row ≠ event) })
  | none =>
      (store.inserted event hpositive h,
        { stored := true
          skipped := event.sequence - (store.maxEventSequence event.sessionId + 1)
          conflict := false })

/-- A session's rows are deleted, which is one more write of it. -/
def deleteSessionRecords (store : EventStore) (sessionId : Text) : EventStore where
  rows := store.rows.filter fun row => row.sessionId ≠ sessionId
  writes := noteEventWrite store.writes sessionId
  sorted := store.sorted.filter _
  unique := store.unique.filter _
  positive row hrow := store.positive row (List.mem_of_mem_filter hrow)

/-- Transcript rows in sequence order. -/
def listTranscriptRows (store : EventStore) (sessionId : Text) (afterSequence limit : Nat) :
    List SessionEvent :=
  OrderedLog.batch SessionEvent.sequence afterSequence limit (store.transcriptOf sessionId)

end EventStore

/-! ### The projections -/

/-- A projection with the write count it reflects, the newest sequence folded in order,
    and what it retains. -/
structure ReadyProjection where
  projection : Projection
  writes : Nat
  maxSequence : Nat
  bytes : Nat
  used : Nat

/-- A build between two batches. -/
structure Build where
  cursor : Nat
  lateFill : Bool
  projector : TranscriptProjector

structure TranscriptProjectionLimits where
  batchSize : Nat
  maxBytes : Int

def blockBytes (block : TerminalBlock) : Nat :=
  (block.text.length + (block.body.map List.length).getD 0 +
    (block.detail.map List.length).getD 0) * 2 + 200

def changeBytes : TranscriptChange → Nat
  | .append _ append => append.length * 2
  | .block _ block => blockBytes block

def blocksBytes (blocks : List TerminalBlock) : Nat := (blocks.map blockBytes).sum

structure TranscriptProjections where
  ready : Table Text ReadyProjection
  builds : Table Text Build
  clock : Nat
  bytes : Int
  /-- The sessions whose copies browsers were told to fetch again. -/
  resets : List Text

namespace TranscriptProjections

def empty : TranscriptProjections where
  ready := .empty
  builds := .empty
  clock := 0
  bytes := 0
  resets := []

/-- Drop one projection and tell the browsers. -/
def invalidate (t : TranscriptProjections) (sessionId : Text) : TranscriptProjections :=
  match t.ready.get sessionId with
  | none => t
  | some p =>
      { t with
        ready := t.ready.erase sessionId
        bytes := t.bytes - p.bytes
        resets := t.resets ++ [sessionId] }

/-- The one of two that was used earlier, unless it must be kept. -/
def earlier (keep : Text) (found : Option (Text × ReadyProjection))
    (entry : Text × ReadyProjection) : Option (Text × ReadyProjection) :=
  if entry.1 = keep then found
  else
    match found with
    | none => some entry
    | some best => if entry.2.used < best.2.used then some entry else some best

/-- The projection used least recently, of those that need not be kept. -/
def oldest (t : TranscriptProjections) (keep : Text) : Option (Text × ReadyProjection) :=
  t.ready.entries.foldl (earlier keep) none

/-- Drop projections while too much is retained. Each round drops one. -/
def evictRounds (limits : TranscriptProjectionLimits) (keep : Text) :
    Nat → TranscriptProjections → TranscriptProjections
  | 0, t => t
  | rounds + 1, t =>
      if t.bytes ≤ limits.maxBytes || t.ready.size ≤ 1 then t
      else
        match t.oldest keep with
        | none => t
        | some found => evictRounds limits keep rounds (t.invalidate found.1)

def evict (limits : TranscriptProjectionLimits) (t : TranscriptProjections) (keep : Text) :
    TranscriptProjections :=
  evictRounds limits keep t.ready.size t

/-- Forget everything, for when the event log itself was replaced. -/
def clear (t : TranscriptProjections) : TranscriptProjections :=
  let dropped := (t.ready.entries.map Prod.fst).foldl invalidate t
  { dropped with builds := dropped.builds.mapValues fun _ build => { build with lateFill := true } }

variable (parseFleetControl : Text → Option FleetControl) (limits : TranscriptProjectionLimits)

/-- One event folded into a ready projection, in order. -/
def advance (t : TranscriptProjections) (p : ReadyProjection) (event : SessionEvent) :
    Option TranscriptUpdate × TranscriptProjections :=
  let folded := p.projection.advance parseFleetControl event
  match folded.1 with
  | none =>
      (none, { t with
        ready := t.ready.set event.sessionId {
          p with
          projection := folded.2
          writes := p.writes + 1
          maxSequence := event.sequence } })
  | some update =>
      let grown := changeBytes update.change
      (some update, evict limits { t with
        ready := t.ready.set event.sessionId {
          projection := folded.2
          writes := p.writes + 1
          maxSequence := event.sequence
          bytes := p.bytes + grown
          used := t.clock + 1 }
        bytes := t.bytes + grown
        clock := t.clock + 1 } event.sessionId)

/-- Advance a ready projection by one stored event. One that comes late drops it. -/
def apply (t : TranscriptProjections) (event : SessionEvent) :
    Option TranscriptUpdate × TranscriptProjections :=
  match t.builds.get event.sessionId with
  | some build =>
      if isTranscriptEvent event && event.sequence ≤ build.cursor then
        (none, { t with builds := t.builds.set event.sessionId { build with lateFill := true } })
      else (none, t)
  | none =>
      match t.ready.get event.sessionId with
      | none => (none, t)
      | some p =>
          if event.sequence < p.maxSequence then
            let counted := { t with
              ready := t.ready.set event.sessionId { p with writes := p.writes + 1 } }
            if isTranscriptEvent event then (none, counted.invalidate event.sessionId)
            else (none, counted)
          else t.advance parseFleetControl limits p event

/-- A build that has read nothing. -/
def started : Build where
  cursor := 0
  lateFill := false
  projector := TranscriptProjector.new

/-- The next batch of a build. -/
def readBatch (build : Build) (rows : List SessionEvent) : Build :=
  { build with
    projector := rows.foldl (fun (p : TranscriptProjector) event =>
      (p.apply parseFleetControl event).2) build.projector
    cursor := OrderedLog.cursor SessionEvent.sequence build.cursor rows }

/-- A build that reached the end becomes a projection. -/
def finish (t : TranscriptProjections) (store : EventStore) (sessionId generation : Text)
    (build : Build) : TranscriptProjections :=
  let bytes := blocksBytes build.projector.blocks
  evict limits { t with
    builds := t.builds.erase sessionId
    ready := t.ready.set sessionId {
      projection := { generation, revision := 0, projector := build.projector }
      writes := store.eventWrites sessionId
      maxSequence := build.cursor
      bytes
      used := t.clock + 1 }
    bytes := t.bytes + bytes
    clock := t.clock + 1 } sessionId

/-- A build from here to where it yields or ends. Where something was stored behind it, it
    starts over at once; what it reads then is not interrupted before it yields. -/
def turn (t : TranscriptProjections) (store : EventStore) (sessionId generation : Text)
    (build : Build) : TranscriptProjections :=
  let rows := store.listTranscriptRows sessionId build.cursor limits.batchSize
  let next := readBatch parseFleetControl build rows
  if limits.batchSize ≤ rows.length then { t with builds := t.builds.set sessionId next }
  else if next.lateFill then
    let again := store.listTranscriptRows sessionId 0 limits.batchSize
    let restarted := readBatch parseFleetControl started again
    if limits.batchSize ≤ again.length then { t with builds := t.builds.set sessionId restarted }
    else t.finish limits store sessionId generation restarted
  else t.finish limits store sessionId generation next

/-- A page is asked for: a projection that is what is stored is used, any other is dropped,
    and where none is left a build starts, unless one is under way. -/
def request (t : TranscriptProjections) (store : EventStore) (sessionId generation : Text) :
    TranscriptProjections :=
  match t.ready.get sessionId with
  | some p =>
      if store.eventWrites sessionId = p.writes then
        { t with
          ready := t.ready.set sessionId { p with used := t.clock + 1 }
          clock := t.clock + 1 }
      else
        let dropped := t.invalidate sessionId
        match dropped.builds.get sessionId with
        | some _ => dropped
        | none => dropped.turn parseFleetControl limits store sessionId generation started
  | none =>
      match t.builds.get sessionId with
      | some _ => t
      | none => t.turn parseFleetControl limits store sessionId generation started

end TranscriptProjections

/-! ### What a session's log sees of a write -/

namespace EventStore

theorem eventWrites_note (writes : Table Text Nat) (sessionId id : Text) :
    ((noteEventWrite writes sessionId).get id).getD 0 =
      (writes.get id).getD 0 + if id = sessionId then 1 else 0 := by
  unfold noteEventWrite
  rw [Table.get_set]
  by_cases h : id = sessionId
  · rw [if_pos h, if_pos h, h]
    rfl
  · rw [if_neg h, if_neg h]
    rfl

/-- A session's transcript has one event for a number, in order. -/
theorem transcriptOf_sorted (store : EventStore) (sessionId : Text) :
    (store.transcriptOf sessionId).Pairwise fun a b => a.sequence < b.sequence := by
  unfold transcriptOf
  refine List.pairwise_filter.mpr ((store.sorted.and store.unique).imp ?_)
  intro a b hab ha hb
  rw [Bool.and_eq_true, decide_eq_true_eq] at ha hb
  have hne : a.sequence ≠ b.sequence := fun h => hab.2 ⟨ha.1.trans hb.1.symm, h⟩
  have hle := hab.1
  omega

theorem mem_transcriptOf {store : EventStore} {sessionId : Text} {row : SessionEvent} :
    row ∈ store.transcriptOf sessionId ↔
      row ∈ store.rows ∧ row.sessionId = sessionId ∧ isTranscriptEvent row = true := by
  unfold transcriptOf
  rw [List.mem_filter, Bool.and_eq_true, decide_eq_true_eq]

variable {store : EventStore} {event : SessionEvent} (hpositive : 0 < event.sequence)
variable (h : store.duplicate event = none)

theorem eventWrites_inserted (sessionId : Text) :
    (store.inserted event hpositive h).eventWrites sessionId =
      store.eventWrites sessionId + if sessionId = event.sessionId then 1 else 0 :=
  eventWrites_note store.writes event.sessionId sessionId

/-- An event of another session, or of no transcript, is not seen. -/
theorem transcriptOf_unseen {sessionId : Text}
    (hunseen : (decide (event.sessionId = sessionId) && isTranscriptEvent event) = false) :
    (store.inserted event hpositive h).transcriptOf sessionId = store.transcriptOf sessionId :=
  OrderedLog.filter_insert_neg _
    (p := fun row : SessionEvent => decide (row.sessionId = sessionId) && isTranscriptEvent row)
    hunseen store.rows

/-- Past the newest, an event is the next. -/
theorem transcriptOf_next (htranscript : isTranscriptEvent event = true)
    (hnewest : ∀ row ∈ store.transcriptOf event.sessionId, row.sequence ≤ event.sequence) :
    (store.inserted event hpositive h).transcriptOf event.sessionId =
      store.transcriptOf event.sessionId ++ [event] := by
  refine OrderedLog.filter_insert_last _ (by simp [htranscript]) store.sorted fun row hrow hp => ?_
  have hseen : row.sessionId = event.sessionId ∧ isTranscriptEvent row = true := by
    simpa using hp
  have hle := hnewest row (mem_transcriptOf.mpr ⟨hrow, hseen⟩)
  -- Two events of one number would be one row.
  have hnot := List.find?_eq_none.mp h row hrow
  simp only [Bool.or_eq_true, Bool.and_eq_true, decide_eq_true_eq, not_or, not_and] at hnot
  have hne := hnot.2 hseen.1
  omega

/-- Past a cursor, an event changes nothing of what was read up to it. -/
theorem upTo_past {cursor : Nat} (hpast : cursor < event.sequence) (sessionId : Text) :
    OrderedLog.upTo SessionEvent.sequence cursor
        ((store.inserted event hpositive h).transcriptOf sessionId) =
      OrderedLog.upTo SessionEvent.sequence cursor (store.transcriptOf sessionId) := by
  unfold OrderedLog.upTo transcriptOf
  rw [List.filter_filter, List.filter_filter]
  exact OrderedLog.filter_insert_neg _ (by simp [Nat.not_le.mpr hpast]) store.rows

end EventStore

/-! ### What dropping leaves -/

namespace TranscriptProjections

/-- Only projections are gone, and the rest are as they were. -/
structure Less (less more : TranscriptProjections) : Prop where
  ready : ∀ id p, less.ready.get id = some p → more.ready.get id = some p
  builds : less.builds = more.builds

theorem Less.refl (t : TranscriptProjections) : Less t t := ⟨fun _ _ h => h, rfl⟩

theorem Less.trans {a b c : TranscriptProjections} (hab : Less a b) (hbc : Less b c) : Less a c :=
  ⟨fun id p h => hbc.ready id p (hab.ready id p h), hab.builds.trans hbc.builds⟩

theorem invalidate_less (t : TranscriptProjections) (sessionId : Text) :
    Less (t.invalidate sessionId) t := by
  unfold invalidate
  cases t.ready.get sessionId with
  | none => exact .refl t
  | some p =>
      refine ⟨fun id q hq => ?_, rfl⟩
      rw [Table.get_erase] at hq
      by_cases hid : id = sessionId
      · rw [if_pos hid] at hq
        cases hq
      · rw [if_neg hid] at hq
        exact hq

theorem invalidate_get (t : TranscriptProjections) (sessionId : Text) :
    (t.invalidate sessionId).ready.get sessionId = none := by
  unfold invalidate
  cases h : t.ready.get sessionId with
  | none => exact h
  | some p => exact Table.get_erase_self _ _

/-- What was found among the projections seen so far. -/
structure Oldest (keep : Text) (seen : List (Text × ReadyProjection))
    (best : Option (Text × ReadyProjection)) : Prop where
  found : ∀ b, best = some b → b ∈ seen ∧ b.1 ≠ keep ∧
    ∀ entry ∈ seen, entry.1 ≠ keep → b.2.used ≤ entry.2.used
  missing : best = none → ∀ entry ∈ seen, entry.1 = keep

theorem Oldest.next {keep : Text} {seen : List (Text × ReadyProjection)}
    {best : Option (Text × ReadyProjection)} (h : Oldest keep seen best)
    (entry : Text × ReadyProjection) :
    Oldest keep (seen ++ [entry]) (earlier keep best entry) := by
  have hsnoc : ∀ {e : Text × ReadyProjection}, e ∈ seen ++ [entry] ↔ e ∈ seen ∨ e = entry := by
    intro e
    rw [List.mem_append, List.mem_singleton]
  unfold earlier
  by_cases hkeep : entry.1 = keep
  · -- It is passed over.
    rw [if_pos hkeep]
    refine ⟨fun b hb => ?_, fun hnone e he => ?_⟩
    · have hold := h.found b hb
      refine ⟨hsnoc.mpr (.inl hold.1), hold.2.1, fun e he hne => ?_⟩
      rcases hsnoc.mp he with he | rfl
      · exact hold.2.2 e he hne
      · exact absurd hkeep hne
    · rcases hsnoc.mp he with he | rfl
      · exact h.missing hnone e he
      · exact hkeep
  rw [if_neg hkeep]
  cases best with
  | none =>
      refine ⟨fun b hb => ?_, fun hnone => by cases hnone⟩
      rw [← Option.some.inj hb]
      refine ⟨hsnoc.mpr (.inr rfl), hkeep, fun e he hne => ?_⟩
      rcases hsnoc.mp he with he | rfl
      · exact absurd (h.missing rfl e he) hne
      · exact Nat.le_refl _
  | some best =>
      have hold := h.found best rfl
      -- An older entry replaces the best; a younger one does not.
      by_cases hused : entry.2.used < best.2.used
      · refine ⟨fun b hb => ?_, fun hnone => ?_⟩
        · simp only [if_pos hused, Option.some.injEq] at hb
          rw [← hb]
          refine ⟨hsnoc.mpr (.inr rfl), hkeep, fun e he hne => ?_⟩
          rcases hsnoc.mp he with he | rfl
          · exact Nat.le_trans (Nat.le_of_lt hused) (hold.2.2 e he hne)
          · exact Nat.le_refl _
        · simp [hused] at hnone
      · refine ⟨fun b hb => ?_, fun hnone => ?_⟩
        · simp only [if_neg hused, Option.some.injEq] at hb
          rw [← hb]
          refine ⟨hsnoc.mpr (.inl hold.1), hold.2.1, fun e he hne => ?_⟩
          rcases hsnoc.mp he with he | rfl
          · exact hold.2.2 e he hne
          · exact Nat.not_lt.mp hused
        · simp [hused] at hnone

theorem oldest_spec (t : TranscriptProjections) (keep : Text) :
    Oldest keep t.ready.entries (t.oldest keep) := by
  have hfold : ∀ (rest seen : List (Text × ReadyProjection))
      (best : Option (Text × ReadyProjection)), Oldest keep seen best →
        Oldest keep (seen ++ rest) (rest.foldl (earlier keep) best) := by
    intro rest
    induction rest with
    | nil =>
        intro seen best h
        rw [List.append_nil]
        exact h
    | cons entry rest ih =>
        intro seen best h
        have hnext := ih _ _ (h.next entry)
        rw [List.append_assoc] at hnext
        exact hnext
  refine hfold t.ready.entries [] none ⟨fun b hb => ?_, fun _ entry hentry => ?_⟩
  · cases hb
  · cases hentry

theorem invalidate_get_ne (t : TranscriptProjections) {sessionId id : Text} (h : id ≠ sessionId) :
    (t.invalidate sessionId).ready.get id = t.ready.get id := by
  unfold invalidate
  cases t.ready.get sessionId with
  | none => rfl
  | some p => exact Table.get_erase_ne _ h

theorem evictRounds_less (limits : TranscriptProjectionLimits) (keep : Text) (rounds : Nat)
    (t : TranscriptProjections) : Less (evictRounds limits keep rounds t) t := by
  induction rounds generalizing t with
  | zero => exact .refl t
  | succ rounds ih =>
      unfold evictRounds
      split
      · exact .refl t
      · split
        · exact .refl t
        · rename_i found _
          exact (ih _).trans (invalidate_less t found.1)

theorem evict_less (limits : TranscriptProjectionLimits) (t : TranscriptProjections) (keep : Text) :
    Less (evict limits t keep) t :=
  evictRounds_less limits keep _ t

/-- The projection that is asked for is not dropped for its own sake. -/
theorem evict_keeps (limits : TranscriptProjectionLimits) (t : TranscriptProjections)
    (keep : Text) : (evict limits t keep).ready.get keep = t.ready.get keep := by
  have hrounds : ∀ (rounds : Nat) (t : TranscriptProjections),
      (evictRounds limits keep rounds t).ready.get keep = t.ready.get keep := by
    intro rounds
    induction rounds with
    | zero => exact fun t => rfl
    | succ rounds ih =>
        intro t
        unfold evictRounds
        split
        · rfl
        · cases hfound : t.oldest keep with
          | none => rfl
          | some found =>
              have hne := ((t.oldest_spec keep).found found hfound).2.1
              exact (ih _).trans (t.invalidate_get_ne hne.symm)
  exact hrounds _ t

theorem foldl_invalidate_less (ids : List Text) (t : TranscriptProjections) :
    Less (ids.foldl invalidate t) t := by
  induction ids generalizing t with
  | nil => exact .refl t
  | cons id rest ih => exact (ih _).trans (invalidate_less t id)

theorem foldl_invalidate_get {id : Text} (ids : List Text) (t : TranscriptProjections)
    (h : id ∈ ids) : (ids.foldl invalidate t).ready.get id = none := by
  induction ids generalizing t with
  | nil => cases h
  | cons first rest ih =>
      rcases List.mem_cons.mp h with rfl | h
      · rw [Option.eq_none_iff_forall_ne_some]
        intro p hp
        have hfirst := (foldl_invalidate_less rest (t.invalidate id)).ready id p hp
        rw [invalidate_get] at hfirst
        cases hfirst
      · exact ih _ h

/-- Nothing is ready once everything is forgotten, and every build starts over. -/
theorem clear_ready (t : TranscriptProjections) (id : Text) : t.clear.ready.get id = none := by
  unfold clear
  by_cases hmem : id ∈ t.ready.entries.map Prod.fst
  · exact foldl_invalidate_get _ t hmem
  · rw [Option.eq_none_iff_forall_ne_some]
    intro p hp
    have hp := (foldl_invalidate_less _ t).ready id p hp
    exact hmem (List.mem_map_of_mem ((t.ready.mem_entries_iff id p).mpr hp))

theorem clear_builds {t : TranscriptProjections} {id : Text} {build : Build}
    (h : t.clear.builds.get id = some build) : build.lateFill = true := by
  unfold clear at h
  rw [Table.get_mapValues, Option.map_eq_some_iff] at h
  rcases h with ⟨old, _, rfl⟩
  rfl

end TranscriptProjections

end Transcript

end CopilotFleet
