import CopilotFleet.Lib.Ledger
import CopilotFleet.Node.SessionJournal

/-!
# The Session Journal as a Ledger

What the journal does to sequences and identities, told apart from how: each
session is a stream of a ledger, the pending events are its buffer, the rows of
the tables its identities, and the newest call that waits for the observer
holds its outbox.

The link between the two is `Linked`. It carries the invariant of the ledger,
and beyond it what the code relies on to be one: that tables keep their rows
under their own keys, that the buffered watermarks are those of the buffer, and
that a call which waits finds what it left.

A piece of a call either gives up, with an error and nothing else changed
(`Halted`), or goes on, so every function that is made of such pieces comes with
a rule that takes it apart (`writing_elim` and its like).

## Main definitions

* `ledger`: The journal, seen as a ledger.
* `Db.Like`, `Db.Refreshes`: Tables with the same watermarks and identities.
* `Linked`: The link.
* `Reaches`: Some moves of the ledger that keep the link.

## Theorems

* `commitBatch_ok`: What a committed buffer leaves in the tables.
* `Linked.like`, `Linked.enroll`, `Linked.retire`: What calls do to the tables.
* `Linked.buffer`, `Linked.flushed`: What they do to the buffer.
-/

namespace CopilotFleet

namespace Journal

open Utf16 Ledgers

section

variable (platform : Platform)

/-! ### The journal as a ledger -/

/-- An event as an entry of its session. -/
def entryOf (event : SessionEvent) : Entry Text Text EventIdentity where
  id := event.eventId
  stream := event.sessionId
  sequence := event.sequence
  content := eventDigest platform event

/-- The watermark of a session, enabled or retired. -/
def Db.water (db : Db) (sessionId : Text) : Option Nat :=
  ((db.stored sessionId).map StoredSession.highWater).or (db.retiredHighWater sessionId)

def rowEntry (eventId : Text) (row : EventRow) : Entry Text Text EventIdentity where
  id := eventId
  stream := row.sessionId
  sequence := row.sequence
  content := row.digest

/-- What was committed and not handed over: only the newest call can wait so. -/
def outbox : List Frame → List SessionEvent
  | .publish batch _ :: _ => batch
  | _ => []

/-- The events of the buffer. -/
def State.buffered (s : State) : List SessionEvent := s.pending.values.map PendingEvent.event

/-- The journal, seen as a ledger whose streams are the sessions. -/
def ledger (s : State) : Ledger Text Text EventIdentity where
  water := s.db.water
  retired := fun sessionId => (s.db.retired.get sessionId).isSome
  rows := fun eventId => (s.db.events.get eventId).map (rowEntry eventId)
  buffer := s.buffered.map (entryOf platform)
  outbox := (outbox s.stack).map (entryOf platform)
  log := s.stored.map (entryOf platform)
  handed := s.handed.map (entryOf platform)

/-! ### The tables -/

/-- Rows are kept under their own keys, a retired session has no record, and
    nothing is acknowledged that is not there. -/
structure Db.Tidy (db : Db) : Prop where
  keyed : ∀ sessionId record, db.stored sessionId = some record → record.session.id = sessionId
  exclusive : ∀ sessionId, (db.retired.get sessionId).isSome → db.stored sessionId = none
  acknowledged : ∀ sessionId record, db.stored sessionId = some record →
    record.acknowledgedSequence ≤ record.highWater ∧
      record.acknowledgedControlEpoch ≤ record.controlEpoch

/-- Two states of the tables with the same watermarks and identities. -/
structure Db.Like (db db' : Db) : Prop where
  water : db'.water = db.water
  retired : db'.retired = db.retired
  rows : ∀ eventId, (db'.events.get eventId).map (rowEntry eventId) =
    (db.events.get eventId).map (rowEntry eventId)

theorem Db.Like.refl (db : Db) : Db.Like db db where
  water := rfl
  retired := rfl
  rows := fun _ => rfl

theorem Db.Like.trans {a b c : Db} (hab : Db.Like a b) (hbc : Db.Like b c) : Db.Like a c where
  water := hbc.water.trans hab.water
  retired := hbc.retired.trans hab.retired
  rows := fun eventId => (hbc.rows eventId).trans (hab.rows eventId)

theorem stored_putSession (db : Db) (record : StoredSession) (sessionId : Text) :
    (db.putSession platform record).stored sessionId =
      if sessionId = record.session.id then some record else db.stored sessionId := by
  unfold Db.putSession Db.stored
  rw [Table.get_set]
  split
  · rfl
  · rfl

/-- A record that is saved over another one of its session, at its watermark. -/
structure Db.Refreshes (db : Db) (record : StoredSession) : Prop where
  present : (db.stored record.session.id).isSome
  water : db.water record.session.id = some record.highWater
  sequence : record.acknowledgedSequence ≤ record.highWater
  epoch : record.acknowledgedControlEpoch ≤ record.controlEpoch

theorem Db.Refreshes.like {db : Db} {record : StoredSession} (h : db.Refreshes record) :
    Db.Like db (db.putSession platform record) where
  water := by
    funext sessionId
    by_cases hid : sessionId = record.session.id
    · rw [hid, h.water]
      unfold Db.water
      rw [stored_putSession, if_pos rfl]
      rfl
    · unfold Db.water
      rw [stored_putSession, if_neg hid]
      rfl
  retired := rfl
  rows := fun _ => rfl

/-- A record over the one that is stored, with the same watermark. -/
theorem Db.Refreshes.of_stored {db : Db} {record prior : StoredSession}
    {sessionId : Text} (hprior : db.stored sessionId = some prior)
    (hid : record.session.id = sessionId) (hwater : record.highWater = prior.highWater)
    (hsequence : record.acknowledgedSequence ≤ record.highWater)
    (hepoch : record.acknowledgedControlEpoch ≤ record.controlEpoch) : db.Refreshes record where
  present := by
    rw [hid, hprior]
    rfl
  water := by
    unfold Db.water
    rw [hid, hprior, hwater]
    rfl
  sequence := hsequence
  epoch := hepoch

theorem putOperation_like (db : Db) (operation : LocalSessionOperation) :
    Db.Like db (db.putOperation platform operation) where
  water := rfl
  retired := rfl
  rows := fun _ => rfl

theorem trimEvents_like (db : Db) (sessionId : Text) (throughSequence : Nat) :
    Db.Like db (db.trimEvents sessionId throughSequence) where
  water := rfl
  retired := rfl
  rows := by
    intro eventId
    unfold Db.trimEvents
    simp only [Table.get_mapValues, Option.map_map]
    congr 1
    funext row
    simp only [Function.comp_apply, trimRow]
    split
    · rfl
    · rfl

theorem Db.Tidy.putSession {db : Db} (h : db.Tidy) {record : StoredSession}
    (hlive : (db.retired.get record.session.id).isSome → False)
    (hsequence : record.acknowledgedSequence ≤ record.highWater)
    (hepoch : record.acknowledgedControlEpoch ≤ record.controlEpoch) :
    (db.putSession platform record).Tidy where
  keyed := by
    intro sessionId record' hrecord
    rw [stored_putSession] at hrecord
    split at hrecord
    · rename_i hid
      cases hrecord
      exact hid.symm
    · exact h.keyed sessionId record' hrecord
  exclusive := by
    intro sessionId hretired
    rw [stored_putSession]
    split
    · rename_i hid
      subst hid
      exact (hlive hretired).elim
    · exact h.exclusive sessionId hretired
  acknowledged := by
    intro sessionId record' hrecord
    rw [stored_putSession] at hrecord
    split at hrecord
    · cases hrecord
      exact ⟨hsequence, hepoch⟩
    · exact h.acknowledged sessionId record' hrecord

/-- What is stored is not retired. -/
theorem Db.Tidy.live {db : Db} (h : db.Tidy) {sessionId : Text} {record : StoredSession}
    (hrecord : db.stored sessionId = some record) : ¬(db.retired.get sessionId).isSome := by
  intro hretired
  rw [h.exclusive sessionId hretired] at hrecord
  cases hrecord

theorem Db.Refreshes.tidy {db : Db} {record : StoredSession} (h : db.Refreshes record)
    (htidy : db.Tidy) : (db.putSession platform record).Tidy := by
  rcases Option.isSome_iff_exists.mp h.present with ⟨prior, hprior⟩
  exact htidy.putSession platform (htidy.live hprior) h.sequence h.epoch

/-- Saving one record does not keep another from being saved. -/
theorem Db.Refreshes.other {db : Db} {record other : StoredSession} (h : db.Refreshes record)
    (hother : db.Refreshes other) : (db.putSession platform record).Refreshes other where
  present := by
    rw [stored_putSession]
    split
    · rfl
    · exact hother.present
  water := by
    rw [(h.like platform).water]
    exact hother.water
  sequence := hother.sequence
  epoch := hother.epoch

/-- A loop of such saves. -/
theorem refreshes_saves (records : List StoredSession) (db : Db) (htidy : db.Tidy)
    (h : ∀ record ∈ records, db.Refreshes record) :
    Db.Like db (records.foldl (Db.putSession platform) db) ∧
      (records.foldl (Db.putSession platform) db).Tidy := by
  induction records generalizing db with
  | nil => exact ⟨Db.Like.refl db, htidy⟩
  | cons record rest ih =>
      rw [List.forall_mem_cons] at h
      have hrest := ih (db.putSession platform record) (h.1.tidy platform htidy)
        fun other hother => h.1.other platform (h.2 other hother)
      exact ⟨(h.1.like platform).trans hrest.1, hrest.2⟩

theorem Db.Tidy.putOperation {db : Db} (h : db.Tidy) (operation : LocalSessionOperation) :
    (db.putOperation platform operation).Tidy :=
  ⟨h.keyed, h.exclusive, h.acknowledged⟩

theorem Db.Tidy.trimEvents {db : Db} (h : db.Tidy) (sessionId : Text) (throughSequence : Nat) :
    (db.trimEvents sessionId throughSequence).Tidy :=
  ⟨h.keyed, h.exclusive, h.acknowledged⟩

/-- A loop that saves records saves no others. -/
theorem stored_saves_ne (records : List StoredSession) (db : Db) (sessionId : Text)
    (h : ∀ record ∈ records, record.session.id ≠ sessionId) :
    (records.foldl (Db.putSession platform) db).stored sessionId = db.stored sessionId := by
  induction records generalizing db with
  | nil => rfl
  | cons record rest ih =>
      rw [List.forall_mem_cons] at h
      rw [List.foldl_cons, ih _ h.2, stored_putSession, if_neg (Ne.symm h.1)]

/-- And it saves each of them. -/
theorem stored_saves (records : List StoredSession) (db : Db)
    (hnodup : (records.map fun record => record.session.id).Nodup) {record : StoredSession}
    (hmem : record ∈ records) :
    (records.foldl (Db.putSession platform) db).stored record.session.id = some record := by
  induction records generalizing db with
  | nil => cases hmem
  | cons record' rest ih =>
      rw [List.map_cons, List.nodup_cons] at hnodup
      rw [List.foldl_cons]
      rcases List.mem_cons.mp hmem with rfl | hmem
      · rw [stored_saves_ne, stored_putSession, if_pos rfl]
        intro other hother hid
        exact hnodup.1 (List.mem_map.mpr ⟨other, hother, hid⟩)
      · exact ih _ hnodup.2 hmem

/-- Saving the records of a table that keeps each under its own id. -/
theorem stored_saves_table (records : Table Text StoredSession) (db : Db)
    (hkeyed : ∀ sessionId record, records.get sessionId = some record →
      record.session.id = sessionId) (sessionId : Text) :
    (records.values.foldl (Db.putSession platform) db).stored sessionId =
      (records.get sessionId).or (db.stored sessionId) := by
  cases hget : records.get sessionId with
  | none =>
      rw [stored_saves_ne, Option.none_or]
      intro record hmem hid
      rcases (records.mem_values_iff record).mp hmem with ⟨k, hk⟩
      rw [← hid, hkeyed k record hk, hk] at hget
      cases hget
  | some record =>
      have hid := hkeyed sessionId record hget
      have hkeys : records.values.map (fun record => record.session.id) =
          records.entries.map Prod.fst := by
        unfold Table.values
        rw [List.map_map]
        refine List.map_congr_left fun entry hentry => ?_
        exact hkeyed entry.1 entry.2 ((records.mem_entries_iff entry.1 entry.2).mp hentry)
      have hsave := stored_saves platform records.values db (by rw [hkeys]; exact records.nodup)
        ((records.mem_values_iff record).mpr ⟨sessionId, hget⟩)
      rw [hid] at hsave
      rw [hsave, Option.some_or]

theorem saves_others (records : List StoredSession) (db : Db) :
    (records.foldl (Db.putSession platform) db).retired = db.retired ∧
      (records.foldl (Db.putSession platform) db).events = db.events ∧
      (records.foldl (Db.putSession platform) db).operations = db.operations := by
  induction records generalizing db with
  | nil => exact ⟨rfl, rfl, rfl⟩
  | cons record rest ih => exact ih _

/-! ### Committing the buffer -/

/-- The row of an event of the buffer. -/
def rowOf (item : PendingEvent) : EventRow where
  sessionId := item.event.sessionId
  sequence := item.event.sequence
  digest := item.digest
  data := some item.event
  bytes := item.bytes

def entryOfItem (item : PendingEvent) : Entry Text Text EventIdentity :=
  entryOf platform item.event

/-- A transaction that has committed some events of the buffer. -/
structure Committing (db : Db) (items : List PendingEvent) (batch : Batch) : Prop where
  sessions : batch.db.sessions = db.sessions
  retired : batch.db.retired = db.retired
  operations : batch.db.operations = db.operations
  inserted : ∀ item ∈ items, batch.db.events.get item.event.eventId = some (rowOf item)
  others : ∀ eventId, (∀ item ∈ items, item.event.eventId ≠ eventId) →
    batch.db.events.get eventId = db.events.get eventId
  updated : ∀ sessionId record, batch.sessions.get sessionId = some record →
    ∃ prior metadata revision, db.stored sessionId = some prior ∧
      last (items.map (entryOfItem platform)) sessionId = some record.highWater ∧
      record =
        { prior with
          highWater := record.highWater
          revision
          session := { prior.session with metadata } }
  untouched : ∀ sessionId, batch.sessions.get sessionId = none →
    last (items.map (entryOfItem platform)) sessionId = none

theorem insertEvent_ok {db db' : Db} {event : SessionEvent} {digest : EventIdentity} {bytes : Nat}
    (h : db.insertEvent event digest bytes = .ok db') :
    db.events.get event.eventId = none ∧ db'.sessions = db.sessions ∧ db'.retired = db.retired ∧
      db'.operations = db.operations ∧
      db'.events = db.events.set event.eventId (rowOf { event, digest, bytes }) := by
  unfold Db.insertEvent at h
  split at h
  · cases h
  · rename_i hnew
    split at h
    · cases h
    · split at h
      · cases h
      · cases h
        exact ⟨by simpa using hnew, rfl, rfl, rfl, rfl⟩

/-- What one turn of the loop leaves. -/
theorem commitEvent_ok {batch batch' : Batch} {item : PendingEvent}
    (h : commitEvent platform batch item = .ok batch') :
    ∃ record metadata,
      batch.db.events.get item.event.eventId = none ∧
      (batch.sessions.get item.event.sessionId).or (batch.db.stored item.event.sessionId) =
        some record ∧
      batch'.db.sessions = batch.db.sessions ∧ batch'.db.retired = batch.db.retired ∧
      batch'.db.operations = batch.db.operations ∧
      batch'.db.events = batch.db.events.set item.event.eventId (rowOf item) ∧
      batch'.sessions = batch.sessions.set item.event.sessionId
        { record with
          highWater := item.event.sequence
          revision := record.revision + 1
          session := { record.session with metadata } } := by
  unfold commitEvent at h
  split at h
  · cases h
  · rename_i db hinsert
    have hok := insertEvent_ok hinsert
    -- The event row went in first, and no session changed with it.
    have hstored : db.stored item.event.sessionId = batch.db.stored item.event.sessionId := by
      unfold Db.stored
      rw [hok.2.1]
    rw [hstored] at h
    split at h
    · cases h
    · rename_i record hrecord
      split at h
      · cases h
      · cases h
        refine ⟨record, _, hok.1, hrecord, ?_, ?_, ?_, ?_, rfl⟩
        · cases platform.requestId item.event with
          | none => exact hok.2.1
          | some requestId => exact hok.2.1
        · cases platform.requestId item.event with
          | none => exact hok.2.2.1
          | some requestId => exact hok.2.2.1
        · cases platform.requestId item.event with
          | none => exact hok.2.2.2.1
          | some requestId => exact hok.2.2.2.1
        · cases platform.requestId item.event with
          | none => exact hok.2.2.2.2
          | some requestId => exact hok.2.2.2.2

theorem Committing.snoc {db : Db} {items : List PendingEvent} {batch batch' : Batch}
    {item : PendingEvent} (h : Committing platform db items batch)
    (hstep : commitEvent platform batch item = .ok batch') :
    Committing platform db (items ++ [item]) batch' := by
  rcases commitEvent_ok platform hstep with
    ⟨record, metadata, hnew, hrecord, hsessions, hretired, hoperations, hevents, htable⟩
  have hlast : ∀ sessionId, last ((items ++ [item]).map (entryOfItem platform)) sessionId =
      if item.event.sessionId = sessionId then some item.event.sequence
      else last (items.map (entryOfItem platform)) sessionId := by
    intro sessionId
    rw [List.map_append, last_append]
    simp only [List.map_cons, List.map_nil, last, Option.none_or, entryOfItem, entryOf]
    split
    · rfl
    · rfl
  refine
    { sessions := hsessions.trans h.sessions
      retired := hretired.trans h.retired
      operations := hoperations.trans h.operations
      inserted := ?_
      others := ?_
      updated := ?_
      untouched := ?_ }
  · intro item' hitem'
    rw [hevents, Table.get_set]
    rcases List.mem_append.mp hitem' with hitem' | hitem'
    · -- An event inserted before has another identity, or this one would not go in.
      rw [if_neg]
      · exact h.inserted item' hitem'
      · intro hid
        rw [← hid, h.inserted item' hitem'] at hnew
        cases hnew
    · rw [List.mem_singleton.mp hitem', if_pos rfl]
  · intro eventId hothers
    rw [hevents, Table.get_set_ne]
    · exact h.others eventId fun item' hitem' =>
        hothers item' (List.mem_append_left _ hitem')
    · exact Ne.symm (hothers item (List.mem_append_right _ List.mem_cons_self))
  · intro sessionId record' hrecord'
    rw [htable, Table.get_set] at hrecord'
    rw [hlast]
    by_cases hid : sessionId = item.event.sessionId
    · rw [if_pos hid] at hrecord'
      cases hrecord'
      rw [if_pos hid.symm]
      -- The record goes back to the stored one, whatever was done to it before.
      rcases Option.or_eq_some_iff.mp hrecord with hmem | ⟨_, hmem⟩
      · rcases h.updated item.event.sessionId record hmem with
          ⟨prior, metadata', revision', hprior, _, heq⟩
        refine ⟨prior, metadata, record.revision + 1, by rw [hid]; exact hprior, rfl, ?_⟩
        rw [heq]
      · refine ⟨record, metadata, record.revision + 1, ?_, rfl, rfl⟩
        rw [hid]
        unfold Db.stored at hmem ⊢
        rw [← h.sessions]
        exact hmem
    · rw [if_neg hid] at hrecord'
      rw [if_neg (Ne.symm hid)]
      exact h.updated sessionId record' hrecord'
  · intro sessionId hnone
    rw [htable, Table.get_set] at hnone
    rw [hlast]
    by_cases hid : sessionId = item.event.sessionId
    · rw [if_pos hid] at hnone
      cases hnone
    · rw [if_neg hid] at hnone
      rw [if_neg (Ne.symm hid)]
      exact h.untouched sessionId hnone

theorem Committing.run {db : Db} {done items : List PendingEvent} {batch batch' : Batch}
    (h : Committing platform db done batch)
    (hrun : commitEvents platform batch items = .ok batch') :
    Committing platform db (done ++ items) batch' := by
  induction items generalizing done batch with
  | nil =>
      cases hrun
      rw [List.append_nil]
      exact h
  | cons item rest ih =>
      unfold commitEvents at hrun
      split at hrun
      · cases hrun
      · rename_i batch₁ hstep
        rw [List.append_cons]
        exact ih (h.snoc platform hstep) hrun

/-- What a committed buffer leaves in the tables. -/
structure Committed (db : Db) (items : List PendingEvent) (db' : Db) : Prop where
  retired : db'.retired = db.retired
  operations : db'.operations = db.operations
  inserted : ∀ item ∈ items, db'.events.get item.event.eventId = some (rowOf item)
  others : ∀ eventId, (∀ item ∈ items, item.event.eventId ≠ eventId) →
    db'.events.get eventId = db.events.get eventId
  stored : ∀ sessionId record, db'.stored sessionId = some record →
    ∃ prior metadata revision, db.stored sessionId = some prior ∧
      record.highWater =
        (last (items.map (entryOfItem platform)) sessionId).getD prior.highWater ∧
      record =
        { prior with
          highWater := record.highWater
          revision
          session := { prior.session with metadata } }
  present : ∀ sessionId record, db.stored sessionId = some record →
    ∃ record', db'.stored sessionId = some record'
  live : ∀ sessionId, db.stored sessionId = none →
    last (items.map (entryOfItem platform)) sessionId = none

/-- What one transaction over a batch comes to: its rows are inserted, and each
    session it touches is saved once. -/
theorem commitBatch_ok {db db' : Db} {items : List PendingEvent}
    (hids : ∀ sessionId record, db.stored sessionId = some record → record.session.id = sessionId)
    (h : commitBatch platform items db = .ok db') : Committed platform db items db' := by
  unfold commitBatch at h
  split at h
  · cases h
  · rename_i batch hrun
    cases h
    have hstart : Committing platform db [] { db, sessions := Table.empty } :=
      { sessions := rfl
        retired := rfl
        operations := rfl
        inserted := by simp
        others := fun _ _ => rfl
        updated := by
          intro sessionId record hrecord
          cases hrecord
        untouched := fun _ _ => rfl }
    have hdone := hstart.run platform hrun
    rw [List.nil_append] at hdone
    -- A session is saved under the id it was read by.
    have hkeyed : ∀ sessionId record, batch.sessions.get sessionId = some record →
        record.session.id = sessionId := by
      intro sessionId record hrecord
      rcases hdone.updated sessionId record hrecord with
        ⟨prior, metadata, revision, hprior, _, heq⟩
      rw [heq]
      exact hids sessionId prior hprior
    have hbase : ∀ sessionId, batch.db.stored sessionId = db.stored sessionId := by
      intro sessionId
      unfold Db.stored
      rw [hdone.sessions]
    have hothers := saves_others platform batch.sessions.values batch.db
    refine
      { retired := hothers.1.trans hdone.retired
        operations := hothers.2.2.trans hdone.operations
        inserted := ?_
        others := ?_
        stored := ?_
        present := ?_
        live := ?_ }
    · intro item hitem
      rw [hothers.2.1]
      exact hdone.inserted item hitem
    · intro eventId hid
      rw [hothers.2.1]
      exact hdone.others eventId hid
    · intro sessionId record hrecord
      rw [stored_saves_table platform batch.sessions batch.db hkeyed, hbase] at hrecord
      -- The batch has saved the session, or it is as it was.
      rcases Option.or_eq_some_iff.mp hrecord with hmem | ⟨hnone, hmem⟩
      · rcases hdone.updated sessionId record hmem with
          ⟨prior, metadata, revision, hprior, hlast, heq⟩
        exact ⟨prior, metadata, revision, hprior, by rw [hlast]; rfl, heq⟩
      · refine ⟨record, record.session.metadata, record.revision, hmem, ?_, rfl⟩
        rw [hdone.untouched sessionId hnone]
        rfl
    · intro sessionId record hrecord
      rw [stored_saves_table platform batch.sessions batch.db hkeyed, hbase, hrecord]
      cases batch.sessions.get sessionId with
      | none => exact ⟨record, rfl⟩
      | some record' => exact ⟨record', rfl⟩
    · intro sessionId hnone
      cases hget : batch.sessions.get sessionId with
      | none => exact hdone.untouched sessionId hget
      | some record =>
          rcases hdone.updated sessionId record hget with ⟨prior, _, _, hprior, _⟩
          rw [hnone] at hprior
          cases hprior

theorem Committed.tidy {db db' : Db} {items : List PendingEvent} (htidy : db.Tidy)
    (h : Committed platform db items db')
    (habove : ∀ item ∈ items, ∀ record, db.stored item.event.sessionId = some record →
      record.highWater < item.event.sequence) : db'.Tidy where
  keyed := by
    intro sessionId record hrecord
    rcases h.stored sessionId record hrecord with ⟨prior, metadata, revision, hprior, _, heq⟩
    rw [heq]
    exact htidy.keyed sessionId prior hprior
  exclusive := by
    intro sessionId hretired
    rw [h.retired] at hretired
    cases hstored : db'.stored sessionId with
    | none => rfl
    | some record =>
        rcases h.stored sessionId record hstored with ⟨prior, _, _, hprior, _⟩
        exact absurd hretired (htidy.live hprior)
  acknowledged := by
    intro sessionId record hrecord
    rcases h.stored sessionId record hrecord with
      ⟨prior, metadata, revision, hprior, hwater, heq⟩
    have hprior' := htidy.acknowledged sessionId prior hprior
    have hgrown : prior.highWater ≤ record.highWater := by
      cases hlast : last (items.map (entryOfItem platform)) sessionId with
      | none =>
          rw [hlast] at hwater
          exact Nat.le_of_eq hwater.symm
      | some n =>
          rcases mem_of_last hlast with ⟨e, he, hstream, hsequence⟩
          rcases List.mem_map.mp he with ⟨item, hitem, rfl⟩
          have := habove item hitem prior (by rw [← hstream] at hprior; exact hprior)
          rw [hwater, hlast, Option.getD_some, ← hsequence]
          exact Nat.le_of_lt this
    rw [heq]
    exact ⟨Nat.le_trans hprior'.1 hgrown, hprior'.2⟩

/-- The watermarks of a committed buffer are the ones with the buffer counted. -/
theorem Committed.water {db db' : Db} {items : List PendingEvent}
    (h : Committed platform db items db') (sessionId : Text) :
    db'.water sessionId =
      (last (items.map (entryOfItem platform)) sessionId).or (db.water sessionId) := by
  have hretired : db'.retiredHighWater sessionId = db.retiredHighWater sessionId := by
    unfold Db.retiredHighWater
    rw [h.retired]
  unfold Db.water
  rw [hretired]
  cases hprior : db.stored sessionId with
  | none =>
      rw [h.live sessionId hprior, Option.none_or]
      cases hstored : db'.stored sessionId with
      | none => rfl
      | some record =>
          rcases h.stored sessionId record hstored with ⟨prior, _, _, hprior', _⟩
          rw [hprior] at hprior'
          cases hprior'
  | some prior =>
      rcases h.present sessionId prior hprior with ⟨record, hrecord⟩
      rcases h.stored sessionId record hrecord with ⟨prior', _, _, hprior', hwater, _⟩
      rw [hprior, Option.some.injEq] at hprior'
      rw [hrecord, Option.map_some, Option.some_or, hwater, ← hprior', Option.map_some,
        Option.some_or]
      cases last (items.map (entryOfItem platform)) sessionId with
      | none => rfl
      | some n => rfl

/-! ### What a piece of a call can do -/

/-- Nothing that the ledger of the journal depends on is different. -/
structure Alike (s s' : State) : Prop where
  db : s'.db = s.db
  pending : s'.pending = s.pending
  pendingWater : s'.pendingWater = s.pendingWater
  stack : s'.stack = s.stack
  stored : s'.stored = s.stored
  handed : s'.handed = s.handed

/-- The call was given up with an error. -/
def Halted (s s' : State) : Prop := Alike s s' ∧ ∃ error, s'.result = some (.threw error)

theorem throwing_halted (s : State) (error : Text) : Halted s (s.throwing error) :=
  ⟨⟨rfl, rfl, rfl, rfl, rfl, rfl⟩, error, rfl⟩

theorem fail_halted (s : State) (error : Text) : Halted s (s.fail error) :=
  ⟨⟨rfl, rfl, rfl, rfl, rfl, rfl⟩, error, rfl⟩

section

variable {P : State → Prop} {s : State} {choice : Choice} {rest : State → State}

/-! Each piece of a call either gives up or goes on. -/

theorem writing_elim (hhalt : ∀ s', Halted s s' → P s') (hrest : P (rest s)) :
    P (s.writing rest) := by
  unfold State.writing
  cases s.blocked with
  | some error => exact hhalt _ (throwing_halted s error)
  | none => exact hrest

theorem reading_elim (hhalt : ∀ s', Halted s s' → P s') (hrest : P (rest s)) :
    P (s.reading choice rest) := by
  unfold State.reading
  by_cases hclosed : s.closed
  · rw [if_pos hclosed]
    exact hhalt _ (throwing_halted s closedError)
  · rw [if_neg hclosed]
    cases choice.readFault with
    | some error => exact hhalt _ (fail_halted s error)
    | none => exact hrest

theorem requiring_elim {sessionId : Text} {rest : StoredSession → State → State}
    (hhalt : ∀ s', Halted s s' → P s')
    (hrest : ∀ record, s.db.stored sessionId = some record → P (rest record s)) :
    P (s.requiring choice sessionId rest) := by
  unfold State.requiring
  refine reading_elim hhalt ?_
  split
  · exact hhalt _ (throwing_halted s notEnabledError)
  · rename_i record hrecord
    exact hrest record hrecord

theorem safely_elim {value : Nat} (hhalt : ∀ s', Halted s s' → P s') (hrest : P (rest s)) :
    P (s.safely value rest) := by
  unfold State.safely
  by_cases hsafe : maxSafeInteger < value
  · rw [if_pos hsafe]
    exact hhalt _ (throwing_halted s integerError)
  · rw [if_neg hsafe]
    exact hrest

theorem transaction_elim {body : Db → Except Text Db} (hhalt : ∀ s', Halted s s' → P s')
    (hrest : ∀ db, body s.db = .ok db → P (rest { s with db })) :
    P (s.transaction choice body rest) := by
  unfold State.transaction
  refine writing_elim hhalt ?_
  split
  · rename_i error _
    exact hhalt _ (fail_halted s error)
  · rename_i db hcommitted
    unfold committed at hcommitted
    split at hcommitted
    · cases hcommitted
    · split at hcommitted
      · cases hcommitted
      · rename_i db' hbody
        split at hcommitted
        · cases hcommitted
        · cases hcommitted
          exact hrest db hbody

/-- The state a flush leaves that has committed the buffer. -/
def State.flushed (s : State) (kont : Kont) (db : Db) : State :=
  { s with
    db
    pending := Table.empty
    pendingWater := Table.empty
    pendingBytes := 0
    timer := false
    stack := .publish s.buffered kont :: s.stack
    result := none
    stored := s.stored ++ s.buffered }

theorem flush_elim {kont : Kont} (hhalt : ∀ s', Halted s s' → P s')
    (hrest : s.pending.entries = [] → P (rest { s with timer := false }))
    (hcommit : ∀ db, commitBatch platform s.pending.values s.db = .ok db →
      P (s.flushed kont db)) : P (flush platform choice s kont rest) := by
  unfold flush
  refine writing_elim hhalt ?_
  by_cases hempty : s.pending.entries = []
  · simp only [hempty, if_true]
    exact hrest hempty
  · simp only [hempty, if_false]
    refine transaction_elim (fun s' hs' => hhalt s' ?_) (fun db hdb => hcommit db hdb)
    exact ⟨⟨hs'.1.db, hs'.1.pending, hs'.1.pendingWater, hs'.1.stack, hs'.1.stored,
      hs'.1.handed⟩, hs'.2⟩

end

/-! ### The link between the journal and its ledger -/

def Frame.kont : Frame → Kont
  | .publish _ kont => kont
  | .observing kont => kont

/-- The event of an `append` that waits to be admitted. -/
def Kont.suspended : Kont → Option SessionEvent
  | .appendMid event _ => some event
  | _ => none

/-- The events of all such calls. -/
def suspended (stack : List Frame) : List SessionEvent :=
  stack.filterMap fun frame => frame.kont.suspended

theorem suspended_cons (frame : Frame) (stack : List Frame) :
    suspended (frame :: stack) = frame.kont.suspended.toList ++ suspended stack := by
  cases hkont : frame.kont.suspended with
  | none => simp [suspended, hkont]
  | some event => simp [suspended, hkont]

/-- A purge drops what is known of a session altogether. -/
def Operation.purges : Operation → Bool
  | .purge _ _ => true
  | _ => false

/-- What a call that waits relies on. -/
def Kont.Ready (L : Ledger Text Text EventIdentity) : Kont → Prop
  | .appendMid event digest =>
      digest = eventDigest platform event ∧ L.identity event.eventId = none ∧
        (L.water event.sessionId).isSome
  | .appended event =>
      ¬L.retired event.sessionId → L.identity event.eventId = some (entryOf platform event)
  | .operation op => ¬op.purges
  | .timer => True

/-- The link between the journal and its ledger. -/
structure Linked (s : State) : Prop where
  tidy : s.db.Tidy
  sound : Sound (ledger platform s)
  item : ∀ eventId item, s.pending.get eventId = some item →
    item.event.eventId = eventId ∧ item.digest = eventDigest platform item.event
  marks : ∀ sessionId, s.pendingWater.get sessionId = last (ledger platform s).buffer sessionId
  below : ∀ frame ∈ s.stack.tail, outbox [frame] = []
  durable : ∀ event ∈ outbox s.stack, ∃ row, s.db.events.get event.eventId = some row ∧
    row.data = some event ∧ rowEntry event.eventId row = entryOf platform event
  ready : ∀ frame ∈ s.stack, frame.kont.Ready platform (ledger platform s)
  apart : ((suspended s.stack).map SessionEvent.eventId).Nodup
  returned : ∀ event, s.result = some (.returned event) →
    ¬(ledger platform s).retired event.sessionId →
      (ledger platform s).identity event.eventId = some (entryOf platform event)

/-- A piece of a call is some moves of the ledger, and keeps the link. -/
structure Reaches (s s' : State) : Prop where
  moves : Moves (ledger platform s) (ledger platform s')
  linked : Linked platform s'
  /-- The observer is handed nothing meanwhile. -/
  handed : s'.handed = s.handed

theorem Alike.ledger {s s' : State} (h : Alike s s') : ledger platform s' = ledger platform s := by
  unfold Journal.ledger State.buffered
  rw [h.db, h.pending, h.stack, h.stored, h.handed]

theorem Reaches.trans {a b c : State} (hab : Reaches platform a b) (hbc : Reaches platform b c) :
    Reaches platform a c :=
  ⟨hab.moves.trans hbc.moves, hbc.linked, hbc.handed.trans hab.handed⟩

theorem Reaches.refl {s : State} (h : Linked platform s) : Reaches platform s s :=
  ⟨Relation.ReflTransGen.refl, h, rfl⟩

section

variable {platform} {s s' : State}

theorem Linked.alike (h : Linked platform s) (ha : Alike s s')
    (hreturned : ∀ event, s'.result = some (.returned event) →
      ¬(ledger platform s).retired event.sessionId →
        (ledger platform s).identity event.eventId = some (entryOf platform event)) :
    Reaches platform s s' := by
  have hledger := ha.ledger platform
  refine ⟨by rw [hledger], ?_, ha.handed⟩
  exact
    { tidy := by
        rw [ha.db]
        exact h.tidy
      sound := by
        rw [hledger]
        exact h.sound
      item := by
        rw [ha.pending]
        exact h.item
      marks := by
        rw [ha.pendingWater, hledger]
        exact h.marks
      below := by
        rw [ha.stack]
        exact h.below
      durable := by
        rw [ha.stack, ha.db]
        exact h.durable
      ready := by
        rw [ha.stack, hledger]
        exact h.ready
      apart := by
        rw [ha.stack]
        exact h.apart
      returned := by
        rw [hledger]
        exact hreturned }

/-- A call that is given up leaves everything as it was. -/
theorem Linked.halted (h : Linked platform s) (hhalt : Halted s s') : Reaches platform s s' := by
  rcases hhalt with ⟨ha, error, hresult⟩
  refine h.alike ha fun event hreturned => ?_
  rw [hresult] at hreturned
  cases hreturned

/-- An outcome other than an event changes nothing. -/
theorem Linked.finished (h : Linked platform s) {outcome : Outcome}
    (houtcome : ∀ event, outcome ≠ .returned event) : Reaches platform s (s.finished outcome) := by
  refine h.alike ⟨rfl, rfl, rfl, rfl, rfl, rfl⟩ fun event hreturned => ?_
  simp only [State.finished, Option.some.injEq] at hreturned
  exact absurd hreturned (houtcome event)

theorem Linked.shut (h : Linked platform s) (choice : Choice)
    (hreturned : ∀ event, s.result ≠ some (.returned event)) :
    Reaches platform s (shut choice s) := by
  unfold Journal.shut
  cases choice.lateFault with
  | none =>
      exact h.alike ⟨rfl, rfl, rfl, rfl, rfl, rfl⟩ fun event hevent =>
        absurd hevent (hreturned event)
  | some error =>
      exact h.halted ⟨⟨rfl, rfl, rfl, rfl, rfl, rfl⟩, error, rfl⟩

/-! ### What happens to the tables -/

/-- Tables that keep every watermark and make nothing known that was not. -/
theorem Linked.tables (h : Linked platform s) (hout : outbox s.stack = []) {db : Db}
    (hmoves : Moves (ledger platform s) (ledger platform { s with db })) (htidy : db.Tidy)
    (hwater : ∀ sessionId, (s.db.water sessionId).isSome → (db.water sessionId).isSome)
    (hnew : ∀ eventId, (ledger platform s).identity eventId = none →
      (ledger platform { s with db }).identity eventId = none) :
    Reaches platform s { s with db } := by
  -- What the journal knew of an event it knows still, unless its session is retired.
  have hkept : ∀ event : SessionEvent,
      (¬(ledger platform s).retired event.sessionId →
        (ledger platform s).identity event.eventId = some (entryOf platform event)) →
      ¬(ledger platform { s with db }).retired event.sessionId →
        (ledger platform { s with db }).identity event.eventId = some (entryOf platform event) := by
    intro event hidentity hlive
    have hlive' : ¬(ledger platform s).retired event.sessionId :=
      fun hretired => hlive (hmoves.retired hretired)
    exact hmoves.identity_kept (hidentity hlive') hlive
  refine
    ⟨hmoves,
      { tidy := htidy
        sound := h.sound.moves hmoves
        item := h.item
        marks := h.marks
        below := h.below
        durable := by simp [hout]
        ready := ?_
        apart := h.apart
        returned := fun event hevent => hkept event (h.returned event hevent) }, rfl⟩
  intro frame hframe
  have hready := h.ready frame hframe
  cases hkont : frame.kont with
  | appendMid event digest =>
      rw [hkont] at hready
      exact ⟨hready.1, hnew _ hready.2.1, hwater _ hready.2.2⟩
  | appended event =>
      rw [hkont] at hready
      exact hkept event hready
  | operation operation =>
      rw [hkont] at hready
      exact hready
  | timer => trivial

theorem Db.Like.ledger {db : Db} (h : Db.Like s.db db) :
    ledger platform { s with db } = ledger platform s := by
  unfold Journal.ledger
  simp only [h.water, h.retired, h.rows]
  rfl

theorem Linked.like (h : Linked platform s) (hout : outbox s.stack = []) {db : Db}
    (hlike : Db.Like s.db db) (htidy : db.Tidy) : Reaches platform s { s with db } := by
  have hledger : ledger platform { s with db } = ledger platform s := hlike.ledger
  refine h.tables hout (by rw [hledger]) htidy ?_ ?_
  · intro sessionId hsome
    rw [hlike.water]
    exact hsome
  · intro eventId hnone
    rw [hledger]
    exact hnone

/-- A session that is enabled for the first time. -/
theorem Linked.enroll (h : Linked platform s) (hout : outbox s.stack = [])
    (record : StoredSession) (hnew : s.db.stored record.session.id = none)
    (hlive : s.db.retiredHighWater record.session.id = none)
    (hsequence : record.acknowledgedSequence ≤ record.highWater)
    (hepoch : record.acknowledgedControlEpoch ≤ record.controlEpoch) :
    Reaches platform s { s with db := s.db.putSession platform record } := by
  have hwater : (s.db.putSession platform record).water =
      Function.update s.db.water record.session.id (some record.highWater) := by
    funext sessionId
    unfold Db.water
    rw [stored_putSession, Function.update_apply]
    by_cases hid : sessionId = record.session.id
    · rw [if_pos hid, if_pos hid, Option.map_some, Option.some_or]
    · rw [if_neg hid, if_neg hid]
      rfl
  -- Neither a session nor a retired one has this id, so the watermark is new.
  have hunknown : (ledger platform s).water record.session.id = none := by
    change s.db.water record.session.id = none
    unfold Db.water
    rw [hnew, hlive]
    rfl
  have hmove := Move.enroll (ledger platform s) record.session.id record.highWater hunknown
  have hledger : ledger platform { s with db := s.db.putSession platform record } =
      { ledger platform s with
        water := Function.update (ledger platform s).water record.session.id
          (some record.highWater) } := by
    unfold Journal.ledger
    simp only [hwater]
    rfl
  refine h.tables hout ?_ ?_ ?_ ?_
  · rw [hledger]
    exact Relation.ReflTransGen.single hmove
  · refine h.tidy.putSession platform (fun hretired => ?_) hsequence hepoch
    unfold Db.retiredHighWater at hlive
    rw [Option.map_eq_none_iff] at hlive
    rw [hlive] at hretired
    cases hretired
  · intro sessionId hsome
    rw [hwater, Function.update_apply]
    split
    · rfl
    · exact hsome
  · intro eventId hnone
    rw [hledger]
    exact hnone

theorem retirement_ok {sessionId : Text} {record : StoredSession} {db db' : Db}
    (h : retirement sessionId record db = .ok db') :
    db.retired.get sessionId = none ∧
      (∀ other, db'.stored other = if other = sessionId then none else db.stored other) ∧
      (∀ other, db'.retiredHighWater other =
        if other = sessionId then some record.highWater else db.retiredHighWater other) ∧
      (∀ eventId, db'.events.get eventId =
        (db.events.get eventId).filter fun row => row.sessionId ≠ sessionId) := by
  unfold retirement Db.insertRetired at h
  by_cases hnew : (db.retired.get sessionId).isSome
  · rw [if_pos hnew] at h
    cases h
  · rw [if_neg hnew] at h
    cases h
    refine ⟨by simpa using hnew, fun other => ?_, fun other => ?_, fun eventId => ?_⟩
    · unfold Db.deleteSession Db.stored
      simp only [Table.get_erase]
      split
      · rfl
      · rfl
    · unfold Db.deleteSession Db.retiredHighWater
      simp only [Table.get_set]
      split
      · rfl
      · rfl
    · unfold Db.deleteSession
      simp only [Table.get_keep]

/-- A session that is retired keeps its watermark. -/
theorem Linked.retire (h : Linked platform s) (hout : outbox s.stack = []) {sessionId : Text}
    {record : StoredSession} (hrecord : s.db.stored sessionId = some record) {db : Db}
    (hdb : retirement sessionId record s.db = .ok db) : Reaches platform s { s with db } := by
  rcases retirement_ok hdb with ⟨hnew, hstored, hretired, hevents⟩
  -- The retired row takes the watermark over from the session.
  have hwater : db.water = s.db.water := by
    funext other
    unfold Db.water
    rw [hstored, hretired]
    by_cases hid : other = sessionId
    · rw [if_pos hid, if_pos hid, hid, hrecord]
      rfl
    · rw [if_neg hid, if_neg hid]
  have hsome : ∀ other, (db.retired.get other).isSome ↔
      other = sessionId ∨ (s.db.retired.get other).isSome := by
    intro other
    have hget := hretired other
    unfold Db.retiredHighWater at hget
    by_cases hid : other = sessionId
    · rw [if_pos hid, Option.map_eq_some_iff] at hget
      rcases hget with ⟨row, hrow, _⟩
      exact ⟨fun _ => .inl hid, fun _ => by rw [hrow]; rfl⟩
    · rw [if_neg hid] at hget
      have := congrArg Option.isSome hget
      simp only [Option.isSome_map] at this
      simp [this, hid]
  have hledger : ledger platform { s with db } =
      { ledger platform s with
        retired := fun other => other = sessionId ∨ (ledger platform s).retired other
        rows := fun id => ((ledger platform s).rows id).filter fun e => e.stream ≠ sessionId } := by
    unfold Journal.ledger
    simp only [hwater, hsome, hevents]
    congr 1
    funext eventId
    cases s.db.events.get eventId with
    | none => rfl
    | some row =>
        by_cases hrow : row.sessionId = sessionId
        · simp [rowEntry, Option.filter, hrow]
        · simp [rowEntry, Option.filter, hrow]
  refine h.tables hout ?_ ?_ ?_ ?_
  · rw [hledger]
    exact Relation.ReflTransGen.single (Move.retire (ledger platform s) sessionId)
  · refine
      { keyed := fun other record' hrecord' => ?_
        exclusive := fun other hother => ?_
        acknowledged := fun other record' hrecord' => ?_ }
    · rw [hstored] at hrecord'
      split at hrecord'
      · cases hrecord'
      · exact h.tidy.keyed other record' hrecord'
    · rw [hstored]
      rcases (hsome other).mp hother with hid | hother
      · rw [if_pos hid]
      · split
        · rfl
        · exact h.tidy.exclusive other hother
    · rw [hstored] at hrecord'
      split at hrecord'
      · cases hrecord'
      · exact h.tidy.acknowledged other record' hrecord'
  · intro other hother
    rw [hwater]
    exact hother
  · intro eventId hnone
    rw [hledger]
    unfold Ledger.identity Ledger.buffered at hnone ⊢
    rw [Option.or_eq_none_iff] at hnone ⊢
    -- Rows only go, so no event becomes known.
    exact ⟨hnone.1, by simp [hnone.2]⟩

/-! ### What happens to the buffer -/

/-- The identity of an event, as the journal reads it. -/
theorem Linked.buffered (h : Linked platform s) {eventId : Text} {item : PendingEvent}
    (hitem : s.pending.get eventId = some item) :
    (ledger platform s).buffered eventId = some (entryOf platform item.event) := by
  have hmem : entryOf platform item.event ∈ (ledger platform s).buffer :=
    List.mem_map_of_mem (List.mem_map_of_mem ((s.pending.mem_values_iff item).mpr ⟨_, hitem⟩))
  have hfound := h.sound.buffered_of_mem hmem
  rw [show (entryOf platform item.event).id = eventId from (h.item eventId item hitem).1] at hfound
  exact hfound

theorem Linked.pending_none (h : Linked platform s) {eventId : Text}
    (hnone : (ledger platform s).identity eventId = none) : s.pending.get eventId = none := by
  cases hget : s.pending.get eventId with
  | none => rfl
  | some item =>
      have hbuffered := (Option.or_eq_none_iff.mp hnone).1
      rw [h.buffered hget] at hbuffered
      cases hbuffered

def KnownEvent.entry (eventId : Text) (known : KnownEvent) : Entry Text Text EventIdentity where
  id := eventId
  stream := known.sessionId
  sequence := known.sequence
  content := known.digest

theorem Linked.identity (h : Linked platform s) (eventId : Text) :
    (ledger platform s).identity eventId = (s.identity eventId).map (KnownEvent.entry eventId) := by
  unfold State.identity Ledger.identity
  cases hget : s.pending.get eventId with
  | some item =>
      have hitem := h.item eventId item hget
      rw [h.buffered hget]
      simp only [Option.some_or, Option.map_some, entryOf, KnownEvent.entry, hitem.1, hitem.2]
  | none =>
      have hbuffered : (ledger platform s).buffered eventId = none := by
        unfold Ledger.buffered
        rw [List.find?_eq_none]
        intro e he
        rcases List.mem_map.mp he with ⟨event, hevent, rfl⟩
        rcases List.mem_map.mp hevent with ⟨item, hitem, rfl⟩
        rcases (s.pending.mem_values_iff item).mp hitem with ⟨k, hk⟩
        rw [← (h.item k item hk).1] at hk
        have hne : item.event.eventId ≠ eventId := by
          rintro rfl
          rw [hget] at hk
          cases hk
        exact fun hid => hne (of_decide_eq_true hid)
      rw [hbuffered, Option.none_or]
      change (s.db.events.get eventId).map (rowEntry eventId) = _
      rw [Option.map_map]
      rfl

/-- The buffered watermark of a session. -/
theorem Linked.ahead (h : Linked platform s) (sessionId : Text) :
    (ledger platform s).ahead sessionId =
      (s.pendingWater.get sessionId).or (s.db.water sessionId) := by
  unfold Ledger.ahead
  rw [← h.marks]
  rfl

/-- An event enters the buffer that is new and numbered above its session. -/
theorem Linked.buffer (h : Linked platform s) (event : SessionEvent)
    (hnew : (ledger platform s).identity event.eventId = none) (n : Nat)
    (hahead : (ledger platform s).ahead event.sessionId = some n) (hn : n < event.sequence)
    (hapart : event.eventId ∉ (suspended s.stack).map SessionEvent.eventId)
    (hout : outbox s.stack = []) :
    Reaches platform s (s.buffer platform event (eventDigest platform event)) := by
  have hnone := h.pending_none hnew
  have hmove := Move.enqueue (ledger platform s) (entryOf platform event) n hnew hahead hn
  have hbuffer : (s.buffer platform event (eventDigest platform event)).buffered =
      s.buffered ++ [event] := by
    unfold State.buffered State.buffer
    rw [Table.values_set_new _ _ hnone, List.map_append, List.map_singleton]
  have hledger : ledger platform (s.buffer platform event (eventDigest platform event)) =
      { ledger platform s with
        buffer := (ledger platform s).buffer ++ [entryOf platform event] } := by
    unfold Journal.ledger
    simp only [hbuffer, List.map_append, List.map_singleton]
    rfl
  have hmoves : Moves (ledger platform s)
      (ledger platform (s.buffer platform event (eventDigest platform event))) := by
    rw [hledger]
    exact Relation.ReflTransGen.single hmove
  refine
    ⟨hmoves,
      { tidy := h.tidy
        sound := h.sound.moves hmoves
        item := ?_
        marks := ?_
        below := h.below
        durable := by
          change ∀ event ∈ outbox s.stack, _
          simp [hout]
        ready := ?_
        apart := h.apart
        returned := ?_ }, rfl⟩
  · intro eventId item hitem
    simp only [State.buffer, Table.get_set] at hitem
    split at hitem
    · rename_i hid
      cases hitem
      exact ⟨hid.symm, rfl⟩
    · exact h.item eventId item hitem
  · intro sessionId
    rw [hledger]
    simp only [State.buffer, Table.get_set, last_append, last, Option.none_or, entryOf]
    by_cases hid : sessionId = event.sessionId
    · rw [if_pos hid, if_pos hid.symm, Option.some_or]
    · rw [if_neg hid, if_neg (Ne.symm hid), Option.none_or]
      exact h.marks sessionId
  · intro frame hframe
    have hready := h.ready frame hframe
    cases hkont : frame.kont with
    | appendMid other digest =>
        rw [hkont] at hready
        -- Another call waits for another event.
        have hne : event.eventId ≠ other.eventId := by
          intro hid
          refine hapart (List.mem_map.mpr ⟨other, ?_, hid.symm⟩)
          exact List.mem_filterMap.mpr ⟨frame, hframe, by rw [hkont]; rfl⟩
        refine ⟨hready.1, ?_, hready.2.2⟩
        rw [hledger]
        have hparts := Option.or_eq_none_iff.mp hready.2.1
        refine Option.or_eq_none_iff.mpr ⟨?_, hparts.2⟩
        unfold Ledger.buffered at hparts ⊢
        rw [List.find?_append, hparts.1, Option.none_or]
        simp [entryOf, hne]
    | appended other =>
        rw [hkont] at hready
        intro hlive
        exact hmoves.identity_kept (hready hlive) hlive
    | operation operation =>
        rw [hkont] at hready
        exact hready
    | timer => trivial
  · intro other hother hlive
    exact hmoves.identity_kept (h.returned other hother hlive) hlive

/-- The buffer is committed and its call waits for the observer. -/
theorem Linked.flushed (h : Linked platform s) (hout : outbox s.stack = []) {kont : Kont}
    (hready : kont.Ready platform (ledger platform s))
    (hapart : ∀ event, kont.suspended = some event →
      event.eventId ∉ (suspended s.stack).map SessionEvent.eventId)
    {db : Db} (hdb : commitBatch platform s.pending.values s.db = .ok db) :
    Reaches platform s (s.flushed kont db) := by
  have hcommitted := commitBatch_ok platform h.tidy.keyed hdb
  have hentries : s.pending.values.map (entryOfItem platform) = (ledger platform s).buffer := by
    change _ = (s.pending.values.map PendingEvent.event).map (entryOf platform)
    rw [List.map_map]
    rfl
  have hwater : db.water = (ledger platform s).ahead := by
    funext sessionId
    rw [hcommitted.water, hentries]
    rfl
  have hrow : ∀ item ∈ s.pending.values,
      rowEntry item.event.eventId (rowOf item) = entryOf platform item.event := by
    intro item hitem
    rcases (s.pending.mem_values_iff item).mp hitem with ⟨k, hk⟩
    unfold rowEntry rowOf entryOf
    rw [(h.item k item hk).2]
  have hrows : ∀ eventId, (db.events.get eventId).map (rowEntry eventId) =
      (ledger platform s).identity eventId := by
    intro eventId
    cases hget : s.pending.get eventId with
    | some item =>
        have hitem := (s.pending.mem_values_iff item).mpr ⟨eventId, hget⟩
        have hid := (h.item eventId item hget).1
        have hinserted := hcommitted.inserted item hitem
        unfold Ledger.identity
        rw [h.buffered hget, Option.some_or, ← hrow item hitem, ← hid, hinserted]
        rfl
    | none =>
        rw [h.identity]
        unfold State.identity
        rw [hget, hcommitted.others, Option.map_map]
        · rfl
        · intro item hitem hid
          rcases (s.pending.mem_values_iff item).mp hitem with ⟨k, hk⟩
          rw [← (h.item k item hk).1, hid, hget] at hk
          cases hk
  have hledger : ledger platform (s.flushed kont db) =
      { ledger platform s with
        water := (ledger platform s).ahead
        rows := (ledger platform s).identity
        buffer := []
        outbox := (ledger platform s).buffer
        log := (ledger platform s).log ++ (ledger platform s).buffer } := by
    unfold Journal.ledger State.flushed
    simp only [hwater, hrows, hcommitted.retired, List.map_append]
    rfl
  have hmoves : Moves (ledger platform s) (ledger platform (s.flushed kont db)) := by
    rw [hledger]
    refine Relation.ReflTransGen.single (Move.commit (ledger platform s) ?_)
    change (outbox s.stack).map (entryOf platform) = []
    rw [hout]
    rfl
  -- Committing makes nothing known that was not, and forgets nothing.
  have hidentity : ∀ eventId, (ledger platform (s.flushed kont db)).identity eventId =
      (ledger platform s).identity eventId := by
    intro eventId
    rw [hledger]
    rfl
  have hpersists : ∀ k : Kont, k.Ready platform (ledger platform s) →
      k.Ready platform (ledger platform (s.flushed kont db)) := by
    intro k hk
    cases k with
    | appendMid event digest =>
        refine ⟨hk.1, (hidentity _).trans hk.2.1, ?_⟩
        rw [hledger]
        rcases Option.isSome_iff_exists.mp hk.2.2 with ⟨n, hn⟩
        rcases h.sound.water_le_ahead hn with ⟨m, hm, _⟩
        exact Option.isSome_iff_exists.mpr ⟨m, hm⟩
    | appended event =>
        intro hlive
        rw [hidentity]
        refine hk fun hretired => hlive ?_
        rw [hledger]
        exact hretired
    | operation operation => exact hk
    | timer => trivial
  refine
    ⟨hmoves,
      { tidy := hcommitted.tidy platform h.tidy ?_
        sound := h.sound.moves hmoves
        item := by
          intro eventId item hitem
          cases hitem
        marks := by
          intro sessionId
          rw [hledger]
          rfl
        below := ?_
        durable := ?_
        ready := ?_
        apart := ?_
        returned := by
          intro event hevent
          cases hevent }, rfl⟩
  · intro item hitem record hrecord
    have hmem : entryOf platform item.event ∈ (ledger platform s).buffer := by
      rw [← hentries]
      exact List.mem_map_of_mem hitem
    rcases h.sound.buffer_above _ hmem with ⟨n, hn, hlt⟩
    have hwater' : s.db.water item.event.sessionId = some record.highWater := by
      unfold Db.water
      rw [hrecord]
      rfl
    change s.db.water item.event.sessionId = some n at hn
    rw [hwater', Option.some.injEq] at hn
    rw [hn]
    exact hlt
  · intro frame hframe
    change frame ∈ s.stack at hframe
    cases hstack : s.stack with
    | nil =>
        rw [hstack] at hframe
        cases hframe
    | cons top rest =>
        rw [hstack] at hframe
        rcases List.mem_cons.mp hframe with rfl | hframe
        · rw [hstack] at hout
          cases frame with
          | publish batch k => exact hout
          | observing k => rfl
        · exact h.below frame (by rw [hstack]; exact hframe)
  · intro event hevent
    change event ∈ s.buffered at hevent
    rcases List.mem_map.mp hevent with ⟨item, hitem, rfl⟩
    exact ⟨rowOf item, hcommitted.inserted item hitem, rfl, hrow item hitem⟩
  · intro frame hframe
    rcases List.mem_cons.mp hframe with rfl | hframe
    · exact hpersists kont hready
    · exact hpersists frame.kont (h.ready frame hframe)
  · change ((suspended (.publish s.buffered kont :: s.stack)).map SessionEvent.eventId).Nodup
    rw [suspended_cons]
    change (List.map SessionEvent.eventId (kont.suspended.toList ++ suspended s.stack)).Nodup
    cases hkont : kont.suspended with
    | none => exact h.apart
    | some event => exact List.nodup_cons.mpr ⟨hapart event hkont, h.apart⟩

end

end

end Journal

end CopilotFleet
