import CopilotFleet.Node.JournalOperations

/-!
# The Quota of the Session Journal

The journal keeps a total of the bytes of its rows, and a transaction that would
leave the total over the quota is rolled back. An accepted operation needs more
bytes later than it is stored with: a Node that is opened again writes what it
does not know about the operation into it. A journal that is full could then not
be opened at all, so a row is accounted with the bytes of whichever of its two
records is longer.

What a call does to the tables is a series of statements (`Written`), and at most
one transaction ends in it (`Moves`). The total is the sum of the rows
(`Db.Balanced`) and the rows are accounted with what they may need
(`Db.Reserved`) because every statement keeps both. Making an operation
uncertain then writes a row that is no longer than the one it replaces, so a
journal within its quota always opens (`full_journal_reopens`).

## Main definitions

* `Db.accounted`: The bytes of the rows of every table.
* `Db.Balanced`, `Db.Reserved`: What the statements keep.
* `Written`: What statements make of the tables.
* `Moves`: What a call does to the tables.
* `Reopened`: What opening a journal comes to.

## Theorems

* `Written.balanced`, `Written.reserved`: Every statement keeps both.
* `step_moves`: What an input does to the tables.
* `recover_le`: Recovering operations takes no bytes.
* `full_journal_reopens`: A journal within its quota opens.
-/

namespace CopilotFleet

namespace Journal

open Utf16

section

variable {platform : Platform} {db db' : Db}

/-! ### What the rows are accounted for -/

/-- The bytes of the rows of every table. -/
def Db.accounted (db : Db) : Nat :=
  db.sessions.total SessionRow.bytes + db.retired.total RetiredRow.bytes +
    db.events.total EventRow.bytes + db.operations.total OperationRow.bytes +
    db.permissions.total PermissionRow.bytes

/-- The stored total is the sum over the rows. -/
def Db.Balanced (db : Db) : Prop := db.storage = db.accounted

/-- An operation as a Node records it that is opened again. -/
def uncertain (operation : LocalSessionOperation) : LocalSessionOperation :=
  { operation with state := .uncertain, error := some reopenError }

/-- The bytes `saveOperation` accounts a row with. -/
def reservedBytes (platform : Platform) (operation : LocalSessionOperation) : Nat :=
  max (platform.operationBytes operation) (platform.operationBytes (uncertain operation)) +
    byteLength operation.id + byteLength operation.sessionId

/-- Every operation is accounted with what it needs to become uncertain. -/
def Db.Reserved (platform : Platform) (db : Db) : Prop :=
  ∀ id row, db.operations.get id = some row → row.bytes = reservedBytes platform row.operation

theorem balanced_empty : Db.empty.Balanced := rfl

theorem reserved_empty : Db.empty.Reserved platform := nofun

theorem Db.Balanced.putSession (h : db.Balanced) (record : StoredSession) :
    (db.putSession platform record).Balanced := by
  have hset := db.sessions.total_set record.session.id
    { record
      bytes := platform.sessionBytes record + byteLength record.session.id +
        byteLength record.hostId } SessionRow.bytes
  dsimp only at hset
  unfold Db.Balanced Db.accounted at h ⊢
  simp only [Db.putSession]
  omega

theorem Db.Balanced.putOperation (h : db.Balanced) (operation : LocalSessionOperation) :
    (db.putOperation platform operation).Balanced := by
  have hset := db.operations.total_set operation.id
    { operation, bytes := reservedBytes platform operation } OperationRow.bytes
  unfold Db.Balanced Db.accounted at h ⊢
  simp only [Db.putOperation]
  simp only [reservedBytes, uncertain] at hset
  omega

theorem Db.Balanced.putPermission (h : db.Balanced) (event : SessionEvent) (requestId : Text) :
    (db.putPermission platform event requestId).Balanced := by
  have hset := db.permissions.total_set (event.sessionId, requestId)
    { data := event
      bytes := platform.eventBytes event + byteLength requestId + byteLength event.sessionId }
    PermissionRow.bytes
  dsimp only at hset
  unfold Db.Balanced Db.accounted at h ⊢
  simp only [Db.putPermission]
  omega

theorem Db.Balanced.insertEvent (h : db.Balanced) {event : SessionEvent} {digest : EventIdentity}
    {bytes : Nat} (hdb : db.insertEvent event digest bytes = .ok db') : db'.Balanced := by
  unfold Db.insertEvent at hdb
  split at hdb
  · cases hdb
  · rename_i hnew
    split at hdb
    · cases hdb
    · split at hdb
      · cases hdb
      · have hset := db.events.total_set event.eventId
          { sessionId := event.sessionId
            sequence := event.sequence
            digest
            data := some event
            bytes } EventRow.bytes
        rw [Option.not_isSome_iff_eq_none] at hnew
        simp only [hnew, Option.map_none, Option.getD_none] at hset
        cases hdb
        unfold Db.Balanced Db.accounted at h ⊢
        simp only []
        omega

theorem Db.Balanced.insertRetired (h : db.Balanced) {sessionId : Text} {row : RetiredRow}
    (hdb : db.insertRetired sessionId row = .ok db') : db'.Balanced := by
  unfold Db.insertRetired at hdb
  split at hdb
  · cases hdb
  · rename_i hnew
    have hset := db.retired.total_set sessionId row RetiredRow.bytes
    rw [Option.not_isSome_iff_eq_none] at hnew
    simp only [hnew, Option.map_none, Option.getD_none] at hset
    cases hdb
    unfold Db.Balanced Db.accounted at h ⊢
    simp only []
    omega

theorem Db.Balanced.trimEvents (h : db.Balanced) (sessionId : Text) (throughSequence : Nat) :
    (db.trimEvents sessionId throughSequence).Balanced := by
  unfold Db.Balanced Db.accounted at h ⊢
  simp only [Db.trimEvents, Table.total]
  simp only [Table.total] at h
  omega

theorem Db.Balanced.deleteSession (h : db.Balanced) (sessionId : Text) :
    (db.deleteSession sessionId).Balanced := by
  have hsessions := db.sessions.total_erase sessionId SessionRow.bytes
  have hevents := db.events.total_keep_values (fun row => row.sessionId = sessionId) EventRow.bytes
  have hoperations := db.operations.total_keep_values
    (fun row => row.operation.sessionId = sessionId) OperationRow.bytes
  have hpermissions := db.permissions.total_keep (fun key _ => key.1 = sessionId)
    PermissionRow.bytes
  unfold Db.Balanced Db.accounted at h ⊢
  simp only [Db.deleteSession, Db.rowBytes, ne_eq, decide_not]
  omega

theorem Db.Balanced.deleteRetired (h : db.Balanced) (hostId : Text) :
    Db.Balanced
      { db with
        retired := db.retired.keep fun _ row => row.hostId ≠ hostId
        storage := db.storage -
          (((db.retired.values.filter fun row => row.hostId = hostId).map RetiredRow.bytes).sum :
            Nat) } := by
  have hretired := db.retired.total_keep_values (fun row => row.hostId = hostId) RetiredRow.bytes
  unfold Db.Balanced Db.accounted at h ⊢
  simp only [ne_eq, decide_not]
  omega

theorem Db.Balanced.purgeHost (h : db.Balanced) (hostId : Text) :
    (db.purgeHost hostId).Balanced := by
  have hdeleted := Run.foldl_visits (f := Db.deleteSession) (fun _ t => t.Balanced)
    (fun sessionId _ t ht => ht.deleteSession sessionId)
    ((db.sessions.entries.filter fun entry => entry.2.record.hostId = hostId).map Prod.fst) db h
  exact hdeleted.deleteRetired hostId

/-! Only an operation that is saved changes what operations are accounted for. -/

theorem Db.Reserved.of_operations (h : db.Reserved platform)
    (hdb : ∀ id row, db'.operations.get id = some row → db.operations.get id = some row) :
    db'.Reserved platform :=
  fun id row hrow => h id row (hdb id row hrow)

theorem Db.Reserved.putOperation (h : db.Reserved platform) (operation : LocalSessionOperation) :
    (db.putOperation platform operation).Reserved platform := by
  intro id row hrow
  unfold Db.putOperation at hrow
  rcases Table.get_set_some hrow with ⟨_, rfl⟩ | ⟨_, hrow⟩
  · rfl
  · exact h id row hrow

theorem deleteSession_operations (sessionId : Text) {id : Text} {row : OperationRow}
    (h : (db.deleteSession sessionId).operations.get id = some row) :
    db.operations.get id = some row := by
  unfold Db.deleteSession at h
  rw [Table.get_keep, Option.filter_eq_some_iff] at h
  exact h.1

theorem Db.Reserved.deleteSession (h : db.Reserved platform) (sessionId : Text) :
    (db.deleteSession sessionId).Reserved platform :=
  h.of_operations fun _ _ => deleteSession_operations sessionId

theorem Db.Reserved.purgeHost (h : db.Reserved platform) (hostId : Text) :
    (db.purgeHost hostId).Reserved platform := by
  have hdeleted := Run.foldl_visits (f := Db.deleteSession) (fun _ t => t.Reserved platform)
    (fun sessionId _ t ht => ht.deleteSession sessionId)
    ((db.sessions.entries.filter fun entry => entry.2.record.hostId = hostId).map Prod.fst) db h
  exact hdeleted.of_operations fun _ _ hrow => hrow

/-! ### What a call does to the tables -/

/-- What statements make of the tables. -/
inductive Written (platform : Platform) (db : Db) : Db → Prop where
  | nothing : Written platform db db
  | session {db₁ : Db} (record : StoredSession) :
      Written platform db db₁ → Written platform db (db₁.putSession platform record)
  | operation {db₁ : Db} (operation : LocalSessionOperation) :
      Written platform db db₁ → Written platform db (db₁.putOperation platform operation)
  | permission {db₁ : Db} (event : SessionEvent) (requestId : Text) :
      Written platform db db₁ →
        Written platform db (db₁.putPermission platform event requestId)
  | event {db₁ db₂ : Db} {event : SessionEvent} {digest : EventIdentity} {bytes : Nat} :
      Written platform db db₁ → db₁.insertEvent event digest bytes = .ok db₂ →
        Written platform db db₂
  | retired {db₁ db₂ : Db} {sessionId : Text} {row : RetiredRow} :
      Written platform db db₁ → db₁.insertRetired sessionId row = .ok db₂ →
        Written platform db db₂
  | deletion {db₁ : Db} (sessionId : Text) :
      Written platform db db₁ → Written platform db (db₁.deleteSession sessionId)
  | purge {db₁ : Db} (hostId : Text) :
      Written platform db db₁ → Written platform db (db₁.purgeHost hostId)
  | trim {db₁ : Db} (sessionId : Text) (throughSequence : Nat) :
      Written platform db db₁ → Written platform db (db₁.trimEvents sessionId throughSequence)

theorem Written.balanced (h : Written platform db db') (hdb : db.Balanced) : db'.Balanced := by
  induction h with
  | nothing => exact hdb
  | session record _ ih => exact ih.putSession record
  | operation operation _ ih => exact ih.putOperation operation
  | permission event requestId _ ih => exact ih.putPermission event requestId
  | event _ hinsert ih => exact ih.insertEvent hinsert
  | retired _ hinsert ih => exact ih.insertRetired hinsert
  | deletion sessionId _ ih => exact ih.deleteSession sessionId
  | purge hostId _ ih => exact ih.purgeHost hostId
  | trim sessionId throughSequence _ ih => exact ih.trimEvents sessionId throughSequence

theorem Written.reserved (h : Written platform db db') (hdb : db.Reserved platform) :
    db'.Reserved platform := by
  induction h with
  | nothing => exact hdb
  | session record _ ih => exact ih.of_operations fun _ _ hrow => hrow
  | operation operation _ ih => exact ih.putOperation operation
  | permission event requestId _ ih => exact ih.of_operations fun _ _ hrow => hrow
  | event _ hinsert ih =>
      refine ih.of_operations fun id row hrow => ?_
      rw [← (insertEvent_ok hinsert).2.2.2.1]
      exact hrow
  | retired _ hinsert ih =>
      refine ih.of_operations fun id row hrow => ?_
      unfold Db.insertRetired at hinsert
      split at hinsert
      · cases hinsert
      · cases hinsert
        exact hrow
  | deletion sessionId _ ih => exact ih.deleteSession sessionId
  | purge hostId _ ih => exact ih.purgeHost hostId
  | trim sessionId throughSequence _ ih => exact ih.of_operations fun _ _ hrow => hrow

/-- A loop that saves records. -/
theorem Written.saves {db₁ : Db} (h : Written platform db db₁) (records : List StoredSession) :
    Written platform db (records.foldl (Db.putSession platform) db₁) :=
  Run.foldl_visits (fun _ t => Written platform db t) (fun record _ _ ht => ht.session record)
    records db₁ h

theorem Written.commitEvents {batch batch' : Batch} {items : List PendingEvent}
    (h : Written platform db batch.db) (hok : commitEvents platform batch items = .ok batch') :
    Written platform db batch'.db := by
  induction items generalizing batch with
  | nil =>
      cases hok
      exact h
  | cons item rest ih =>
      rw [Journal.commitEvents] at hok
      split at hok
      · cases hok
      · rename_i batch₁ hitem
        refine ih ?_ hok
        unfold commitEvent at hitem
        split at hitem
        · cases hitem
        · rename_i db₁ hinsert
          split at hitem
          · cases hitem
          · split at hitem
            · cases hitem
            · cases hitem
              have hinserted := h.event hinsert
              dsimp only
              cases platform.requestId item.event with
              | none => exact hinserted
              | some requestId => exact hinserted.permission item.event requestId

theorem Written.commitBatch {items : List PendingEvent}
    (hok : commitBatch platform items db = .ok db') : Written platform db db' := by
  unfold Journal.commitBatch at hok
  split at hok
  · cases hok
  · rename_i batch hbatch
    cases hok
    have hempty : Written platform db { db, sessions := Table.empty : Batch }.db := .nothing
    have hevents : Written platform db batch.db := hempty.commitEvents hbatch
    exact hevents.saves batch.sessions.values

/-- What a call does: the tables stay, or a transaction of a journal that is open
    leaves them within its quota. A journal that is closed stays closed. -/
structure Moves (platform : Platform) (s s' : State) : Prop where
  options : s'.options = s.options
  closed : s.closed = true → s'.closed = true
  tables : s'.db = s.db ∨
    s.closed = false ∧ Written platform s.db s'.db ∧ s'.db.storage ≤ s.options.maxBytes

section

variable {s s' : State} {choice : Choice} {rest : State → State}

theorem Moves.same (hoptions : s'.options = s.options)
    (hclosed : s.closed = true → s'.closed = true) (hdb : s'.db = s.db) : Moves platform s s' :=
  ⟨hoptions, hclosed, .inl hdb⟩

theorem Moves.refl (s : State) : Moves platform s s := Moves.same rfl id rfl

theorem Written.trans {a b c : Db} (hab : Written platform a b) (hbc : Written platform b c) :
    Written platform a c := by
  induction hbc with
  | nothing => exact hab
  | session record _ ih => exact ih.session record
  | operation operation _ ih => exact ih.operation operation
  | permission event requestId _ ih => exact ih.permission event requestId
  | event _ hinsert ih => exact ih.event hinsert
  | retired _ hinsert ih => exact ih.retired hinsert
  | deletion sessionId _ ih => exact ih.deletion sessionId
  | purge hostId _ ih => exact ih.purge hostId
  | trim sessionId throughSequence _ ih => exact ih.trim sessionId throughSequence

theorem Moves.trans {a b c : State} (hab : Moves platform a b) (hbc : Moves platform b c) :
    Moves platform a c where
  options := hbc.options.trans hab.options
  closed := fun hclosed => hbc.closed (hab.closed hclosed)
  tables := by
    rcases hbc.tables with hdb | ⟨hopen, hwritten, hstorage⟩
    · rw [hdb]
      exact hab.tables
    · have hopen' : a.closed = false := by
        cases hclosed : a.closed with
        | false => rfl
        | true => rw [hab.closed hclosed] at hopen; cases hopen
      rw [hab.options] at hstorage
      rcases hab.tables with hdb | ⟨_, hwritten', _⟩
      · rw [hdb] at hwritten
        exact .inr ⟨hopen', hwritten, hstorage⟩
      · exact .inr ⟨hopen', hwritten'.trans hwritten, hstorage⟩

theorem Moves.throwing (error : Text) : Moves platform s (s.throwing error) :=
  Moves.same rfl id rfl

theorem Moves.fail (error : Text) : Moves platform s (s.fail error) := Moves.same rfl id rfl

theorem Moves.finished (outcome : Outcome) : Moves platform s (s.finished outcome) :=
  Moves.same rfl id rfl

/-! Each piece of a call either gives up or goes on. -/

theorem Moves.writing (hrest : s.closed = false → Moves platform s (rest s)) :
    Moves platform s (s.writing rest) := by
  unfold State.writing State.blocked
  cases hclosed : s.closed with
  | true => exact Moves.throwing closedError
  | false =>
      cases s.failure with
      | some error => exact Moves.throwing error
      | none => exact hrest hclosed

theorem Moves.reading (hrest : Moves platform s (rest s)) :
    Moves platform s (s.reading choice rest) := by
  unfold State.reading
  by_cases hclosed : s.closed
  · rw [if_pos hclosed]
    exact Moves.throwing closedError
  · rw [if_neg hclosed]
    cases choice.readFault with
    | some error => exact Moves.fail error
    | none => exact hrest

theorem Moves.requiring {sessionId : Text} {rest : StoredSession → State → State}
    (hrest : ∀ record, Moves platform s (rest record s)) :
    Moves platform s (s.requiring choice sessionId rest) := by
  unfold State.requiring
  refine Moves.reading ?_
  cases s.db.stored sessionId with
  | none => exact Moves.throwing notEnabledError
  | some record => exact hrest record

theorem Moves.safely {value : Nat} (hrest : Moves platform s (rest s)) :
    Moves platform s (s.safely value rest) := by
  unfold State.safely
  by_cases hsafe : maxSafeInteger < value
  · rw [if_pos hsafe]
    exact Moves.throwing integerError
  · rw [if_neg hsafe]
    exact hrest

/-- What a transaction commits is within the quota. -/
theorem committed_ok {options : Options} {body : Db → Except Text Db}
    (h : committed options choice db body = .ok db') :
    body db = .ok db' ∧ db'.storage ≤ options.maxBytes := by
  unfold committed at h
  split at h
  · cases h
  · split at h
    · cases h
    · rename_i db₁ hbody
      split at h
      · cases h
      · rename_i hquota
        cases h
        exact ⟨hbody, Int.not_lt.mp hquota⟩

theorem Moves.transaction {body : Db → Except Text Db}
    (hbody : ∀ db, body s.db = .ok db → Written platform s.db db)
    (hrest : ∀ t, Moves platform t (rest t)) :
    Moves platform s (s.transaction choice body rest) := by
  unfold State.transaction
  refine Moves.writing fun hopen => ?_
  cases hcommitted : committed s.options choice s.db body with
  | error error => exact Moves.fail error
  | ok db =>
      rcases committed_ok hcommitted with ⟨hok, hquota⟩
      have hcommits : Moves platform s { s with db } :=
        ⟨rfl, id, .inr ⟨hopen, hbody db hok, hquota⟩⟩
      exact hcommits.trans (hrest _)

theorem Moves.flush {kont : Kont} (hrest : ∀ t, Moves platform t (rest t)) :
    Moves platform s (flush platform choice s kont rest) := by
  unfold Journal.flush
  refine Moves.writing fun _ => ?_
  have htimer : Moves platform s { s with timer := false } := Moves.same rfl id rfl
  by_cases hempty : s.pending.entries = []
  · simp only [hempty, if_true]
    exact htimer.trans (hrest _)
  · simp only [hempty, if_false]
    exact htimer.trans (Moves.transaction (fun db hok => Written.commitBatch hok)
      fun t => Moves.same rfl id rfl)

/-! Every call is made of such pieces. -/

theorem Moves.enqueue (event : SessionEvent) (digest : EventIdentity) :
    Moves platform s (enqueue platform choice event digest s) := by
  unfold Journal.enqueue
  refine Moves.writing fun _ => Moves.reading ?_
  split
  · exact Moves.fail storageFullError
  · have hbuffer : Moves platform s (s.buffer platform event digest) := Moves.same rfl id rfl
    dsimp only
    split
    · exact hbuffer.trans (Moves.flush fun t => Moves.finished _)
    · exact Moves.same rfl id rfl

theorem Moves.renumber (event : SessionEvent) (digest : EventIdentity) :
    Moves platform s (renumber platform choice event digest s) := by
  unfold Journal.renumber
  exact Moves.reading (Moves.safely (Moves.enqueue _ digest))

theorem Moves.append (event : SessionEvent) :
    Moves platform s (append platform choice event s) := by
  unfold Journal.append
  refine Moves.writing fun _ => ?_
  split
  · exact Moves.throwing invalidEventError
  · refine Moves.requiring fun record => ?_
    split
    · split
      · exact Moves.throwing conflictError
      · exact Moves.finished _
    · refine Moves.safely ?_
      dsimp only
      split
      · exact Moves.flush fun t => Moves.renumber _ _
      · exact Moves.enqueue _ _

/-- A transaction that saves the record of a session, and the call is done. -/
theorem Moves.saves (record : StoredSession) (outcome : Outcome) :
    Moves platform s (s.transaction choice (fun db => .ok (db.putSession platform record))
      (State.finished · outcome)) := by
  refine Moves.transaction (fun db hok => ?_) fun t => Moves.finished outcome
  cases hok
  exact Written.nothing.session record

theorem Moves.finishEnable (hostId grantId : Text) (session : JournalSession)
    (controlEpoch sequenceOffset : Nat) :
    Moves platform s
      (finishEnable platform choice hostId grantId session controlEpoch sequenceOffset s) := by
  unfold Journal.finishEnable
  refine Moves.reading ?_
  split
  · exact Moves.throwing retiredError
  · split
    · exact Moves.throwing bindingError
    · exact Moves.saves _ .done

theorem Moves.finishUpdate (session : JournalSession) :
    Moves platform s (finishUpdate platform choice session s) := by
  unfold Journal.finishUpdate
  refine Moves.requiring fun record => ?_
  split
  · exact Moves.throwing _
  · exact Moves.saves _ .done

theorem Moves.acknowledge (sessionId : Text) (throughSequence : Nat) :
    Moves platform s (acknowledge platform choice sessionId throughSequence s) := by
  unfold Journal.acknowledge
  refine Moves.writing fun _ => Moves.safely (Moves.requiring fun record => ?_)
  split
  · exact Moves.throwing _
  · split
    · exact Moves.finished .done
    · exact Moves.saves _ .done

theorem Moves.acknowledgeControl (sessionId : Text) (throughEpoch : Nat) :
    Moves platform s (acknowledgeControl platform choice sessionId throughEpoch s) := by
  unfold Journal.acknowledgeControl
  refine Moves.writing fun _ => Moves.safely (Moves.requiring fun record => ?_)
  split
  · exact Moves.throwing _
  · split
    · exact Moves.finished .done
    · exact Moves.saves _ .done

theorem Moves.acknowledgeBatch (acknowledgements : List Acknowledgement) :
    Moves platform s (acknowledgeBatch platform choice acknowledgements s) := by
  unfold Journal.acknowledgeBatch
  refine Moves.writing fun _ => Moves.reading ?_
  cases acknowledgeAll s.db Table.empty acknowledgements with
  | error error => exact Moves.throwing error
  | ok changed =>
      dsimp only
      split
      · exact Moves.finished .done
      · refine Moves.transaction (fun db hok => ?_) fun t => Moves.finished .done
        cases hok
        exact Written.nothing.saves changed.values

/-- A transaction that saves an operation, and its session with it. -/
theorem Moves.controls (record : StoredSession) (operation : LocalSessionOperation)
    (outcome : Outcome) :
    Moves platform s (s.transaction choice (saveControlled platform record operation)
      (State.finished · outcome)) := by
  refine Moves.transaction (fun db hok => ?_) fun t => Moves.finished outcome
  cases hok
  exact (Written.nothing.session _).operation operation

theorem Moves.finishAccept (id sessionId : Text) (action : OperationAction) (payload : Text)
    (queued : Bool) (origin : OperationOrigin) :
    Moves platform s
      (finishAccept platform choice id sessionId action payload queued origin s) := by
  unfold Journal.finishAccept
  refine Moves.requiring fun record => ?_
  split
  · split
    · exact Moves.throwing _
    · exact Moves.finished _
  · exact Moves.safely (Moves.controls record _ _)

theorem Moves.finishBegin (id : Text) : Moves platform s (finishBegin platform choice id s) := by
  unfold Journal.finishBegin
  refine Moves.reading ?_
  split
  · exact Moves.throwing _
  · split
    · exact Moves.throwing _
    · exact Moves.requiring fun record => Moves.safely (Moves.controls record _ _)

/-- A transaction that saves an operation alone. -/
theorem Moves.rewrites (operation : LocalSessionOperation) (outcome : Outcome) :
    Moves platform s (s.transaction choice (fun db => .ok (db.putOperation platform operation))
      (State.finished · outcome)) := by
  refine Moves.transaction (fun db hok => ?_) fun t => Moves.finished outcome
  cases hok
  exact Written.nothing.operation operation

theorem Moves.prioritizeOperation (id : Text) :
    Moves platform s (prioritizeOperation platform choice id s) := by
  unfold Journal.prioritizeOperation
  refine Moves.writing fun _ => Moves.reading ?_
  split
  · exact Moves.throwing _
  · split
    · exact Moves.throwing _
    · split
      · exact Moves.finished .done
      · exact Moves.safely (Moves.rewrites _ .done)

theorem Moves.finishSettle (id : Text) (state : OperationState) (error : Option Text) :
    Moves platform s (finishSettle platform choice id state error s) := by
  unfold Journal.finishSettle
  refine Moves.reading ?_
  split
  · exact Moves.throwing _
  · split
    · exact Moves.finished .done
    · split
      · exact Moves.throwing _
      · exact Moves.rewrites _ .done

theorem Moves.checkpoint : Moves platform s (checkpoint choice s) := by
  unfold Journal.checkpoint
  cases choice.lateFault with
  | some error => exact Moves.fail error
  | none => exact Moves.finished .done

theorem Moves.trimAcknowledged (sessionId : Text) (throughSequence : Nat) :
    Moves platform s (trimAcknowledged platform choice sessionId throughSequence s) := by
  unfold Journal.trimAcknowledged
  refine Moves.writing fun _ => Moves.safely (Moves.requiring fun record => ?_)
  split
  · exact Moves.throwing _
  · refine Moves.transaction (fun db hok => ?_) fun t => Moves.checkpoint
    cases hok
    have htrim : Written platform s.db (s.db.trimEvents sessionId throughSequence) :=
      Written.nothing.trim sessionId throughSequence
    split
    · exact htrim
    · exact htrim.session _

theorem Moves.finishRetire (sessionId : Text) :
    Moves platform s (finishRetire choice sessionId s) := by
  unfold Journal.finishRetire
  refine Moves.reading ?_
  split
  · exact Moves.finished .done
  · split
    · exact Moves.throwing _
    · refine Moves.transaction (fun db hok => ?_) fun t => Moves.checkpoint
      unfold retirement at hok
      split at hok
      · cases hok
      · rename_i db₁ hretired
        cases hok
        exact (Written.nothing.retired hretired).deletion sessionId

theorem Moves.finishPurge (hostId : Text) (allowUnacknowledged : Bool) :
    Moves platform s (finishPurge choice hostId allowUnacknowledged s) := by
  unfold Journal.finishPurge
  refine Moves.reading ?_
  split
  · exact Moves.throwing _
  · refine Moves.transaction (fun db hok => ?_) fun t => Moves.checkpoint
    cases hok
    exact Written.nothing.purge hostId

theorem Moves.shut : Moves platform s (shut choice s) := by
  unfold Journal.shut
  cases choice.lateFault with
  | some error => exact Moves.same rfl (fun _ => rfl) rfl
  | none => exact Moves.same rfl (fun _ => rfl) rfl

theorem Moves.finish (operation : Operation) :
    Moves platform s (finish platform choice operation s) := by
  cases operation with
  | enable hostId grantId session controlEpoch sequenceOffset =>
      exact Moves.finishEnable hostId grantId session controlEpoch sequenceOffset
  | updateSession session => exact Moves.finishUpdate session
  | acceptOperation id sessionId action payload queued origin =>
      exact Moves.finishAccept id sessionId action payload queued origin
  | beginOperation id => exact Moves.finishBegin id
  | settleOperation id state error => exact Moves.finishSettle id state error
  | retire sessionId => exact Moves.finishRetire sessionId
  | purge hostId allowUnacknowledged => exact Moves.finishPurge hostId allowUnacknowledged
  | close => exact (Moves.finished .done).trans Moves.shut
  | _ => exact Moves.finished .done

theorem Moves.flushing (operation : Operation) :
    Moves platform s (flushing platform choice operation s) :=
  Moves.flush fun _ => Moves.finish operation

theorem Moves.close : Moves platform s (close platform choice s) := by
  unfold Journal.close
  split
  · exact Moves.finished .done
  · have hflush : Moves platform s
        (Journal.flush platform choice s (.operation .close) (State.finished · .done)) :=
      Moves.flush fun t => Moves.finished .done
    dsimp only
    split
    · exact hflush
    · exact hflush.trans Moves.shut

theorem Moves.call (operation : Operation) :
    Moves platform s (call platform choice operation s) := by
  unfold Journal.call
  cases operation with
  | append event => exact Moves.append event
  | acknowledge sessionId throughSequence => exact Moves.acknowledge sessionId throughSequence
  | acknowledgeControl sessionId throughEpoch =>
      exact Moves.acknowledgeControl sessionId throughEpoch
  | acknowledgeBatch acknowledgements => exact Moves.acknowledgeBatch acknowledgements
  | prioritizeOperation id => exact Moves.prioritizeOperation id
  | trimAcknowledged sessionId throughSequence =>
      exact Moves.trimAcknowledged sessionId throughSequence
  | close => exact Moves.close
  | enable hostId grantId session controlEpoch sequenceOffset =>
      refine Moves.writing fun _ => ?_
      split
      · exact Moves.throwing eligibleError
      · split
        · exact Moves.throwing _
        · exact Moves.safely (Moves.safely (Moves.flushing _))
  | updateSession session =>
      refine Moves.writing fun _ => ?_
      split
      · exact Moves.throwing eligibleError
      · exact Moves.flushing _
  | acceptOperation id sessionId action payload queued origin =>
      refine Moves.writing fun _ => ?_
      split
      · exact Moves.throwing _
      · exact Moves.flushing _
  | settleOperation id state error =>
      refine Moves.writing fun _ => ?_
      split
      · exact Moves.throwing _
      · exact Moves.flushing _
  | _ => exact Moves.flushing _

theorem Moves.resume (kont : Kont) : Moves platform s (resume platform choice kont s) := by
  cases kont with
  | appendMid event digest => exact Moves.renumber event digest
  | appended event => exact Moves.finished _
  | operation operation => exact Moves.finish operation
  | timer => exact Moves.finished .done

theorem Moves.unwind (kont : Kont) : Moves platform s (unwind choice kont s) := by
  unfold Journal.unwind
  split
  · exact Moves.shut
  · exact Moves.refl s

/-- What an input does to the tables, apart from an opening. -/
theorem step_moves {input : Input} (hinput : ∀ options choice, input ≠ .reopen options choice) :
    Moves platform s (step platform s input) := by
  cases input with
  | call operation choice =>
      unfold step
      dsimp only
      split
      · exact Moves.call operation
      · exact Moves.refl s
  | publish =>
      unfold step
      dsimp only
      split
      · exact Moves.same rfl id rfl
      · exact Moves.refl s
  | observerReturns choice =>
      unfold step
      dsimp only
      split
      · rename_i kont rest hstack
        have hrest : Moves platform s { s with stack := rest } := Moves.same rfl id rfl
        exact hrest.trans (Moves.resume kont)
      · exact Moves.refl s
  | observerThrows error choice =>
      unfold step
      dsimp only
      split
      · rename_i kont rest hstack
        have hrest : Moves platform s ({ s with stack := rest }.fail error) :=
          Moves.same rfl id rfl
        exact hrest.trans (Moves.unwind kont)
      · exact Moves.refl s
  | timerFires choice =>
      unfold step
      dsimp only
      split
      · exact Moves.flush fun t => Moves.finished .done
      · exact Moves.refl s
  | reopen options choice => exact absurd rfl (hinput options choice)

end

/-! ### Opening a journal -/

/-- An uncertain operation needs no more than it is accounted with. -/
theorem reserved_uncertain (operation : LocalSessionOperation) :
    reservedBytes platform (uncertain operation) ≤ reservedBytes platform operation := by
  unfold reservedBytes uncertain
  simp only [Nat.max_self]
  exact Nat.add_le_add_right (Nat.add_le_add_right (Nat.le_max_right _ _) _) _

/-- A row of an operation is written over with what it was accounted for. -/
theorem putOperation_le (h : db.Reserved platform) {operation stored : LocalSessionOperation}
    (hstored : db.operation operation.id = some stored)
    (hle : reservedBytes platform operation ≤ reservedBytes platform stored) :
    (db.putOperation platform operation).storage ≤ db.storage := by
  unfold Db.operation at hstored
  rw [Option.map_eq_some_iff] at hstored
  rcases hstored with ⟨row, hrow, rfl⟩
  have hbytes := h operation.id row hrow
  have hstorage : (db.putOperation platform operation).storage =
      db.storage + reservedBytes platform operation - row.bytes := by
    unfold Db.putOperation reservedBytes uncertain
    simp only [hrow, Option.map_some, Option.getD_some]
  rw [hstorage]
  omega

/-- Recovering operations takes no bytes. -/
theorem recover_le (hkeyed : db.Keyed) (h : db.Reserved platform)
    (hdb : recoverOperations platform db = .ok db') : db'.storage ≤ db.storage := by
  cases hdb
  set accepted := (db.operations.values.map OperationRow.operation).filter fun operation =>
    operation.state = .accepted with haccepted
  -- An operation still to visit is as it was, or made uncertain already.
  have hvisits := Run.foldl_visits
    (f := fun (db : Db) (operation : LocalSessionOperation) => db.putOperation platform
      (uncertain operation))
    (fun rest t => t.Reserved platform ∧ t.storage ≤ db.storage ∧
      (∀ operation ∈ rest, operation ∈ accepted) ∧
      ∀ operation ∈ accepted, t.operation operation.id = some operation ∨
        t.operation operation.id = some (uncertain operation))
    (by
      rintro operation rest t ⟨hreserved, hstorage, hmem, hvisited⟩
      refine ⟨hreserved.putOperation _, ?_, fun o ho => hmem o (List.mem_cons_of_mem _ ho), ?_⟩
      · refine Int.le_trans ?_ hstorage
        rcases hvisited operation (hmem operation List.mem_cons_self) with hstored | hstored
        · exact @putOperation_le platform t hreserved (uncertain operation) _ hstored
            (reserved_uncertain operation)
        · exact @putOperation_le platform t hreserved (uncertain operation) _ hstored
            (Nat.le_refl _)
      · intro other hother
        rw [operation_putOperation]
        by_cases hid : other.id = (uncertain operation).id
        · -- One id is one operation.
          have hsame : other = operation := by
            have hin := hmem operation List.mem_cons_self
            rw [haccepted, List.mem_filter] at hin hother
            have hfirst := operation_of_mem hkeyed hin.1
            have hsecond := operation_of_mem hkeyed hother.1
            rw [hid] at hsecond
            exact Option.some.inj (hsecond.symm.trans hfirst)
          rw [hsame]
          exact .inr (if_pos rfl)
        · rw [if_neg hid]
          exact hvisited other hother)
    accepted db ⟨h, Int.le_refl _, fun _ ho => ho, fun operation ho => by
      rw [haccepted, List.mem_filter] at ho
      exact .inl (operation_of_mem hkeyed ho.1)⟩
  exact hvisits.2.1

theorem recoverOperations_written {db' : Db} (hdb : recoverOperations platform db = .ok db') :
    Written platform db db' := by
  cases hdb
  exact Run.foldl_visits (fun _ t => Written platform db t)
    (fun operation _ _ ht => ht.operation (uncertain operation)) _ db .nothing

/-! ### Runs -/

/-- What the statements keep of the tables, and opening asks of them. -/
structure Sound (platform : Platform) (s : State) : Prop where
  kept : Kept s
  balanced : s.db.Balanced
  reserved : s.db.Reserved platform

theorem sound_initial : Sound platform State.initial :=
  ⟨kept_initial, balanced_empty, reserved_empty⟩

/-- Whatever is done, it is done by statements. -/
theorem step_written (s : State) (input : Input) :
    Written platform s.db (step platform s input).db := by
  by_cases hreopen : ∃ options choice, input = .reopen options choice
  · rcases hreopen with ⟨options, choice, rfl⟩
    rcases (@reopen_cases platform s options choice).2.2 with ⟨hdb, _⟩ | hrecover
    · unfold step
      dsimp only
      rw [hdb]
      exact .nothing
    · exact recoverOperations_written hrecover
  · have hmoves := @step_moves platform s input
      fun options choice h => hreopen ⟨options, choice, h⟩
    rcases hmoves.tables with hdb | ⟨_, hwritten, _⟩
    · rw [hdb]
      exact .nothing
    · exact hwritten

theorem Sound.step {s : State} (h : Sound platform s) (input : Input) :
    Sound platform (step platform s input) :=
  ⟨h.kept.step input, (step_written s input).balanced h.balanced,
    (step_written s input).reserved h.reserved⟩

/-- What opening a journal comes to that opens: every accepted operation is
    uncertain, nothing else is different, and no byte was needed for it. -/
structure Reopened (s s' : State) : Prop where
  result : s'.result = some .done
  opened : s'.closed = false
  failure : s'.failure = none
  operations : ∀ id, s'.db.operation id = (s.db.operation id).map recovered
  sessions : s'.db.sessions = s.db.sessions
  storage : s'.db.storage ≤ s.db.storage
  balanced : s'.db.Balanced

theorem Sound.reopened {s : State} (h : Sound platform s) {options : Options} {choice : Choice}
    (hvalid : options.invalid = false) (hquota : s.db.storage ≤ options.maxBytes)
    (hfault : choice.fault = none) :
    Reopened s (Journal.step platform s (.reopen options choice)) := by
  have hbalanced := (h.step (.reopen options choice)).balanced
  cases hrecover : recoverOperations platform s.db with
  | error error => cases hrecover
  | ok db =>
      have hle : db.storage ≤ s.db.storage := recover_le h.kept.keyed h.reserved hrecover
      have hcommitted : committed options choice s.db (recoverOperations platform) = .ok db := by
        unfold committed
        rw [hfault]
        dsimp only
        rw [hrecover]
        dsimp only
        rw [if_neg (Int.not_lt.mpr (Int.le_trans hle hquota))]
      have hoperations := recoverOperations_operation h.kept.keyed hrecover
      revert hbalanced
      unfold Journal.step reopen
      dsimp only
      rw [hvalid, hcommitted]
      intro hbalanced
      exact ⟨rfl, rfl, rfl, hoperations.2, hoperations.1, hle, hbalanced⟩

/-- A journal that is open has a quota among those of the run, and its total is
    within them. -/
def Bounded (quota : Nat) (s : State) : Prop :=
  s.db.storage ≤ quota ∧ (s.closed = false → s.options.maxBytes ≤ quota)

theorem Bounded.step {quota : Nat} {s : State} (hsound : Sound platform s) (h : Bounded quota s)
    {input : Input} (hinput : ∀ options choice, input = .reopen options choice →
      options.maxBytes ≤ quota) :
    Bounded quota (step platform s input) := by
  by_cases hreopen : ∃ options choice, input = .reopen options choice
  · rcases hreopen with ⟨options, choice, rfl⟩
    have hoptions : (Journal.step platform s (.reopen options choice)).options = options := by
      unfold Journal.step reopen
      dsimp only
      split
      · rfl
      · split
        · rfl
        · rfl
    refine ⟨?_, fun _ => by rw [hoptions]; exact hinput options choice rfl⟩
    rcases (@reopen_cases platform s options choice).2.2 with ⟨hdb, _⟩ | hrecover
    · unfold Journal.step
      dsimp only
      rw [hdb]
      exact h.1
    · exact Int.le_trans (recover_le hsound.kept.keyed hsound.reserved hrecover) h.1
  · have hmoves := @step_moves platform s input
      fun options choice hinput => hreopen ⟨options, choice, hinput⟩
    refine ⟨?_, fun hopen => ?_⟩
    · rcases hmoves.tables with hdb | ⟨hopen, _, hstorage⟩
      · rw [hdb]
        exact h.1
      · exact Int.le_trans hstorage (Int.ofNat_le.mpr (h.2 hopen))
    · rw [hmoves.options]
      refine h.2 ?_
      cases hclosed : s.closed with
      | false => rfl
      | true =>
          rw [hmoves.closed hclosed] at hopen
          cases hopen

theorem bounded_initial (quota : Nat) : Bounded quota State.initial :=
  ⟨Int.natCast_nonneg quota, nofun⟩

theorem Bounded.run {quota : Nat} (inputs : List Input) (s : State) (hsound : Sound platform s)
    (h : Bounded quota s) (hinputs : ∀ options choice, Input.reopen options choice ∈ inputs →
      options.maxBytes ≤ quota) :
    Bounded quota (Run.final (Journal.step platform) s inputs) := by
  induction inputs generalizing s with
  | nil => exact h
  | cons input rest ih =>
      refine ih (Journal.step platform s input) (hsound.step input)
        (h.step hsound fun options choice hinput => hinputs options choice ?_)
        fun options choice hmem => hinputs options choice (List.mem_cons_of_mem _ hmem)
      rw [hinput]
      exact List.mem_cons_self

/-- After any inputs at all: the total is the sum over the rows, it is within every
    bound on the quotas the journal was opened with, and a journal that is within a
    quota, however full, opens under it. What was accepted is uncertain then, and
    the total no higher than before. -/
theorem full_journal_reopens (platform : Platform) (inputs : List Input) :
    let s := Run.final (step platform) State.initial inputs
    s.db.storage = s.db.accounted ∧
      (∀ quota, (∀ options choice, Input.reopen options choice ∈ inputs →
        options.maxBytes ≤ quota) → s.db.storage ≤ quota) ∧
      ∀ options choice, options.invalid = false → choice.fault = none →
        s.db.storage ≤ options.maxBytes →
          Reopened s (step platform s (.reopen options choice)) := by
  intro s
  have hsound : Sound platform s := Run.invariant (step platform) (Sound platform)
    (fun _ input h => h.step input) inputs State.initial sound_initial
  refine ⟨hsound.balanced, fun quota hquota => ?_, fun options choice hvalid hfault hstorage =>
    hsound.reopened hvalid hstorage hfault⟩
  exact (Bounded.run inputs State.initial sound_initial (bounded_initial quota) hquota).1

end

namespace Sample

/-- The sizes of operations, which an error makes longer. -/
def measured : Platform :=
  { platform with
    operationBytes := fun operation =>
      300 + (if operation.state = .uncertain then 9 else 8) +
        (operation.error.map fun error => 11 + error.length).getD 0 }

/-- A journal with room for one session and one accepted operation. -/
def full : List Input := [.reopen { maxBytes := 801 } {}, enable "s", prompt "a" false]

/-- Where it ends. -/
def filled : State := Run.final (step measured) State.initial full

end Sample

/-- Not a byte is left, and the journal opens again. -/
theorem full_journal_reopens_filled :
    (Sample.filled.db.storage = 801 ∧
      (Sample.filled.db.operation (ofString "a")).map (·.state) = some .accepted ∧
      Sample.filled.db.storage ≤ ((801 : Nat) : Int)) ∧
    Reopened Sample.filled
      (step Sample.measured Sample.filled (.reopen { maxBytes := 801 } {})) := by
  have hfull := full_journal_reopens Sample.measured Sample.full
  have hquota : Sample.filled.db.storage ≤ ((801 : Nat) : Int) := by
    refine hfull.2.1 801 fun options choice hmem => ?_
    simp only [Sample.full, Sample.enable, Sample.prompt, Sample.call, List.mem_cons,
      Input.reopen.injEq, reduceCtorEq, List.not_mem_nil, or_false] at hmem
    rcases hmem with ⟨rfl, -⟩
    exact Nat.le_refl 801
  exact ⟨⟨by decide +kernel, by decide +kernel, hquota⟩,
    hfull.2.2 { maxBytes := 801 } {} rfl rfl hquota⟩

end Journal

end CopilotFleet
