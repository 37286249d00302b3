import CopilotFleet.Node.JournalStore

/-!
# The Session Journal

The journal of a Node: it numbers the events of each session, buffers them,
commits the buffer in one transaction and only then hands the events over to
the observer. It also keeps the watermarks up to which the Host has what it
was sent, and the operations of a session.

The observer is called in the middle of a flush, and may itself call the
journal. A flush therefore suspends the call it is part of: the state has a
stack of calls that wait for an observer to return, and `step` takes one input
at a time, a call, an observer that begins, returns or throws, the timer, or a
reopening that finds only what was committed.

Whatever can go wrong outside, a disk that fails or a reader that holds the
database, is in the `Choice` that comes with an input, and so are the clock and
the identifiers drawn.

## Main definitions

* `State`: The journal with its calls; `Frame` is a call that waits.
* `flush`, `resume`: Committing the buffer, and what goes on after it.
* `append`, `enqueue`: Numbering an event, before and after the buffer had to go.
* `call`, `finish`: The other operations, before and after their flush.
* `reopen`: The constructor, on what an earlier instance committed.
* `step`: One input.
-/

namespace CopilotFleet

namespace Journal

open Utf16

/-- `Number.MAX_SAFE_INTEGER`. -/
def maxSafeInteger : Nat := 2 ^ 53 - 1

structure Options where
  batchMs : Nat := 32
  batchBytes : Nat := 64 * 1024
  maxBytes : Nat := 256 * 1024 * 1024
  deriving DecidableEq, Repr

structure PendingEvent where
  event : SessionEvent
  digest : EventIdentity
  bytes : Nat
  deriving DecidableEq, Repr

structure Acknowledgement where
  sessionId : Text
  sequence : Nat
  controlEpoch : Nat
  deriving DecidableEq, Repr

/-- The calls of the journal that write. -/
inductive Operation where
  | enable (hostId grantId : Text) (session : JournalSession)
      (controlEpoch sequenceOffset : Nat)
  | updateSession (session : JournalSession)
  | append (event : SessionEvent)
  | flush
  | acknowledge (sessionId : Text) (throughSequence : Nat)
  | acknowledgeControl (sessionId : Text) (throughEpoch : Nat)
  | acknowledgeBatch (acknowledgements : List Acknowledgement)
  | acceptOperation (id sessionId : Text) (action : OperationAction) (payload : Text)
      (queued : Bool) (origin : OperationOrigin)
  | beginOperation (id : Text)
  | prioritizeOperation (id : Text)
  | settleOperation (id : Text) (state : OperationState) (error : Option Text)
  | trimAcknowledged (sessionId : Text) (throughSequence : Nat)
  | retire (sessionId : Text)
  | purge (hostId : Text) (allowUnacknowledged : Bool)
  | close
  deriving DecidableEq, Repr

/-- Where a flush goes on once the observer has returned. -/
inductive Kont where
  /-- In `append`, with the event as numbered so far, to enqueue it. -/
  | appendMid (event : SessionEvent) (digest : EventIdentity)
  /-- At the end of `append`. -/
  | appended (event : SessionEvent)
  | operation (operation : Operation)
  | timer
  deriving DecidableEq, Repr

/-- A call that waits: for the observer to be called with what was committed,
    or for the observer to return. -/
inductive Frame where
  | publish (batch : List SessionEvent) (kont : Kont)
  | observing (kont : Kont)
  deriving DecidableEq, Repr

/-- What a call comes to. -/
inductive Outcome where
  | returned (event : SessionEvent)
  | accepted (operation : LocalSessionOperation) (invoke : Bool)
  | begun (operation : LocalSessionOperation)
  | done
  | threw (error : Text)
  deriving DecidableEq, Repr

/-- The journal. `stored` and `handed` are history: every event ever committed
    and every event the observer was ever called with, in order. `result` is what
    the last call came to, unless it waits. -/
structure State where
  options : Options
  db : Db
  pending : Table Text PendingEvent
  pendingWater : Table Text Nat
  pendingBytes : Nat
  timer : Bool
  closed : Bool
  failure : Option Text
  stack : List Frame
  result : Option Outcome
  stored : List SessionEvent
  handed : List SessionEvent

/-- What is decided outside during one input. -/
structure Choice where
  /-- What makes a transaction fail. -/
  fault : Option Text := none
  /-- What makes a read fail. -/
  readFault : Option Text := none
  /-- What makes the checkpoint after a deletion fail, or the closing. -/
  lateFault : Option Text := none
  /-- `randomUUID`. -/
  uuid : Text := []
  /-- The time, as text. -/
  now : Text := []
  deriving DecidableEq, Repr

def closedError : Text := ofString "Session journal is closed."

def integerError : Text :=
  ofString "Journal limits and watermarks must be safe nonnegative integers."

def storageFullError : Text :=
  ofString "Session journal storage is full; new admission is disabled."

def notEnabledError : Text := ofString "Session continuation is not enabled."

def eligibleError : Text :=
  ofString "Only valid, explicitly enabled non-lead Fleet sessions may journal."

def invalidEventError : Text := ofString "Invalid session journal event."

def conflictError : Text :=
  ofString "Session event identity was reused with conflicting content."

def retiredError : Text := ofString "A retired session cannot be enabled again."

def bindingError : Text :=
  ofString "Session continuation binding conflicts with retained evidence."

/-! ### Throwing, reading and committing -/

namespace State

variable (s : State)

/-- The call throws. -/
def throwing (error : Text) : State := { s with result := some (.threw error) }

/-- The call comes to something. -/
def finished (outcome : Outcome) : State := { s with result := some outcome }

/-- `fail`: the first failure stays, and the call throws. -/
def fail (error : Text) : State :=
  { s with
    timer := s.failure.isSome && s.timer
    failure := some (s.failure.getD error)
    result := some (.threw error) }

/-- `writable`: what the journal throws at whoever would write. -/
def blocked : Option Text := if s.closed then some closedError else s.failure

/-- `writable`, and then the rest. -/
def writing (rest : State → State) : State :=
  match s.blocked with
  | some error => s.throwing error
  | none => rest s

/-- `read`, and then the rest. -/
def reading (choice : Choice) (rest : State → State) : State :=
  if s.closed then s.throwing closedError
  else
    match choice.readFault with
    | some error => s.fail error
    | none => rest s

/-- `required`, and then the rest with the record. -/
def requiring (choice : Choice) (sessionId : Text) (rest : StoredSession → State → State) :
    State :=
  s.reading choice fun s =>
    match s.db.stored sessionId with
    | none => s.throwing notEnabledError
    | some record => rest record s

/-- A safe integer, or the call throws. -/
def safely (value : Nat) (rest : State → State) : State :=
  if maxSafeInteger < value then s.throwing integerError else rest s

end State

/-- The body of a transaction, within the quota. -/
def committed (options : Options) (choice : Choice) (db : Db) (body : Db → Except Text Db) :
    Except Text Db :=
  match choice.fault with
  | some error => .error error
  | none =>
      match body db with
      | .error error => .error error
      | .ok db' =>
          if (options.maxBytes : Int) < db'.storage then .error storageFullError else .ok db'

/-- `transaction`, and then the rest. -/
def State.transaction (s : State) (choice : Choice) (body : Db → Except Text Db)
    (rest : State → State) : State :=
  s.writing fun s =>
    match committed s.options choice s.db body with
    | .error error => s.fail error
    | .ok db => rest { s with db }

section

variable (platform : Platform)

/-! ### Flushing -/

/-- The rows and the records of a transaction that commits the buffer. -/
structure Batch where
  db : Db
  sessions : Table Text StoredSession

/-- One event of the buffer is inserted and its session's record brought up to
    date. -/
def commitEvent (batch : Batch) (item : PendingEvent) : Except Text Batch :=
  match batch.db.insertEvent item.event item.digest item.bytes with
  | .error error => .error error
  | .ok db =>
      match (batch.sessions.get item.event.sessionId).or (db.stored item.event.sessionId) with
      | none => .error notEnabledError
      | some record =>
          if maxSafeInteger < record.revision + 1 then .error integerError
          else .ok
            { db :=
                match platform.requestId item.event with
                | none => db
                | some requestId => db.putPermission platform item.event requestId
              sessions := batch.sessions.set item.event.sessionId
                { record with
                  highWater := item.event.sequence
                  revision := record.revision + 1
                  session := { record.session with
                    metadata := platform.applyMetadata record.session.metadata item.event } } }

def commitEvents (batch : Batch) : List PendingEvent → Except Text Batch
  | [] => .ok batch
  | item :: rest =>
      match commitEvent platform batch item with
      | .error error => .error error
      | .ok batch' => commitEvents batch' rest

/-- What a flush commits. -/
def commitBatch (items : List PendingEvent) (db : Db) : Except Text Db :=
  match commitEvents platform { db, sessions := Table.empty } items with
  | .error error => .error error
  | .ok batch => .ok (batch.sessions.values.foldl (Db.putSession platform) batch.db)

/-- `flush`, and then the rest, unless an observer has to return first. -/
def flush (choice : Choice) (s : State) (kont : Kont) (rest : State → State) : State :=
  s.writing fun s =>
    let s := { s with timer := false }
    if s.pending.entries = [] then rest s
    else
      s.transaction choice (commitBatch platform s.pending.values) fun s' =>
        { s' with
          pending := Table.empty
          pendingWater := Table.empty
          pendingBytes := 0
          stack := .publish (s.pending.values.map PendingEvent.event) kont :: s.stack
          result := none
          stored := s.stored ++ s.pending.values.map PendingEvent.event }

/-! ### Appending -/

/-- What is known of an event's identity. -/
structure KnownEvent where
  sessionId : Text
  sequence : Nat
  digest : EventIdentity
  deriving DecidableEq, Repr

/-- The identity of an event, in the buffer or else among the rows. -/
def State.identity (s : State) (eventId : Text) : Option KnownEvent :=
  match s.pending.get eventId with
  | some item =>
      some
        { sessionId := item.event.sessionId
          sequence := item.event.sequence
          digest := item.digest }
  | none => (s.db.events.get eventId).map fun row =>
      { sessionId := row.sessionId, sequence := row.sequence, digest := row.digest }

/-- `highWater`: buffered numbers count, and so do retired sessions. -/
def State.highWater (s : State) (sessionId : Text) : Nat :=
  max
    ((((s.db.stored sessionId).map StoredSession.highWater).or
      (s.db.retiredHighWater sessionId)).getD 0)
    ((s.pendingWater.get sessionId).getD 0)

/-- The bytes an event is accounted for. -/
def entryBytes (event : SessionEvent) : Nat :=
  platform.eventBytes event + byteLength event.eventId + byteLength event.sessionId + 64

/-- The events that may wait for others. -/
def mayWait (type : SessionEventType) : Bool :=
  type = .agentText || type = .agentThought || type = .tool

/-- A numbered event enters the buffer. -/
def State.buffer (s : State) (event : SessionEvent) (digest : EventIdentity) : State :=
  { s with
    pending := s.pending.set event.eventId { event, digest, bytes := entryBytes platform event }
    pendingWater := s.pendingWater.set event.sessionId event.sequence
    pendingBytes := s.pendingBytes + entryBytes platform event }

/-- The end of `append`, from the quota check on. -/
def enqueue (choice : Choice) (event : SessionEvent) (digest : EventIdentity) (s : State) : State :=
  s.writing fun s => s.reading choice fun s =>
    if (s.options.maxBytes : Int) < s.db.storage + s.pendingBytes + entryBytes platform event then
      s.fail storageFullError
    else
      let s := s.buffer platform event digest
      if s.options.batchBytes ≤ s.pendingBytes ∨ s.options.batchMs = 0 ∨ ¬mayWait event.type then
        flush platform choice s (.appended event) (State.finished · (.returned event))
      else { s with timer := true }.finished (.returned event)

/-- `append` after the flush that made room. A publication observer may itself
    have admitted more session output. -/
def renumber (choice : Choice) (event : SessionEvent) (digest : EventIdentity) (s : State) :
    State :=
  s.reading choice fun s =>
    s.safely (max event.sequence (s.highWater event.sessionId + 1)) fun s =>
      enqueue platform choice
        { event with sequence := max event.sequence (s.highWater event.sessionId + 1) } digest s

/-- An event with a number above every number of its session. -/
def numbered (s : State) (record : StoredSession) (event : SessionEvent) : SessionEvent :=
  { event with
    sequence := max event.sequence
      ((s.pendingWater.get event.sessionId).getD record.highWater + 1) }

def append (choice : Choice) (event : SessionEvent) (s : State) : State :=
  s.writing fun s =>
    if ¬platform.validEvent event then s.throwing invalidEventError
    else s.requiring choice event.sessionId fun record s =>
      match s.identity event.eventId with
      | some prior =>
          if prior.sessionId ≠ event.sessionId ∨ prior.digest ≠ eventDigest platform event then
            s.throwing conflictError
          else s.finished (.returned { event with sequence := prior.sequence })
      | none =>
          s.safely (numbered s record event).sequence fun s =>
            let event := numbered s record event
            if s.options.batchBytes < s.pendingBytes + entryBytes platform event then
              flush platform choice s (.appendMid event (eventDigest platform event))
                (renumber platform choice event (eventDigest platform event))
            else enqueue platform choice event (eventDigest platform event) s

/-! ### The other operations -/

/-- `eligible`. -/
def eligible (session : JournalSession) : Bool :=
  platform.validSession session && session.runRole ≠ .lead

/-- The checkout a session's evidence belongs to. `leaseAttempt` is left out: it is
    the Host's per-dispatch fencing token, which a resume rotates. -/
def continuationBinding (session : JournalSession) : Option ExecutionBinding :=
  session.executionBinding.map fun binding => { binding with leaseAttempt := [] }

def sameBinding (before after : JournalSession) : Bool :=
  before.nodeId = after.nodeId && before.workspaceId = after.workspaceId &&
    before.placementId = after.placementId &&
    continuationBinding before = continuationBinding after &&
    before.agentParams.map platform.canonical = after.agentParams.map platform.canonical

/-- The record `enable` saves. -/
def enabledRecord (choice : Choice) (prior : Option StoredSession) (hostId grantId : Text)
    (session : JournalSession) (controlEpoch sequenceOffset : Nat) : StoredSession :=
  let base := prior.getD
    { hostId, grantId, session, controlEpoch
      acknowledgedControlEpoch := 0
      acknowledgedSequence := sequenceOffset
      highWater := sequenceOffset
      generation := choice.uuid
      revision := 0 }
  { base with
    hostId, grantId, session
    controlEpoch := max ((prior.map StoredSession.controlEpoch).getD 0) controlEpoch
    acknowledgedControlEpoch :=
      max ((prior.map StoredSession.acknowledgedControlEpoch).getD 0)
        (min controlEpoch ((prior.map StoredSession.controlEpoch).getD 0)) }

/-- Whether retained evidence is of another Host, grant or checkout. -/
def conflicts (prior : Option StoredSession) (hostId grantId : Text) (session : JournalSession) :
    Bool :=
  prior.any fun record =>
    record.hostId ≠ hostId || record.grantId ≠ grantId ||
      !sameBinding platform record.session session

def finishEnable (choice : Choice) (hostId grantId : Text) (session : JournalSession)
    (controlEpoch sequenceOffset : Nat) (s : State) : State :=
  s.reading choice fun s =>
    if (s.db.retiredHighWater session.id).isSome then s.throwing retiredError
    else if conflicts platform (s.db.stored session.id) hostId grantId session then
      s.throwing bindingError
    else s.transaction choice
      (fun db => .ok (db.putSession platform
        (enabledRecord choice (s.db.stored session.id) hostId grantId session controlEpoch
          sequenceOffset)))
      (State.finished · .done)

def finishUpdate (choice : Choice) (session : JournalSession) (s : State) : State :=
  s.requiring choice session.id fun record s =>
    if ¬sameBinding platform record.session session then
      s.throwing (ofString "Session metadata cannot change its continuation binding.")
    else s.transaction choice (fun db => .ok (db.putSession platform { record with session }))
      (State.finished · .done)

def acknowledge (choice : Choice) (sessionId : Text) (throughSequence : Nat) (s : State) :
    State :=
  s.writing fun s => s.safely throughSequence fun s => s.requiring choice sessionId fun record s =>
    if record.highWater < throughSequence then
      s.throwing (ofString "Acknowledgement exceeds the committed session watermark.")
    else if throughSequence ≤ record.acknowledgedSequence then s.finished .done
    else s.transaction choice
      (fun db => .ok (db.putSession platform
        { record with acknowledgedSequence := throughSequence }))
      (State.finished · .done)

def acknowledgeControl (choice : Choice) (sessionId : Text) (throughEpoch : Nat) (s : State) :
    State :=
  s.writing fun s => s.safely throughEpoch fun s => s.requiring choice sessionId fun record s =>
    if record.controlEpoch < throughEpoch then
      s.throwing (ofString "Control acknowledgement exceeds the local control epoch.")
    else if throughEpoch ≤ record.acknowledgedControlEpoch then s.finished .done
    else s.transaction choice
      (fun db => .ok (db.putSession platform
        { record with acknowledgedControlEpoch := throughEpoch }))
      (State.finished · .done)

/-- A record with an acknowledgement counted. -/
def acknowledgedRecord (record : StoredSession) (acknowledgement : Acknowledgement) :
    StoredSession :=
  { record with
    acknowledgedSequence := max record.acknowledgedSequence acknowledgement.sequence
    acknowledgedControlEpoch :=
      max record.acknowledgedControlEpoch acknowledgement.controlEpoch }

/-- One turn of the loop of `acknowledgeBatch`. -/
def acknowledgeOne (db : Db) (changed : Table Text StoredSession)
    (acknowledgement : Acknowledgement) : Except Text (Table Text StoredSession) :=
  if maxSafeInteger < acknowledgement.sequence ∨ maxSafeInteger < acknowledgement.controlEpoch then
    .error integerError
  else
    match (changed.get acknowledgement.sessionId).or (db.stored acknowledgement.sessionId) with
    | none => .error notEnabledError
    | some record =>
        if record.highWater < acknowledgement.sequence ∨
            record.controlEpoch < acknowledgement.controlEpoch then
          .error (ofString "Acknowledgement exceeds committed session evidence.")
        else if acknowledgedRecord record acknowledgement = record then .ok changed
        else .ok (changed.set acknowledgement.sessionId (acknowledgedRecord record acknowledgement))

def acknowledgeAll (db : Db) (changed : Table Text StoredSession) :
    List Acknowledgement → Except Text (Table Text StoredSession)
  | [] => .ok changed
  | acknowledgement :: rest =>
      match acknowledgeOne db changed acknowledgement with
      | .error error => .error error
      | .ok changed' => acknowledgeAll db changed' rest

/-- Coalesced live receipts share one durable commit. -/
def acknowledgeBatch (choice : Choice) (acknowledgements : List Acknowledgement) (s : State) :
    State :=
  s.writing fun s => s.reading choice fun s =>
    match acknowledgeAll s.db Table.empty acknowledgements with
    | .error error => s.throwing error
    | .ok changed =>
        if changed.entries = [] then s.finished .done
        else s.transaction choice
          (fun db => .ok (changed.values.foldl (Db.putSession platform) db))
          (State.finished · .done)

/-- The operation `acceptOperation` saves. -/
def acceptedOperation (choice : Choice) (record : StoredSession) (id : Text)
    (digest : OperationIdentity) (payload : Text) (queued : Bool) (origin : OperationOrigin)
    (controlEpoch : Nat) : LocalSessionOperation where
  id
  sessionId := digest.sessionId
  grantId := record.grantId
  controlEpoch
  action := digest.action
  origin
  payload
  digest
  afterSequence := record.highWater
  state := if queued then .queued else .accepted
  createdAt := choice.now

/-- Both writes must commit before the caller is permitted to perform ACP I/O. -/
def saveControlled (record : StoredSession) (operation : LocalSessionOperation) (db : Db) :
    Except Text Db :=
  .ok ((db.putSession platform { record with controlEpoch := operation.controlEpoch }).putOperation
    platform operation)

def finishAccept (choice : Choice) (id sessionId : Text) (action : OperationAction)
    (payload : Text) (queued : Bool) (origin : OperationOrigin) (s : State) : State :=
  let digest : OperationIdentity := { sessionId, action, payload := platform.canonical payload }
  s.requiring choice sessionId fun record s =>
    match s.db.operation id with
    | some prior =>
        if prior.digest ≠ digest ∨ prior.sessionId ≠ sessionId ∨ prior.grantId ≠ record.grantId then
          s.throwing
            (ofString "Local operation identity was reused with conflicting content.")
        else s.finished (.accepted prior false)
    | none =>
        let controlEpoch := if origin = .host then record.controlEpoch else record.controlEpoch + 1
        s.safely controlEpoch fun s =>
          let operation :=
            acceptedOperation choice record id digest payload queued origin controlEpoch
          s.transaction choice (saveControlled platform record operation)
            (State.finished · (.accepted operation (operation.state = .accepted)))

/-- The operation `beginOperation` saves. -/
def begunOperation (record : StoredSession) (operation : LocalSessionOperation) :
    LocalSessionOperation :=
  { operation with
    controlEpoch := record.controlEpoch + 1
    state := .accepted
    afterSequence := record.highWater }

/-- The queued-to-native boundary is committed before the caller performs ACP I/O. -/
def finishBegin (choice : Choice) (id : Text) (s : State) : State :=
  s.reading choice fun s =>
    match s.db.operation id with
    | none =>
        s.throwing (ofString "Only queued local-origin operations may begin execution.")
    | some operation =>
        if operation.state ≠ .queued ∨ operation.origin ≠ .local then
          s.throwing (ofString "Only queued local-origin operations may begin execution.")
        else s.requiring choice operation.sessionId fun record s =>
          s.safely (record.controlEpoch + 1) fun s =>
            s.transaction choice (saveControlled platform record (begunOperation record operation))
              (State.finished · (.begun (begunOperation record operation)))

/-- The highest priority among the other queued operations of a session. -/
def highestOther (db : Db) (operation : LocalSessionOperation) : Nat :=
  (((db.operationsOf operation.sessionId).filter fun other =>
    other.id ≠ operation.id && other.state = .queued).map LocalSessionOperation.priority).foldl
      max 0

def prioritizeOperation (choice : Choice) (id : Text) (s : State) : State :=
  s.writing fun s => s.reading choice fun s =>
    match s.db.operation id with
    | none => s.throwing (ofString "Only queued operations may be prioritized.")
    | some operation =>
        if operation.state ≠ .queued then
          s.throwing (ofString "Only queued operations may be prioritized.")
        else if highestOther s.db operation < operation.priority then s.finished .done
        else s.safely (highestOther s.db operation + 1) fun s =>
          s.transaction choice
            (fun db => .ok (db.putOperation platform
              { operation with priority := highestOther s.db operation + 1 }))
            (State.finished · .done)

def finishSettle (choice : Choice) (id : Text) (state : OperationState) (error : Option Text)
    (s : State) : State :=
  s.reading choice fun s =>
    match s.db.operation id with
    | none => s.throwing (ofString "Unknown local session operation.")
    | some operation =>
        if operation.state = state then s.finished .done
        else if operation.state = .settled ∨ operation.state = .rejected then
          s.throwing (ofString "A completed local operation cannot change its outcome.")
        else s.transaction choice
          (fun db => .ok (db.putOperation platform
            { operation with state, error := error.map (·.take 4000) }))
          (State.finished · .done)

/-- `checkpointHistory`, the last thing a deletion does. -/
def checkpoint (choice : Choice) (s : State) : State :=
  match choice.lateFault with
  | some error => s.fail error
  | none => s.finished .done

/-- Explicit cache retirement only: the identity of an event survives. -/
def trimAcknowledged (choice : Choice) (sessionId : Text) (throughSequence : Nat) (s : State) :
    State :=
  s.writing fun s => s.safely throughSequence fun s => s.requiring choice sessionId fun record s =>
    if record.acknowledgedSequence < throughSequence then
      s.throwing (ofString "Cannot trim unacknowledged session history.")
    else s.transaction choice
      (fun db => .ok
        (if db.trimmable sessionId throughSequence = 0 then
          db.trimEvents sessionId throughSequence
        else (db.trimEvents sessionId throughSequence).putSession platform
          { record with generation := choice.uuid, revision := 0 }))
      (checkpoint choice)

/-- Whether the Host lacks something of a session. -/
def unacknowledged (record : StoredSession) : Bool :=
  record.acknowledgedSequence < record.highWater ||
    record.acknowledgedControlEpoch < record.controlEpoch

def isActive (operation : LocalSessionOperation) : Bool :=
  operation.state = .accepted || operation.state = .queued

def retirement (sessionId : Text) (record : StoredSession) (db : Db) : Except Text Db :=
  match db.insertRetired sessionId
      { hostId := record.hostId
        highWater := record.highWater
        controlEpoch := record.controlEpoch
        bytes := byteLength sessionId + byteLength record.hostId + 32 } with
  | .error error => .error error
  | .ok db => .ok (db.deleteSession sessionId)

/-- Called only after the Host confirms deletion and agent quiescence. -/
def finishRetire (choice : Choice) (sessionId : Text) (s : State) : State :=
  s.reading choice fun s =>
    match s.db.stored sessionId with
    | none => s.finished .done
    | some record =>
        if unacknowledged record || (s.db.operationsOf sessionId).any
            (fun operation => operation.origin = .local && isActive operation) then
          s.throwing (ofString ("Cannot retire a session with unacknowledged events/control or " ++
            "active local operations."))
        else s.transaction choice (retirement sessionId record) (checkpoint choice)

def finishPurge (choice : Choice) (hostId : Text) (allowUnacknowledged : Bool) (s : State) :
    State :=
  s.reading choice fun s =>
    if !allowUnacknowledged &&
        (s.db.sessions.values.map SessionRow.record).any (fun record =>
          record.hostId = hostId && (unacknowledged record ||
            (s.db.operationsOf record.session.id).any isActive)) then
      s.throwing (ofString ("Host namespace has unacknowledged events/control or active " ++
        "accepted/queued operations."))
    else s.transaction choice (fun db => .ok (db.purgeHost hostId)) (checkpoint choice)

/-- The end of `close`, which runs whatever its flush came to. -/
def shut (choice : Choice) (s : State) : State :=
  let s := { s with timer := false, closed := true }
  match choice.lateFault with
  | some error => s.fail error
  | none => s

/-- An operation after its flush. -/
def finish (choice : Choice) (operation : Operation) (s : State) : State :=
  match operation with
  | .enable hostId grantId session controlEpoch sequenceOffset =>
      finishEnable platform choice hostId grantId session controlEpoch sequenceOffset s
  | .updateSession session => finishUpdate platform choice session s
  | .acceptOperation id sessionId action payload queued origin =>
      finishAccept platform choice id sessionId action payload queued origin s
  | .beginOperation id => finishBegin platform choice id s
  | .settleOperation id state error => finishSettle platform choice id state error s
  | .retire sessionId => finishRetire choice sessionId s
  | .purge hostId allowUnacknowledged => finishPurge choice hostId allowUnacknowledged s
  | .close => shut choice (s.finished .done)
  | _ => s.finished .done

/-- An operation that begins with a flush. -/
def flushing (choice : Choice) (operation : Operation) (s : State) : State :=
  flush platform choice s (.operation operation) (finish platform choice operation)

/-- A flush that fails does not keep the journal from closing. -/
def close (choice : Choice) (s : State) : State :=
  if s.closed then s.finished .done
  else
    let s' := flush platform choice s (.operation .close) (State.finished · .done)
    if s'.result = none then s' else shut choice s'

/-- A call, up to where it returns, throws or waits. -/
def call (choice : Choice) (operation : Operation) (s : State) : State :=
  match operation with
  | .append event => append platform choice event s
  | .acknowledge sessionId throughSequence =>
      acknowledge platform choice sessionId throughSequence s
  | .acknowledgeControl sessionId throughEpoch =>
      acknowledgeControl platform choice sessionId throughEpoch s
  | .acknowledgeBatch acknowledgements => acknowledgeBatch platform choice acknowledgements s
  | .prioritizeOperation id => prioritizeOperation platform choice id s
  | .trimAcknowledged sessionId throughSequence =>
      trimAcknowledged platform choice sessionId throughSequence s
  | .close => close platform choice s
  | .enable hostId grantId session controlEpoch sequenceOffset =>
      s.writing fun s =>
        if ¬eligible platform session then s.throwing eligibleError
        else if hostId = [] ∨ grantId = [] then
          s.throwing (ofString "A Host identity and continuation grant are required.")
        else s.safely controlEpoch fun s => s.safely sequenceOffset
          (flushing platform choice
            (.enable hostId grantId session controlEpoch sequenceOffset))
  | .updateSession session =>
      s.writing fun s =>
        if ¬eligible platform session then s.throwing eligibleError
        else flushing platform choice (.updateSession session) s
  | .acceptOperation id sessionId action payload queued origin =>
      s.writing fun s =>
        if id = [] then s.throwing (ofString "Invalid local session operation.")
        else flushing platform choice
          (.acceptOperation id sessionId action payload queued origin) s
  | .settleOperation id state error =>
      s.writing fun s =>
        if state = .queued ∨ state = .accepted then
          s.throwing (ofString "A local operation cannot return to accepted.")
        else flushing platform choice (.settleOperation id state error) s
  | operation => flushing platform choice operation s

/-! ### Waiting calls and restarts -/

/-- Where a call goes on that waited for the observer. -/
def resume (choice : Choice) (kont : Kont) (s : State) : State :=
  match kont with
  | .appendMid event digest => renumber platform choice event digest s
  | .appended event => s.finished (.returned event)
  | .operation operation => finish platform choice operation s
  | .timer => s.finished .done

/-- What the observer throws, the call that waited for it throws. -/
def unwind (choice : Choice) (kont : Kont) (s : State) : State :=
  match kont with
  | .operation .close => shut choice s
  | _ => s

/-- Accepted operations of an earlier instance are not accounted for. -/
def recoverOperations (db : Db) : Except Text Db :=
  .ok (((db.operations.values.map OperationRow.operation).filter fun operation =>
    operation.state = .accepted).foldl
      (fun db operation => db.putOperation platform
        { operation with state := .uncertain, error := some reopenError }) db)

def Options.invalid (options : Options) : Bool :=
  options.batchBytes = 0 || options.maxBytes = 0 || maxSafeInteger < options.batchMs ||
    maxSafeInteger < options.batchBytes || maxSafeInteger < options.maxBytes

/-- The constructor. An instance that could not be built is one that is closed. -/
def reopen (options : Options) (choice : Choice) (s : State) : State :=
  let fresh : State :=
    { options
      db := s.db
      pending := Table.empty
      pendingWater := Table.empty
      pendingBytes := 0
      timer := false
      closed := false
      failure := none
      stack := []
      result := some .done
      stored := s.stored
      handed := s.handed }
  if options.invalid then { fresh with closed := true }.throwing integerError
  else
    match committed options choice s.db (recoverOperations platform) with
    | .error error => { fresh with closed := true }.fail error
    | .ok db => { fresh with db }

/-- No instance yet, and nothing committed. -/
def State.initial : State where
  options := {}
  db := Db.empty
  pending := Table.empty
  pendingWater := Table.empty
  pendingBytes := 0
  timer := false
  closed := true
  failure := none
  stack := []
  result := some .done
  stored := []
  handed := []

inductive Input where
  | call (operation : Operation) (choice : Choice)
  /-- The observer is called with what was committed. -/
  | publish
  | observerReturns (choice : Choice)
  | observerThrows (error : Text) (choice : Choice)
  | timerFires (choice : Choice)
  /-- The process stops, and an instance is built on what was committed. -/
  | reopen (options : Options) (choice : Choice)
  deriving DecidableEq, Repr

/-- Whether someone is there to call the journal: outside of every call, or an
    observer. -/
def State.callable (s : State) : Bool :=
  match s.stack with
  | .publish _ _ :: _ => false
  | _ => true

/-- One input. What cannot happen in a state leaves it as it is. -/
def step (s : State) : Input → State
  | .call operation choice => if s.callable then call platform choice operation s else s
  | .publish =>
      match s.stack with
      | .publish batch kont :: rest =>
          { s with stack := .observing kont :: rest, handed := s.handed ++ batch }
      | _ => s
  | .observerReturns choice =>
      match s.stack with
      | .observing kont :: rest => resume platform choice kont { s with stack := rest }
      | _ => s
  | .observerThrows error choice =>
      match s.stack with
      | .observing kont :: rest => unwind choice kont ({ s with stack := rest }.fail error)
      | _ => s
  | .timerFires choice =>
      if s.stack = [] ∧ s.timer then
        flush platform choice s .timer (State.finished · .done)
      else s
  | .reopen options choice => reopen platform options choice s

end

end Journal

end CopilotFleet
