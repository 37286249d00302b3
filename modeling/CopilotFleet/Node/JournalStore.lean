import CopilotFleet.Lib.Table
import CopilotFleet.Protocol.Fleet

/-!
# The Store of the Session Journal

The tables of a Node's `sessions.db` and the statements that write them. Every
row carries the bytes it is accounted for, and each statement adjusts the
stored total by what it adds and removes, as the triggers on the tables do.

What the journal takes from outside is in `Platform`: what the schemas accept,
how a payload reads once its keys are sorted, what an event does to the
metadata of its session, and the sizes of serialized records. A digest is represented by the value that is
digested, so two contents have one digest exactly when they are equal up to
the order of their keys.

## Main definitions

* `SessionEvent`, `EventIdentity`: An event, and what its digest covers.
* `StoredSession`: The record of a session.
* `LocalSessionOperation`: The record of an operation.
* `Db`: The tables.
* `insertEvent`, `putSession`, `putOperation`, `putPermission`: Writing a row.
* `insertRetired`, `deleteSession`, `purgeHost`, `trimEvents`: Giving rows up.
-/

namespace CopilotFleet

namespace Journal

open Utf16

/-! ### Records -/

inductive SessionEventType where
  | state
  | agentText
  | agentThought
  | tool
  | permission
  | permissionResult
  | turnComplete
  | error
  | system
  | agentSession
  | commands
  | config
  | usage
  deriving DecidableEq, Repr

/-- An event; `payload` is its JSON text. -/
structure SessionEvent where
  eventId : Text
  sessionId : Text
  sequence : Nat
  type : SessionEventType
  payload : Text
  createdAt : Text
  deriving DecidableEq, Repr

/-- What the digest of an event covers: everything but its sequence, with the
    keys of the payload sorted. -/
structure EventIdentity where
  eventId : Text
  sessionId : Text
  type : SessionEventType
  payload : Text
  createdAt : Text
  deriving DecidableEq, Repr

/-- A session as the journal keeps it. `metadata` is the part of the record that
    no check reads; events rewrite it. -/
structure JournalSession where
  id : Text
  runRole : RunRole := .none
  nodeId : Text
  workspaceId : Text
  placementId : Text
  executionBinding : Option ExecutionBinding := none
  agentParams : Option Text := none
  metadata : Text := []
  deriving DecidableEq, Repr

structure StoredSession where
  hostId : Text
  grantId : Text
  session : JournalSession
  controlEpoch : Nat
  acknowledgedControlEpoch : Nat
  acknowledgedSequence : Nat
  highWater : Nat
  generation : Text
  revision : Nat
  deriving DecidableEq, Repr

inductive OperationAction where
  | prompt
  | cancel
  | stop
  | config
  deriving DecidableEq, Repr

inductive OperationOrigin where
  | «local»
  | host
  deriving DecidableEq, Repr

inductive OperationState where
  | queued
  | accepted
  | settled
  | uncertain
  | rejected
  deriving DecidableEq, Repr

/-- What the digest of an operation covers. -/
structure OperationIdentity where
  sessionId : Text
  action : OperationAction
  payload : Text
  deriving DecidableEq, Repr

structure LocalSessionOperation where
  id : Text
  sessionId : Text
  grantId : Text
  controlEpoch : Nat
  action : OperationAction
  origin : OperationOrigin
  payload : Text
  digest : OperationIdentity
  afterSequence : Nat
  state : OperationState
  priority : Nat := 0
  error : Option Text := none
  createdAt : Text
  deriving DecidableEq, Repr

/-- What the journal asks of the code around it. -/
structure Platform where
  /-- Whether `SessionEventSchema` accepts an event. -/
  validEvent : SessionEvent → Bool
  /-- Whether `SessionSchema` accepts a session. -/
  validSession : JournalSession → Bool
  /-- A payload with its keys sorted. -/
  canonical : Text → Text
  /-- The metadata of a session after an event, `applyMetadata`. -/
  applyMetadata : Text → SessionEvent → Text
  /-- The request an event about a permission names. -/
  requestId : SessionEvent → Option Text
  eventBytes : SessionEvent → Nat
  sessionBytes : StoredSession → Nat
  operationBytes : LocalSessionOperation → Nat

/-- `Buffer.byteLength` of a text. -/
def byteLength (text : Text) : Nat := (toUtf8 text).length

def eventDigest (platform : Platform) (event : SessionEvent) : EventIdentity where
  eventId := event.eventId
  sessionId := event.sessionId
  type := event.type
  payload := platform.canonical event.payload
  createdAt := event.createdAt

/-! ### Tables -/

structure SessionRow where
  record : StoredSession
  bytes : Nat
  deriving DecidableEq, Repr

structure RetiredRow where
  hostId : Text
  highWater : Nat
  controlEpoch : Nat
  bytes : Nat
  deriving DecidableEq, Repr

/-- The identity of an event stays when its body is trimmed. -/
structure EventRow where
  sessionId : Text
  sequence : Nat
  digest : EventIdentity
  data : Option SessionEvent
  bytes : Nat
  deriving DecidableEq, Repr

structure OperationRow where
  operation : LocalSessionOperation
  bytes : Nat
  deriving DecidableEq, Repr

structure PermissionRow where
  data : SessionEvent
  bytes : Nat
  deriving DecidableEq, Repr

structure Db where
  sessions : Table Text SessionRow
  retired : Table Text RetiredRow
  events : Table Text EventRow
  operations : Table Text OperationRow
  permissions : Table (Text × Text) PermissionRow
  /-- The accounted total, kept by triggers. -/
  storage : Int

def Db.empty : Db where
  sessions := Table.empty
  retired := Table.empty
  events := Table.empty
  operations := Table.empty
  permissions := Table.empty
  storage := 0

section

variable (platform : Platform) (db : Db)

/-- The record of a session, `stored`. -/
def Db.stored (sessionId : Text) : Option StoredSession :=
  (db.sessions.get sessionId).map SessionRow.record

def Db.retiredHighWater (sessionId : Text) : Option Nat :=
  (db.retired.get sessionId).map RetiredRow.highWater

def Db.operation (id : Text) : Option LocalSessionOperation :=
  (db.operations.get id).map OperationRow.operation

def Db.operationsOf (sessionId : Text) : List LocalSessionOperation :=
  (db.operations.values.map OperationRow.operation).filter fun operation =>
    operation.sessionId = sessionId

/-! ### Statements -/

/-- `saveSession`. -/
def Db.putSession (record : StoredSession) : Db :=
  let bytes := platform.sessionBytes record + byteLength record.session.id +
    byteLength record.hostId
  { db with
    sessions := db.sessions.set record.session.id { record, bytes }
    storage := db.storage + bytes -
      (((db.sessions.get record.session.id).map SessionRow.bytes).getD 0 : Nat) }

/-- The error a Node that is reopened records on what it cannot account for. -/
def reopenError : Text :=
  ofString "Node reopened without proven completion; never automatically invoke again."

/-- `saveOperation`. The bytes of the recovery record are reserved beforehand. -/
def Db.putOperation (operation : LocalSessionOperation) : Db :=
  let reserved := max (platform.operationBytes operation)
    (platform.operationBytes { operation with state := .uncertain, error := some reopenError })
  let bytes := reserved + byteLength operation.id + byteLength operation.sessionId
  { db with
    operations := db.operations.set operation.id { operation, bytes }
    storage := db.storage + bytes -
      (((db.operations.get operation.id).map OperationRow.bytes).getD 0 : Nat) }

def Db.putPermission (event : SessionEvent) (requestId : Text) : Db :=
  let bytes := platform.eventBytes event + byteLength requestId + byteLength event.sessionId
  { db with
    permissions := db.permissions.set (event.sessionId, requestId) { data := event, bytes }
    storage := db.storage + bytes -
      (((db.permissions.get (event.sessionId, requestId)).map PermissionRow.bytes).getD 0 : Nat) }

/-- The identities of two events of one session differ in their sequences. -/
def Db.sequenceTaken (sessionId : Text) (sequence : Nat) : Bool :=
  db.events.values.any fun row => row.sessionId = sessionId && row.sequence = sequence

def Db.insertEvent (event : SessionEvent) (digest : EventIdentity) (bytes : Nat) :
    Except Text Db :=
  if (db.events.get event.eventId).isSome then
    .error (ofString "UNIQUE constraint failed: events.event_id")
  else if db.sequenceTaken event.sessionId event.sequence then
    .error (ofString "UNIQUE constraint failed: events.session_id, events.sequence")
  else if (db.sessions.get event.sessionId).isNone then
    .error (ofString "FOREIGN KEY constraint failed")
  else .ok
    { db with
      events := db.events.set event.eventId
        { sessionId := event.sessionId
          sequence := event.sequence
          digest
          data := some event
          bytes }
      storage := db.storage + bytes }

def Db.insertRetired (sessionId : Text) (row : RetiredRow) : Except Text Db :=
  if (db.retired.get sessionId).isSome then
    .error (ofString "UNIQUE constraint failed: retired_sessions.id")
  else .ok
    { db with retired := db.retired.set sessionId row, storage := db.storage + row.bytes }

/-- The rows of a session, which a deletion takes along. -/
def Db.rowBytes (sessionId : Text) : Nat :=
  ((db.sessions.get sessionId).map SessionRow.bytes).getD 0 +
    ((db.events.values.filter fun row => row.sessionId = sessionId).map EventRow.bytes).sum +
    ((db.operations.values.filter fun row => row.operation.sessionId = sessionId).map
      OperationRow.bytes).sum +
    ((db.permissions.entries.filter fun entry => entry.1.1 = sessionId).map
      fun entry => entry.2.bytes).sum

def Db.deleteSession (sessionId : Text) : Db :=
  { db with
    sessions := db.sessions.erase sessionId
    events := db.events.keep fun _ row => row.sessionId ≠ sessionId
    operations := db.operations.keep fun _ row => row.operation.sessionId ≠ sessionId
    permissions := db.permissions.keep fun key _ => key.1 ≠ sessionId
    storage := db.storage - (db.rowBytes sessionId : Nat) }

/-- Everything of a Host, retired sessions included. -/
def Db.purgeHost (hostId : Text) : Db :=
  let live := (db.sessions.entries.filter fun entry => entry.2.record.hostId = hostId).map Prod.fst
  let deleted := live.foldl Db.deleteSession db
  { deleted with
    retired := deleted.retired.keep fun _ row => row.hostId ≠ hostId
    storage := deleted.storage -
      (((deleted.retired.values.filter fun row => row.hostId = hostId).map RetiredRow.bytes).sum :
        Nat) }

/-- An acknowledged event without its body. -/
def trimRow (sessionId : Text) (throughSequence : Nat) (eventId : Text) (row : EventRow) :
    EventRow :=
  if row.sessionId = sessionId ∧ row.sequence ≤ throughSequence ∧ row.data.isSome then
    { row with data := none, bytes := byteLength eventId + byteLength row.sessionId + 64 }
  else row

/-- The number of events that trimming takes the body of. -/
def Db.trimmable (sessionId : Text) (throughSequence : Nat) : Nat :=
  db.events.values.countP fun row =>
    row.sessionId = sessionId && row.sequence ≤ throughSequence && row.data.isSome

def Db.trimEvents (sessionId : Text) (throughSequence : Nat) : Db :=
  let events := db.events.mapValues (trimRow sessionId throughSequence)
  { db with
    events
    storage := db.storage + ((events.values.map EventRow.bytes).sum : Nat) -
      ((db.events.values.map EventRow.bytes).sum : Nat) }

end

end Journal

end CopilotFleet
