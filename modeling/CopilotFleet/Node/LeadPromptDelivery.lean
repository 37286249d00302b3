import Mathlib.Logic.Relation
import CopilotFleet.Lib.Once
import CopilotFleet.Lib.Table
import CopilotFleet.Protocol.Fleet

/-!
# Durable Delivery of Prompts to a Lead

The journal a Node keeps of the prompts it was asked to hand to a lead session.
A delivery is accepted when nothing else is in flight for its session or for
its native conversation, and accepting it is what licenses the one native
prompt it will ever cause. Every later state of a record is evidence only.

Each call can fail where the source can: reading a row whose native identity
disagrees with its receipt, writing a row, sending the receipt. A restart reads
every row again and marks what was in flight as uncertain, one write at a time,
and it may fail between two of them; then no journal is open until the next
restart.

## Main definitions

* `DeliveryRecord`: A row of the journal.
* `reserved`: Something is in flight for a session or a native conversation.
* `accept`, `settle`, `uncertain`, `replay`, `flush`: The calls.
* `restart`: Opening the journal on the rows that are there.
* `Move`: The two ways a row is ever written.

## Theorems

* `step_moves`: Every call and every restart is a sequence of moves.
* `Exclusive.move`: A move keeps reservations exclusive.
* `deliveries_prompted_once`: What the journal promises over every run.
-/

namespace CopilotFleet

namespace LeadPrompt

open Utf16

/-! ### Records -/

structure PromptAttachment where
  name : Text
  mimeType : Text
  data : Text
  deriving DecidableEq, Repr

structure LeadPromptDelivery where
  deliveryId : Text
  sessionId : Text
  prompt : Text
  executionBinding : Option ExecutionBinding := none
  attachments : Option (List PromptAttachment) := none
  deriving DecidableEq, Repr

inductive ReceiptState where
  | accepted
  | rejectedBusy
  | uncertain
  | settled
  | rejected
  deriving DecidableEq, Repr

structure LeadPromptReceipt where
  deliveryId : Text
  sessionId : Text
  state : ReceiptState
  detail : Text
  «at» : Text
  nativeSessionId : Option Text := none
  attemptId : Option Text := none
  deriving DecidableEq, Repr

/-- A row of the journal. `promptDigest` is what is digested: the delivery
    without an empty attachment list. -/
structure DeliveryRecord where
  hostId : Text
  nativeSessionId : Text
  nativeAttempt : Text
  promptDigest : LeadPromptDelivery
  receipt : LeadPromptReceipt
  deriving DecidableEq, Repr

/-- What the journal takes from outside. -/
structure Platform where
  /-- `LeadPromptDeliverySchema` accepts. -/
  parsesDelivery : LeadPromptDelivery → Bool
  /-- `LeadPromptReceiptSchema` accepts. -/
  parsesReceipt : LeadPromptReceipt → Bool
  /-- The UTF-8 length of the serialized delivery. -/
  serializedBytes : LeadPromptDelivery → Nat
  /-- `Buffer.from(data, "base64").toString("base64")`. -/
  canonicalBase64 : Text → Text

/-- `MAX_SERIALIZED_DELIVERY_BYTES`. -/
def maxSerializedDeliveryBytes : Nat := 16 * 1024 * 1024

/-- The bound on the rows of the journal. -/
def deliveryRecordLimit : Nat := 8192

/-- What the environment decides during one call. -/
structure Choice where
  /-- Writing the row fails. -/
  fault : Bool := false
  /-- What `emit` answers: sent, not sent, or it throws. -/
  emitted : Option Bool := some true
  uuid : Text
  now : Text
  deriving DecidableEq, Repr

inductive Outcome where
  | returned
  | accepted (receipt : LeadPromptReceipt) (invoke : Bool)
  | threw
  deriving DecidableEq, Repr

/-- The rows, the receipts still to send, and whether a journal is open at all. -/
structure State where
  deliveries : Table Text DeliveryRecord := Table.empty
  pending : Table Text LeadPromptReceipt := Table.empty
  isOpen : Bool := false

/-! ### Reading -/

variable (P : Platform)

/-- `inFlight`: the handoff may still be inside a native turn. -/
def DeliveryRecord.inFlight (record : DeliveryRecord) : Bool :=
  decide (record.receipt.state = .accepted)

/-- The receipt of a row as it is read: it carries the native identity of the record. -/
def DeliveryRecord.readReceipt (record : DeliveryRecord) : LeadPromptReceipt :=
  if record.nativeSessionId = [] then record.receipt
  else { record.receipt with
    nativeSessionId := some record.nativeSessionId
    attemptId := some record.nativeAttempt }

/-- A row as it is read; reading throws where receipt and record disagree on the
    native identity. -/
def readRecord (record : DeliveryRecord) : Option DeliveryRecord :=
  if (record.receipt.nativeSessionId.any (· ≠ record.nativeSessionId)) ||
      (record.receipt.attemptId.any (· ≠ record.nativeAttempt)) then none
  else if P.parsesReceipt record.readReceipt then
    some { record with receipt := record.readReceipt }
  else none

/-- `all`. -/
def all (rows : Table Text DeliveryRecord) : Option (List DeliveryRecord) :=
  rows.values.mapM (readRecord P)

/-- `get`: the first row with that delivery identity. -/
def find (rows : Table Text DeliveryRecord) (id : Text) : Option (Option DeliveryRecord) :=
  (all P rows).map fun records => records.find? fun record => record.receipt.deliveryId = id

/-- `reserved`. -/
def reserved (rows : Table Text DeliveryRecord) (sessionId nativeSessionId : Text) :
    Option Bool :=
  (all P rows).map fun records => records.any fun record =>
    (decide (record.receipt.sessionId = sessionId) ||
      (nativeSessionId ≠ [] && decide (record.nativeSessionId = nativeSessionId))) &&
    record.inFlight

/-! ### Writing -/

/-- `persist`: write a row, unless its receipt does not parse, the journal is
    full, or the write fails. -/
def persist (rows : Table Text DeliveryRecord) (record : DeliveryRecord) (fault : Bool) :
    Option (Table Text DeliveryRecord) :=
  if P.parsesReceipt record.receipt then
    match all P rows, find P rows record.receipt.deliveryId with
    | some records, some prior =>
        if prior.isNone && records.length ≥ deliveryRecordLimit then none
        else if fault then none
        else some (rows.set record.receipt.deliveryId record)
    | _, _ => none
  else none

/-- `publish`: send the receipt, or keep it to send later. It throws when
    sending does, and when the record is not there. -/
def publish (s : State) (receipt : LeadPromptReceipt) (emitted : Option Bool)
    (done : Outcome) : State × Outcome :=
  match find P s.deliveries receipt.deliveryId, emitted with
  | some (some _), some true =>
      ({ s with pending := s.pending.erase receipt.deliveryId }, done)
  | some (some _), some false =>
      ({ s with pending := s.pending.set receipt.deliveryId receipt }, done)
  | _, _ => (s, .threw)

/-! ### Calls -/

/-- The delivery as it is serialized: an empty attachment list is left out. -/
def LeadPromptDelivery.serialized (delivery : LeadPromptDelivery) : LeadPromptDelivery :=
  if delivery.attachments = some [] then { delivery with attachments := none } else delivery

/-- Trailing `=` removed. -/
def withoutPadding (text : Text) : Text :=
  (text.reverse.dropWhile fun unit => unit = 0x3D).reverse

/-- An attachment whose data is not what its bytes encode to. -/
def invalidAttachment (attachment : PromptAttachment) : Bool :=
  let encoded := attachment.data.filter fun unit => !isSpace unit
  let canonical := P.canonicalBase64 encoded
  decide (canonical = []) ||
    (decide (encoded ≠ canonical) && decide (encoded ≠ withoutPadding canonical))

/-- The reason a delivery is refused: the caller's, or the first invalid attachment. -/
def rejection (delivery : LeadPromptDelivery) (rejectionReason : Option Text) : Option Text :=
  rejectionReason.or
    (((delivery.attachments.getD []).find? (invalidAttachment P)).map fun attachment =>
      ofString "Attachment \"" ++ attachment.name ++
        ofString "\" does not contain valid Base64 data.")

/-- The state a delivery is admitted in. -/
def admission (rows : Table Text DeliveryRecord) (delivery : LeadPromptDelivery)
    (nativeSessionId : Text) (busy : Bool) (reason : Option Text) : Option ReceiptState :=
  if reason.any (· ≠ []) || nativeSessionId = [] then some .rejected
  else if busy then some .rejectedBusy
  else (reserved P rows delivery.sessionId nativeSessionId).map fun taken =>
    if taken then .rejectedBusy else .accepted

/-- The detail of a new record. -/
def admissionDetail (state : ReceiptState) (reason : Option Text) : Text :=
  reason.getD (ofString
    (if state = .accepted then
      "Durably admitted for native handoff; model consumption is not asserted."
    else if state = .rejectedBusy then
      "Native conversation has another prompt reservation or active turn."
    else "Native conversation is not available."))

/-- The record of a delivery in the state it is admitted in. -/
def newRecord (hostId : Text) (delivery : LeadPromptDelivery) (nativeSessionId : Text)
    (reason : Option Text) (state : ReceiptState) (c : Choice) : DeliveryRecord where
  hostId := hostId
  nativeSessionId := nativeSessionId
  nativeAttempt := c.uuid
  promptDigest := delivery.serialized
  receipt := {
    deliveryId := delivery.deliveryId
    sessionId := delivery.sessionId
    state := state
    detail := admissionDetail state reason
    «at» := c.now
    nativeSessionId := if nativeSessionId = [] then none else some nativeSessionId
    attemptId := if nativeSessionId = [] then none else some c.uuid }

/-- The end of `accept`: a delivery that is new, or that was busy before. -/
def acceptNew (s : State) (hostId : Text) (delivery : LeadPromptDelivery)
    (nativeSessionId : Text) (busy : Bool) (reason : Option Text) (c : Choice) :
    State × Outcome :=
  match admission P s.deliveries delivery nativeSessionId busy reason with
  | none => (s, .threw)
  | some state =>
      let record := newRecord hostId delivery nativeSessionId reason state c
      -- The commit precedes any native side effect.
      match persist P s.deliveries record c.fault with
      | none => (s, .threw)
      | some rows =>
          publish P { s with deliveries := rows } record.receipt c.emitted
            (.accepted record.receipt (decide (state = .accepted)))

/-- `accept`. -/
def accept (s : State) (hostId : Text) (delivery : LeadPromptDelivery)
    (nativeSessionId : Text) (busy : Bool) (rejectionReason : Option Text) (c : Choice) :
    State × Outcome :=
  if P.parsesDelivery delivery && P.serializedBytes delivery.serialized ≤ maxSerializedDeliveryBytes
  then
    match find P s.deliveries delivery.deliveryId with
    | none => (s, .threw)
    | some none =>
        acceptNew P s hostId delivery nativeSessionId busy (rejection P delivery rejectionReason) c
    | some (some prior) =>
        if prior.hostId ≠ hostId || prior.promptDigest ≠ delivery.serialized then (s, .threw)
        else if prior.receipt.state ≠ .rejectedBusy then
          publish P s prior.receipt c.emitted (.accepted prior.receipt false)
        else
          acceptNew P s hostId delivery nativeSessionId busy
            (rejection P delivery rejectionReason) c
  else (s, .threw)

/-- The record in its next state. -/
def DeliveryRecord.moved (record : DeliveryRecord) (state : ReceiptState) (detail now : Text) :
    DeliveryRecord :=
  { record with
    receipt := { record.receipt with state := state, detail := detail, «at» := now } }

/-- `transition`. -/
def transition (s : State) (record : DeliveryRecord) (state : ReceiptState) (detail : Text)
    (c : Choice) : State × Outcome :=
  let next := record.moved state (detail.take 4000) c.now
  match persist P s.deliveries next c.fault with
  | none => (s, .threw)
  | some rows => publish P { s with deliveries := rows } next.receipt c.emitted .returned

/-- `settle`. -/
def settle (s : State) (deliveryId nativeSessionId : Text) (c : Choice) : State × Outcome :=
  match find P s.deliveries deliveryId with
  | none => (s, .threw)
  | some none => (s, .returned)
  | some (some record) =>
      if record.receipt.state ≠ .accepted then (s, .returned)
      else if record.nativeSessionId = nativeSessionId then
        transition P s record .settled
          (ofString "Authoritative current native turn completed.") c
      else
        transition P s record .uncertain
          (ofString "Native conversation changed during handoff.") c

/-- `uncertain`. -/
def uncertain (s : State) (deliveryId detail : Text) (c : Choice) : State × Outcome :=
  match find P s.deliveries deliveryId with
  | none => (s, .threw)
  | some (some record) =>
      if record.receipt.state = .accepted then transition P s record .uncertain detail c
      else (s, .returned)
  | some none => (s, .returned)

/-- One turn of the loop of `replay`; a receipt that cannot be sent stops it. -/
def replayOne (hostId : Text) (emits : Text → Option Bool) (s : State × Outcome)
    (record : DeliveryRecord) : State × Outcome :=
  if s.2 = .threw || record.hostId ≠ hostId then s
  else publish P s.1 record.receipt (emits record.receipt.deliveryId) .returned

/-- `replay`. -/
def replay (s : State) (hostId : Text) (emits : Text → Option Bool) : State × Outcome :=
  match all P s.deliveries with
  | none => (s, .threw)
  | some records => records.foldl (replayOne P hostId emits) (s, .returned)

/-- The loop of `flush` over the receipts that are pending. -/
def flushLoop (hostId : Text) (emits : Text → Option Bool) :
    List LeadPromptReceipt → State → State × Outcome
  | [], s => (s, .returned)
  | receipt :: rest, s =>
      match find P s.deliveries receipt.deliveryId with
      | none => (s, .threw)
      | some none => flushLoop hostId emits rest s
      | some (some record) =>
          if record.hostId ≠ hostId then flushLoop hostId emits rest s
          else match emits receipt.deliveryId with
            | none => (s, .threw)
            | some false => (s, .returned)
            | some true =>
                flushLoop hostId emits rest
                  { s with pending := s.pending.erase receipt.deliveryId }

/-- `flush`. -/
def flush (s : State) (hostId : Text) (emits : Text → Option Bool) : State × Outcome :=
  flushLoop P hostId emits s.pending.values s

/-- The loop of the constructor: what was in flight becomes uncertain, one write
    at a time, until a write fails. -/
def recover (faults : Text → Bool) (now : Text → Text) :
    List DeliveryRecord → Table Text DeliveryRecord → Table Text DeliveryRecord × Bool
  | [], rows => (rows, true)
  | record :: rest, rows =>
      if record.receipt.state = .accepted then
        let next := record.moved .uncertain
          (ofString "Node restarted during a native handoff; never automatically re-prompt.")
          (now record.receipt.deliveryId)
        match persist P rows next (faults record.receipt.deliveryId) with
        | none => (rows, false)
        | some rows' => recover faults now rest rows'
      else recover faults now rest rows

/-- Opening the journal: the rows stay, the receipts in memory do not. -/
def restart (s : State) (faults : Text → Bool) (now : Text → Text) : State × Outcome :=
  match all P s.deliveries with
  | none => ({ s with pending := Table.empty, isOpen := false }, .threw)
  | some records =>
      match recover P faults now records s.deliveries with
      | (rows, true) =>
          ({ deliveries := rows, pending := Table.empty, isOpen := true }, .returned)
      | (rows, false) =>
          ({ deliveries := rows, pending := Table.empty, isOpen := false }, .threw)

inductive Input where
  | accept (hostId : Text) (delivery : LeadPromptDelivery) (nativeSessionId : Text)
      (busy : Bool) (rejectionReason : Option Text) (c : Choice)
  | settle (deliveryId nativeSessionId : Text) (c : Choice)
  | uncertain (deliveryId detail : Text) (c : Choice)
  | replay (hostId : Text) (emits : Text → Option Bool)
  | flush (hostId : Text) (emits : Text → Option Bool)
  | restart (faults : Text → Bool) (now : Text → Text)

/-- One call, or a restart; without an open journal nothing but a restart happens. -/
def run (s : State) : Input → State × Outcome
  | .restart faults now => restart P s faults now
  | .accept hostId delivery nativeSessionId busy rejectionReason c =>
      if s.isOpen then accept P s hostId delivery nativeSessionId busy rejectionReason c
      else (s, .returned)
  | .settle deliveryId nativeSessionId c =>
      if s.isOpen then settle P s deliveryId nativeSessionId c else (s, .returned)
  | .uncertain deliveryId detail c =>
      if s.isOpen then uncertain P s deliveryId detail c else (s, .returned)
  | .replay hostId emits => if s.isOpen then replay P s hostId emits else (s, .returned)
  | .flush hostId emits => if s.isOpen then flush P s hostId emits else (s, .returned)

def step (s : State) (i : Input) : State := (run P s i).1

/-- The delivery a call releases for its native prompt. -/
def invoked : Outcome → List Text
  | .accepted receipt true => [receipt.deliveryId]
  | _ => []

/-- The deliveries an input releases. -/
def releases (s : State) (i : Input) : List Text := invoked (run P s i).2

/-! ### What a step can do -/

/-- How far a record has come; it never goes back. -/
def ReceiptState.phase : ReceiptState → Nat
  | .rejectedBusy => 0
  | .accepted => 1
  | .uncertain | .settled | .rejected => 2

theorem ReceiptState.phase_le_two (state : ReceiptState) : state.phase ≤ 2 := by
  cases state <;> decide

/-- How far the delivery with an identity has come. -/
def phase (rows : Table Text DeliveryRecord) (id : Text) : Nat :=
  (rows.get id).elim 0 fun record => record.receipt.state.phase

/-- Two records of one delivery: all that no call may change. -/
structure SameDelivery (p q : DeliveryRecord) : Prop where
  hostId : p.hostId = q.hostId
  promptDigest : p.promptDigest = q.promptDigest
  deliveryId : p.receipt.deliveryId = q.receipt.deliveryId
  sessionId : p.receipt.sessionId = q.receipt.sessionId
  nativeSessionId : p.nativeSessionId = q.nativeSessionId

/-- Nothing in flight shares the session or the native conversation. -/
def Unreserved (rows : Table Text DeliveryRecord) (record : DeliveryRecord) : Prop :=
  record.nativeSessionId ≠ [] ∧
    ∀ id p, rows.get id = some p → p.receipt.state = .accepted →
      p.receipt.sessionId ≠ record.receipt.sessionId ∧
        p.nativeSessionId ≠ record.nativeSessionId

/-- The two ways a row is written: a delivery enters, new or busy before, or a
    handoff that began is over. -/
inductive Move (rows : Table Text DeliveryRecord) : Table Text DeliveryRecord → Prop where
  | enter (record : DeliveryRecord)
      (hprior : ∀ p, rows.get record.receipt.deliveryId = some p →
        p.receipt.state = .rejectedBusy ∧ p.hostId = record.hostId ∧
          p.promptDigest = record.promptDigest)
      (hfree : record.receipt.state = .accepted → Unreserved rows record) :
      Move rows (rows.set record.receipt.deliveryId record)
  | complete (p record : DeliveryRecord) (hp : rows.get record.receipt.deliveryId = some p)
      (hsame : SameDelivery p record) (hbegun : 1 ≤ p.receipt.state.phase)
      (hover : record.receipt.state.phase = 2) :
      Move rows (rows.set record.receipt.deliveryId record)

/-- Any number of moves. -/
def Moves : Table Text DeliveryRecord → Table Text DeliveryRecord → Prop :=
  Relation.ReflTransGen Move

/-- Every row is kept under the identity of its delivery. -/
def Keyed (rows : Table Text DeliveryRecord) : Prop :=
  ∀ id p, rows.get id = some p → p.receipt.deliveryId = id

/-- Two handoffs in flight share neither session nor native conversation. -/
def Exclusive (rows : Table Text DeliveryRecord) : Prop :=
  ∀ j k p q, j ≠ k → rows.get j = some p → rows.get k = some q →
    p.receipt.state = .accepted → q.receipt.state = .accepted →
    p.receipt.sessionId ≠ q.receipt.sessionId ∧ p.nativeSessionId ≠ q.nativeSessionId

theorem phase_set (rows : Table Text DeliveryRecord) (record : DeliveryRecord) (id : Text) :
    phase (rows.set record.receipt.deliveryId record) id =
      if id = record.receipt.deliveryId then record.receipt.state.phase else phase rows id := by
  unfold phase
  rw [Table.get_set]
  by_cases hid : id = record.receipt.deliveryId
  · simp [hid]
  · simp [hid]

theorem Move.phase_le {rows rows' : Table Text DeliveryRecord} (h : Move rows rows') (id : Text) :
    phase rows id ≤ phase rows' id := by
  cases h with
  | enter record hprior hfree =>
      rw [phase_set]
      by_cases hid : id = record.receipt.deliveryId
      · rw [if_pos hid, hid]
        unfold phase
        cases hp : rows.get record.receipt.deliveryId with
        | none => exact Nat.zero_le _
        | some p =>
            rw [Option.elim_some, (hprior p hp).1]
            exact Nat.zero_le _
      · exact Nat.le_of_eq (if_neg hid).symm
  | complete p record hp hsame hbegun hover =>
      rw [phase_set]
      by_cases hid : id = record.receipt.deliveryId
      · rw [if_pos hid, hover]
        unfold phase
        cases rows.get id with
        | none => exact Nat.zero_le _
        | some q => exact q.receipt.state.phase_le_two
      · exact Nat.le_of_eq (if_neg hid).symm

theorem Keyed.move {rows rows' : Table Text DeliveryRecord} (hk : Keyed rows)
    (h : Move rows rows') : Keyed rows' := by
  -- Both moves write a record under its own identity.
  have hset : ∀ record : DeliveryRecord, Keyed (rows.set record.receipt.deliveryId record) := by
    intro record id p hp
    rcases Table.get_set_some hp with ⟨hid, rfl⟩ | ⟨_, hp⟩
    · exact hid.symm
    · exact hk id p hp
  cases h with
  | enter record _ _ => exact hset record
  | complete p record _ _ _ _ => exact hset record

theorem Exclusive.move {rows rows' : Table Text DeliveryRecord} (he : Exclusive rows)
    (h : Move rows rows') : Exclusive rows' := by
  intro j k p q hjk hp hq hpa hqa
  cases h with
  | enter record _ hfree =>
      rcases Table.get_set_some hp with ⟨hj, rfl⟩ | ⟨_, hp'⟩
      · rcases Table.get_set_some hq with ⟨hk, _⟩ | ⟨_, hq'⟩
        · exact absurd (hj.trans hk.symm) hjk
        · have hne := (hfree hpa).2 k q hq' hqa
          exact ⟨hne.1.symm, hne.2.symm⟩
      · rcases Table.get_set_some hq with ⟨_, rfl⟩ | ⟨_, hq'⟩
        · exact (hfree hqa).2 j p hp' hpa
        · exact he j k p q hjk hp' hq' hpa hqa
  | complete old record _ _ _ hover =>
      -- The record written is not in flight, so both are rows from before.
      have hnot : record.receipt.state ≠ .accepted := by
        intro ha
        rw [ha] at hover
        exact absurd hover (by decide)
      rcases Table.get_set_some hp with ⟨_, rfl⟩ | ⟨_, hp'⟩
      · exact absurd hpa hnot
      · rcases Table.get_set_some hq with ⟨_, rfl⟩ | ⟨_, hq'⟩
        · exact absurd hqa hnot
        · exact he j k p q hjk hp' hq' hpa hqa

theorem Moves.phase_le {rows rows' : Table Text DeliveryRecord} (h : Moves rows rows')
    (id : Text) : phase rows id ≤ phase rows' id := by
  induction h with
  | refl => exact Nat.le_refl _
  | tail _ hmove ih => exact Nat.le_trans ih (hmove.phase_le id)

theorem Moves.keyed {rows rows' : Table Text DeliveryRecord} (h : Moves rows rows')
    (hk : Keyed rows) : Keyed rows' := by
  induction h with
  | refl => exact hk
  | tail _ hmove ih => exact ih.move hmove

theorem Moves.exclusive {rows rows' : Table Text DeliveryRecord} (h : Moves rows rows')
    (he : Exclusive rows) : Exclusive rows' := by
  induction h with
  | refl => exact he
  | tail _ hmove ih => exact ih.move hmove

/-! ### What each call reads -/

variable {P}

theorem readRecord_same {p record : DeliveryRecord} (h : readRecord P p = some record) :
    SameDelivery p record ∧ p.receipt.state = record.receipt.state := by
  unfold readRecord at h
  split at h
  · exact absurd h (by simp)
  · split at h
    · rw [Option.some.injEq] at h
      rw [← h]
      unfold DeliveryRecord.readReceipt
      by_cases hnative : p.nativeSessionId = []
      · simp only [if_pos hnative]
        exact ⟨⟨rfl, rfl, rfl, rfl, rfl⟩, trivial⟩
      · simp only [if_neg hnative]
        exact ⟨⟨rfl, rfl, rfl, rfl, rfl⟩, trivial⟩
    · exact absurd h (by simp)

/-- Every record read comes from a row. -/
theorem mapM_mem {f : DeliveryRecord → Option DeliveryRecord} :
    ∀ {rows records : List DeliveryRecord}, rows.mapM f = some records →
      (∀ record ∈ records, ∃ p ∈ rows, f p = some record) ∧
        ∀ p ∈ rows, ∃ record ∈ records, f p = some record := by
  intro rows
  induction rows with
  | nil =>
      intro records h
      rw [List.mapM_nil, Option.pure_def, Option.some.injEq] at h
      subst h
      exact ⟨by simp, by simp⟩
  | cons p rest ih =>
      intro records h
      rw [List.mapM_cons, Option.bind_eq_bind, Option.bind_eq_some_iff] at h
      rcases h with ⟨record, hrecord, h⟩
      rw [Option.bind_eq_bind, Option.bind_eq_some_iff] at h
      rcases h with ⟨others, hothers, h⟩
      rw [Option.pure_def, Option.some.injEq] at h
      subst h
      have hrest := ih hothers
      constructor
      · intro r hr
        rcases List.mem_cons.mp hr with rfl | hr
        · exact ⟨p, List.mem_cons_self, hrecord⟩
        · rcases hrest.1 r hr with ⟨q, hq, hqr⟩
          exact ⟨q, List.mem_cons_of_mem p hq, hqr⟩
      · intro q hq
        rcases List.mem_cons.mp hq with rfl | hq
        · exact ⟨record, List.mem_cons_self, hrecord⟩
        · rcases hrest.2 q hq with ⟨r, hr, hqr⟩
          exact ⟨r, List.mem_cons_of_mem record hr, hqr⟩

theorem all_mem {rows : Table Text DeliveryRecord} {records : List DeliveryRecord}
    (hk : Keyed rows) (h : all P rows = some records) {record : DeliveryRecord}
    (hmem : record ∈ records) :
    ∃ p, rows.get record.receipt.deliveryId = some p ∧ readRecord P p = some record := by
  rcases (mapM_mem h).1 record hmem with ⟨p, hp, hread⟩
  rcases (rows.mem_values_iff p).mp hp with ⟨id, hid⟩
  refine ⟨p, ?_, hread⟩
  rw [← (readRecord_same hread).1.deliveryId, hk id p hid]
  exact hid

/-- Every row is read. -/
theorem mem_all {rows : Table Text DeliveryRecord} {records : List DeliveryRecord}
    (h : all P rows = some records) {id : Text} {p : DeliveryRecord} (hp : rows.get id = some p) :
    ∃ record ∈ records, readRecord P p = some record :=
  (mapM_mem h).2 p ((rows.mem_values_iff p).mpr ⟨id, hp⟩)

/-- A record found is the row of its identity. -/
theorem find_some {rows : Table Text DeliveryRecord} {id : Text} {record : DeliveryRecord}
    (hk : Keyed rows) (h : find P rows id = some (some record)) :
    ∃ p, rows.get id = some p ∧ readRecord P p = some record := by
  unfold find at h
  rw [Option.map_eq_some_iff] at h
  rcases h with ⟨records, hall, hfind⟩
  have hid : record.receipt.deliveryId = id := by simpa using List.find?_some hfind
  rw [← hid]
  exact all_mem hk hall (List.mem_of_find?_eq_some hfind)

/-- Where none is found there is no row. -/
theorem find_none {rows : Table Text DeliveryRecord} {id : Text} (hk : Keyed rows)
    (h : find P rows id = some none) : rows.get id = none := by
  unfold find at h
  rw [Option.map_eq_some_iff] at h
  rcases h with ⟨records, hall, hfind⟩
  rw [Option.eq_none_iff_forall_ne_some]
  intro p hp
  rcases mem_all hall hp with ⟨record, hmem, hread⟩
  have hid : record.receipt.deliveryId = id := by
    rw [← (readRecord_same hread).1.deliveryId, hk id p hp]
  have hne := List.find?_eq_none.mp hfind record hmem
  exact hne (by simpa using hid)

/-- What is not reserved shares nothing with a handoff in flight. -/
theorem reserved_false {rows : Table Text DeliveryRecord} {sessionId nativeSessionId : Text}
    (h : reserved P rows sessionId nativeSessionId = some false) (hnative : nativeSessionId ≠ [])
    {id : Text} {p : DeliveryRecord} (hp : rows.get id = some p)
    (ha : p.receipt.state = .accepted) :
    p.receipt.sessionId ≠ sessionId ∧ p.nativeSessionId ≠ nativeSessionId := by
  unfold reserved at h
  rw [Option.map_eq_some_iff] at h
  rcases h with ⟨records, hall, hany⟩
  rcases mem_all hall hp with ⟨record, hmem, hread⟩
  have hsame := readRecord_same hread
  have hfree := (List.any_eq_false.mp hany) record hmem
  have hstate : record.receipt.state = .accepted := by rw [← hsame.2, ha]
  rw [hsame.1.sessionId, hsame.1.nativeSessionId]
  simpa [DeliveryRecord.inFlight, hstate, hnative] using hfree

/-! ### What each call writes -/

theorem persist_some {rows rows' : Table Text DeliveryRecord} {record : DeliveryRecord}
    {fault : Bool} (h : persist P rows record fault = some rows') :
    rows' = rows.set record.receipt.deliveryId record := by
  unfold persist at h
  split at h
  · split at h
    · split at h
      · exact absurd h (by simp)
      · split at h
        · exact absurd h (by simp)
        · exact (Option.some.inj h).symm
    · exact absurd h (by simp)
  · exact absurd h (by simp)

/-- Sending a receipt writes no row. -/
@[simp] theorem publish_deliveries (s : State) (receipt : LeadPromptReceipt)
    (emitted : Option Bool) (done : Outcome) :
    (publish P s receipt emitted done).1.deliveries = s.deliveries := by
  unfold publish
  split <;> rfl

/-- A call that publishes ends as it would have, or it throws. -/
theorem publish_outcome (s : State) (receipt : LeadPromptReceipt) (emitted : Option Bool)
    (done : Outcome) :
    (publish P s receipt emitted done).2 = done ∨
      (publish P s receipt emitted done).2 = .threw := by
  unfold publish
  split
  · exact Or.inl rfl
  · exact Or.inl rfl
  · exact Or.inr rfl

/-- What a call does to the rows, and which deliveries it releases. -/
structure Stepped (rows rows' : Table Text DeliveryRecord) (ids : List Text) : Prop where
  moves : Moves rows rows'
  single : ids.Nodup
  crosses : ∀ id ∈ ids, phase rows id < 1 ∧ 1 ≤ phase rows' id

theorem Stepped.quiet {rows rows' : Table Text DeliveryRecord} (h : Moves rows rows') :
    Stepped rows rows' [] :=
  ⟨h, List.nodup_nil, by simp⟩

/-- A call that releases nothing of its own and publishes at its end. -/
theorem Stepped.publish {rows : Table Text DeliveryRecord} {s : State}
    {receipt : LeadPromptReceipt} {emitted : Option Bool} {done : Outcome}
    (h : Moves rows s.deliveries) (hdone : invoked done = []) :
    Stepped rows (LeadPrompt.publish P s receipt emitted done).1.deliveries
      (invoked (LeadPrompt.publish P s receipt emitted done).2) := by
  rw [publish_deliveries]
  rcases publish_outcome (P := P) s receipt emitted done with hout | hout
  · rw [hout, hdone]
    exact Stepped.quiet h
  · rw [hout]
    exact Stepped.quiet h

/-- A delivery is only admitted where its session and native conversation are free. -/
theorem admission_accepted {rows : Table Text DeliveryRecord} {delivery : LeadPromptDelivery}
    {nativeSessionId : Text} {busy : Bool} {reason : Option Text}
    (h : admission P rows delivery nativeSessionId busy reason = some .accepted) :
    nativeSessionId ≠ [] ∧
      reserved P rows delivery.sessionId nativeSessionId = some false := by
  unfold admission at h
  split at h
  · exact absurd h (by simp)
  · rename_i hreason
    split at h
    · exact absurd h (by simp)
    · rw [Option.map_eq_some_iff] at h
      rcases h with ⟨taken, htaken, hstate⟩
      cases taken with
      | true => exact absurd hstate (by simp)
      | false =>
          refine ⟨fun hnative => hreason ?_, htaken⟩
          simp [hnative]

theorem acceptNew_stepped (s : State) (hostId : Text) (delivery : LeadPromptDelivery)
    (nativeSessionId : Text) (busy : Bool) (reason : Option Text) (c : Choice)
    (hprior : ∀ p, s.deliveries.get delivery.deliveryId = some p →
      p.receipt.state = .rejectedBusy ∧ p.hostId = hostId ∧
        p.promptDigest = delivery.serialized) :
    Stepped s.deliveries
      (acceptNew P s hostId delivery nativeSessionId busy reason c).1.deliveries
      (invoked (acceptNew P s hostId delivery nativeSessionId busy reason c).2) := by
  unfold acceptNew
  split
  · exact Stepped.quiet Relation.ReflTransGen.refl
  · rename_i state hstate
    dsimp only
    split
    · exact Stepped.quiet Relation.ReflTransGen.refl
    · rename_i rows hrows
      have hset := persist_some hrows
      -- An accepted prompt enters only where no other is accepted or about to be.
      have hmove : Move s.deliveries rows := by
        rw [hset]
        refine Move.enter _ hprior fun ha => ?_
        have hst : state = .accepted := ha
        rw [hst] at hstate
        have hfree := admission_accepted hstate
        exact ⟨hfree.1, fun id p hp hpa => reserved_false hfree.2 hfree.1 hp hpa⟩
      rw [publish_deliveries]
      rcases publish_outcome (P := P) { s with deliveries := rows }
        (newRecord hostId delivery nativeSessionId reason state c).receipt c.emitted
        (.accepted (newRecord hostId delivery nativeSessionId reason state c).receipt
          (decide (state = .accepted))) with hout | hout
      · rw [hout]
        by_cases hst : state = .accepted
        · -- The one release: the row was absent or busy, and is accepted now.
          simp only [invoked, decide_eq_true hst]
          refine ⟨Relation.ReflTransGen.single hmove, List.nodup_singleton _, ?_⟩
          intro id hid
          rw [List.mem_singleton] at hid
          rw [hid]
          constructor
          · unfold phase
            cases hp : s.deliveries.get delivery.deliveryId with
            | none => simp [newRecord, hp]
            | some p => simp [newRecord, hp, (hprior p hp).1, ReceiptState.phase]
          · rw [hset, phase_set, if_pos rfl]
            simp [newRecord, hst, ReceiptState.phase]
        · simp only [invoked, decide_eq_false hst]
          exact Stepped.quiet (Relation.ReflTransGen.single hmove)
      · rw [hout]
        exact Stepped.quiet (Relation.ReflTransGen.single hmove)

theorem accept_stepped (s : State) (hk : Keyed s.deliveries) (hostId : Text)
    (delivery : LeadPromptDelivery) (nativeSessionId : Text) (busy : Bool)
    (reason : Option Text) (c : Choice) :
    Stepped s.deliveries (accept P s hostId delivery nativeSessionId busy reason c).1.deliveries
      (invoked (accept P s hostId delivery nativeSessionId busy reason c).2) := by
  unfold accept
  split
  · split
    · exact Stepped.quiet Relation.ReflTransGen.refl
    · rename_i hfind
      refine acceptNew_stepped s hostId delivery nativeSessionId busy _ c ?_
      intro p hp
      rw [find_none hk hfind] at hp
      exact absurd hp (by simp)
    · rename_i prior hfind
      split
      · exact Stepped.quiet Relation.ReflTransGen.refl
      · rename_i hsame
        split
        · exact Stepped.publish Relation.ReflTransGen.refl rfl
        · rename_i hbusy
          refine acceptNew_stepped s hostId delivery nativeSessionId busy _ c ?_
          intro p hp
          rcases find_some hk hfind with ⟨q, hq, hread⟩
          have hread' := readRecord_same hread
          rw [hq, Option.some.injEq] at hp
          simp only [Bool.or_eq_true, decide_eq_true_eq, not_or, not_not] at hsame hbusy
          rw [← hp, hread'.2, hread'.1.hostId, hread'.1.promptDigest]
          exact ⟨hbusy, hsame.1, hsame.2⟩
  · exact Stepped.quiet Relation.ReflTransGen.refl

/-- What a handoff in flight becomes when it is over. -/
theorem Move.moved {rows rows' : Table Text DeliveryRecord} {p record : DeliveryRecord}
    {state : ReceiptState} {detail now : Text} {fault : Bool}
    (hp : rows.get record.receipt.deliveryId = some p) (hsame : SameDelivery p record)
    (hbegun : 1 ≤ p.receipt.state.phase) (hover : state.phase = 2)
    (h : persist P rows (record.moved state detail now) fault = some rows') :
    Move rows rows' := by
  rw [persist_some h]
  exact Move.complete p (record.moved state detail now) hp
    ⟨hsame.hostId, hsame.promptDigest, hsame.deliveryId, hsame.sessionId,
      hsame.nativeSessionId⟩ hbegun hover

theorem transition_stepped (s : State) (hk : Keyed s.deliveries) {id : Text}
    {record : DeliveryRecord} (hfind : find P s.deliveries id = some (some record))
    (ha : record.receipt.state = .accepted) {state : ReceiptState} (hover : state.phase = 2)
    (detail : Text) (c : Choice) :
    Stepped s.deliveries (transition P s record state detail c).1.deliveries
      (invoked (transition P s record state detail c).2) := by
  rcases find_some hk hfind with ⟨p, hp, hread⟩
  have hsame := readRecord_same hread
  unfold transition
  dsimp only
  split
  · exact Stepped.quiet Relation.ReflTransGen.refl
  · rename_i rows hrows
    refine Stepped.publish (Relation.ReflTransGen.single ?_) rfl
    refine Move.moved (p := p) ?_ hsame.1 ?_ hover hrows
    · rw [← hsame.1.deliveryId, hk id p hp]
      exact hp
    · rw [hsame.2, ha]
      exact Nat.le_refl 1

theorem settle_stepped (s : State) (hk : Keyed s.deliveries) (deliveryId nativeSessionId : Text)
    (c : Choice) :
    Stepped s.deliveries (settle P s deliveryId nativeSessionId c).1.deliveries
      (invoked (settle P s deliveryId nativeSessionId c).2) := by
  unfold settle
  split
  · exact Stepped.quiet Relation.ReflTransGen.refl
  · exact Stepped.quiet Relation.ReflTransGen.refl
  · rename_i record hfind
    by_cases ha : record.receipt.state = .accepted
    · rw [if_neg (not_not.mpr ha)]
      split
      · exact transition_stepped s hk hfind ha rfl _ c
      · exact transition_stepped s hk hfind ha rfl _ c
    · rw [if_pos ha]
      exact Stepped.quiet Relation.ReflTransGen.refl

theorem uncertain_stepped (s : State) (hk : Keyed s.deliveries) (deliveryId detail : Text)
    (c : Choice) :
    Stepped s.deliveries (uncertain P s deliveryId detail c).1.deliveries
      (invoked (uncertain P s deliveryId detail c).2) := by
  unfold uncertain
  split
  · exact Stepped.quiet Relation.ReflTransGen.refl
  · rename_i record hfind
    by_cases ha : record.receipt.state = .accepted
    · rw [if_pos ha]
      exact transition_stepped s hk hfind ha rfl detail c
    · rw [if_neg ha]
      exact Stepped.quiet Relation.ReflTransGen.refl
  · exact Stepped.quiet Relation.ReflTransGen.refl

theorem replay_stepped (s : State) (hostId : Text) (emits : Text → Option Bool) :
    Stepped s.deliveries (replay P s hostId emits).1.deliveries
      (invoked (replay P s hostId emits).2) := by
  unfold replay
  split
  · exact Stepped.quiet Relation.ReflTransGen.refl
  · rename_i records _
    -- No turn of the loop writes a row or answers with a release.
    have hloop := Run.foldl_visits (f := replayOne P hostId emits)
      (fun _ t => t.1.deliveries = s.deliveries ∧ invoked t.2 = [])
      (by
        rintro record rest t ⟨hrows, hout⟩
        unfold replayOne
        split
        · exact ⟨hrows, hout⟩
        · refine ⟨by rw [publish_deliveries, hrows], ?_⟩
          rcases publish_outcome (P := P) t.1 record.receipt (emits record.receipt.deliveryId)
            .returned with h | h
          · rw [h]; rfl
          · rw [h]; rfl)
      records (s, .returned) ⟨rfl, rfl⟩
    rw [hloop.1, hloop.2]
    exact Stepped.quiet Relation.ReflTransGen.refl

theorem flushLoop_quiet (hostId : Text) (emits : Text → Option Bool)
    (receipts : List LeadPromptReceipt) (s : State) :
    (flushLoop P hostId emits receipts s).1.deliveries = s.deliveries ∧
      invoked (flushLoop P hostId emits receipts s).2 = [] := by
  induction receipts generalizing s with
  | nil => exact ⟨rfl, rfl⟩
  | cons receipt rest ih =>
      unfold flushLoop
      split
      · exact ⟨rfl, rfl⟩
      · exact ih s
      · split
        · exact ih s
        · split
          · exact ⟨rfl, rfl⟩
          · exact ⟨rfl, rfl⟩
          · exact ih { s with pending := s.pending.erase receipt.deliveryId }

theorem flush_stepped (s : State) (hostId : Text) (emits : Text → Option Bool) :
    Stepped s.deliveries (flush P s hostId emits).1.deliveries
      (invoked (flush P s hostId emits).2) := by
  have hquiet := flushLoop_quiet (P := P) hostId emits s.pending.values s
  unfold flush
  rw [hquiet.1, hquiet.2]
  exact Stepped.quiet Relation.ReflTransGen.refl

/-- A record read earlier still describes its row once it was in flight. -/
def Current (rows : Table Text DeliveryRecord) (record : DeliveryRecord) : Prop :=
  record.receipt.state = .accepted →
    ∃ p, rows.get record.receipt.deliveryId = some p ∧ SameDelivery p record ∧
      1 ≤ p.receipt.state.phase

theorem recover_moves (faults : Text → Bool) (now : Text → Text) :
    ∀ (records : List DeliveryRecord) (rows : Table Text DeliveryRecord),
      (∀ record ∈ records, Current rows record) →
        Moves rows (recover P faults now records rows).1 := by
  intro records
  induction records with
  | nil =>
      intro rows _
      exact Relation.ReflTransGen.refl
  | cons record rest ih =>
      intro rows hcurrent
      have hrest : ∀ r ∈ rest, Current rows r :=
        fun r hr => hcurrent r (List.mem_cons_of_mem record hr)
      unfold recover
      split
      · rename_i ha
        rcases hcurrent record List.mem_cons_self ha with ⟨p, hp, hsame, hbegun⟩
        dsimp only
        split
        · exact Relation.ReflTransGen.refl
        · rename_i rows' hrows
          have hmove : Move rows rows' := Move.moved hp hsame hbegun rfl hrows
          refine Relation.ReflTransGen.head hmove (ih rows' fun r hr hra => ?_)
          -- The row of a later record is untouched, or it is the same delivery.
          rcases hrest r hr hra with ⟨q, hq, hqr, hqb⟩
          rw [persist_some hrows, Table.get_set]
          by_cases hid : r.receipt.deliveryId = record.receipt.deliveryId
          · rw [hid, hp, Option.some.injEq] at hq
            refine ⟨_, if_pos hid, ?_, by simp [DeliveryRecord.moved, ReceiptState.phase]⟩
            rw [← hq] at hqr
            exact ⟨hsame.hostId.symm.trans hqr.hostId,
              hsame.promptDigest.symm.trans hqr.promptDigest, hid.symm,
              hsame.sessionId.symm.trans hqr.sessionId,
              hsame.nativeSessionId.symm.trans hqr.nativeSessionId⟩
          · exact ⟨q, by rw [← hq]; exact if_neg hid, hqr, hqb⟩
      · exact ih rows hrest

theorem restart_stepped (s : State) (hk : Keyed s.deliveries) (faults : Text → Bool)
    (now : Text → Text) :
    Stepped s.deliveries (restart P s faults now).1.deliveries
      (invoked (restart P s faults now).2) := by
  unfold restart
  split
  · exact Stepped.quiet Relation.ReflTransGen.refl
  · rename_i records hall
    have hmoves := recover_moves (P := P) faults now records s.deliveries (by
      intro record hmem ha
      rcases all_mem hk hall hmem with ⟨p, hp, hread⟩
      have hsame := readRecord_same hread
      exact ⟨p, hp, hsame.1, by rw [hsame.2, ha]; exact Nat.le_refl 1⟩)
    split
    · rename_i rows hrec
      rw [hrec] at hmoves
      exact Stepped.quiet hmoves
    · rename_i rows hrec
      rw [hrec] at hmoves
      exact Stepped.quiet hmoves

/-- Every call and every restart is a sequence of moves, and it releases a
    delivery only as its record is first accepted. -/
theorem step_moves (s : State) (hk : Keyed s.deliveries) (i : Input) :
    Stepped s.deliveries (step P s i).deliveries (releases P s i) := by
  have hclosed : Stepped s.deliveries s.deliveries [] :=
    Stepped.quiet Relation.ReflTransGen.refl
  unfold step releases
  cases i with
  | accept hostId delivery nativeSessionId busy rejectionReason c =>
      simp only [run]
      split
      · exact accept_stepped s hk hostId delivery nativeSessionId busy rejectionReason c
      · exact hclosed
  | settle deliveryId nativeSessionId c =>
      simp only [run]
      split
      · exact settle_stepped s hk deliveryId nativeSessionId c
      · exact hclosed
  | uncertain deliveryId detail c =>
      simp only [run]
      split
      · exact uncertain_stepped s hk deliveryId detail c
      · exact hclosed
  | replay hostId emits =>
      simp only [run]
      split
      · exact replay_stepped s hostId emits
      · exact hclosed
  | flush hostId emits =>
      simp only [run]
      split
      · exact flush_stepped s hostId emits
      · exact hclosed
  | restart faults now => exact restart_stepped s hk faults now

/-! ### Runs -/

/-- What holds of the rows in every reachable state. -/
structure Kept (s : State) : Prop where
  keyed : Keyed s.deliveries
  exclusive : Exclusive s.deliveries

theorem Kept.initial : Kept {} where
  keyed := by
    intro id p hp
    exact absurd hp (by simp)
  exclusive := by
    intro j k p q _ hp
    exact absurd hp (by simp)

/-- Deliveries only move forward, and are released as they are first accepted. -/
theorem forward : Once.Forward (step P) (releases P) Kept (fun _ _ => True)
    (fun s => phase s.deliveries) 1 where
  keeps := by
    intro s i hs _
    have hmoves := (step_moves (P := P) s hs.keyed i).moves
    exact ⟨hmoves.keyed hs.keyed, hmoves.exclusive hs.exclusive⟩
  grows := by
    intro s i id hs _
    exact (step_moves s hs.keyed i).moves.phase_le id
  crosses := by
    intro s i id hs _ hid
    exact (step_moves s hs.keyed i).crosses id hid
  single := by
    intro s i hs _
    exact (step_moves s hs.keyed i).single

theorem admits_true (s : State) (ops : List Input) :
    Run.Admits (step P) (fun _ _ => True) s ops := by
  induction ops generalizing s with
  | nil => trivial
  | cons i rest ih => exact ⟨trivial, ih (step P s i)⟩

theorem kept_run (ops : List Input) : Kept (Run.final (step P) {} ops) :=
  Run.invariant (step P) Kept (fun s i hs => forward.keeps s i hs trivial) ops {} Kept.initial

/-- The delivery is being handed to its native conversation. -/
def Handed (s : State) (id : Text) : Prop :=
  ∃ p, s.deliveries.get id = some p ∧ p.receipt.state = .accepted

/-- Once a handoff is over the delivery has come as far as it ever will. -/
theorem phase_two_of_left {s t : State} {id : Text} (hs : Handed s id)
    (hle : phase s.deliveries id ≤ phase t.deliveries id) (ht : ¬Handed t id) :
    phase t.deliveries id = 2 := by
  rcases hs with ⟨p, hp, ha⟩
  unfold phase at hle ⊢
  rw [hp, Option.elim_some, ha] at hle
  cases hq : t.deliveries.get id with
  | none =>
      rw [hq] at hle
      exact absurd hle (by simp [ReceiptState.phase])
  | some q =>
      rw [hq] at hle
      rw [Option.elim_some] at hle ⊢
      cases hstate : q.receipt.state with
      | accepted => exact absurd ⟨q, hq, hstate⟩ ht
      | rejectedBusy =>
          rw [hstate] at hle
          exact absurd hle (by decide)
      | uncertain => rfl
      | settled => rfl
      | rejected => rfl

/-- Over every run of calls and restarts: a delivery is released for its native
    prompt at most once; two handoffs in flight share neither their session nor
    their native conversation; a handoff that is over never begins again; and a
    known delivery under another host or with other content is refused without
    a write. -/
theorem deliveries_prompted_once (P : Platform) (ops : List Input) :
    (Once.released (step P) (releases P) {} ops).Nodup ∧
      Exclusive (Run.final (step P) {} ops).deliveries ∧
      (∀ id more rest, Handed (Run.final (step P) {} ops) id →
        ¬Handed (Run.final (step P) {} (ops ++ more)) id →
        ¬Handed (Run.final (step P) {} (ops ++ more ++ rest)) id) ∧
      ∀ hostId delivery nativeSessionId busy rejectionReason c p,
        (Run.final (step P) {} ops).deliveries.get delivery.deliveryId = some p →
        p.hostId ≠ hostId ∨ p.promptDigest ≠ delivery.serialized →
        accept P (Run.final (step P) {} ops) hostId delivery nativeSessionId busy
          rejectionReason c = (Run.final (step P) {} ops, .threw) := by
  have hkept := kept_run (P := P) ops
  refine ⟨forward.released_nodup ops {} Kept.initial (admits_true {} ops),
    hkept.exclusive, ?_, ?_⟩
  · intro id more rest hhanded hleft hagain
    rw [Run.final_append] at hleft
    rw [Run.final_append, Run.final_append] at hagain
    set s := Run.final (step P) {} ops
    set t := Run.final (step P) s more
    have ht : Kept t := (forward (P := P)).keeps_run more s hkept (admits_true s more)
    have hmore : phase s.deliveries id ≤ phase t.deliveries id :=
      (forward (P := P)).phase_le id more s hkept (admits_true s more)
    have hrest : phase t.deliveries id ≤ phase (Run.final (step P) t rest).deliveries id :=
      (forward (P := P)).phase_le id rest t ht (admits_true t rest)
    have htwo := phase_two_of_left hhanded hmore hleft
    rcases hagain with ⟨q, hq, ha⟩
    have hone : phase (Run.final (step P) t rest).deliveries id = 1 := by
      unfold phase
      rw [hq, Option.elim_some, ha]
      rfl
    omega
  · intro hostId delivery nativeSessionId busy rejectionReason c p hp hother
    unfold accept
    split
    · split
      · rfl
      · rename_i hfind
        rw [find_none hkept.keyed hfind] at hp
        exact absurd hp (by simp)
      · rename_i prior hfind
        rcases find_some hkept.keyed hfind with ⟨q, hq, hread⟩
        have hsame := (readRecord_same hread).1
        rw [hp, Option.some.injEq] at hq
        rw [hq, hsame.hostId, hsame.promptDigest] at hother
        rw [if_pos (by simpa using hother)]
    · rfl

end LeadPrompt

end CopilotFleet
