import CopilotFleet.PrMaintenance.Acts

/-!
# The Allowance of a Lead's Wake

A lead reads the pull requests it maintains in turns of its own, and each turn
has an allowance: so many visits, so many requests, so much time. The wake that
keeps it is one row, which six operations read, change and write whole, some of
them within another. An observation is reserved on a visit, bound to the one
execution that is to make it, and settled by the one receipt of that execution.

Each operation is modelled with the copies of the wake that it reads, in the
order in which it reads and writes them. What it comes to is then one of six
steps of one wake (`WakeStep`), and a wake accounts for everything that was
done under it (`Accounted`).

## Main definitions

* `Wake`: The row of a lead's turn.
* `chargeWake`, `takeDue`, `reserveObservation`: What it is spent on.
* `bindObservationExecution`, `acceptReceipt`: What becomes of a reservation.
* `WakeCall.step`: The registry, its wakes and what was done, after a call.
* `WakeStep`: What a call comes to, on one wake.

## Theorems

* `perform_ok`: Every call is one step of at most one wake.
* `WakeStep.accounted`: A step is accounted for.
* `allowance_kept`: In every run, no wake is overspent, nothing is done twice under it, and
  nothing is taken back.
-/

namespace CopilotFleet

open Utf16 Refusal Timestamps

namespace PrMaintenance

/-! ### Wakes -/

/-- `PR_MAINTENANCE_WAKE_LIMITS`. -/
def WakeLimits.visits : Nat := 5

def WakeLimits.requests : Nat := 100

def WakeLimits.milliseconds : Nat := 300000

def CommandLimits.clockUncertaintyMs : Int := 5000

def CommandLimits.clockDriftMs : Int := 1000

/-- What an observation is reserved for, as what its key is the digest of. -/
structure ObservationScope where
  id : Text
  generation : Nat
  identity : Identity
  authorizationId : Text
  headSha : Text
  takenAt : Option Time
  leadSessionId : Text
  taskId : Text
  workerSessionId : Text
  placementId : Text
  checkoutKey : Text
  bindingGeneration : Nat
deriving DecidableEq

def observationScope (record : Registration) : ObservationScope where
  id := record.id
  generation := record.generation
  identity := record.identity
  authorizationId := record.authorization.id
  headSha := record.authorization.headSha
  takenAt := record.manualControl.map (·.takenAt)
  leadSessionId := record.leadSessionId
  taskId := record.taskId
  workerSessionId := record.workerSessionId
  placementId := record.placementId
  checkoutKey := record.checkoutKey
  bindingGeneration := record.bindingGeneration

/-- A reserved observation. -/
structure ObservationClaim where
  recordId : Text
  generation : Nat
  recordVersion : Nat
  scopeKey : ObservationScope
  claimedAt : Time
  deadlineAt : Time
  requests : Nat
  executionId : Option Text := none
  attemptId : Option Text := none
  /-- The source's `receiptHash`, as what it is the digest of. -/
  receipt : Option Observation := none
deriving DecidableEq

/-- The reservation is one execution's. -/
def ObservationClaim.bindTo (executionId attemptId : Text) (claim : ObservationClaim) :
    ObservationClaim :=
  { claim with
    executionId := some executionId
    attemptId := some attemptId }

/-- The reservation has its receipt. -/
def ObservationClaim.receive (observation : Observation) (claim : ObservationClaim) :
    ObservationClaim :=
  { claim with receipt := some observation }

/-- What a lead has used of one turn. -/
structure Wake where
  startedAt : Time
  visits : Nat := 0
  requests : Nat := 0
  milliseconds : Nat := 0
  visitedIds : List Text := []
  observationClaims : List ObservationClaim := []
deriving DecidableEq

structure WakeKey where
  leadSessionId : Text
  wakeId : Text
deriving DecidableEq

abbrev Wakes := Table WakeKey Wake

/-- What the schema says of the lengths of a wake's lists and of its claims. -/
def Wake.parses (wake : Wake) : Bool :=
  wake.visitedIds.length ≤ 5 && wake.observationClaims.length ≤ 5 &&
    wake.observationClaims.all fun claim =>
      1 ≤ claim.requests && claim.requests ≤ WakeLimits.requests

/-- The claim of a registration. -/
def Wake.claim (wake : Wake) (recordId : Text) : Option ObservationClaim :=
  wake.observationClaims.find? fun claim => claim.recordId = recordId

/-- The claim of a registration is rewritten where it stands. -/
def Wake.setClaim (recordId : Text) (f : ObservationClaim → ObservationClaim) (wake : Wake) :
    Wake :=
  { wake with
    observationClaims :=
      First.setFirst (fun claim => claim.recordId = recordId) f wake.observationClaims }

structure Allowance where
  visits : Nat
  requests : Nat
  milliseconds : Nat

/-- Time passes whether it is charged or not. -/
def Wake.remaining (wake : Wake) («at» : Time) : Allowance where
  visits := WakeLimits.visits - wake.visits
  requests := WakeLimits.requests - wake.requests
  milliseconds :=
    ((WakeLimits.milliseconds : Int) - max (wake.milliseconds : Int) («at» - wake.startedAt)).toNat

def findWake (key : WakeKey) (wakes : Wakes) : Except Refusal Wake :=
  match wakes.get key with
  | none => .error .wakeRequired
  | some wake => if wake.parses then .ok wake else .error .schema

def saveWake (key : WakeKey) (wake : Wake) (wakes : Wakes) : Except Refusal Wakes :=
  if wake.parses then .ok (wakes.set key wake) else .error .schema

/-- A lead's turn begins, once. -/
def beginWake (key : WakeKey) («at» : Time) (wakes : Wakes) : Except Refusal Wakes :=
  match wakes.get key with
  | some old => if old.parses then .ok wakes else .error .schema
  | none => .ok (wakes.set key { startedAt := «at» })

def chargeWake (key : WakeKey) (requests milliseconds : Nat) («at» : Time) (wakes : Wakes) :
    Except Refusal Wakes := do
  if WakeLimits.requests < requests ∨ WakeLimits.milliseconds < milliseconds then throw .schema
  let wake ← findWake key wakes
  let remaining := wake.remaining «at»
  if remaining.requests = 0 ∨ remaining.milliseconds = 0 ∨ remaining.requests < requests ∨
      remaining.milliseconds < milliseconds then
    throw .wakeExhausted
  return wakes.set key { wake with
    requests := wake.requests + requests
    milliseconds := wake.milliseconds + milliseconds }

/-! ### What a turn reads -/

/-- The reservation that an execution was created for. -/
structure ObservationClaimRef where
  recordId : Text
  generation : Nat
  wakeId : Text

structure Execution where
  id : Text
  attemptId : Text
  leadSessionId : Text
  taskId : Option Text
  maintenanceObservation : Option ObservationClaimRef

/-- When an execution that can be gone by was made, in the Host's time and in the
    Node's. -/
structure Evidence where
  createdAt : Time
  approvedAt : Time
  acceptedAt : Time
  settledAt : Time
  preparedAt : Time
  startedAt : Option Time
  receiptSettledAt : Time
  hostClockOffsetMs : Int

/-- Why a turn's call is refused. -/
inductive WakeRefusal where
  | registry (refusal : Refusal)
  | receiptUnbound
  | receiptScopeChanged
  | receiptClaimConflict
  | receiptOwner
  | receiptOverflow
  | receiptIncomplete
  | receiptInvalid
  | receiptMismatch
  | receiptClock
  | receiptAllowance
  | receiptConflict
deriving DecidableEq

/-- What a turn reads that is not a registration. -/
structure Turn extends World where
  /-- The command of a session's last dispatch, which is its turn. -/
  turn : Text → Option Text
  execution : Text → Option Execution
  /-- The execution's own records: it is approved and quiescent, its output is
      complete and is this observation, and its clock is accounted for. -/
  evidence : Execution → ObservationClaim → Registration → Observation →
    Except WakeRefusal Evidence
  /-- The order in which the locale puts two texts. -/
  collate : Text → Text → Bool

/-- A refusal of the registry's. -/
def fromRegistry {α : Type} : Except Refusal α → Except WakeRefusal α
  | .ok a => .ok a
  | .error refusal => .error (.registry refusal)

theorem fromRegistry_ok {α : Type} {x : Except Refusal α} {a : α}
    (h : fromRegistry x = .ok a) : x = .ok a := by
  cases x with
  | error _ => cases h
  | ok b =>
      cases h
      rfl

/-- The Host, with what its wakes allow. -/
def Turn.withWakes (w : Turn) (wakes : Wakes) : World :=
  { w.toWorld with
    chargeWake := fun leadSessionId wakeId recordId requests => do
      let wake ← findWake ⟨leadSessionId, wakeId⟩ wakes
      if wake.visitedIds.contains recordId = false then throw .visitRequired
      let _ ← chargeWake ⟨leadSessionId, wakeId⟩ requests 0 w.now wakes
      return ()
    wakeLasts := fun leadSessionId wakeId => do
      let wake ← findWake ⟨leadSessionId, wakeId⟩ wakes
      return 0 < (wake.remaining w.now).milliseconds }

variable (w : Turn)

/-- The registration of an id, if it is the lead's. -/
def required (store : Store) (recordId leadSessionId : Text) : Except Refusal Registration :=
  match store.records.get recordId with
  | none => .error .notFound
  | some record =>
      if record.leadSessionId ≠ leadSessionId then .error .ownership else .ok record

/-! ### Visits -/

/-- The retained worker is still on a batch. -/
def repairInProgress (record : Registration) : Bool :=
  record.batches.any fun batch =>
    batch.state = .accepted && batch.stepId.isSome && !batch.executionSettled &&
      !neverDispatched w.toWorld record batch &&
        (batch.stepId.bind w.step).any fun step =>
          some step.attempts = batch.attempt && !step.state.terminal

def readable (store : Store) (leadSessionId : Text) (record : Registration) : Bool :=
  !record.released && record.leadSessionId = leadSessionId && record.lifecycle = .active &&
    record.authorization.scope.publicationAuthorized &&
      (admission w.toWorld store {
        action := .discover
        recordId := some record.id }).isNone &&
        !repairInProgress w record

/-- There is a review to do, or an incident that evidence by other means may answer. -/
def wanted (store : Store) (leadSessionId : Text) (record : Registration) : Bool :=
  readable w store leadSessionId record && (record.reviewOpen ||
    (recoveryAllowed w.toWorld record && record.incidents.any fun entry =>
      entry.kind = .capability && entry.unresolved &&
        entry.attempts.length < RecoveryLimits.attempts))

/-- Manual reviews and results before routine heartbeats, then by when they were asked for. -/
def comesFirst (a b : Registration) : Bool :=
  let routine := fun record : Registration =>
    record.review.any fun review => review.source = .heartbeat
  let due := fun record : Registration =>
    (record.review.map (·.requestedAt)).getD record.nextCheckAt
  if routine a ≠ routine b then routine b
  else if due a ≠ due b then due a < due b
  else w.collate a.id b.id

/-- The pull request a turn is to read next. -/
def chosen (store : Store) (leadSessionId : Text) (wake : Wake) : Option Registration :=
  ((store.retained.filter fun record =>
    !wake.visitedIds.contains record.id && wanted w store leadSessionId record).mergeSort
      (comesFirst w)).head?

def takeDue (key : WakeKey) («at» : Time) (store : Store) (wakes : Wakes) :
    Except Refusal (Store × Wakes × Option Registration) := do
  let wake ← findWake key wakes
  let remaining := wake.remaining «at»
  if remaining.visits = 0 ∨ remaining.requests = 0 ∨ remaining.milliseconds = 0 then
    return (store, wakes, none)
  let store ← run w.toWorld (.takeDue key.leadSessionId «at») store
  match chosen w store key.leadSessionId wake with
  | none => return (store, wakes, none)
  | some record =>
      return (store, wakes.set key { wake with
        visits := wake.visits + 1
        visitedIds := wake.visitedIds ++ [record.id] }, some record)

/-! ### Reservations -/

/-- A reservation, which ends with the wake's time. -/
def newClaim (record : Registration) (requests : Nat) (wake : Wake) : ObservationClaim where
  recordId := record.id
  generation := record.generation
  recordVersion := record.version
  scopeKey := observationScope record
  claimedAt := w.now
  deadlineAt := min (wake.startedAt + WakeLimits.milliseconds)
    (w.now + (wake.remaining w.now).milliseconds)
  requests := requests

/-- An observation is reserved on the visit, and what it may use is charged. -/
def reserveObservation (key : WakeKey) (recordId : Text) (requests : Nat) (store : Store)
    (wakes : Wakes) : Except Refusal Wakes := do
  let record ← required store recordId key.leadSessionId
  let before ← findWake key wakes
  if before.visitedIds.contains recordId = false ∨ (before.claim recordId).isSome then
    throw .visitRequired
  let wakes ← chargeWake key requests 0 w.now wakes
  -- The charge wrote the row, so it is read again.
  let wake ← findWake key wakes
  saveWake key { wake with
    observationClaims := wake.observationClaims ++ [newClaim w record requests wake] } wakes

/-- What an execution was reserved for, as it stands. -/
structure Reservation where
  key : WakeKey
  record : Registration
  wake : Wake
  claim : ObservationClaim

def observationExecution (execution : Execution) (store : Store) (wakes : Wakes) :
    Except WakeRefusal Reservation := do
  let some ref := execution.maintenanceObservation | throw .receiptUnbound
  let key : WakeKey := ⟨execution.leadSessionId, ref.wakeId⟩
  let record ← fromRegistry (required store ref.recordId execution.leadSessionId)
  let wake ← fromRegistry (findWake key wakes)
  let some claim := wake.claim record.id | throw .receiptScopeChanged
  if claim.generation ≠ ref.generation ∨ record.generation ≠ ref.generation ∨
      claim.scopeKey ≠ observationScope record ∨
      (w.run record.taskId).map (·.leadSessionId) ≠ some execution.leadSessionId ∨
      (w.binding record).isSome then
    throw .receiptScopeChanged
  return { key, record, wake, claim }

/-- The execution owns the reservation, and there is time for it. -/
def assertObservationExecution (execution : Execution) (store : Store) (wakes : Wakes) :
    Except WakeRefusal Unit :=
  match execution.maintenanceObservation with
  | none => .ok ()
  | some _ => do
      let reserved ← observationExecution w execution store wakes
      if reserved.claim.executionId ≠ some execution.id ∨
          reserved.claim.attemptId ≠ some execution.attemptId then
        throw .receiptClaimConflict
      if reserved.claim.deadlineAt ≤ w.now then throw (.registry .wakeExhausted)
      fromRegistry (assertAdmission w.toWorld store {
        action := .discover
        recordId := some reserved.record.id
        leadSessionId := some execution.leadSessionId })

/-- An execution that is created is bound to the reservation it names. -/
def bindObservationExecution (execution : Execution) (store : Store) (wakes : Wakes) :
    Except WakeRefusal Wakes :=
  match execution.maintenanceObservation with
  | none => .ok wakes
  | some ref => do
      let reserved ← observationExecution w execution store wakes
      if execution.taskId.isSome ∨ reserved.claim.executionId.isSome ∨
          w.turn execution.leadSessionId ≠ some ref.wakeId ∨
          reserved.claim.recordVersion ≠ reserved.record.version then
        throw .receiptClaimConflict
      let wakes ← fromRegistry (saveWake reserved.key
        (reserved.wake.setClaim reserved.record.id
          (ObservationClaim.bindTo execution.id execution.attemptId)) wakes)
      assertObservationExecution w execution store wakes
      return wakes

/-- When the observation was made, at the earliest and at the latest, and whether
    it came too late. -/
def receiptTimes (claim : ObservationClaim) (evidence : Evidence) (observation : Observation) :
    Except WakeRefusal (Time × Time × Bool) :=
  let rawAttempted := observation.attemptedAt.instant
  let rawFinished := rawAttempted + observation.elapsedMs
  let attempted := rawAttempted + evidence.hostClockOffsetMs
  let finished := attempted + observation.elapsedMs
  let uncertainty := CommandLimits.clockUncertaintyMs + CommandLimits.clockDriftMs
  let late := decide (claim.deadlineAt < finished + uncertainty)
  let earliest := max (max (attempted - CommandLimits.clockDriftMs) claim.claimedAt)
    (max evidence.createdAt evidence.approvedAt)
  let latest := min (min (attempted + uncertainty) evidence.settledAt) w.now
  if claim.requests < observation.requestsConsumed ∨ latest < earliest ∨
      rawAttempted < evidence.preparedAt ∨
      (evidence.startedAt.any fun startedAt => rawAttempted < startedAt) ∨
      evidence.receiptSettledAt < rawFinished ∨
      evidence.settledAt < finished - CommandLimits.clockDriftMs ∨
      w.now < finished - CommandLimits.clockDriftMs ∨
      attempted + uncertainty < evidence.approvedAt ∨ w.now < evidence.acceptedAt ∨
      (0 < observation.requestsConsumed ∧ claim.deadlineAt ≤ attempted) ∨
      (observation.complete ∧ late) then
    .error .receiptAllowance
  else .ok (earliest, latest, late)

/-- The one receipt of a reservation. Nothing where it was accepted before. -/
def acceptReceipt (leadSessionId recordId : Text) (expectedVersion : Nat) (executionId : Text)
    (observation : Observation) (store : Store) (wakes : Wakes) :
    Except WakeRefusal (Option (WakeKey × Store × Wakes)) := do
  let some execution := w.execution executionId | throw .receiptOwner
  if execution.leadSessionId ≠ leadSessionId ∨
      execution.maintenanceObservation.map (·.recordId) ≠ some recordId then
    throw .receiptOwner
  let reserved ← observationExecution w execution store wakes
  if reserved.claim.executionId ≠ some execution.id ∨
      reserved.claim.attemptId ≠ some execution.attemptId then
    throw .receiptClaimConflict
  let evidence ← w.evidence execution reserved.claim reserved.record observation
  let (hostAttemptedAt, hostLatestAt, late) ← receiptTimes w reserved.claim evidence observation
  match reserved.claim.receipt with
  | some accepted =>
      if accepted ≠ observation then throw .receiptConflict
      return none
  | none =>
      let store ← fromRegistry (run w.toWorld
        (.checkpointObservationReceipt leadSessionId recordId expectedVersion {
          observation
          recorded := false
          hostAttemptedAt := toISOString hostAttemptedAt
          hostLatestAt := toISOString hostLatestAt
          late }) store)
      let wakes ← fromRegistry (saveWake reserved.key
        (reserved.wake.setClaim reserved.record.id (ObservationClaim.receive observation)) wakes)
      return some (reserved.key, store, wakes)

/-! ### One call -/

/-- Something done under a wake. -/
inductive Event where
  | visited (recordId : Text)
  | reserved (recordId : Text)
  | bound (recordId executionId attemptId : Text)
  | accepted (recordId : Text) (observation : Observation)

/-- The registry, its wakes, and what was done under each. -/
structure Registry where
  store : Store
  wakes : Wakes := .empty
  log : List (WakeKey × Event) := []

/-- An operation of the registry with no wake but that of an alternate attempt. -/
def Operation.wakeless : Operation → Bool
  | .takeDue .. | .checkpointObservationReceipt .. => false
  | _ => true

inductive WakeCall where
  | beginWake (key : WakeKey) («at» : Time)
  | takeDue (key : WakeKey) («at» : Time)
  | reserveObservation (key : WakeKey) (recordId : Text) (requests : Nat)
  | bindObservationExecution (execution : Execution)
  | chargeWake (key : WakeKey) (requests milliseconds : Nat) («at» : Time)
  | checkpointObservationReceipt (leadSessionId recordId : Text) (expectedVersion : Nat)
      (executionId : Text) (observation : Observation)
  | operation (operation : Operation) (wakeless : operation.wakeless = true)

/-- The alternate attempt is new to the registration, so that it is charged. -/
def reservesAlternate (store : Store) (recordId : Text) (attempt : AlternateAttempt) : Bool :=
  (store.records.get recordId).any fun record =>
    (record.incidents.find? fun entry => entry.id = attempt.incidentId).any fun found =>
      !found.attempts.any fun entry => entry.id = attempt.resolutionId

/-- What an operation of the registry is charged. -/
def chargeOperation (operation : Operation) (s : Registry) : Except Refusal Wakes :=
  match operation with
  | .checkpoint leadSessionId recordId _ (.alternateAttempt attempt) (some wakeId) =>
      if reservesAlternate s.store recordId attempt then
        chargeWake ⟨leadSessionId, wakeId⟩ attempt.requests 0 w.now s.wakes
      else .ok s.wakes
  | _ => .ok s.wakes

def perform (call : WakeCall) (s : Registry) : Except WakeRefusal Registry :=
  match call with
  | .beginWake key «at» => do
      let wakes ← fromRegistry (beginWake key «at» s.wakes)
      return { s with wakes }
  | .takeDue key «at» => do
      let (store, wakes, record) ← fromRegistry (takeDue w key «at» s.store s.wakes)
      return { store, wakes, log := s.log ++
        (record.map fun record => (key, Event.visited record.id)).toList }
  | .reserveObservation key recordId requests => do
      let wakes ← fromRegistry (reserveObservation w key recordId requests s.store s.wakes)
      return { s with wakes, log := s.log ++ [(key, .reserved recordId)] }
  | .bindObservationExecution execution => do
      let wakes ← bindObservationExecution w execution s.store s.wakes
      return { s with wakes, log := s.log ++ (execution.maintenanceObservation.map fun ref =>
        (WakeKey.mk execution.leadSessionId ref.wakeId,
          Event.bound ref.recordId execution.id execution.attemptId)).toList }
  | .chargeWake key requests milliseconds «at» => do
      let wakes ← fromRegistry (chargeWake key requests milliseconds «at» s.wakes)
      return { s with wakes }
  | .checkpointObservationReceipt leadSessionId recordId expectedVersion executionId
      observation => do
      match ← acceptReceipt w leadSessionId recordId expectedVersion executionId observation
        s.store s.wakes with
      | none => return s
      | some (key, store, wakes) =>
          return { store, wakes, log := s.log ++ [(key, .accepted recordId observation)] }
  | .operation operation _ => do
      let store ← fromRegistry (run (w.withWakes s.wakes) operation s.store)
      let wakes ← fromRegistry (chargeOperation w operation s)
      return { s with store, wakes }

/-- The registry after a call, which a refusal leaves as it was. -/
def WakeCall.step (s : Registry) (call : Turn × WakeCall) : Registry :=
  match perform call.1 call.2 s with
  | .ok next => next
  | .error _ => s

/-! ### What a call comes to -/

/-- A charge within what is left. -/
structure Wake.Affords (wake : Wake) (requests milliseconds : Nat) : Prop where
  requests : wake.requests + requests ≤ WakeLimits.requests
  milliseconds : wake.milliseconds + milliseconds ≤ WakeLimits.milliseconds

/-- One step of one wake, and what was done. -/
inductive WakeStep : Option Wake → Wake → List Event → Prop where
  | begins («at» : Time) : WakeStep none { startedAt := «at» } []
  | charge {wake : Wake} {requests milliseconds : Nat} (h : wake.Affords requests milliseconds) :
      WakeStep (some wake) { wake with
        requests := wake.requests + requests
        milliseconds := wake.milliseconds + milliseconds } []
  | visit {wake : Wake} {recordId : Text} (hleft : wake.visits < WakeLimits.visits)
      (hnew : recordId ∉ wake.visitedIds) :
      WakeStep (some wake) { wake with
        visits := wake.visits + 1
        visitedIds := wake.visitedIds ++ [recordId] } [.visited recordId]
  | reserve {wake : Wake} {claim : ObservationClaim} (h : wake.Affords claim.requests 0)
      (hnew : wake.claim claim.recordId = none) (hexecution : claim.executionId = none)
      (hattempt : claim.attemptId = none) (hreceipt : claim.receipt = none) :
      WakeStep (some wake) { wake with
        requests := wake.requests + claim.requests
        observationClaims := wake.observationClaims ++ [claim] } [.reserved claim.recordId]
  | bind {wake : Wake} {claim : ObservationClaim} {recordId : Text}
      (executionId attemptId : Text) (hclaim : wake.claim recordId = some claim)
      (hfree : claim.executionId = none) :
      WakeStep (some wake)
        (wake.setClaim recordId (ObservationClaim.bindTo executionId attemptId))
        [.bound recordId executionId attemptId]
  | accept {wake : Wake} {claim : ObservationClaim} {recordId : Text} (observation : Observation)
      (hclaim : wake.claim recordId = some claim) (hopen : claim.receipt = none) :
      WakeStep (some wake)
        (wake.setClaim recordId (ObservationClaim.receive observation))
        [.accepted recordId observation]

/-- A call changes no wake, or it is one step of one wake. -/
inductive Steps (s next : Registry) : Prop where
  | still (hwakes : next.wakes = s.wakes) (hlog : next.log = s.log)
  | steps {key : WakeKey} {found : Option Wake} {wake : Wake} {events : List Event}
      (hget : s.wakes.get key = found) (hstep : WakeStep found wake events)
      (hwakes : ∀ other, next.wakes.get other = if other = key then some wake else s.wakes.get other)
      (hlog : next.log = s.log ++ events.map fun event => (key, event))

variable {w : Turn} {key : WakeKey} {wakes after : Wakes} {store : Store}

theorem findWake_ok {wake : Wake} (h : findWake key wakes = .ok wake) :
    wakes.get key = some wake := by
  unfold findWake at h
  split at h
  · cases h
  · rename_i found hfound
    split at h
    · cases h
      exact hfound
    · cases h

theorem saveWake_ok {wake : Wake} (h : saveWake key wake wakes = .ok after) :
    after = wakes.set key wake := by
  unfold saveWake at h
  split at h
  · cases h
    rfl
  · cases h

theorem chargeWake_ok {requests milliseconds : Nat} {«at» : Time}
    (h : chargeWake key requests milliseconds «at» wakes = .ok after) :
    ∃ wake, wakes.get key = some wake ∧ wake.Affords requests milliseconds ∧
      after = wakes.set key { wake with
        requests := wake.requests + requests
        milliseconds := wake.milliseconds + milliseconds } := by
  unfold chargeWake at h
  rcases unless_ok h with ⟨_, h⟩
  rcases bind_ok h with ⟨wake, hwake, h⟩
  rcases unless_ok h with ⟨hleft, h⟩
  cases h
  refine ⟨wake, findWake_ok hwake, ?_, rfl⟩
  unfold Wake.remaining at hleft
  simp only [not_or] at hleft
  constructor <;> omega

theorem takeDue_ok {«at» : Time} {next : Store} {record : Option Registration}
    (h : takeDue w key «at» store wakes = .ok (next, after, record)) :
    (after = wakes ∧ record = none) ∨ ∃ wake found, wakes.get key = some wake ∧
      record = some found ∧ wake.visits < WakeLimits.visits ∧ found.id ∉ wake.visitedIds ∧
        after = wakes.set key { wake with
          visits := wake.visits + 1
          visitedIds := wake.visitedIds ++ [found.id] } := by
  unfold takeDue at h
  rcases bind_ok h with ⟨wake, hwake, h⟩
  dsimp only at h
  split at h
  · cases h
    exact .inl ⟨rfl, rfl⟩
  · rename_i hleft
    rcases bind_ok h with ⟨reviewed, _, h⟩
    split at h
    · cases h
      exact .inl ⟨rfl, rfl⟩
    · rename_i found hchosen
      cases h
      refine .inr ⟨wake, found, findWake_ok hwake, rfl, ?_, ?_, rfl⟩
      · unfold Wake.remaining at hleft
        simp only [not_or] at hleft
        omega
      · unfold chosen at hchosen
        have hmem := List.mem_mergeSort.mp (List.mem_of_head? hchosen)
        rw [List.mem_filter, Bool.and_eq_true, Bool.not_eq_true'] at hmem
        simpa using hmem.2.1

theorem required_ok {recordId leadSessionId : Text} {record : Registration}
    (h : required store recordId leadSessionId = .ok record) :
    store.records.get recordId = some record := by
  unfold required at h
  split at h
  · cases h
  · rename_i found hfound
    split at h
    · cases h
    · cases h
      exact hfound

theorem required_id {recordId leadSessionId : Text} {record : Registration}
    (h : required store recordId leadSessionId = .ok record) : record.id = recordId :=
  store.keyed _ _ (required_ok h)

theorem reserveObservation_ok {recordId : Text} {requests : Nat}
    (h : reserveObservation w key recordId requests store wakes = .ok after) :
    ∃ wake claim, wakes.get key = some wake ∧ claim.recordId = recordId ∧
      wake.Affords claim.requests 0 ∧ wake.claim recordId = none ∧ claim.executionId = none ∧
      claim.attemptId = none ∧ claim.receipt = none ∧
      ∀ other, after.get other = if other = key then
        some { wake with
          requests := wake.requests + claim.requests
          observationClaims := wake.observationClaims ++ [claim] }
        else wakes.get other := by
  unfold reserveObservation at h
  rcases bind_ok h with ⟨record, hrecord, h⟩
  rcases bind_ok h with ⟨before, hbefore, h⟩
  rcases unless_ok h with ⟨hvisit, h⟩
  rcases bind_ok h with ⟨charged, hcharged, h⟩
  rcases bind_ok h with ⟨wake, hwake, h⟩
  rcases chargeWake_ok hcharged with ⟨found, hfound, haffords, hset⟩
  -- The copy that is checked is the one that is charged.
  have hsame : before = found := by
    have hbefore := findWake_ok hbefore
    rw [hfound] at hbefore
    exact (Option.some.inj hbefore).symm
  have hread := findWake_ok hwake
  rw [hset, Table.get_set_self] at hread
  cases hread
  rw [not_or, Bool.not_eq_true, Option.isSome_eq_false_iff, Option.isNone_iff_eq_none] at hvisit
  refine ⟨found, newClaim w record requests { found with
    requests := found.requests + requests
    milliseconds := found.milliseconds + 0 }, hfound, required_id hrecord, haffords,
    hsame ▸ hvisit.2, rfl, rfl, rfl, fun other => ?_⟩
  rw [saveWake_ok h, hset, Table.get_set, Table.get_set]
  split <;> rfl

theorem observationExecution_ok {execution : Execution} {reserved : Reservation}
    (h : observationExecution w execution store wakes = .ok reserved) :
    ∃ ref, execution.maintenanceObservation = some ref ∧
      reserved.key = ⟨execution.leadSessionId, ref.wakeId⟩ ∧
      store.records.get ref.recordId = some reserved.record ∧
      reserved.record.id = ref.recordId ∧
      wakes.get reserved.key = some reserved.wake ∧
      reserved.wake.claim reserved.record.id = some reserved.claim := by
  unfold observationExecution at h
  cases href : execution.maintenanceObservation with
  | none =>
      rw [href] at h
      cases h
  | some ref =>
      rw [href] at h
      rcases bind_ok h with ⟨record, hrecord, h⟩
      rcases bind_ok h with ⟨wake, hwake, h⟩
      cases hclaim : wake.claim record.id with
      | none =>
          rw [hclaim] at h
          cases h
      | some claim =>
          rw [hclaim] at h
          rcases unless_ok h with ⟨_, h⟩
          cases h
          have hrecord := fromRegistry_ok hrecord
          exact ⟨ref, rfl, rfl, required_ok hrecord, required_id hrecord,
            findWake_ok (fromRegistry_ok hwake), hclaim⟩

theorem bindObservationExecution_ok {execution : Execution}
    (h : bindObservationExecution w execution store wakes = .ok after) :
    (execution.maintenanceObservation = none ∧ after = wakes) ∨
      ∃ ref wake claim, execution.maintenanceObservation = some ref ∧
        wakes.get ⟨execution.leadSessionId, ref.wakeId⟩ = some wake ∧
        wake.claim ref.recordId = some claim ∧ claim.executionId = none ∧
        after = wakes.set ⟨execution.leadSessionId, ref.wakeId⟩
          (wake.setClaim ref.recordId
            (ObservationClaim.bindTo execution.id execution.attemptId)) := by
  unfold bindObservationExecution at h
  cases href : execution.maintenanceObservation with
  | none =>
      rw [href] at h
      cases h
      exact .inl ⟨rfl, rfl⟩
  | some ref =>
      rw [href] at h
      rcases bind_ok h with ⟨reserved, hreserved, h⟩
      rcases unless_ok h with ⟨hfree, h⟩
      rcases bind_ok h with ⟨saved, hsaved, h⟩
      rcases bind_ok h with ⟨_, _, h⟩
      cases h
      rcases observationExecution_ok hreserved with ⟨found, hfound, hkey, _, hid, hwake, hclaim⟩
      rw [href] at hfound
      cases hfound
      simp only [not_or, Bool.not_eq_true, Option.isSome_eq_false_iff,
        Option.isNone_iff_eq_none] at hfree
      rw [hkey] at hwake
      rw [hid] at hclaim
      refine .inr ⟨ref, reserved.wake, reserved.claim, rfl, hwake, hclaim, hfree.2.1, ?_⟩
      rw [saveWake_ok (fromRegistry_ok hsaved), hkey, hid]

/-- A receipt that is accepted closes the one open claim of its execution. -/
theorem acceptReceipt_ok {leadSessionId recordId : Text} {expectedVersion : Nat}
    {executionId : Text} {observation : Observation} {next : Store}
    (h : acceptReceipt w leadSessionId recordId expectedVersion executionId observation store
      wakes = .ok (some (key, next, after))) :
    (∃ execution ref, w.execution executionId = some execution ∧
      execution.maintenanceObservation = some ref ∧
        key = ⟨execution.leadSessionId, ref.wakeId⟩) ∧
    ∃ wake claim, wakes.get key = some wake ∧ wake.claim recordId = some claim ∧
      claim.receipt = none ∧
      after = wakes.set key
        (wake.setClaim recordId (ObservationClaim.receive observation)) := by
  unfold acceptReceipt at h
  cases hexecution : w.execution executionId with
  | none =>
      rw [hexecution] at h
      cases h
  | some execution =>
      rw [hexecution] at h
      rcases unless_ok h with ⟨howner, h⟩
      rcases bind_ok h with ⟨reserved, hreserved, h⟩
      rcases unless_ok h with ⟨_, h⟩
      rcases bind_ok h with ⟨evidence, _, h⟩
      rcases bind_ok h with ⟨⟨hostAttemptedAt, hostLatestAt, late⟩, _, h⟩
      cases hreceipt : reserved.claim.receipt with
      -- A second receipt is the same one, or refused: nothing is written either way.
      | some accepted =>
          rw [hreceipt] at h
          rcases unless_ok h with ⟨_, h⟩
          cases h
      | none =>
          rw [hreceipt] at h
          rcases bind_ok h with ⟨saved, _, h⟩
          rcases bind_ok h with ⟨written, hwritten, h⟩
          cases h
          rcases observationExecution_ok hreserved with ⟨ref, href, hkey, _, hid, hwake, hclaim⟩
          have hrecord : reserved.record.id = recordId := by
            rw [not_or, not_not, not_not, href] at howner
            rw [hid]
            exact Option.some.inj howner.2
          rw [hrecord] at hclaim
          refine ⟨⟨execution, ref, rfl, href, hkey⟩, reserved.wake, reserved.claim, hwake, hclaim,
            hreceipt, ?_⟩
          rw [saveWake_ok (fromRegistry_ok hwritten), hrecord]

/-- Every call is one step of at most one wake. -/
theorem perform_ok {call : WakeCall} {s next : Registry} (h : perform w call s = .ok next) :
    Steps s next := by
  cases call with
  | beginWake key «at» =>
      rcases bind_ok h with ⟨wakes, hwakes, h⟩
      cases h
      have hwakes := fromRegistry_ok hwakes
      unfold beginWake at hwakes
      cases hget : s.wakes.get key with
      | some old =>
          rw [hget] at hwakes
          dsimp only at hwakes
          split at hwakes
          · cases hwakes
            -- The wake was there already, and beginning it again does nothing.
            exact .still rfl rfl
          · cases hwakes
      | none =>
          rw [hget] at hwakes
          cases hwakes
          refine .steps hget (.begins «at») (fun other => Table.get_set _ _ _ other) ?_
          exact (List.append_nil _).symm
  | takeDue key «at» =>
      rcases bind_ok h with ⟨⟨store, wakes, record⟩, htaken, h⟩
      cases h
      rcases takeDue_ok (fromRegistry_ok htaken) with ⟨rfl, rfl⟩ | htaken
      · exact .still rfl (List.append_nil _)
      · rcases htaken with ⟨wake, found, hget, rfl, hleft, hnew, rfl⟩
        exact .steps hget (.visit hleft hnew) (fun other => Table.get_set _ _ _ other) rfl
  | reserveObservation key recordId requests =>
      rcases bind_ok h with ⟨wakes, hwakes, h⟩
      cases h
      rcases reserveObservation_ok (fromRegistry_ok hwakes) with
        ⟨wake, claim, hget, rfl, haffords, hnew, hexecution, hattempt, hreceipt, hset⟩
      exact .steps hget (.reserve haffords hnew hexecution hattempt hreceipt) hset rfl
  | bindObservationExecution execution =>
      rcases bind_ok h with ⟨wakes, hwakes, h⟩
      cases h
      rcases bindObservationExecution_ok hwakes with ⟨hnone, rfl⟩ | hbound
      · refine .still rfl ?_
        -- An execution that makes no observation for a lead has no wake to bind.
        rw [hnone]
        exact List.append_nil _
      · rcases hbound with ⟨ref, wake, claim, href, hget, hclaim, hfree, rfl⟩
        refine .steps hget (.bind execution.id execution.attemptId hclaim hfree)
          (fun other => Table.get_set _ _ _ other) ?_
        rw [href]
        rfl
  | chargeWake key requests milliseconds «at» =>
      rcases bind_ok h with ⟨wakes, hwakes, h⟩
      cases h
      rcases chargeWake_ok (fromRegistry_ok hwakes) with ⟨wake, hget, haffords, rfl⟩
      refine .steps hget (.charge haffords) (fun other => Table.get_set _ _ _ other) ?_
      exact (List.append_nil _).symm
  | checkpointObservationReceipt leadSessionId recordId expectedVersion executionId observation =>
      rcases bind_ok h with ⟨accepted, haccepted, h⟩
      cases accepted with
      | none =>
          cases h
          exact .still rfl rfl
      | some accepted =>
          rcases accepted with ⟨key, store, wakes⟩
          cases h
          rcases acceptReceipt_ok haccepted with ⟨_, wake, claim, hget, hclaim, hopen, rfl⟩
          exact .steps hget (.accept observation hclaim hopen)
            (fun other => Table.get_set _ _ _ other) rfl
  | operation operation hwakeless =>
      rcases bind_ok h with ⟨store, _, h⟩
      rcases bind_ok h with ⟨wakes, hwakes, h⟩
      cases h
      have hwakes := fromRegistry_ok hwakes
      -- Of the wakeless operations only an alternate attempt under a wake is charged to it.
      unfold chargeOperation at hwakes
      split at hwakes
      · split at hwakes
        · rcases chargeWake_ok hwakes with ⟨wake, hget, haffords, rfl⟩
          refine .steps hget (.charge haffords) (fun other => Table.get_set _ _ _ other) ?_
          exact (List.append_nil _).symm
        · cases hwakes
          exact .still rfl rfl
      · cases hwakes
        exact .still rfl rfl

/-! ### Accounts -/

def Event.visits : Event → Option Text
  | .visited recordId => some recordId
  | _ => none

def Event.reserves : Event → Option Text
  | .reserved recordId => some recordId
  | _ => none

/-- The execution and the attempt that the registration's reservation was bound to. -/
def Event.binds (recordId : Text) : Event → Option (Text × Text)
  | .bound id executionId attemptId =>
      if id = recordId then some (executionId, attemptId) else none
  | _ => none

/-- The receipt that the registration's reservation accepted. -/
def Event.accepts (recordId : Text) : Event → Option Observation
  | .accepted id observation => if id = recordId then some observation else none
  | _ => none

def ObservationClaim.binding (claim : ObservationClaim) : Option (Text × Text) :=
  claim.executionId.bind fun executionId => claim.attemptId.map fun attemptId =>
    (executionId, attemptId)

/-- A wake knows of everything that was done under it, and none of it was done twice. -/
structure Accounted (wake : Wake) (events : List Event) : Prop where
  visits : wake.visits ≤ WakeLimits.visits
  requests : wake.requests ≤ WakeLimits.requests
  milliseconds : wake.milliseconds ≤ WakeLimits.milliseconds
  visited : events.filterMap Event.visits = wake.visitedIds
  visitedOnce : wake.visitedIds.Nodup
  reserved : events.filterMap Event.reserves = wake.observationClaims.map (·.recordId)
  reservedOnce : (wake.observationClaims.map (·.recordId)).Nodup
  bound : ∀ recordId, events.filterMap (Event.binds recordId) =
    ((wake.claim recordId).bind ObservationClaim.binding).toList
  accepted : ∀ recordId, events.filterMap (Event.accepts recordId) =
    ((wake.claim recordId).bind (·.receipt)).toList

/-- A rewritten claim is found where it stood. -/
theorem claim_setClaim {f : ObservationClaim → ObservationClaim}
    (hf : ∀ claim, (f claim).recordId = claim.recordId) (wake : Wake) (recordId other : Text) :
    (wake.setClaim recordId f).claim other =
      if other = recordId then (wake.claim recordId).map f else wake.claim other := by
  unfold Wake.claim Wake.setClaim
  dsimp only
  by_cases hother : other = recordId
  · subst hother
    rw [if_pos rfl]
    cases hfind : wake.observationClaims.find? fun claim => claim.recordId = other with
    | none =>
        rw [First.setFirst_of_none hfind]
        exact hfind
    | some claim =>
        have hclaim := List.find?_some hfind
        exact First.setFirst_find hfind (by rw [hf]; exact hclaim)
  · rw [if_neg hother]
    refine First.setFirst_find_ne (fun claim hclaim => ?_) _
    rw [decide_eq_true_eq] at hclaim
    have hne : ¬claim.recordId = other := fun heq => hother (heq.symm.trans hclaim)
    rw [hf]
    exact ⟨decide_eq_false hne, decide_eq_false hne⟩

theorem recordIds_setClaim {f : ObservationClaim → ObservationClaim}
    (hf : ∀ claim, (f claim).recordId = claim.recordId) (wake : Wake) (recordId : Text) :
    (wake.setClaim recordId f).observationClaims.map (·.recordId) =
      wake.observationClaims.map (·.recordId) :=
  First.map_setFirst (fun claim _ => hf claim) _

/-- A new claim is found, and the others are found as they were. -/
theorem claim_append (wake : Wake) (claim : ObservationClaim) (requests : Nat) (recordId : Text) :
    Wake.claim { wake with
      requests := requests
      observationClaims := wake.observationClaims ++ [claim] } recordId =
      (wake.claim recordId).or (if claim.recordId = recordId then some claim else none) := by
  unfold Wake.claim
  rw [List.find?_append]
  congr 1
  by_cases hid : claim.recordId = recordId <;> simp [hid]

/-- What is done is accounted for. -/
theorem WakeStep.accounted {wake next : Wake} {events before : List Event}
    (hstep : WakeStep (some wake) next events) (h : Accounted wake before) :
    Accounted next (before ++ events) := by
  cases hstep with
  -- Nothing is logged; the spending is below the limits by the check itself.
  | charge haffords =>
      rw [List.append_nil]
      exact { h with
        requests := haffords.requests
        milliseconds := haffords.milliseconds }
  | @visit _ recordId hleft hnew =>
      refine { h with visits := hleft, visited := ?_, visitedOnce := ?_, reserved := ?_,
                      bound := ?_, accepted := ?_ }
      · rw [List.filterMap_append, h.visited]
        rfl
      · exact List.nodup_append.mpr ⟨h.visitedOnce, List.nodup_singleton _, by
          intro id hid other hother heq
          rw [List.mem_singleton.mp hother] at heq
          -- What is due was not visited under this wake before.
          exact hnew (heq ▸ hid)⟩
      · rw [List.filterMap_append, h.reserved]
        exact List.append_nil _
      · intro id
        rw [List.filterMap_append, h.bound]
        exact List.append_nil _
      · intro id
        rw [List.filterMap_append, h.accepted]
        exact List.append_nil _
  | @reserve _ claim haffords hnew hexecution hattempt hreceipt =>
      refine { h with requests := haffords.requests, visited := ?_, reserved := ?_,
                      reservedOnce := ?_, bound := ?_, accepted := ?_ }
      · rw [List.filterMap_append, h.visited]
        exact List.append_nil _
      · rw [List.filterMap_append, h.reserved, List.map_append]
        rfl
      · rw [List.map_append]
        refine List.nodup_append.mpr ⟨h.reservedOnce, List.nodup_singleton _, ?_⟩
        intro id hid other hother heq
        rcases List.mem_map.mp hid with ⟨old, hold, rfl⟩
        have hother : other = claim.recordId := List.mem_singleton.mp hother
        exact List.find?_eq_none.mp hnew old hold (by rw [heq, hother]; simp)
      · intro id
        rw [List.filterMap_append, h.bound, claim_append]
        by_cases hid : claim.recordId = id
        · -- The new claim is the first of its registration, and has neither execution nor receipt.
          have hnone : wake.claim id = none := hid ▸ hnew
          rw [hnone, if_pos hid]
          unfold ObservationClaim.binding
          simp [hexecution, Event.binds]
        · rw [if_neg hid, Option.or_none]
          exact List.append_nil _
      · intro id
        rw [List.filterMap_append, h.accepted, claim_append]
        by_cases hid : claim.recordId = id
        · have hnone : wake.claim id = none := hid ▸ hnew
          rw [hnone, if_pos hid]
          simp [hreceipt, Event.accepts]
        · rw [if_neg hid, Option.or_none]
          exact List.append_nil _
  | @bind _ claim recordId executionId attemptId hclaim hfree =>
      -- A claim is bound in place, so which registrations are reserved stays as it is.
      have hids := recordIds_setClaim (f := ObservationClaim.bindTo executionId attemptId)
        (fun _ => rfl) wake recordId
      have hclaims := claim_setClaim (f := ObservationClaim.bindTo executionId attemptId)
        (fun _ => rfl) wake recordId
      refine { h with visited := ?_, reserved := ?_, reservedOnce := ?_, bound := ?_,
                      accepted := ?_ }
      · rw [List.filterMap_append, h.visited]
        exact List.append_nil _
      · rw [List.filterMap_append, h.reserved, hids]
        exact List.append_nil _
      · rw [hids]
        exact h.reservedOnce
      · intro id
        rw [List.filterMap_append, h.bound, hclaims]
        by_cases hid : id = recordId
        · subst hid
          rw [if_pos rfl, hclaim]
          unfold ObservationClaim.binding ObservationClaim.bindTo
          simp [hfree, Event.binds]
        · rw [if_neg hid]
          have hnone : Event.binds id (.bound recordId executionId attemptId) = none :=
            if_neg fun heq => hid heq.symm
          simp [hnone]
      · intro id
        rw [List.filterMap_append, h.accepted, hclaims]
        by_cases hid : id = recordId
        · subst hid
          rw [if_pos rfl, hclaim]
          exact List.append_nil _
        · rw [if_neg hid]
          exact List.append_nil _
  | @accept _ claim recordId observation hclaim hopen =>
      -- A receipt leaves the binding, and closes a claim that was open.
      have hids := recordIds_setClaim (f := ObservationClaim.receive observation)
        (fun _ => rfl) wake recordId
      have hclaims := claim_setClaim (f := ObservationClaim.receive observation)
        (fun _ => rfl) wake recordId
      refine { h with visited := ?_, reserved := ?_, reservedOnce := ?_, bound := ?_,
                      accepted := ?_ }
      · rw [List.filterMap_append, h.visited]
        exact List.append_nil _
      · rw [List.filterMap_append, h.reserved, hids]
        exact List.append_nil _
      · rw [hids]
        exact h.reservedOnce
      · intro id
        rw [List.filterMap_append, h.bound, hclaims]
        by_cases hid : id = recordId
        · subst hid
          rw [if_pos rfl, hclaim]
          exact List.append_nil _
        · rw [if_neg hid]
          exact List.append_nil _
      · intro id
        rw [List.filterMap_append, h.accepted, hclaims]
        by_cases hid : id = recordId
        · subst hid
          rw [if_pos rfl, hclaim]
          simp [hopen, Event.accepts, ObservationClaim.receive]
        · rw [if_neg hid]
          have hnone : Event.accepts id (.accepted recordId observation) = none :=
            if_neg fun heq => hid heq.symm
          simp [hnone]

/-! ### Every run -/

/-- What was done under a wake. -/
def under (key : WakeKey) (log : List (WakeKey × Event)) : List Event :=
  log.filterMap fun entry => if entry.1 = key then some entry.2 else none

theorem under_append (key other : WakeKey) (log : List (WakeKey × Event)) (events : List Event) :
    under other (log ++ events.map fun event => (key, event)) =
      under other log ++ if other = key then events else [] := by
  unfold under
  rw [List.filterMap_append, List.filterMap_map]
  congr 1
  by_cases hkey : other = key
  · subst hkey
    simp
  · have hne : ¬key = other := fun heq => hkey heq.symm
    simp [hkey, hne]

/-- Every wake accounts for what was done under it, and without one nothing was. -/
structure Registry.Accounted (s : Registry) : Prop where
  wakes : ∀ key wake, s.wakes.get key = some wake → PrMaintenance.Accounted wake (under key s.log)
  none : ∀ key, s.wakes.get key = none → under key s.log = []

/-- Nothing was taken back of what a wake had used. -/
def Registry.Keeps (s later : Registry) : Prop :=
  ∀ key wake, s.wakes.get key = some wake → ∃ next, later.wakes.get key = some next ∧
    wake.visits ≤ next.visits ∧ wake.requests ≤ next.requests ∧
      wake.milliseconds ≤ next.milliseconds

theorem accounted_new («at» : Time) : Accounted { startedAt := «at» } [] where
  visits := Nat.zero_le _
  requests := Nat.zero_le _
  milliseconds := Nat.zero_le _
  visited := rfl
  visitedOnce := List.nodup_nil
  reserved := rfl
  reservedOnce := List.nodup_nil
  bound _ := rfl
  accepted _ := rfl

theorem WakeStep.grows {wake next : Wake} {events : List Event}
    (h : WakeStep (some wake) next events) : wake.visits ≤ next.visits ∧
      wake.requests ≤ next.requests ∧ wake.milliseconds ≤ next.milliseconds := by
  cases h with
  | charge _ => exact ⟨Nat.le_refl _, Nat.le_add_right _ _, Nat.le_add_right _ _⟩
  | visit _ _ => exact ⟨Nat.le_succ _, Nat.le_refl _, Nat.le_refl _⟩
  | reserve _ _ _ _ _ => exact ⟨Nat.le_refl _, Nat.le_add_right _ _, Nat.le_refl _⟩
  | bind _ _ _ _ => exact ⟨Nat.le_refl _, Nat.le_refl _, Nat.le_refl _⟩
  | accept _ _ _ => exact ⟨Nat.le_refl _, Nat.le_refl _, Nat.le_refl _⟩

theorem Steps.accounted {s next : Registry} (hsteps : Steps s next) (h : s.Accounted) :
    next.Accounted := by
  cases hsteps with
  | still hwakes hlog =>
      constructor
      · rw [hwakes, hlog]
        exact h.wakes
      · rw [hwakes, hlog]
        exact h.none
  | @steps key found wake events hget hstep hwakes hlog =>
      constructor
      · intro other taken htaken
        rw [hwakes] at htaken
        rw [hlog, under_append]
        by_cases hkey : other = key
        · rw [if_pos hkey] at htaken ⊢
          cases htaken
          cases found with
          | some before => exact hstep.accounted (h.wakes other before (hkey ▸ hget))
          | none =>
              rw [h.none other (hkey ▸ hget)]
              cases hstep with
              | begins «at» => exact accounted_new «at»
        · rw [if_neg hkey] at htaken ⊢
          rw [List.append_nil]
          exact h.wakes other taken htaken
      · intro other hnone
        rw [hwakes] at hnone
        rw [hlog, under_append]
        by_cases hkey : other = key
        · rw [if_pos hkey] at hnone
          cases hnone
        · rw [if_neg hkey] at hnone ⊢
          rw [List.append_nil]
          exact h.none other hnone

theorem Registry.Keeps.refl (s : Registry) : s.Keeps s :=
  fun _ wake hget => ⟨wake, hget, Nat.le_refl _, Nat.le_refl _, Nat.le_refl _⟩

theorem Registry.Keeps.trans {a b c : Registry} (hab : a.Keeps b) (hbc : b.Keeps c) : a.Keeps c := by
  intro key wake hget
  rcases hab key wake hget with ⟨middle, hmiddle, hvisits, hrequests, hmilliseconds⟩
  rcases hbc key middle hmiddle with ⟨last, hlast, hvisits', hrequests', hmilliseconds'⟩
  exact ⟨last, hlast, hvisits.trans hvisits', hrequests.trans hrequests',
    hmilliseconds.trans hmilliseconds'⟩

theorem Steps.keeps {s next : Registry} (hsteps : Steps s next) : s.Keeps next := by
  cases hsteps with
  | still hwakes _ =>
      intro key wake hget
      exact ⟨wake, by rw [hwakes]; exact hget, Nat.le_refl _, Nat.le_refl _, Nat.le_refl _⟩
  | @steps key found wake events hget hstep hwakes _ =>
      intro other taken htaken
      by_cases hkey : other = key
      · rw [← hget, ← hkey, htaken] at hstep
        exact ⟨wake, by rw [hwakes, if_pos hkey], hstep.grows⟩
      · exact ⟨taken, by rw [hwakes, if_neg hkey]; exact htaken, Nat.le_refl _, Nat.le_refl _,
          Nat.le_refl _⟩

theorem step_steps (s : Registry) (call : Turn × WakeCall) : Steps s (WakeCall.step s call) := by
  unfold WakeCall.step
  split
  · rename_i next hnext
    exact perform_ok hnext
  · exact .still rfl rfl

/-- The receipt that a reservation accepted changes nothing when it comes again. -/
theorem step_of_accepted {s : Registry} (h : s.Accounted) {execution : Execution}
    {ref : ObservationClaimRef} {leadSessionId recordId executionId : Text}
    {expectedVersion : Nat} {observation : Observation}
    (hexecution : w.execution executionId = some execution)
    (href : execution.maintenanceObservation = some ref)
    (haccepted : Event.accepted recordId observation ∈
      under ⟨execution.leadSessionId, ref.wakeId⟩ s.log) :
    WakeCall.step s (w, .checkpointObservationReceipt leadSessionId recordId expectedVersion
      executionId observation) = s := by
  unfold WakeCall.step
  split
  · rename_i next hnext
    rcases bind_ok hnext with ⟨accepted, hreceipt, hnext⟩
    cases accepted with
    | none =>
        cases hnext
        rfl
    | some accepted =>
        exfalso
        rcases accepted with ⟨key, store, wakes⟩
        rcases acceptReceipt_ok hreceipt with ⟨⟨found, foundRef, hfound, hfoundRef, hkey⟩, wake,
          claim, hget, hclaim, hopen, _⟩
        rw [hexecution] at hfound
        cases hfound
        rw [href] at hfoundRef
        cases hfoundRef
        -- The claim has no receipt yet, and the account of the wake says it has.
        have hnone := (h.wakes key wake hget).accepted recordId
        rw [hclaim, Option.bind_some, hopen, hkey] at hnone
        have haccepts : Event.accepts recordId (.accepted recordId observation) =
          some observation := if_pos rfl
        have hmem : observation ∈ (under key s.log).filterMap (Event.accepts recordId) :=
          List.mem_filterMap.mpr ⟨_, hkey ▸ haccepted, haccepts⟩
        rw [hkey, hnone] at hmem
        cases hmem
  · rfl

/-- Whatever is called, with whatever arguments and at whatever times, a wake is
    not overspent and nothing of it is taken back; under it a registration is
    visited once and reserves one observation, which is bound to one execution
    and accepts one receipt; and what is refused, or accepted again, changes
    nothing. -/
theorem allowance_kept (store : Store) (calls : List (Turn × WakeCall)) :
    let s := Run.final WakeCall.step { store } calls
    (∀ key wake, s.wakes.get key = some wake → wake.visits ≤ WakeLimits.visits ∧
      wake.requests ≤ WakeLimits.requests ∧ wake.milliseconds ≤ WakeLimits.milliseconds) ∧
    (∀ more, s.Keeps (Run.final WakeCall.step s more)) ∧
    (∀ key, ((under key s.log).filterMap Event.visits).Nodup ∧
      ((under key s.log).filterMap Event.reserves).Nodup ∧
      ∀ recordId, ((under key s.log).filterMap (Event.binds recordId)).length ≤ 1 ∧
        ((under key s.log).filterMap (Event.accepts recordId)).length ≤ 1) ∧
    (∀ (w : Turn) (execution : Execution) (ref : ObservationClaimRef)
      (leadSessionId recordId executionId : Text) (expectedVersion : Nat)
      (observation : Observation), w.execution executionId = some execution →
        execution.maintenanceObservation = some ref →
        Event.accepted recordId observation ∈
          under ⟨execution.leadSessionId, ref.wakeId⟩ s.log →
        WakeCall.step s (w, .checkpointObservationReceipt leadSessionId recordId expectedVersion
          executionId observation) = s) ∧
    ∀ (w : Turn) (call : WakeCall) (refusal : WakeRefusal), perform w call s = .error refusal →
      WakeCall.step s (w, call) = s := by
  intro s
  -- Every call keeps the accounts, and the five clauses are read off them.
  have hs : s.Accounted := by
    refine Run.invariant WakeCall.step Registry.Accounted
      (fun s call h => (step_steps s call).accounted h) calls _ ⟨?_, fun _ _ => rfl⟩
    exact fun _ _ hget => (nomatch hget)
  refine ⟨?_, ?_, ?_, ?_, ?_⟩
  · intro key wake hget
    have hwake := hs.wakes key wake hget
    exact ⟨hwake.visits, hwake.requests, hwake.milliseconds⟩
  · intro more
    exact Run.monotone WakeCall.step Registry.Keeps Registry.Keeps.refl
      (fun _ _ _ => Registry.Keeps.trans) (fun s call => (step_steps s call).keeps) more s
  · intro key
    cases hget : s.wakes.get key with
    | none =>
        rw [hs.none key hget]
        exact ⟨List.nodup_nil, List.nodup_nil, fun _ => ⟨Nat.zero_le _, Nat.zero_le _⟩⟩
    | some wake =>
        have hwake := hs.wakes key wake hget
        rw [hwake.visited, hwake.reserved]
        refine ⟨hwake.visitedOnce, hwake.reservedOnce, fun recordId => ?_⟩
        rw [hwake.bound, hwake.accepted]
        exact ⟨Option.length_toList_le, Option.length_toList_le⟩
  · intro w execution ref leadSessionId recordId executionId expectedVersion observation
      hexecution href haccepted
    exact step_of_accepted hs hexecution href haccepted
  · intro w call refusal hrefused
    unfold WakeCall.step
    rw [hrefused]

end PrMaintenance

end CopilotFleet
