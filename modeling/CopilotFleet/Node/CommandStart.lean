import CopilotFleet.Host.CommandRecords
import CopilotFleet.Lib.Refusal
import CopilotFleet.Lib.Run
import Mathlib.Tactic.Linarith

/-!
# The Start of a Command on a Node

A command that a person approves may be started until a time that the Host
sets, in the Host's time. The Node cannot read the Host's clock. When a request
reaches it, it samples its own two clocks, the wall clock and the one that only
measures how much time passed, and takes the sample for the moment the Host
sent the request (`hostClockOffsetMs`). How long the request was under way it
does not know; it is promised no more than `clockUncertaintyMs`.

Between the sample and the release of the command the Node waits many times,
for leases, for permission and for the supervisor, and after every wait it
checks the start anew (`assertStart`): the wall clock by the offset, and the
measuring clock by what it has to measure until the deadline. The wall clock
may be set to anything in between. The measuring clock cannot, and it is what a
release rests on.

A moment here is a moment of the Host's wall clock. A reading of the measuring
clock is given by the moment at which it is made, and a reading of the Node's
wall clock by what it shows.

## Main definitions

* `PreparedCommand`: What is approved, and its digest as what it is the digest of.
* `prepareBegins`, `prepareEnds`: A request is sampled, and becomes a record.
* `assertStart`: What is checked of a start, again and again.
* `startBegins`, `startAdmits`, `startAuthorizes`, `startReleases`: A start, from wait to wait.
* `System.step`: The Host's requests, those under way, and the Node.

## Theorems

* `assertStart_in_time`: A start that passes has the whole tolerance left.
* `System.Inv.step`: What a step preserves.
* `released_in_time`: In every run, nothing is released that is expired on the Host's clock.
-/

namespace CopilotFleet

namespace CommandStart

open Utf16 Refusal Commands

/-! ### Requests and records -/

/-- `COMMAND_LIMITS` -/
def CommandLimits.approvalMs : Rat := 1800000

def CommandLimits.clockUncertaintyMs : Rat := 5000

def CommandLimits.clockDriftMs : Rat := 1000

def CommandLimits.maxNodePending : Nat := 32

/-- `CLOCK_DRIFT_TOLERANCE_MS` -/
def clockDriftToleranceMs : Rat := CommandLimits.clockDriftMs

/-- A request to prepare a command, of which the command itself is left out. -/
structure CommandPreparation where
  executionId : Nat
  attemptId : Nat
  hostId : Text
  nodeId : Text
  createdAt : Rat
  expiresAt : Rat
  hostTime : Rat
deriving DecidableEq

/-- What the Node adds. -/
structure Prepared where
  preparedAt : Rat
  clockUncertaintyMs : Rat
  hostClockOffsetMs : Rat
  shellPath : Text
deriving DecidableEq

structure PreparedCommandBody extends CommandPreparation where
  prepared : Prepared
deriving DecidableEq

/-- What is approved. The digest is kept as what it is the digest of. -/
structure PreparedCommand extends PreparedCommandBody where
  digest : PreparedCommandBody
deriving DecidableEq

/-- A record of the Node's journal. -/
structure JournalRecord where
  hostId : Text
  nodeId : Text
  space : Text
  descriptor : PreparedCommand
  launchIntent : Bool := false
  admissionIntent : Bool := false
  leasesReleased : Bool := true
  released : Bool := false
  cancelRequested : Bool := false
  state : ExecutionState := .awaitingApproval
  ownership : Ownership := .notStarted

/-- A sample of the Node's two clocks. -/
structure Clock where
  wall : Rat
  monotonic : Rat

/-- A request that is being prepared, and its sample. -/
structure Preparing where
  request : CommandPreparation
  clock : Clock

/-- How far a start has come. -/
inductive Phase where
  /-- It waits for its leases. -/
  | admission
  /-- It waits for permission. -/
  | permission
  /-- It waits for the supervisor, and its launch is intended. -/
  | supervisor
  /-- Nothing more is started, and what was started is not known to have ended. -/
  | over
deriving DecidableEq

/-- A start under way. -/
structure Running where
  record : JournalRecord
  descriptor : PreparedCommand
  approvedAt : Rat
  phase : Phase
  /-- The supervisor has a process. -/
  process : Bool := false

/-- The Node. A process counts the time from an origin of its own. -/
structure Node where
  origin : Rat
  space : Text
  shellPath : Text
  journal : Table Nat JournalRecord := .empty
  cancellations : Table Nat (Text × Nat) := .empty
  retired : List Nat := []
  preparing : List Preparing := []
  clocks : Table Nat Clock := .empty
  active : Option Running := none

/-- Whom the Node is connected to, and whether it may take commands there. -/
structure Connection where
  hostId : Text
  nodeId : Text
  /-- Sealed and negotiated. -/
  sealed : Bool
  /-- Enabled by the Node's owner, and supported. -/
  enabled : Bool

/-- The Node's measuring clock at a moment. -/
def Node.monotonic (node : Node) (moment : Rat) : Rat := moment - node.origin

def Node.save (node : Node) (record : JournalRecord) : Node :=
  { node with journal := node.journal.set record.descriptor.executionId record }

/-- `unsettled` -/
def Node.unsettled (node : Node) : Bool :=
  node.active.isSome || node.journal.values.any fun record =>
    record.ownership = .unknown || record.ownership = .active

/-! ### Preparation -/

/-- Why a request or a start is refused. -/
inductive Refused where
  /-- The connection, the shell, a quota, the target or a permission. -/
  | environment
  | identityReused
  | retired
  | policy
  | discontinuity
  | exceeded
  | expired
  | cancellationMismatch
  | unknownPreparation
  | mismatch
  | approval
  | shellChanged
  | active
  | cancelled
deriving DecidableEq

/-- A request arrives: what the Node's clocks show, and whether all is well otherwise. -/
structure Arrival where
  connection : Connection
  wall : Rat
  moment : Rat
  admitted : Bool

/-- `prepare`, to its first wait. Nothing where it was prepared before. -/
def prepareBegins (arrival : Arrival) (request : CommandPreparation) (node : Node) :
    Except Refused (Option Preparing) := do
  let context := arrival.connection
  if context.sealed = false ∨ context.enabled = false ∨ request.hostId ≠ context.hostId ∨
      request.nodeId ≠ context.nodeId then
    throw .environment
  match node.journal.get request.executionId with
  | some prior =>
      if prior.space ≠ node.space then throw .mismatch
      if prior.descriptor.toCommandPreparation ≠ request then throw .identityReused
      return none
  | none =>
      if node.retired.contains request.executionId then throw .retired
      -- Those that wait are counted without this one.
      if CommandLimits.maxNodePending ≤ (node.journal.values.countP fun record =>
          !record.state.terminal) + node.preparing.length ∨ arrival.admitted = false then
        throw .environment
      return some ⟨request, arrival.wall, node.monotonic arrival.moment⟩

/-- What the Node's clocks show when a preparation ends. -/
structure Completion where
  connection : Connection
  admitted : Bool
  moment : Rat
  wall : Rat

/-- `prepare`, from its first wait on: the record, which is saved with its sample. -/
def prepareEnds (completion : Completion) (preparing : Preparing) (node : Node) :
    Except Refused JournalRecord := do
  let request := preparing.request
  let hostClockOffsetMs := request.hostTime - preparing.clock.wall
  if request.createdAt + CommandLimits.approvalMs < request.expiresAt ∨
      request.expiresAt ≤
        request.hostTime + CommandLimits.clockUncertaintyMs + clockDriftToleranceMs then
    throw .policy
  let current := completion.connection
  if current.sealed = false ∨ current.enabled = false ∨ current.hostId ≠ request.hostId ∨
      current.nodeId ≠ request.nodeId ∨ completion.admitted = false then
    throw .environment
  let elapsed := node.monotonic completion.moment - preparing.clock.monotonic
  if elapsed < 0 ∨ clockDriftToleranceMs < |completion.wall - preparing.clock.wall - elapsed| then
    throw .discontinuity
  if CommandLimits.clockUncertaintyMs < elapsed then throw .exceeded
  if request.expiresAt - request.hostTime - CommandLimits.clockUncertaintyMs -
      clockDriftToleranceMs ≤ elapsed then
    throw .expired
  let body : PreparedCommandBody := { request with
    prepared := {
      preparedAt := preparing.clock.wall
      clockUncertaintyMs := CommandLimits.clockUncertaintyMs
      hostClockOffsetMs
      shellPath := node.shellPath } }
  let cancelled := node.cancellations.get request.executionId
  if cancelled.any fun found => found ≠ (request.hostId, request.attemptId) then
    throw .cancellationMismatch
  return {
    hostId := request.hostId
    nodeId := request.nodeId
    space := node.space
    descriptor := { body with digest := body }
    cancelRequested := cancelled.isSome
    state := if cancelled.isSome then .cancelled else .awaitingApproval }

/-! ### The clock of a start -/

/-- `deadline`, in the Node's wall time. -/
def deadline (descriptor : PreparedCommand) : Rat :=
  descriptor.expiresAt - descriptor.prepared.hostClockOffsetMs -
    descriptor.prepared.clockUncertaintyMs - clockDriftToleranceMs

/-- `startExpired`, by what the wall clock shows and by how much time passed at a moment. -/
def Node.startExpired (node : Node) (descriptor : PreparedCommand) (wall moment : Rat) : Bool :=
  deadline descriptor ≤ wall || (node.clocks.get descriptor.executionId).any fun clock =>
    deadline descriptor - clock.wall ≤ node.monotonic moment - clock.monotonic

/-- The readings of one check of a start, one after the other. -/
structure StartReadings where
  connection : Connection
  approvalWall : Rat
  sinceMoment : Rat
  driftWall : Rat
  driftMoment : Rat
  expiryWall : Rat
  expiryMoment : Rat

/-- `assertStart` -/
def assertStart (node : Node) (readings : StartReadings) (record : JournalRecord)
    (descriptor : PreparedCommand) (approvedAt : Rat) : Except Refused Unit := do
  let context := readings.connection
  if context.sealed = false ∨ context.enabled = false then throw .environment
  if record.hostId ≠ context.hostId ∨ record.nodeId ≠ context.nodeId ∨
      record.space ≠ node.space ∨ record.descriptor.digest ≠ descriptor.digest ∨
      descriptor.toPreparedCommandBody ≠ descriptor.digest then
    throw .mismatch
  if approvedAt < descriptor.createdAt ∨ readings.approvalWall +
      descriptor.prepared.hostClockOffsetMs + descriptor.prepared.clockUncertaintyMs <
        approvedAt then
    throw .approval
  let some clock := node.clocks.get descriptor.executionId | throw .discontinuity
  if node.monotonic readings.sinceMoment < clock.monotonic ∨
      clockDriftToleranceMs < |readings.driftWall - clock.wall -
        (node.monotonic readings.driftMoment - clock.monotonic)| then
    throw .discontinuity
  if node.startExpired descriptor readings.expiryWall readings.expiryMoment then throw .expired
  if descriptor.prepared.shellPath ≠ node.shellPath then throw .shellChanged

/-! ### A start -/

/-- What an approval brings. -/
structure Approval where
  descriptor : PreparedCommand
  approvedAt : Rat
  /-- It may be used again, or was not given by a person. -/
  reusable : Bool
  /-- The connection knows of permissions that may be used again. -/
  permissions : Bool

/-- The record as it is settled where nothing was started. -/
def JournalRecord.unstarted (state : ExecutionState) (record : JournalRecord) : JournalRecord :=
  { record with state, ownership := .notStarted }

/-- The record as it is cancelled, if its process may exist or not. -/
def JournalRecord.cancel (record : JournalRecord) : JournalRecord :=
  { record with
    cancelRequested := true
    state := if record.launchIntent then .cancelling else .cancelled
    ownership := if record.launchIntent then record.ownership else .notStarted }

/-- `cancel` -/
def Node.cancel (hostId : Text) (executionId attemptId : Nat) (node : Node) :
    Except Refused Node := do
  let running := node.active.filter fun running =>
    running.record.descriptor.executionId = executionId
  let found := (running.map (·.record)).or (node.journal.get executionId)
  if found.any fun record =>
      record.hostId ≠ hostId || record.descriptor.attemptId ≠ attemptId then
    throw .mismatch
  if (node.cancellations.get executionId).any fun prior => prior ≠ (hostId, attemptId) then
    throw .cancellationMismatch
  let node := { node with
    cancellations := node.cancellations.set executionId (hostId, attemptId) }
  match found with
  | none => return node
  | some record =>
      if record.state.terminal then return node
      -- What is active is the same record.
      return { node.save record.cancel with
        active := if running.isSome then
            node.active.map fun running => { running with record := record.cancel }
          else node.active }

/-- A refused start is settled, unless it was launched or is over. -/
def Node.settleRefused (descriptor : PreparedCommand) (readings : StartReadings) (node : Node) :
    Node :=
  match node.journal.get descriptor.executionId with
  | none => node
  | some record =>
      if record.launchIntent ∨ record.descriptor.digest ≠ descriptor.digest ∨
          record.hostId ≠ readings.connection.hostId ∨
          record.nodeId ≠ readings.connection.nodeId ∨ record.state.terminal then
        node
      else
        node.save (record.unstarted
          (if node.startExpired record.descriptor readings.expiryWall readings.expiryMoment then
            .expired
          else .failed))

/-- `start`, to its first wait. Nothing where it was started before. -/
def startBegins (readings : StartReadings) (approval : Approval) (node : Node) :
    Except Refused (Option Running) := do
  let descriptor := approval.descriptor
  let some record := node.journal.get descriptor.executionId | throw .unknownPreparation
  let context := readings.connection
  if context.sealed = false ∨ (approval.permissions = false ∧ approval.reusable) then
    throw .environment
  if record.hostId ≠ context.hostId ∨ record.nodeId ≠ context.nodeId ∨
      record.descriptor.digest ≠ descriptor.digest then
    throw .mismatch
  if record.launchIntent ∨ record.state.terminal then return none
  assertStart node readings record descriptor approval.approvedAt
  if record.cancelRequested ∨ (node.cancellations.get descriptor.executionId).isSome then
    throw .cancelled
  if node.unsettled then throw .active
  return some {
    record := { record with
      admissionIntent := true
      leasesReleased := false }
    descriptor
    approvedAt := approval.approvedAt
    phase := .admission }

/-- Leases are held: the start is checked, and permission asked for. -/
def startAdmits (readings : StartReadings) (running : Running) (node : Node) :
    Except Refused Running := do
  assertStart node readings running.record running.descriptor running.approvedAt
  if (node.cancellations.get running.descriptor.executionId).isSome then throw .cancelled
  return { running with phase := .permission }

/-- Permission is given: the start is checked, and the launch recorded as intended. -/
def startAuthorizes (readings : StartReadings) (running : Running) (node : Node) :
    Except Refused Running := do
  assertStart node readings running.record running.descriptor running.approvedAt
  if (node.cancellations.get running.descriptor.executionId).isSome then throw .cancelled
  return { running with
    phase := .supervisor
    record := { running.record with
      launchIntent := true
      state := .starting
      ownership := .unknown } }

/-- The supervisor is ready: the start is checked, and the release recorded. -/
def startReleases (readings : StartReadings) (running : Running) (node : Node) :
    Except Refused Running := do
  assertStart node readings running.record running.descriptor running.approvedAt
  -- A cancellation that came first is what is recorded.
  if (node.cancellations.get running.descriptor.executionId).isSome then
    return { running with
      phase := .over
      record := { running.record with
        cancelRequested := true
        state := .cancelling } }
  return { running with
    phase := .over
    record := { running.record with
      released := true
      state := .running
      ownership := .active } }

/-- A start that throws. What may have been launched stays the Node's. -/
def Node.abandon (running : Running) (node : Node) : Node :=
  let record := running.record
  let executionId := record.descriptor.executionId
  match (node.journal.get executionId).filter fun settled =>
      (settled.ownership = .quiescent || settled.ownership = .notStarted) &&
        settled.state.terminal with
  | some settled => { node.save { settled with leasesReleased := true } with active := none }
  | none =>
      if running.process then
        let record := { record with cancelRequested := true }
        { node.save record with active := some { running with record, phase := .over } }
      else if record.launchIntent then
        let record := { record with
          state := .reconciliationRequired
          ownership := .unknown }
        { node.save record with active := some { running with record, phase := .over } }
      else
        let cancelled := (node.cancellations.get executionId).isSome
        let record := record.unstarted (if cancelled then .cancelled else .failed)
        { node.save { record with leasesReleased := true } with active := none }

/-! ### The system -/

/-- A release that was recorded, and the moment of the last reading it rests on. -/
structure Release where
  descriptor : PreparedCommand
  checkedAt : Rat

/-- The Host's requests and what is under way of them, the Node, and what it released. -/
structure System where
  issued : List Nat := []
  network : List CommandPreparation := []
  node : Node
  releases : List Release := []

/-- How a wait of a start ends. -/
structure Wait where
  readings : StartReadings
  /-- What was waited for threw, or the start is no longer permitted. -/
  threw : Bool
  /-- The supervisor has a process. -/
  spawned : Bool

/-- What may happen. -/
inductive Event where
  /-- The Host inserts an execution and sends its request, once. -/
  | sends (request : CommandPreparation)
  | receives (executionId : Nat) (arrival : Arrival)
  | prepares (executionId : Nat) (completion : Completion)
  | starts (approval : Approval) (readings : StartReadings)
  | resumes (wait : Wait)
  | cancels (hostId : Text) (executionId attemptId : Nat)
  /-- What an execution came to, if its process is known to be over. -/
  | finishes (executionId : Nat) (outcome : Option (ExecutionState × Ownership))
  /-- `expirePrepared` -/
  | expires (wall : Rat)
  /-- `prune` -/
  | prunes (executionId : Nat)
  /-- The Node's process ends, and another begins. -/
  | restarts (origin : Rat)
  /-- The Node's identity is restored. -/
  | rotates (space : Text)

/-- Unstarted records whose time is over. -/
def Node.expirePrepared (wall : Rat) (node : Node) : Node :=
  { node with
    journal := node.journal.mapValues fun _ record =>
      if record.launchIntent || record.admissionIntent || record.state.terminal ||
          wall < deadline record.descriptor then record
      else record.unstarted .expired }

/-- What the next check of a start comes to. -/
def Running.check (wait : Wait) (node : Node) (running : Running) : Except Refused Running :=
  if wait.threw then .error .environment else
    match running.phase with
    | .admission => startAdmits wait.readings running node
    | .permission => startAuthorizes wait.readings running node
    | .supervisor =>
        if wait.spawned then startReleases wait.readings { running with process := true } node
        else .error .environment
    | .over => .error .active

/-- A start goes on after a wait. -/
def Node.resume (wait : Wait) (running : Running) (node : Node) : Node × List Release :=
  if running.phase = .over then (node, [])
  else
    match running.check wait node with
    | .error _ =>
        (node.abandon { running with
          process := running.phase = .supervisor && wait.spawned }, [])
    | .ok next =>
        ({ node.save next.record with active := some next },
          if next.record.released then [⟨next.descriptor, wait.readings.expiryMoment⟩] else [])

/-- `finish`, of what runs or of a record found after a restart. -/
def Node.finish (executionId : Nat) (outcome : Option (ExecutionState × Ownership))
    (node : Node) : Node :=
  let running := node.active.filter fun running =>
    running.record.descriptor.executionId = executionId
  match (running.map (·.record)).or (node.journal.get executionId) with
  | none => node
  | some record =>
      if record.launchIntent = false ∨ record.state.terminal then node
      else
        match outcome with
        | none => node.save { record with
            state := .reconciliationRequired
            ownership := .unknown }
        | some (state, ownership) =>
            { node.save { record with
                state
                ownership
                leasesReleased := true } with
              active := if running.isSome then none else node.active }

def System.step (s : System) (event : Event) : System :=
  match event with
  | .sends request =>
      if request.executionId ∈ s.issued then s
      else { s with
        issued := request.executionId :: s.issued
        network := request :: s.network }
  | .receives executionId arrival =>
      match s.network.find? fun request => request.executionId = executionId with
      | none => s
      | some request =>
          let network := s.network.filter fun request => request.executionId ≠ executionId
          match prepareBegins arrival request s.node with
          | .ok (some preparing) =>
              { s with
                network
                node := { s.node with preparing := preparing :: s.node.preparing } }
          | _ => { s with network }
  | .prepares executionId completion =>
      match s.node.preparing.find? fun entry => entry.request.executionId = executionId with
      | none => s
      | some preparing =>
          let node := { s.node with
            preparing := s.node.preparing.filter fun entry =>
              entry.request.executionId ≠ executionId }
          match prepareEnds completion preparing s.node with
          | .error _ => { s with node }
          | .ok record =>
              { s with
                node := { node.save record with
                  clocks := node.clocks.set executionId preparing.clock } }
  | .starts approval readings =>
      let descriptor := approval.descriptor
      -- A start that is under way is waited for.
      if s.node.active.any fun running =>
          running.descriptor.executionId = descriptor.executionId && running.phase ≠ .over then s
      else match startBegins readings approval s.node with
      | .ok none => s
      | .ok (some running) =>
          { s with
            node := { s.node.save running.record with active := some running } }
      | .error .cancelled =>
          match s.node.cancel readings.connection.hostId descriptor.executionId
              descriptor.attemptId with
          | .ok node => { s with node }
          | .error _ => s
      | .error _ =>
          { s with
            node := s.node.settleRefused descriptor readings }
  | .resumes wait =>
      match s.node.active with
      | none => s
      | some running =>
          { s with
            node := (s.node.resume wait running).1
            releases := s.releases ++ (s.node.resume wait running).2 }
  | .cancels hostId executionId attemptId =>
      match s.node.cancel hostId executionId attemptId with
      | .ok node => { s with node }
      | .error _ => s
  | .finishes executionId outcome =>
      { s with
        node := s.node.finish executionId outcome }
  | .expires wall =>
      { s with
        node := s.node.expirePrepared wall }
  | .prunes executionId =>
      { s with
        node := { s.node with
          journal := s.node.journal.erase executionId
          retired := executionId :: s.node.retired } }
  | .restarts origin =>
      { s with
        node := { s.node with
          origin
          preparing := []
          clocks := .empty
          active := none } }
  | .rotates space =>
      { s with
        node := { s.node with space } }

/-- A request reaches the Node between its sending and the end of the promised uncertainty, by
    the Host's clock. -/
def Event.Timely (s : System) (event : Event) : Prop :=
  match event with
  | .receives executionId arrival =>
      ∀ request ∈ s.network, request.executionId = executionId →
        request.hostTime ≤ arrival.moment ∧
          arrival.moment ≤ request.hostTime + CommandLimits.clockUncertaintyMs
  | _ => True

/-! ### What a check says -/

variable {node : Node} {readings : StartReadings} {record : JournalRecord}
  {descriptor : PreparedCommand} {approvedAt : Rat}

/-- A start that passes is the record's, and by the sample there is time left. -/
theorem assertStart_ok (h : assertStart node readings record descriptor approvedAt = .ok ()) :
    record.descriptor.digest = descriptor.toPreparedCommandBody ∧
      ∃ clock, node.clocks.get descriptor.executionId = some clock ∧
        node.monotonic readings.expiryMoment - clock.monotonic <
          deadline descriptor - clock.wall := by
  unfold assertStart at h
  dsimp only at h
  rcases unless_ok h with ⟨_, h⟩
  rcases unless_ok h with ⟨hmatch, h⟩
  rcases unless_ok h with ⟨_, h⟩
  cases hclock : node.clocks.get descriptor.executionId with
  | none =>
      rw [hclock] at h
      cases h
  | some clock =>
      rw [hclock] at h
      dsimp only at h
      rcases unless_ok h with ⟨_, h⟩
      rcases unless_ok h with ⟨hexpired, _⟩
      refine ⟨?_, clock, rfl, ?_⟩
      · simp only [not_or, not_not] at hmatch
        exact hmatch.2.2.2.1.trans hmatch.2.2.2.2.symm
      · unfold Node.startExpired at hexpired
        rw [hclock] at hexpired
        simp only [Option.any_some, Bool.or_eq_true, decide_eq_true_eq, not_or, not_le] at hexpired
        exact hexpired.2

/-- The sample is of the descriptor's request, which had reached the Node by then. -/
structure Calibrated (origin : Rat) (descriptor : PreparedCommand) (clock : Clock) : Prop where
  offset : descriptor.prepared.hostClockOffsetMs = descriptor.hostTime - clock.wall
  uncertainty : descriptor.prepared.clockUncertaintyMs = CommandLimits.clockUncertaintyMs
  timely : clock.monotonic + origin ≤ descriptor.hostTime + CommandLimits.clockUncertaintyMs

/-- A start that passes has the whole tolerance left, whatever the wall clock shows. -/
theorem assertStart_in_time (hdigest : record.descriptor.toPreparedCommandBody =
      record.descriptor.digest)
    (hclock : ∀ clock, node.clocks.get record.descriptor.executionId = some clock →
      Calibrated node.origin record.descriptor clock)
    (h : assertStart node readings record descriptor approvedAt = .ok ()) :
    readings.expiryMoment + clockDriftToleranceMs < descriptor.expiresAt := by
  rcases assertStart_ok h with ⟨hsame, clock, hget, hleft⟩
  have hbody : descriptor.toPreparedCommandBody = record.descriptor.toPreparedCommandBody :=
    (hdigest.trans hsame).symm
  have hid : descriptor.executionId = record.descriptor.executionId := congrArg (·.executionId) hbody
  have hprepared : descriptor.prepared = record.descriptor.prepared := congrArg (·.prepared) hbody
  rw [hid] at hget
  have hcalibrated := hclock clock hget
  have htimely := hcalibrated.timely
  unfold deadline Node.monotonic at hleft
  rw [hprepared, hcalibrated.offset, hcalibrated.uncertainty] at hleft
  -- The wall clock's sample is in the offset and in the deadline, and cancels.
  linarith

/-! ### What holds in every state -/

/-- A descriptor that the Node has a record of. -/
def Node.Knows (node : Node) (descriptor : PreparedCommand) : Prop :=
  (∃ id record, node.journal.get id = some record ∧ record.descriptor = descriptor) ∨
    ∃ running, node.active = some running ∧ running.record.descriptor = descriptor

/-- What was sent and is not a record yet. -/
def System.pending (s : System) : List Nat :=
  s.network.map (·.executionId) ++ s.node.preparing.map (·.request.executionId)

/-- Every record's sample is of its own request, and everything released was in time. -/
structure System.Inv (s : System) : Prop where
  once : s.pending.Nodup
  issued : ∀ id ∈ s.pending, id ∈ s.issued
  keyed : ∀ id record, s.node.journal.get id = some record → record.descriptor.executionId = id
  known : ∀ descriptor, s.node.Knows descriptor →
    descriptor.toPreparedCommandBody = descriptor.digest ∧
      descriptor.executionId ∈ s.issued ∧ descriptor.executionId ∉ s.pending
  timely : ∀ entry ∈ s.node.preparing, entry.clock.monotonic + s.node.origin ≤
    entry.request.hostTime + CommandLimits.clockUncertaintyMs
  clocked : ∀ descriptor clock, s.node.Knows descriptor →
    s.node.clocks.get descriptor.executionId = some clock →
      Calibrated s.node.origin descriptor clock
  released : ∀ release ∈ s.releases,
    release.checkedAt + clockDriftToleranceMs < release.descriptor.expiresAt

/-- Records may change, but only in what is not their descriptor. -/
structure Node.Keeps (node next : Node) : Prop where
  origin : next.origin = node.origin
  preparing : next.preparing = node.preparing
  clocks : next.clocks = node.clocks
  journal : ∀ id record, next.journal.get id = some record →
    (∃ old, node.journal.get id = some old ∧ record.descriptor = old.descriptor) ∨
      (record.descriptor.executionId = id ∧ node.Knows record.descriptor)
  active : ∀ running, next.active = some running → node.Knows running.record.descriptor

theorem Node.Keeps.knows {next : Node} (h : node.Keeps next) (hknows : next.Knows descriptor) :
    node.Knows descriptor := by
  rcases hknows with ⟨id, record, hget, rfl⟩ | ⟨running, hactive, rfl⟩
  · rcases h.journal id record hget with ⟨old, hold, hsame⟩ | ⟨_, hknows⟩
    · exact .inl ⟨id, old, hold, hsame.symm⟩
    · exact hknows
  · exact h.active running hactive

theorem Node.Keeps.refl (node : Node) : node.Keeps node where
  origin := rfl
  preparing := rfl
  clocks := rfl
  journal _ record hget := .inl ⟨record, hget, rfl⟩
  active running hactive := .inr ⟨running, hactive, rfl⟩

/-- A record that is known by its descriptor is saved. -/
theorem Node.Keeps.save (record : JournalRecord) (hknows : node.Knows record.descriptor)
    {active : Option Running}
    (hactive : ∀ running, active = some running → node.Knows running.record.descriptor) :
    node.Keeps { node.save record with active } where
  origin := rfl
  preparing := rfl
  clocks := rfl
  journal := by
    intro id found hget
    have hget : (node.journal.set record.descriptor.executionId record).get id = some found := hget
    rw [Table.get_set] at hget
    split at hget
    · rename_i hid
      cases hget
      exact .inr ⟨hid.symm, hknows⟩
    · exact .inl ⟨found, hget, rfl⟩
  active := hactive

theorem Node.Keeps.save_self (record : JournalRecord) (hknows : node.Knows record.descriptor) :
    node.Keeps (node.save record) :=
  Node.Keeps.save record hknows fun running hactive => .inr ⟨running, hactive, rfl⟩

theorem System.Inv.keeps {s : System} (h : s.Inv) {next : Node} (hkeeps : s.node.Keeps next)
    {releases : List Release}
    (hreleased : ∀ release ∈ releases,
      release.checkedAt + clockDriftToleranceMs < release.descriptor.expiresAt) :
    { s with node := next, releases := s.releases ++ releases }.Inv := by
  have hpending : ({ s with node := next, releases := s.releases ++ releases } : System).pending =
      s.pending := by
    unfold System.pending
    rw [hkeeps.preparing]
  constructor
  · rw [hpending]
    exact h.once
  · rw [hpending]
    exact h.issued
  · intro id record hget
    rcases hkeeps.journal id record hget with ⟨old, hold, hsame⟩ | ⟨hid, _⟩
    · rw [hsame]
      exact h.keyed id old hold
    · exact hid
  · rw [hpending]
    exact fun descriptor hknows => h.known descriptor (hkeeps.knows hknows)
  · intro entry hentry
    show entry.clock.monotonic + next.origin ≤ _
    rw [hkeeps.origin]
    exact h.timely entry (hkeeps.preparing ▸ hentry)
  · intro descriptor clock hknows hget
    show Calibrated next.origin descriptor clock
    rw [hkeeps.origin]
    have hget : next.clocks.get descriptor.executionId = some clock := hget
    rw [hkeeps.clocks] at hget
    exact h.clocked descriptor clock (hkeeps.knows hknows) hget
  · intro release hrelease
    rcases List.mem_append.mp hrelease with hold | hnew
    · exact h.released release hold
    · exact hreleased release hnew

theorem System.Inv.keeps_node {s : System} (h : s.Inv) {next : Node}
    (hkeeps : s.node.Keeps next) : { s with node := next }.Inv := by
  have hinv := @System.Inv.keeps s h next hkeeps [] (fun _ hmem => nomatch hmem)
  rw [List.append_nil] at hinv
  exact hinv

/-! ### What a step preserves -/

theorem Node.knows_journal {id : Nat} (h : node.journal.get id = some record) :
    node.Knows record.descriptor := .inl ⟨id, record, h, rfl⟩

theorem Node.knows_active {running : Running} (h : node.active = some running) :
    node.Knows running.record.descriptor := .inr ⟨running, h, rfl⟩

/-- A record that is looked up is active, or is the journal's. -/
theorem Node.knows_of_found {executionId : Nat}
    (h : ((node.active.filter fun running =>
      running.record.descriptor.executionId = executionId).map (·.record)).or
        (node.journal.get executionId) = some record) : node.Knows record.descriptor := by
  cases hactive : node.active with
  | none =>
      rw [hactive] at h
      exact Node.knows_journal h
  | some running =>
      rw [hactive] at h
      by_cases hid : running.record.descriptor.executionId = executionId
      · rw [Option.filter_some_pos (by simpa using hid)] at h
        cases h
        exact Node.knows_active hactive
      · rw [Option.filter_some_neg (by simpa using hid)] at h
        exact Node.knows_journal h

theorem Node.cancel_keeps {hostId : Text} {executionId attemptId : Nat} {next : Node}
    (h : node.cancel hostId executionId attemptId = .ok next) : node.Keeps next := by
  unfold Node.cancel at h
  dsimp only at h
  rcases unless_ok h with ⟨_, h⟩
  rcases unless_ok h with ⟨_, h⟩
  have hcancelled : node.Keeps { node with
      cancellations := node.cancellations.set executionId (hostId, attemptId) } :=
    ⟨rfl, rfl, rfl, (Node.Keeps.refl node).journal, (Node.Keeps.refl node).active⟩
  split at h
  · cases h
    exact hcancelled
  · rename_i record hfound
    have hknows := Node.knows_of_found hfound
    split at h
    · cases h
      exact hcancelled
    · cases h
      have hactive : ∀ running,
          (if (node.active.filter fun running =>
              running.record.descriptor.executionId = executionId).isSome then
            node.active.map fun running => { running with record := record.cancel }
          else node.active) = some running → node.Knows running.record.descriptor := by
        intro running hrunning
        split at hrunning
        · cases hactive : node.active with
          | none =>
              rw [hactive] at hrunning
              cases hrunning
          | some old =>
              rw [hactive] at hrunning
              cases hrunning
              exact hknows
        · exact Node.knows_active hrunning
      have hsaved := Node.Keeps.save record.cancel hknows hactive
      exact ⟨rfl, rfl, rfl, hsaved.journal, hsaved.active⟩

theorem Node.settleRefused_keeps (descriptor : PreparedCommand) (readings : StartReadings)
    (node : Node) : node.Keeps (node.settleRefused descriptor readings) := by
  unfold Node.settleRefused
  split
  · exact .refl node
  · rename_i record hget
    have hknows := Node.knows_journal hget
    split
    · exact .refl node
    · exact .save_self (record.unstarted _) hknows

/-- What a start begins with is the journal's record. -/
theorem startBegins_ok {approval : Approval} {running : Running}
    (h : startBegins readings approval node = .ok (some running)) :
    ∃ record, node.journal.get approval.descriptor.executionId = some record ∧
      running.record.descriptor = record.descriptor := by
  unfold startBegins at h
  dsimp only at h
  cases hget : node.journal.get approval.descriptor.executionId with
  | none =>
      rw [hget] at h
      cases h
  | some record =>
      rw [hget] at h
      dsimp only at h
      rcases unless_ok h with ⟨_, h⟩
      rcases unless_ok h with ⟨_, h⟩
      split at h
      · cases h
      · rcases bind_ok h with ⟨_, _, h⟩
        rcases unless_ok h with ⟨_, h⟩
        rcases unless_ok h with ⟨_, h⟩
        cases h
        exact ⟨record, rfl, rfl⟩

/-- Every check after a wait asserts the start, and keeps its descriptors. -/
theorem Running.check_ok {wait : Wait} {running next : Running}
    (h : running.check wait node = .ok next) :
    assertStart node wait.readings running.record running.descriptor running.approvedAt = .ok () ∧
      next.descriptor = running.descriptor ∧
      next.record.descriptor = running.record.descriptor := by
  unfold Running.check at h
  split at h
  · cases h
  · split at h
    · rcases bind_ok h with ⟨_, hassert, h⟩
      rcases unless_ok h with ⟨_, h⟩
      cases h
      exact ⟨hassert, rfl, rfl⟩
    · rcases bind_ok h with ⟨_, hassert, h⟩
      rcases unless_ok h with ⟨_, h⟩
      cases h
      exact ⟨hassert, rfl, rfl⟩
    · split at h
      · rcases bind_ok h with ⟨_, hassert, h⟩
        split at h
        · cases h
          exact ⟨hassert, rfl, rfl⟩
        · cases h
          exact ⟨hassert, rfl, rfl⟩
      · cases h
    · cases h

theorem Node.abandon_keeps {running : Running} (hknows : node.Knows running.record.descriptor) :
    node.Keeps (node.abandon running) := by
  unfold Node.abandon
  dsimp only
  split
  · rename_i settled hsettled
    have hknown := Node.knows_journal (Option.filter_eq_some_iff.mp hsettled).1
    exact .save { settled with leasesReleased := true } hknown fun _ hnone => nomatch hnone
  · split
    · refine .save { running.record with cancelRequested := true } hknows fun next hnext => ?_
      cases hnext
      exact hknows
    · split
      · refine .save { running.record with
          state := .reconciliationRequired
          ownership := .unknown } hknows fun next hnext => ?_
        cases hnext
        exact hknows
      · exact .save { running.record.unstarted _ with leasesReleased := true } hknows
          fun _ hnone => nomatch hnone

theorem Node.finish_keeps (executionId : Nat) (outcome : Option (ExecutionState × Ownership))
    (node : Node) : node.Keeps (node.finish executionId outcome) := by
  unfold Node.finish
  dsimp only
  split
  · exact .refl node
  · rename_i record hfound
    have hknows := Node.knows_of_found hfound
    split
    · exact .refl node
    · split
      · exact .save_self { record with
          state := .reconciliationRequired
          ownership := .unknown } hknows
      · rename_i state ownership
        refine .save { record with
          state
          ownership
          leasesReleased := true } hknows fun running hrunning => ?_
        split at hrunning
        · cases hrunning
        · exact Node.knows_active hrunning

theorem Node.expirePrepared_keeps (wall : Rat) (node : Node) :
    node.Keeps (node.expirePrepared wall) where
  origin := rfl
  preparing := rfl
  clocks := rfl
  journal := by
    intro id record hget
    have hget : (node.journal.mapValues _).get id = some record := hget
    rw [Table.get_mapValues] at hget
    rcases Option.map_eq_some_iff.mp hget with ⟨old, hold, rfl⟩
    refine .inl ⟨old, hold, ?_⟩
    split <;> rfl
  active _ hactive := Node.knows_active hactive

/-- Whatever comes of a wait, records keep their descriptors, and what is released is in
    time. -/
theorem System.Inv.resume {s : System} (h : s.Inv) {running : Running}
    (hactive : s.node.active = some running) (wait : Wait) :
    s.node.Keeps (s.node.resume wait running).1 ∧
      ∀ release ∈ (s.node.resume wait running).2,
        release.checkedAt + clockDriftToleranceMs < release.descriptor.expiresAt := by
  have hknows := Node.knows_active hactive
  unfold Node.resume
  split
  · exact ⟨.refl _, fun _ hmem => nomatch hmem⟩
  · split
    · refine ⟨?_, fun _ hmem => nomatch hmem⟩
      apply Node.abandon_keeps
      exact hknows
    · rename_i next hnext
      rcases Running.check_ok hnext with ⟨hassert, hdescriptor, hrecord⟩
      constructor
      · refine .save next.record (hrecord ▸ hknows) fun found hfound => ?_
        cases hfound
        exact hrecord ▸ hknows
      · intro release hrelease
        dsimp only at hrelease
        split at hrelease
        · rw [List.mem_singleton] at hrelease
          subst hrelease
          show wait.readings.expiryMoment + clockDriftToleranceMs < next.descriptor.expiresAt
          rw [hdescriptor]
          exact assertStart_in_time (h.known _ hknows).1
            (fun clock hget => h.clocked _ clock hknows hget) hassert
        · cases hrelease

/-- A request that the Host sends is new. -/
theorem System.Inv.sends {s : System} (h : s.Inv) {request : CommandPreparation}
    (hnew : request.executionId ∉ s.issued) :
    { s with
      issued := request.executionId :: s.issued
      network := request :: s.network }.Inv where
  once := List.nodup_cons.mpr ⟨fun hmem => hnew (h.issued _ hmem), h.once⟩
  issued := by
    intro id hid
    rcases List.mem_cons.mp hid with rfl | hid
    · exact List.mem_cons_self
    · exact List.mem_cons_of_mem _ (h.issued id hid)
  keyed := h.keyed
  known := by
    intro descriptor hknows
    rcases h.known descriptor hknows with ⟨hdigest, hissued, hpending⟩
    refine ⟨hdigest, List.mem_cons_of_mem _ hissued, fun hmem => ?_⟩
    rcases List.mem_cons.mp hmem with heq | hmem
    · have heq : descriptor.executionId = request.executionId := heq
      exact hnew (heq ▸ hissued)
    · exact hpending hmem
  timely := h.timely
  clocked := h.clocked
  released := h.released

/-- Fewer requests wait. -/
theorem System.Inv.fewer {s : System} (h : s.Inv) {network : List CommandPreparation}
    {preparing : List Preparing} (hnetwork : network.Sublist s.network)
    (hpreparing : preparing.Sublist s.node.preparing) :
    { s with
      network
      node := { s.node with preparing } }.Inv := by
  have hsub : ({ s with
      network
      node := { s.node with preparing } } : System).pending.Sublist s.pending :=
    (hnetwork.map _).append (hpreparing.map _)
  exact {
    once := hsub.nodup h.once
    issued := fun id hid => h.issued id (hsub.mem hid)
    keyed := h.keyed
    known := fun descriptor hknows =>
      ⟨(h.known descriptor hknows).1, (h.known descriptor hknows).2.1,
        fun hmem => (h.known descriptor hknows).2.2 (hsub.mem hmem)⟩
    timely := fun entry hentry => h.timely entry (hpreparing.mem hentry)
    clocked := h.clocked
    released := h.released }

/-- A request that arrives is sampled within the uncertainty. -/
theorem System.Inv.receives {s : System} (h : s.Inv) {executionId : Nat} {arrival : Arrival}
    {request : CommandPreparation} (hrequest : request ∈ s.network)
    (hid : request.executionId = executionId)
    (htimely : arrival.moment ≤ request.hostTime + CommandLimits.clockUncertaintyMs) :
    { s with
      network := s.network.filter fun request => request.executionId ≠ executionId
      node := { s.node with preparing :=
        ⟨request, arrival.wall, s.node.monotonic arrival.moment⟩ :: s.node.preparing } }.Inv := by
  have hsub : (s.network.filter fun request => request.executionId ≠ executionId).map
      (·.executionId) |>.Sublist (s.network.map (·.executionId)) := List.filter_sublist.map _
  have hmem : executionId ∈ s.network.map (·.executionId) :=
    List.mem_map.mpr ⟨request, hrequest, hid⟩
  rcases List.nodup_append.mp h.once with ⟨hnetwork, hpreparing, hapart⟩
  -- The request moves from what is under way to what is being prepared.
  have hmoved : ∀ id ∈ (s.network.filter fun request => request.executionId ≠ executionId).map
      (·.executionId) ++ executionId :: s.node.preparing.map (·.request.executionId),
        id ∈ s.pending := by
    intro id hin
    rcases List.mem_append.mp hin with hin | hin
    · exact List.mem_append_left _ (hsub.mem hin)
    · rcases List.mem_cons.mp hin with rfl | hin
      · exact List.mem_append_left _ hmem
      · exact List.mem_append_right _ hin
  constructor
  · show ((s.network.filter _).map _ ++ (request.executionId :: _)).Nodup
    rw [hid]
    refine List.nodup_append.mpr ⟨hsub.nodup hnetwork, List.nodup_cons.mpr ⟨?_, hpreparing⟩, ?_⟩
    · intro hin
      exact hapart _ hmem _ hin rfl
    · intro id hin other hother heq
      rcases List.mem_cons.mp hother with rfl | hother
      · rcases List.mem_map.mp hin with ⟨found, hfound, hsame⟩
        have hne := (List.mem_filter.mp hfound).2
        simp [hsame, heq] at hne
      · exact hapart _ (hsub.mem hin) _ hother heq
  · intro id hin
    refine h.issued id (hmoved id ?_)
    subst hid
    exact hin
  · exact h.keyed
  · intro descriptor hknows
    rcases h.known descriptor hknows with ⟨hdigest, hissued, hpending⟩
    refine ⟨hdigest, hissued, fun hin => hpending (hmoved _ ?_)⟩
    subst hid
    exact hin
  · intro entry hentry
    rcases List.mem_cons.mp hentry with rfl | hentry
    · -- The monotonic clock reads the time since its origin.
      show s.node.monotonic arrival.moment + s.node.origin ≤ _
      unfold Node.monotonic
      linarith
    · exact h.timely entry hentry
  · exact h.clocked
  · exact h.released

/-- What a preparation saves is a record of the request, by its sample. -/
theorem prepareEnds_ok {completion : Completion} {preparing : Preparing}
    (h : prepareEnds completion preparing node = .ok record) :
    record.descriptor.toPreparedCommandBody = record.descriptor.digest ∧
      record.descriptor.toCommandPreparation = preparing.request ∧
      record.descriptor.prepared.hostClockOffsetMs =
        preparing.request.hostTime - preparing.clock.wall ∧
      record.descriptor.prepared.clockUncertaintyMs = CommandLimits.clockUncertaintyMs := by
  unfold prepareEnds at h
  dsimp only at h
  rcases unless_ok h with ⟨_, h⟩
  rcases unless_ok h with ⟨_, h⟩
  rcases unless_ok h with ⟨_, h⟩
  rcases unless_ok h with ⟨_, h⟩
  rcases unless_ok h with ⟨_, h⟩
  rcases unless_ok h with ⟨_, h⟩
  cases h
  exact ⟨rfl, rfl, rfl, rfl⟩

/-- A new record has its own sample, and no other record has its id. -/
theorem System.Inv.prepares {s : System} (h : s.Inv) {executionId : Nat}
    {completion : Completion} {preparing : Preparing} (hmem : preparing ∈ s.node.preparing)
    (hid : preparing.request.executionId = executionId)
    (hended : prepareEnds completion preparing s.node = .ok record) :
    { s with
      node := { ({ s.node with
          preparing := s.node.preparing.filter fun entry =>
            entry.request.executionId ≠ executionId } : Node).save record with
        clocks := s.node.clocks.set executionId preparing.clock } }.Inv := by
  rcases prepareEnds_ok hended with ⟨hdigest, hrequest, hoffset, huncertainty⟩
  have hrecord : record.descriptor.executionId = executionId :=
    (congrArg (·.executionId) hrequest).trans hid
  have hpending : executionId ∈ s.pending :=
    List.mem_append_right _ (List.mem_map.mpr ⟨preparing, hmem, hid⟩)
  have hfewer := h.fewer (List.Sublist.refl s.network)
    (List.filter_sublist (p := fun entry => entry.request.executionId ≠ executionId))
  -- The new record is apart from every other.
  have hknows : ∀ descriptor, Node.Knows { ({ s.node with
      preparing := s.node.preparing.filter fun entry =>
        entry.request.executionId ≠ executionId } : Node).save record with
      clocks := s.node.clocks.set executionId preparing.clock } descriptor →
        descriptor = record.descriptor ∨
          (s.node.Knows descriptor ∧ descriptor.executionId ≠ executionId) := by
    intro descriptor hknown
    have hold : s.node.Knows descriptor → descriptor = record.descriptor ∨
        (s.node.Knows descriptor ∧ descriptor.executionId ≠ executionId) := fun hknows =>
      .inr ⟨hknows, fun heq => (h.known descriptor hknows).2.2 (heq ▸ hpending)⟩
    rcases hknown with ⟨id, found, hget, rfl⟩ | hactive
    · have hget : (s.node.journal.set record.descriptor.executionId record).get id = some found :=
        hget
      rw [Table.get_set] at hget
      split at hget
      · cases hget
        exact .inl rfl
      · exact hold (Node.knows_journal hget)
    · exact hold (.inr hactive)
  refine ⟨hfewer.once, hfewer.issued, ?_, ?_, hfewer.timely, ?_, h.released⟩
  · intro id found hget
    have hget : (s.node.journal.set record.descriptor.executionId record).get id = some found :=
      hget
    rw [Table.get_set] at hget
    split at hget
    · rename_i heq
      cases hget
      exact heq.symm
    · exact h.keyed id found hget
  · intro descriptor hknown
    rcases hknows descriptor hknown with rfl | ⟨hold, _⟩
    · refine ⟨hdigest, h.issued _ (hrecord.symm ▸ hpending), fun hin => ?_⟩
      rw [hrecord] at hin
      rcases List.mem_append.mp hin with hin | hin
      · -- It was being prepared, so it was not under way.
        rcases List.nodup_append.mp h.once with ⟨_, _, hapart⟩
        exact hapart _ hin _ (List.mem_map.mpr ⟨preparing, hmem, hid⟩) rfl
      · rcases List.mem_map.mp hin with ⟨entry, hentry, hsame⟩
        have hne := (List.mem_filter.mp hentry).2
        simp [hsame] at hne
    · -- Any other known command was known before, and is not of this id.
      exact hfewer.known descriptor hold
  · intro descriptor clock hknown hget
    have hget : (s.node.clocks.set executionId preparing.clock).get descriptor.executionId =
        some clock := hget
    rcases hknows descriptor hknown with rfl | ⟨hold, hne⟩
    · rw [hrecord, Table.get_set_self] at hget
      cases hget
      have hhost : record.descriptor.hostTime = preparing.request.hostTime :=
        congrArg (·.hostTime) hrequest
      refine ⟨hhost ▸ hoffset, huncertainty, ?_⟩
      rw [hhost]
      exact h.timely preparing hmem
    · rw [Table.get_set_ne _ _ hne] at hget
      exact h.clocked descriptor clock hold hget

/-- A Node that was just set up. -/
theorem System.inv_start (origin : Rat) (space shellPath : Text) :
    ({ node := { origin, space, shellPath } } : System).Inv where
  once := List.nodup_nil
  issued _ hid := nomatch hid
  keyed _ _ hget := nomatch hget
  known := by
    rintro descriptor (⟨_, _, hget, _⟩ | ⟨_, hactive, _⟩)
    · cases hget
    · cases hactive
  timely _ hentry := nomatch hentry
  clocked _ _ _ hget := nomatch hget
  released _ hrelease := nomatch hrelease

/-- Every event keeps the invariant. Only an arrival depends on when it happens. -/
theorem System.Inv.step {s : System} {event : Event} (h : s.Inv) (htimely : event.Timely s) :
    (s.step event).Inv := by
  cases event with
  | sends request =>
      unfold System.step
      dsimp only
      split
      · exact h
      · rename_i hnew
        exact h.sends hnew
  | receives executionId arrival =>
      unfold System.step
      dsimp only
      split
      · exact h
      · rename_i request hfound
        have hrequest := List.mem_of_find?_eq_some hfound
        have hid : request.executionId = executionId := by
          simpa using List.find?_some hfound
        split
        · rename_i preparing hbegun
          -- Whatever else the Node checks, what it keeps is the reading at the arrival.
          have hsample : preparing = ⟨request, arrival.wall, s.node.monotonic arrival.moment⟩ := by
            unfold prepareBegins at hbegun
            rcases unless_ok hbegun with ⟨_, hbegun⟩
            split at hbegun
            · rcases unless_ok hbegun with ⟨_, hbegun⟩
              rcases unless_ok hbegun with ⟨_, hbegun⟩
              cases hbegun
            · rcases unless_ok hbegun with ⟨_, hbegun⟩
              rcases unless_ok hbegun with ⟨_, hbegun⟩
              cases hbegun
              rfl
          rw [hsample]
          exact h.receives hrequest hid (htimely request hrequest hid).2
        · exact h.fewer List.filter_sublist (List.Sublist.refl _)
  | prepares executionId completion =>
      unfold System.step
      dsimp only
      split
      · exact h
      · rename_i preparing hfound
        split
        · exact h.fewer (List.Sublist.refl _) List.filter_sublist
        · rename_i record hended
          exact h.prepares (List.mem_of_find?_eq_some hfound)
            (by simpa using List.find?_some hfound) hended
  | starts approval readings =>
      unfold System.step
      dsimp only
      split
      · exact h
      · split
        · exact h
        · rename_i running hbegun
          -- What starts is a record of the journal with another state.
          rcases startBegins_ok hbegun with ⟨record, hget, hsame⟩
          have hknows : s.node.Knows running.record.descriptor :=
            hsame ▸ Node.knows_journal hget
          refine h.keeps_node (.save running.record hknows fun next hnext => ?_)
          cases hnext
          exact hknows
        · split
          · rename_i hcancelled
            exact h.keeps_node (Node.cancel_keeps hcancelled)
          · exact h
        · exact h.keeps_node (Node.settleRefused_keeps _ _ _)
  | resumes wait =>
      unfold System.step
      dsimp only
      split
      · exact h
      · rename_i running hactive
        -- The one event that may release a command.
        rcases h.resume hactive wait with ⟨hkeeps, hreleased⟩
        exact h.keeps hkeeps hreleased
  | cancels hostId executionId attemptId =>
      unfold System.step
      dsimp only
      split
      · rename_i hcancelled
        exact h.keeps_node (Node.cancel_keeps hcancelled)
      · exact h
  | finishes executionId outcome => exact h.keeps_node (Node.finish_keeps _ _ _)
  | expires wall => exact h.keeps_node (Node.expirePrepared_keeps _ _)
  | prunes executionId =>
      refine h.keeps_node ⟨rfl, rfl, rfl, fun id record hget => ?_,
        (Node.Keeps.refl s.node).active⟩
      have hget : (s.node.journal.erase executionId).get id = some record := hget
      rw [Table.get_erase] at hget
      split at hget
      · cases hget
      · exact .inl ⟨record, hget, rfl⟩
  | restarts origin =>
      -- The clocks are gone with the process, so what was prepared before cannot be released.
      have hfewer := h.fewer (List.Sublist.refl s.network) (List.nil_sublist s.node.preparing)
      have hknows : ∀ descriptor, Node.Knows { s.node with
          origin
          preparing := []
          clocks := .empty
          active := none } descriptor → s.node.Knows descriptor := by
        rintro descriptor (hknown | ⟨_, hactive, _⟩)
        · exact .inl hknown
        · cases hactive
      refine ⟨hfewer.once, hfewer.issued, h.keyed, fun descriptor hknown => ?_, ?_, ?_, h.released⟩
      · exact hfewer.known descriptor (hknows descriptor hknown)
      · exact fun _ hentry => by cases hentry
      · exact fun _ _ _ hget => by cases hget
  | rotates space =>
      exact h.keeps_node ⟨rfl, rfl, rfl, (Node.Keeps.refl s.node).journal,
        (Node.Keeps.refl s.node).active⟩

/-- In every run in which requests reach the Node within the promised uncertainty, whatever
    its wall clock shows and however long it waits, a command is released only while, by the
    Host's clock, it is not expired: the last reading that a release rests on has the whole
    tolerance left. -/
theorem released_in_time (origin : Rat) (space shellPath : Text) (events : List Event)
    (htimely : Run.Admits System.step (fun s event => event.Timely s)
      { node := { origin, space, shellPath } } events) :
    ∀ release ∈ (Run.final System.step { node := { origin, space, shellPath } } events).releases,
      ∀ moment, moment ≤ release.checkedAt + clockDriftToleranceMs →
        moment < release.descriptor.expiresAt := by
  have hinv := Run.invariant_of_admits System.step (fun s event => event.Timely s) System.Inv
    (fun _ _ h htimely => h.step htimely) events _ (System.inv_start origin space shellPath) htimely
  intro release hrelease moment hmoment
  exact lt_of_le_of_lt hmoment (hinv.released release hrelease)

/-! ### One command -/

def sampleRequest : CommandPreparation where
  executionId := 1
  attemptId := 1
  hostId := ofString "host"
  nodeId := ofString "node"
  createdAt := 10000
  expiresAt := 1810000
  hostTime := 10000

def sampleConnection : Connection where
  hostId := ofString "host"
  nodeId := ofString "node"
  sealed := true
  enabled := true

/-- The descriptor that the Node answers with. Its clock is an hour behind. -/
def sampleDescriptor : PreparedCommand :=
  let body : PreparedCommandBody := { sampleRequest with
    prepared := {
      preparedAt := -3589900
      clockUncertaintyMs := 5000
      hostClockOffsetMs := 3599900
      shellPath := ofString "/bin/sh" } }
  { body with digest := body }

/-- What the clocks show at a moment of the Host's. -/
def sampleReadings (moment : Rat) : StartReadings where
  connection := sampleConnection
  approvalWall := moment - 3600000
  sinceMoment := moment
  driftWall := moment - 3600000
  driftMoment := moment
  expiryWall := moment - 3600000
  expiryMoment := moment

/-- A command is prepared, approved after a minute, and released. -/
def sampleStart : List Event :=
  [.sends sampleRequest,
    .receives 1 ⟨sampleConnection, -3589900, 10100, true⟩,
    .prepares 1 ⟨sampleConnection, true, 10300, -3589700⟩,
    .starts ⟨sampleDescriptor, 70000, false, true⟩ (sampleReadings 70100),
    .resumes ⟨sampleReadings 70200, false, false⟩,
    .resumes ⟨sampleReadings 70300, false, false⟩,
    .resumes ⟨sampleReadings 70400, false, true⟩]

theorem released_in_time_sampleStart :
    ((Run.final System.step { node := ⟨-100, [], ofString "/bin/sh", .empty, .empty, [], [],
        .empty, none⟩ } sampleStart).releases.map (·.checkedAt)) = [70400] ∧
      ∀ release ∈ (Run.final System.step { node := ⟨-100, [], ofString "/bin/sh", .empty, .empty,
          [], [], .empty, none⟩ } sampleStart).releases,
        ∀ moment, moment ≤ release.checkedAt + clockDriftToleranceMs →
          moment < release.descriptor.expiresAt := by
  refine ⟨by decide +kernel, released_in_time (-100) [] (ofString "/bin/sh") sampleStart ?_⟩
  refine ⟨trivial, fun request hrequest _ => ?_, trivial, trivial, trivial, trivial, trivial,
    trivial⟩
  have hrequest : request ∈ [sampleRequest] := hrequest
  rw [List.mem_singleton] at hrequest
  subst hrequest
  constructor <;> decide +kernel

end CommandStart

end CopilotFleet
