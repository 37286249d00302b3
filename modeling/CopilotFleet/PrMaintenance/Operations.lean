import CopilotFleet.Lib.Run
import CopilotFleet.PrMaintenance.Observations

/-!
# The Operations of PR Maintenance

Every operation is one transaction on the registry: it reads a registration,
changes it, and replaces it by its next version, or it is refused and nothing
is changed. What operators, leads, workers and the engine's tick ask for is
here, with the admission that every write on the retained worker has to pass.

## Main definitions

* `save`: A registration replaced by its next version.
* `admission`: What maintenance allows.
* `operatorAction`, `set`: What a person and the lead can do.
* `checkpoint`: What the lead reports.
* `Operation`: One call.
* `step`: The registry after it.
-/

namespace CopilotFleet

namespace PrMaintenance

open Utf16 Timestamps

theorem keyed_empty (id : Text) (record : Registration)
    (h : (Table.empty : Table Text Registration).get id = some record) : record.id = id := by
  cases h

/-- The registry: every registration there ever was, by its id. -/
structure Store where
  records : Table Text Registration := Table.empty
  keyed : ∀ id record, records.get id = some record → record.id = id := by
    exact keyed_empty

def Store.retained (store : Store) : List Registration :=
  store.records.values.filter fun record => !record.released

def Store.put (store : Store) (record : Registration) : Store where
  records := store.records.set record.id record
  keyed := by
    intro id found h
    rw [Table.get_set] at h
    by_cases hid : id = record.id
    · rw [if_pos hid] at h
      rw [← Option.some.inj h, hid]
    · rw [if_neg hid] at h
      exact store.keyed id found h

variable (w : World)

/-! ### Writing -/

/-- More history than a registration may carry. -/
def Registration.overflows (record : Registration) : Bool :=
  100 < record.batches.length || 200 < record.findings.length ||
    200 < record.findingAttempts.length || 200 < record.actions.length ||
      100 < record.decisionHistory.length

def Counters.negative (counters : Counters) : Bool :=
  counters.repairBatches < 0 || counters.answerBatches < 0 || counters.mutationAttempts < 0

def ManualCommand.finished (command : ManualCommand) : Bool :=
  command.state = .settled || command.state = .rejected

/-- The commands of a takeover that are kept: the open ones, and the last that ended. -/
def archiveManualCommands (record : Registration) : Except Refusal Registration :=
  match record.manualControl with
  | none => .ok record
  | some control => do
      let commands ← control.commands.mapM fun command =>
        if w.manualAmbiguous record.workerSessionId command.id then .ok command
        else w.saveManual record.workerSessionId command
      let recent := ((commands.filter ManualCommand.finished).rtake 32).map (·.id)
      return { record with
        manualControl := some { control with
          commands := commands.filter fun command =>
            !command.finished || recent.contains command.id } }

def write (record : Registration) : Except Refusal Registration := do
  if record.overflows then throw .checkpointOverflow
  let record ← archiveManualCommands w { record with
    holdHistory := record.holdHistory.rtake 100
    reviewHistory := record.reviewHistory.rtake 50 }
  if w.parses record = false ∨ record.counters.negative then throw .schema
  if record.released ∧ (unsettled record ∨ record.decisionPending) then throw .unsettled
  if w.fits record = false then throw .checkpointOverflow
  return record

def save (record : Registration) : Except Refusal Registration :=
  write w { record with version := record.version + 1 }

/-- Two registrations that may not both be retained. -/
def conflicting (a b : Registration) : Bool :=
  (providerKey a.identity = providerKey b.identity &&
    ((a.identity.repositoryId = b.identity.repositoryId &&
        a.identity.prNumber = b.identity.prNumber) ||
      (a.identity.headRepositoryId = b.identity.headRepositoryId &&
        a.identity.headRef = b.identity.headRef))) ||
    a.workerSessionId = b.workerSessionId

def insert (record : Registration) (store : Store) : Except Refusal Store := do
  let record ← write w record
  if (store.records.get record.id).isSome then throw .ownershipConflict
  if record.released = false ∧ store.retained.any (conflicting record) then
    throw .ownershipConflict
  return store.put record

/-! ### Admission -/

inductive AdmissionAction where
  | discover
  | reopen
  | dispatch
  | execute
  | prompt
  | resume
  | advance
  | submit
  | approve
  | publish
  | aggregate
  | pause
  | cancel
  | cleanup
  | direction
  | reconcile
deriving DecidableEq

/-- A write on the retained worker. -/
def AdmissionAction.writes : AdmissionAction → Bool
  | .dispatch | .execute | .prompt | .resume | .publish => true
  | _ => false

structure Admission where
  action : AdmissionAction
  taskId : Option Text := none
  sessionId : Option Text := none
  placementId : Option Text := none
  checkoutKey : Option Text := none
  recordId : Option Text := none
  generation : Option Nat := none
  batchId : Option Text := none
  leadSessionId : Option Text := none

def placementPrefix : Text := ofString "placement:"

/-- The registrations an action touches. -/
def concerns (input : Admission) (record : Registration) : Bool :=
  let session := (input.sessionId.bind w.session).filter fun session => !session.isLead
  let checkoutKey := input.checkoutKey.or (session.bind (·.checkoutKey))
  let placementId := input.placementId.or (session.map (·.placementId))
  some record.id = input.recordId || some record.taskId = input.taskId ||
    some record.workerSessionId = input.sessionId || some record.taskId = session.bind (·.runId) ||
      some record.checkoutKey = checkoutKey ||
        (some record.placementId = placementId && placementPrefix.isPrefixOf record.checkoutKey)

/-- Why a write on the retained worker is denied whatever batch it names. -/
def deniedState (record : Registration) : Option Denial :=
  if record.lifecycle ≠ .active then some .terminal
  else
    match record.hold with
    | some hold => some (.hold hold.kind)
    | none =>
        if record.decisionPending then some .decisionPending
        else if w.permissionPending record then some .permissionPending
        else
          match w.binding record with
          | some reason => some (.binding reason)
          | none =>
              if record.authorization.scope.publicationAuthorized = false then
                some .repairAuthorizationRequired
              else if (w.session record.workerSessionId).any (·.stopRequested) ∨
                  (w.run record.taskId).any (·.state = .cancelled) then some (.hold .stopped)
              else if record.batches.any fun batch =>
                  batch.stepId.isSome && !batch.executionSettled && !batch.outstanding then
                some .executionUncertain
              else none

/-- Why a write for this batch is denied. -/
def deniedBatch (input : Admission) (record : Registration) (batch : Batch) : Option Denial :=
  if batch.outstanding = false ∨ batch.cancellationRequestedAt.isSome then some .batchNotAdmitted
  else if batch.authorizationId ≠ record.authorization.id ∨ batch.generation ≠ record.generation then
    some .staleAuthorization
  else if batch.state = .uncertain ∨ batch.state = .reconciling then some .executionUncertain
  else if input.action = .dispatch ∧ batch.state ≠ .prepared then some .batchAlreadyAccepted
  else if input.action ≠ .dispatch ∧ batch.state ≠ .accepted then some .batchNotAccepted
  else
    match record.observation with
    | none => some .staleObservation
    | some observation =>
        if observation.complete = false ∨ some batch.headSha ≠ observation.headSha then
          some .staleObservation
        else if batch.baseSha.isSome ∧ batch.baseSha ≠ observation.baseSha then some .staleBase
        else if record.lastAttempt.any fun attempt => attempt.complete &&
            (attempt.headSha ≠ observation.headSha ||
              attempt.snapshotId ≠ observation.snapshotId) then some .staleObservation
        else if observation.draft = some true then some .draft
        else if observation.mergeability = .conflicting ∧
            ¬(batch.kind = .repair ∧ batch.conflictResolution = some true ∧
              batch.baseSha = observation.baseSha) then some .mergeConflict
        else if record.incidents.any fun entry => entry.unresolved && entry.kind ≠ .capability then
          some .observationRecoveryRequired
        else none

/-- The worker can take a dispatch. -/
def Session.available (session : Session) : Bool :=
  session.state = .idle || ((session.state = .completed || session.state = .stopped ||
    session.state = .offline) && session.hasAgentSession)

def deniedWrite (input : Admission) (record : Registration) : Option Denial :=
  (deniedState w record).or
    (if input.taskId.any (· ≠ record.taskId) then some .resourceReserved
    else if input.sessionId.any (· ≠ record.workerSessionId) then some .workerReserved
    else if input.recordId ≠ some record.id ∨ input.generation ≠ some record.generation then
      some .maintenanceBatchRequired
    else
      match input.batchId with
      | none => some .maintenanceBatchRequired
      | some batchId =>
          match record.batch batchId with
          | none => some .batchNotAdmitted
          | some batch =>
              (deniedBatch input record batch).or
                (if input.action = .dispatch ∧
                    ¬(w.session record.workerSessionId).any Session.available then
                  some .workerUnavailable
                else none))

/-- Why one registration denies an action. -/
def denied (input : Admission) (record : Registration) : Option Denial :=
  match input.action with
  | .cancel | .pause | .direction | .reconcile | .reopen => none
  | .cleanup => some .maintenanceRetention
  | _ =>
      if input.leadSessionId.any (· ≠ record.leadSessionId) then some .ownership
      else if input.generation.any (· ≠ record.generation) then some .staleGeneration
      else
        match input.action with
        | .discover =>
            if record.lifecycle ≠ .active then some .terminal
            else (record.hold.map (·.kind)).bind fun kind =>
              if kind = .stopped ∨ kind = .manualControl then some (.hold kind) else none
        | .approve | .advance | .submit | .aggregate =>
            if unsettled record then some .unsettled
            else if record.workPending then some .pendingOperatorWork
            else none
        | _ => deniedWrite w input record

/-- What maintenance has against an action; nothing where it is allowed. -/
def admission (store : Store) (input : Admission) : Option Denial :=
  let records := store.retained.filter (concerns w input)
  if input.recordId.any fun recordId => !records.any fun record => record.id = recordId then
    some .releasedOrUnknown
  else
    (records.findSome? (denied w input)).or
      (if (input.sessionId.any w.manualPending) ∧ (input.action = .dispatch ∨
          input.action = .execute ∨ input.action = .prompt ∨ input.action = .resume) then
        some .manualExecutionUnsettled
      else none)

def assertAdmission (store : Store) (input : Admission) : Except Refusal Unit :=
  match admission w store input with
  | some reason => .error (.denied reason)
  | none => .ok ()

/-! ### What people ask for -/

def stop (reason : Text) (record : Registration) : Except Refusal (Option Registration) :=
  if record.hold.any fun hold => hold.kind = .stopped then .ok none
  else some <$> save w (setHold .stopped reason w.now host record)

def matchDecision (record : Registration) (decisionId : Option Text) (version : Option Nat) :
    Except Refusal Unit :=
  if record.decision.any fun decision =>
      some decision.id = decisionId && some decision.version = version then .ok ()
  else .error .decisionConflict

/-- Things Resume can never clear: they are facts, not holds. -/
def assertResumable (record : Registration) : Except Refusal Unit := do
  if record.released then throw .released
  if record.lifecycle ≠ .active then throw .terminal
  if record.authorization.scope.publicationAuthorized = false then
    throw .repairAuthorizationRequired
  if w.manualPending record.workerSessionId then throw .executionUncertain
  match w.binding record with
  | some reason => throw (.binding reason)
  | none => pure ()
  if (w.session record.workerSessionId).any (·.stopRequested) then throw .stopping
  if (w.run record.taskId).any (·.state = .cancelled) then throw .taskCancelled

/-- Records a decision's direction, which supersedes an operator's or lead's pause. -/
def applyDirection (decisionId : Text) (version : Nat) (direction actorId : Text)
    (record : Registration) : Except Refusal Registration := do
  matchDecision record (some decisionId) (some version)
  if record.decisionPending = false then throw .decisionSettled
  let directed := { record with
    decision := record.decision.map fun decision => { decision with
      state := .directed
      operatorId := some actorId
      direction := some direction
      resolvedAt := some w.now }
    counters := { record.counters with dispatchesSinceDirection := 0 }
    findingAttempts := [] }
  let cleared :=
    if directed.hold.any fun hold => hold.kind = .paused then clearHold w actorId w.now directed
    else directed
  return requestReview w .direction w.now (some actorId) cleared

inductive OperatorAction where
  | pause (reason : Text)
  | work (requestId direction : Text)
  | review (requestId : Text)
  | resume
  | release (reason : Text) (decisionId : Option Text) (decisionVersion : Option Nat)
  | direction (decisionId : Text) (decisionVersion : Nat) (direction : Text)

/-- A retry of a request that was recorded. -/
def repeated (action : OperatorAction) (operatorId : Text) (record : Registration) :
    Except Refusal Bool :=
  match action with
  | .work requestId direction =>
      match record.workRequests.find? fun request => request.id = requestId with
      | none => .ok false
      | some prior =>
          if prior.operatorId ≠ operatorId ∨ prior.direction ≠ direction then
            .error .workConflict
          else .ok true
  | .review requestId =>
      .ok ((record.review.toList ++ record.reviewHistory).any fun review =>
        review.id = requestId)
  | _ => .ok false

/-- Ownership ends, with whatever was still asked for. -/
def release (reason operatorId : Text) (decisionId : Option Text) (decisionVersion : Option Nat)
    (record : Registration) : Except Refusal Registration := do
  if unsettled record ∨ w.manualPending record.workerSessionId then throw .unsettled
  if record.decisionPending then matchDecision record decisionId decisionVersion
  let withdrawn := { record with
    decision := record.decision.map fun decision =>
      if decision.state = .pending then
        { decision with
          state := .withdrawn
          operatorId := some operatorId
          direction := some reason
          resolvedAt := some w.now }
      else decision }
  let concluded := concludeReview .held w.now (some reason) withdrawn
  return { concluded with
    workRequests := concluded.workRequests.map (cancelRequest reason w.now)
    ownershipReleasedAt := some w.now
    retentionReleasedBy := some operatorId }

def actable (record : Registration) : Except Refusal Unit := do
  if record.lifecycle ≠ .active then throw .terminal
  if record.hold.isSome then throw .held

def operatorChange (action : OperatorAction) (operatorId : Text) (record : Registration) :
    Except Refusal Registration :=
  match action with
  | .pause reason =>
      .ok (setHold .paused reason w.now { actor := .operator, actorId := operatorId } record)
  | .release reason decisionId decisionVersion =>
      release w reason operatorId decisionId decisionVersion record
  | .resume => do
      assertResumable w record
      if record.decisionPending then throw .decisionPending
      return requestReview w .resume w.now (some operatorId)
        (clearHold w operatorId w.now record)
  | .direction decisionId decisionVersion direction =>
      applyDirection w decisionId decisionVersion direction operatorId record
  | .work requestId direction => do
      actable record
      if 100 ≤ record.workRequests.length then throw .workQueueFull
      let asked := requestReview w .manual w.now (some operatorId) { record with
        workRequests := record.workRequests ++ [{
          id := requestId
          operatorId
          direction
          createdAt := w.now
          state := .pending }] }
      return { asked with readyFingerprint := none }
  | .review requestId => do
      actable record
      -- An open review keeps its id, a new one takes the request's.
      let reviewing :=
        if record.reviewOpen then record
        else { record with
          reviewHistory := record.reviewHistory ++ record.review.toList
          review := some {
            id := requestId
            source := .manual
            requestedAt := w.now
            actorId := some operatorId } }
      return { reviewing with readyFingerprint := none }

def operatorAction (expectedVersion : Nat) (action : OperatorAction) (operatorId : Text)
    (record : Registration) : Except Refusal (Option Registration) := do
  if ← repeated action operatorId record then return none
  if record.version ≠ expectedVersion then throw .versionConflict
  if record.released then throw .released
  let changed ← operatorChange w action operatorId record
  some <$> save w changed

inductive LeadAction where
  | pause (reason : Option Text)
  | resume
  | review
  /-- With whether the lead's turn answers a person's message. -/
  | direction (decisionId : Option Text) (decisionVersion : Option Nat) (direction : Option Text)
      (userTurn : Bool)

def LeadAction.isReview : LeadAction → Bool
  | .review => true
  | _ => false

def recordedByLead : Text :=
  ofString "\n\n(Recorded by the orchestrator from the person's message.)"

def Hold.leadPause (hold : Hold) : Bool := hold.actor = .lead && hold.kind = .paused

/-- The orchestrator's own controls. -/
def set (leadSessionId : Text) (expectedVersion : Nat) (action : LeadAction)
    (record : Registration) : Except Refusal (Option Registration) := do
  if action.isReview ∧ record.reviewOpen then return none
  if record.version ≠ expectedVersion then throw .versionConflict
  if record.released then throw .released
  match action with
  | .pause reason =>
      if record.hold.any fun hold => !hold.leadPause then throw .held
      some <$> save w (setHold .paused (reason.getD (ofString "Paused by the orchestrator")) w.now
        { actor := .lead, actorId := leadSessionId } record)
  | .resume =>
      match record.hold with
      | none => return none
      | some hold =>
          if hold.leadPause = false then throw .operatorRequired
          assertResumable w record
          some <$> save w (requestReview w .resume w.now (some leadSessionId)
            (clearHold w leadSessionId w.now record))
  | .review =>
      actable record
      some <$> save w (requestReview w .manual w.now (some leadSessionId) record)
  | .direction decisionId decisionVersion direction userTurn =>
      if userTurn = false then throw .userTurnRequired
      let some decisionId := decisionId | throw .directionRequired
      let some decisionVersion := decisionVersion | throw .directionRequired
      let some direction := direction | throw .directionRequired
      let directed ← applyDirection w decisionId decisionVersion (direction ++ recordedByLead)
        (ofString "lead:" ++ leadSessionId) record
      some <$> save w directed

/-- A genuine design decision, which is the only thing that waits for one. -/
def holdForDecision (expectedVersion : Nat) (decision : Decision) (record : Registration) :
    Except Refusal (Option Registration) := do
  match record.decision.filter fun prior => prior.state = .pending with
  | some prior =>
      if prior.id = decision.id ∧ prior.version = decision.version ∧
          prior.proposal = decision.proposal ∧ prior.scope = decision.scope ∧
            prior.headSha = decision.headSha then
        return none
      throw .decisionPending
  | none =>
      if record.version ≠ expectedVersion then throw .versionConflict
      if record.released then throw .released
      let raised ← raiseDecision w decision record
      some <$> save w raised

/-! ### What the lead reports -/

/-- A batch is bound to the step that carries it out. -/
def acceptBatch (store : Store) (leadSessionId : Text) (generation : Nat) (batchId stepId : Text)
    (attempt : Nat) (prompt : Text) (record : Registration) :
    Except Refusal (Option Registration) := do
  let some batch := record.batch batchId | throw .staleGeneration
  if record.generation ≠ generation then throw .staleGeneration
  if batch.prompt ≠ prompt then throw .promptConflict
  if batch.stepId.isSome then
    if batch.stepId = some stepId ∧ batch.attempt = some attempt then return none
    throw .batchAlreadyAccepted
  assertAdmission w store {
    action := .dispatch
    leadSessionId := some leadSessionId
    recordId := some record.id
    generation := some generation
    batchId := some batchId
    taskId := some record.taskId
    sessionId := some record.workerSessionId }
  let some step := w.step stepId | throw .acceptanceMismatch
  if step.runId ≠ record.taskId ∨ step.sessionId ≠ some record.workerSessionId ∨
      step.attempts ≠ attempt ∨ step.prompt ≠ prompt ∨
      ¬(step.state = .pending ∨ step.state = .running) then
    throw .acceptanceMismatch
  let accepted := concludeReview .working w.now (some batch.scope) { record with
    batches := First.setFirst (fun entry => entry.id = batchId)
      (fun entry => { entry with
        state := .accepted
        stepId := some stepId
        attempt := some attempt }) record.batches }
  some <$> save w { accepted with
    counters := { accepted.counters with
      dispatchesSinceDirection := accepted.counters.dispatchesSinceDirection + 1 } }

/-- What is known of a batch that was prepared under the same id before. -/
def sameBatch (prior : Batch) (prepared : PreparedBatch) : Bool :=
  prior.kind = prepared.kind && prior.sources = prepared.sources &&
    prior.headSha = prepared.headSha && prior.baseSha = prepared.baseSha &&
    prior.conflictResolution = prepared.conflictResolution && prior.prompt = prepared.prompt &&
    prior.scope = prepared.scope && prior.reservedMutations = prepared.reservedMutations

/-- The last attempt read the observation to its end, and it is fresh. -/
def current (record : Registration) : Bool :=
  match record.observation, record.lastAttempt with
  | some observation, some attempt =>
      observation.complete && attempt.complete && attempt.failure = none &&
        attempt.headSha = observation.headSha && attempt.snapshotId = observation.snapshotId &&
        observationFresh w.now (record.observationHostAt.getD observation.attemptedAt)
  | _, _ => false

/-- What each source of a batch must be. -/
def checkSources (record : Registration) (headSha : Text) : List Text → List Source →
    Except Refusal Unit
  | _, [] => .ok ()
  | seen, source :: rest => do
      if seen.contains source.key then throw .duplicateSource
      if ¬(sources record).contains source then throw .sourceMismatch
      if (record.findings.find? fun finding => finding.about source).any fun finding =>
          finding.outcome.settled && finding.head = some headSha then
        throw .alreadyAddressed
      checkSources record headSha (source.key :: seen) rest

/-- What a batch needs before it is prepared. -/
def admitBatch (record : Registration) (prepared : PreparedBatch) : Except Refusal Unit := do
  if record.lifecycle ≠ .active then throw .terminal
  match record.hold with
  | some hold => throw (.hold hold.kind)
  | none => pure ()
  if record.decisionPending then throw .decisionPending
  match w.binding record with
  | some reason => throw (.binding reason)
  | none => pure ()
  if unsettled record then throw .unsettled
  let some observation := record.observation | throw .observationIncomplete
  if current w record = false ∨ observation.state ≠ some .opened ∨
      some prepared.headSha ≠ observation.headSha then
    throw .observationIncomplete
  if observation.draft = some true ∨ (observation.mergeability = .conflicting ∧
      prepared.conflictResolution ≠ some true) ∨ record.incidents.any Incident.unresolved then
    throw .observationBlocked
  if (prepared.baseSha.isSome ∧ prepared.baseSha ≠ observation.baseSha) ∨
      (prepared.conflictResolution = some true ∧ (prepared.kind ≠ .repair ∨
        prepared.baseSha = none ∨ prepared.baseSha ≠ observation.baseSha)) then
    throw .staleBase
  checkSources record prepared.headSha [] prepared.sources

def newBatch (record : Registration) (prepared : PreparedBatch) (workOrder : Option Text) :
    Batch where
  id := prepared.id
  kind := prepared.kind
  sources := prepared.sources
  headSha := prepared.headSha
  baseSha := prepared.baseSha
  conflictResolution := prepared.conflictResolution
  prompt := prepared.prompt
  scope := prepared.scope
  reservedMutations := prepared.reservedMutations
  generation := record.generation
  authorizationId := record.authorization.id
  state := .prepared
  workOrder := workOrder

/-- Work is prepared, and what it may use is reserved. -/
def prepareBatch (prepared : PreparedBatch) (workOrder : Option Text) (record : Registration) :
    Except Refusal (Option Registration) := do
  if record.authorization.scope.publicationAuthorized = false then throw .publicationNotAuthorized
  match record.batch prepared.id with
  | some prior =>
      if sameBatch prior prepared = false then throw .batchConflict
      return none
  | none =>
      admitBatch w record prepared
      return some { record with
        counters := { record.counters with
          repairBatches := record.counters.repairBatches +
            if prepared.kind = .repair then 1 else 0
          answerBatches := record.counters.answerBatches +
            if prepared.kind = .answer then 1 else 0
          mutationAttempts := record.counters.mutationAttempts + prepared.reservedMutations }
        batches := record.batches ++ [newBatch record prepared workOrder] }

/-- A finding that answers a source at the observation's head. -/
def Finding.answers (observation : Observation) (source : Source) (finding : Finding) : Bool :=
  finding.about source && finding.head = observation.headSha && finding.outcome.settled

/-- Everything readiness requires. -/
def readyFor (record : Registration) (fingerprint : Text) : Bool :=
  record.authorization.scope.publicationAuthorized && record.lifecycle = .active &&
    !record.decisionPending && record.hold.isNone && !record.workPending && !unsettled record &&
    current w record && !record.incidents.any Incident.unresolved &&
    record.observation.any fun observation =>
      observation.draft ≠ some true && observation.state = some .opened &&
        observation.fingerprint = some fingerprint && observation.mergeability = .mergeable &&
        observation.checksComplete && observation.passed && observation.reviewsComplete &&
        observation.approved && observation.sources.all fun source =>
          record.findings.any (Finding.answers observation source)

inductive Checkpoint where
  | observation (observation : Observation)
  | fallback (error : Text) (observation : Observation) (incomplete : observation.complete = false)
  | alternateAttempt (attempt : AlternateAttempt)
  | alternateObservation (incidentId resolutionId : Text) (observation : Observation)
  | prepareBatch (batch : PreparedBatch) (workOrder : Option Text)
  | batch (update : Settlement)
  | action (effect : Effect)
  | reconcile (evidence : Text) (immediateCheck : Bool)
  | ready (fingerprint : Text)
  | reviewDone (summary : Text)

/-- Whether a terminal pull request may be let go after it. -/
def Checkpoint.mayRelease : Checkpoint → Bool
  | .fallback .. | .alternateAttempt _ | .alternateObservation .. => false
  | _ => true

/-- A terminal pull request with nothing outstanding is let go. -/
def releaseTerminal (record : Registration) : Registration :=
  if record.lifecycle ≠ .active ∧ unsettled record = false ∧ record.decisionPending = false then
    { record with
      ownershipReleasedAt := record.ownershipReleasedAt.or (some w.now)
      retentionReleasedBy := record.retentionReleasedBy.or
        (some (ofString "verified_terminal_settlement")) }
  else record

/-- The change a checkpoint makes; nothing where it was made before. -/
def checkpointChange (leadSessionId : Text) (checkpoint : Checkpoint) (wakeId : Option Text)
    (record : Registration) : Except Refusal (Option Registration) :=
  match checkpoint with
  | .observation observation =>
      some <$> observe w observation (observationError observation) false observation.attemptedAt
        observation.attemptedAt record
  | .fallback error observation _ =>
      if record.incidents.any fun entry =>
          entry.lastObservationKey = { observation, error := some error } then .ok none
      else some <$> observe w observation error false observation.attemptedAt
        observation.attemptedAt record
  | .alternateAttempt attempt => reserveAlternate w attempt wakeId record
  | .alternateObservation incidentId resolutionId observation =>
      alternateObservation w incidentId resolutionId observation record
  | .prepareBatch batch workOrder => prepareBatch w batch workOrder record
  | .batch update => some <$> settleBatch w false update record
  | .action effect => some <$> PrMaintenance.effect w effect record
  | .reconcile evidence immediateCheck =>
      let reconciled := { record with lastReconciliationEvidence := some evidence }
      .ok (some (if immediateCheck ∧ record.lifecycle = .active ∧ record.hold.isNone then
        requestReview w .workerResult w.now none reconciled else reconciled))
  | .ready fingerprint =>
      if readyFor w record fingerprint = false then .error .notReady
      else .ok (some { record with readyFingerprint := some fingerprint })
  | .reviewDone summary =>
      if activeBatch record ∨ record.batches.any fun batch => batch.state = .prepared then
        .error .workOutstanding
      else
        let reviewing := if record.reviewOpen then record
          else requestReview w .manual w.now (some leadSessionId) record
        .ok (some (concludeReview .idle w.now (some summary) reviewing))

def checkpoint (leadSessionId : Text) (expectedVersion : Nat) (checkpoint : Checkpoint)
    (wakeId : Option Text) (record : Registration) : Except Refusal (Option Registration) := do
  if record.version ≠ expectedVersion then throw .versionConflict
  if record.released then throw .released
  match ← checkpointChange w leadSessionId checkpoint wakeId record with
  | none => return none
  | some changed =>
      some <$> save w (if checkpoint.mayRelease then releaseTerminal w changed else changed)

/-- What the helper's own receipts make of an observation. They are checked
    against the command that produced them, which is not done here. -/
structure ObservationReceipt where
  observation : Observation
  /-- The claim saved this result before. -/
  recorded : Bool
  hostAttemptedAt : Timestamp
  hostLatestAt : Timestamp
  /-- The read ended after the deadline of its claim. -/
  late : Bool

def executionInFlight (record : Registration) : Bool :=
  inFlight { record with
    batches := record.batches.filter fun batch => !neverDispatched w record batch }

def clockUnverified : Text := ofString "clock_unverified"

/-- An observation with the receipts of the command that made it. -/
def checkpointObservationReceipt (store : Store) (leadSessionId : Text) (expectedVersion : Nat)
    (receipt : ObservationReceipt) (record : Registration) :
    Except Refusal (Option Registration) := do
  if receipt.recorded then return none
  if record.version ≠ expectedVersion then throw .versionConflict
  let admitted := admission w store {
    action := .discover
    recordId := some record.id
    leadSessionId := some leadSessionId }
  if (record.lastAttemptLatestAt.or record.lastAttemptAt).any (fun latest =>
        ¬latest < receipt.hostAttemptedAt) ∧
      record.lastAttempt ≠ some receipt.observation then
    throw .staleObservation
  if receipt.late = false ∧
      HelperError.is receipt.observation.helperError clockUnverified = false ∧ admitted = none ∧
      executionInFlight w record = false ∧ observationFresh w.now receipt.hostAttemptedAt then
    let seen ← observe w receipt.observation (observationError receipt.observation) false
      receipt.hostAttemptedAt receipt.hostLatestAt record
    let seen := releaseTerminal w seen
    some <$> save w
      (if receipt.observation.complete ∧ seen.lifecycle = .active ∧ seen.released = false then
        { seen with nextCheckAt := w.now }
      else seen)
  else
    -- Settling exact evidence cannot revive a hold or promote late feedback.
    some <$> save w { attempted receipt.observation receipt.hostAttemptedAt receipt.hostLatestAt
      record with readyFingerprint := none }

/-! ### Manual control -/

/-- A worker's command from a person. -/
structure SupervisorCommand where
  id : Text
  kind : ManualKind
  actor : SessionActor
  handback : Option Handback

/-- What keeps a person from driving the worker. -/
def assertManualAvailable (store : Store) (record : Registration) : Except Refusal Unit := do
  if w.manualPending record.workerSessionId then throw .executionUncertain
  if w.permissionPending record then throw (.denied .permissionPending)
  match w.binding record with
  | some reason => throw (.binding reason)
  | none => pure ()
  if store.retained.any fun other =>
      other.id ≠ record.id && other.checkoutKey = record.checkoutKey then
    throw (.denied .resourceReserved)
  if (record.manualControl.any fun control => control.commands.any fun command =>
        !command.finished) ∨
      (record.incidents.any fun entry => entry.kind = .effects && entry.unresolved) ∨
      record.actions.any unsettledEffect ∨
      (record.batches.any fun batch => batch.effects.any unsettledEffect ||
        (((batch.outstanding && (batch.state ≠ .reconciling || !batch.executionSettled)) ||
          (batch.stepId.isSome && !batch.executionSettled)) &&
            !neverDispatched w record batch)) then
    throw .executionUncertain
  let queued := (record.batches.filter (neverDispatched w record)).map (·.stepId)
  if (w.steps record.taskId).any fun step => step.sessionId = some record.workerSessionId &&
      !step.state.terminal && !queued.contains (some step.id) then
    throw .workerBusy

/-- A queued attempt the person's takeover cancels. -/
def takenOver (record : Registration) (batch : Batch) : Bool :=
  neverDispatched w record batch && batch.stepId.isSome

def takeOver (record : Registration) (batch : Batch) : Batch :=
  if takenOver w record batch then
    Batch.charge 0 { batch with
      state := .cancelled
      executionSettled := true
      executionNotDispatched := true
      cancellationRequestedAt := some w.now
      reason := some (ofString "manual_control")
      evidence := some (ofString
        "Host queue and dispatch receipt prove this attempt was never sent.") }
  else batch

def takeOverBatches (record : Registration) : Registration :=
  { record with
    batches := record.batches.map (takeOver w record)
    counters := record.batches.foldl (fun counters batch =>
      if takenOver w record batch then refund record.authorization.id batch 0 false counters
      else counters) record.counters }

def manualReason (command : SupervisorCommand) : Text :=
  if command.handback = some .afterTurn then
    ofString "A person is driving this worker for one turn; maintenance resumes after it."
  else ofString "A person took manual control of the retained worker."

/-- A takeover never overrides Stop, access or identity holds. -/
def holdManual (command : SupervisorCommand) (record : Registration) : Registration :=
  if record.hold.all fun hold => hold.kind = .manualControl then
    setHold .manualControl (manualReason command) w.now command.actor.origin record
  else record

/-- A person drives the worker. -/
def beginManualControl (store : Store) (command : SupervisorCommand) (eventSeqFrom : Nat)
    (record : Registration) : Except Refusal (Option Registration) := do
  if command.handback = some .afterTurn ∧ command.actor.origin.actor ≠ .operator then
    throw .handbackUnavailable
  assertManualAvailable w store record
  if w.manualAmbiguous record.workerSessionId command.id then throw .manualOperationAmbiguous
  if command.handback = some .afterTurn then
    if command.kind ≠ .prompt then throw .handbackUnavailable
    if record.hold.any fun hold => hold.kind ≠ .manualControl then throw .independentHold
  if (w.manualCommand record.workerSessionId command.id).isSome then throw .manualDuplicate
  let receipt ← w.saveManual record.workerSessionId {
    id := command.id
    kind := command.kind
    actor := some command.actor
    eventSeqFrom
    state := .unknown
    createdAt := w.now }
  let held := holdManual w command (takeOverBatches w record)
  let control := held.manualControl.getD {
    actor := command.actor
    takenAt := w.now
    commands := [] }
  some <$> save w { held with
    manualControl := some { control with
      endedAt := none
      commands := control.commands ++ [{ receipt with handback := command.handback }] } }

/-- A takeover for one turn ends with that turn. -/
def reconcileHandback (record : Registration) : Except Refusal (Option Registration) := do
  if record.hold.all fun hold => hold.kind ≠ .manualControl then return none
  let some last := record.manualControl.bind fun control => control.commands.getLast? | return none
  if last.handback ≠ some .afterTurn then return none
  let settled := (w.manualCommand record.workerSessionId last.id).any fun command =>
    command.state = .settled
  let idle := (w.session record.workerSessionId).any fun worker =>
    worker.state = .idle && !worker.stopRequested
  if settled = false ∨ idle = false ∨ w.manualPending record.workerSessionId then return none
  some <$> save w (requestReview w .handback w.now last.operatorId
    (clearHold w (last.operatorId.getD (ofString "operator")) w.now record))

/-- A receipt of a manual command, where the registration knows of it. -/
def recordManualReceipt (commandId : Text) (state : ManualState) (record : Registration) :
    Except Refusal (Option Registration) :=
  match record.manualControl with
  | none => .ok none
  | some control =>
      if control.commands.any fun command => command.id = commandId then
        some <$> save w { record with
          manualControl := some { control with
            commands := First.setFirst (fun command => command.id = commandId)
              (fun command => { command with state }) control.commands } }
      else .ok none

/-! ### Leads and ticks -/

/-- The task belongs to another lead now, and its maintenance with it. -/
def transfer (leadSessionId : Text) (record : Registration) :
    Except Refusal (Option Registration) :=
  if record.leadSessionId = leadSessionId then .ok none
  else some <$> save w { record with
    leadSessionId
    hold := record.hold.map fun hold =>
      if hold.actor = .lead ∧ hold.actorId = record.leadSessionId then
        { hold with actorId := leadSessionId }
      else hold
    review := record.review.map fun review =>
      if review.opened then { review with wakeKey := none, wakeQueuedAt := none } else review }

/-- Unattended heartbeat eligibility. -/
def heartbeatDue («at» : Time) (record : Registration) : Bool :=
  !record.released && record.lifecycle = .active &&
    record.authorization.scope.publicationAuthorized && record.hold.isNone &&
    !record.decisionPending && !activeBatch record && !record.reviewOpen &&
    record.nextCheckAt ≤ «at»

def openDueReview («at» : Time) (record : Registration) : Except Refusal (Option Registration) :=
  if heartbeatDue «at» record then
    some <$> save w (requestReview w .heartbeat «at» none record)
  else .ok none

def markReviewWake (reviewId key : Text) («at» : Time) (record : Registration) :
    Except Refusal (Option Registration) :=
  match record.review with
  | none => .ok none
  | some review =>
      if review.id ≠ reviewId ∨ review.opened = false ∨ review.wakeQueuedAt.isSome then .ok none
      else some <$> save w { record with
        review := some { review with wakeQueuedAt := some «at», wakeKey := some key } }

def abandonReview (reviewId summary : Text) (record : Registration) :
    Except Refusal (Option Registration) :=
  if record.review.any fun review => review.id = reviewId && review.opened then
    some <$> save w (concludeReview .abandoned w.now (some summary) record)
  else .ok none

def markRecoveryWake (incidentId : Text) («at» : Time) (record : Registration) :
    Except Refusal (Option Registration) :=
  match record.incidents.find? fun entry => entry.id = incidentId with
  | none => .ok none
  | some found =>
      if found.unresolved = false ∨ found.wakeQueuedAt.isSome ∨ found.kind ≠ .capability ∨
          recoveryAllowed w record = false ∨ RecoveryLimits.attempts ≤ found.attempts.length then
        .ok none
      else
        let marked := setIncident incidentId (fun entry => { entry with
          wakeQueuedAt := some «at» }) record
        some <$> save w { marked with nextCheckAt := «at» }

/-! ### Enabling -/

/-- What an operator enables, which is always for repairs. -/
structure EnableInput where
  taskId : Text
  workerSessionId : Text
  identity : Identity
  scope : Scope
  budgets : Budgets := {}
  headSha : Text
  eligibilityEvidence : Text
  authorized : scope.publicationAuthorized = true

def samePr (identity : Identity) (record : Registration) : Bool :=
  providerKey record.identity = providerKey identity &&
    record.identity.repositoryId = identity.repositoryId &&
      record.identity.prNumber = identity.prNumber

/-- Enablement that was granted before, in every particular. -/
def sameEnablement (input : EnableInput) (leadSessionId : Text) (record : Registration) : Bool :=
  record.taskId = input.taskId && record.workerSessionId = input.workerSessionId &&
    record.leadSessionId = leadSessionId && sameIdentity record.identity input.identity &&
    record.authorization.headSha = input.headSha &&
    record.eligibilityEvidence = input.eligibilityEvidence &&
    record.authorization.scope = input.scope && record.authorization.budgets = input.budgets

/-- The checkout a session works in. -/
def Session.checkout (session : Session) : Text :=
  session.checkoutKey.getD (placementPrefix ++ session.placementId)

def newAuthorization (operatorId : Text) (input : EnableInput)
    (sourceProposal : Option (Text × Nat)) : Authorization where
  id := w.authorizationId
  operatorId := operatorId
  issuedAt := w.now
  headSha := input.headSha
  scope := input.scope
  budgets := input.budgets
  eligibilityEvidence := some input.eligibilityEvidence
  sourceProposal := sourceProposal

def newRegistration (input : EnableInput) (operatorId : Text)
    (sourceProposal : Option (Text × Nat)) (generation : Nat) (task : Run) (worker : Session) :
    Registration where
  id := w.recordId
  generation := generation
  identity := input.identity
  leadSessionId := task.leadSessionId
  taskId := task.id
  workerSessionId := worker.id
  placementId := worker.placementId
  checkoutKey := worker.checkout
  bindingGeneration := worker.bindingGeneration
  eligibilityEvidence := input.eligibilityEvidence
  authorization := newAuthorization w operatorId input sourceProposal
  nextCheckAt := w.now

/-- An operator's intent for this pull request. Stop always carries over. -/
def enabled (operatorId : Text) (task : Run) (worker : Session) (record : Registration) :
    Registration :=
  if worker.stopRequested ∨ task.state = .cancelled then
    setHold .stopped (ofString "The retained worker or task is stopped.") w.now host record
  else
    match w.binding record with
    | some reason =>
        setHold .paused (ofString "The retained worker or checkout is not usable (" ++ (reason ++
          ofString "); a supported handoff is required.")) w.now host record
    | none => requestReview w .enable w.now (some operatorId) record

def Session.settled (session : Session) : Bool :=
  session.state = .idle || session.state = .completed || session.state = .stopped

/-- No step of the session's is still to be decided. -/
def stepsSettled (taskId sessionId : Text) : Bool :=
  (w.steps taskId).all fun step => step.sessionId ≠ some sessionId || step.state.terminal

def enable (input : EnableInput) (operatorId : Text) (sourceProposal : Option (Text × Nat))
    (store : Store) : Except Refusal Store := do
  let (task, worker) ← w.ownedWorker input.taskId input.workerSessionId
  match store.retained.find? (samePr input.identity) with
  | some previous =>
      if sameEnablement input task.leadSessionId previous then return store
      throw .ownershipConflict
  | none =>
      if store.retained.any fun entry => entry.taskId = task.id then throw .taskAlreadyRegistered
      if worker.settled = false ∨ w.manualPending worker.id ∨
          stepsSettled w task.id worker.id = false then
        throw .workerBusy
      let generation := ((store.records.values.filter (samePr input.identity)).map
        (·.generation)).foldl max 0 + 1
      if 10000 ≤ store.records.size then throw .checkpointOverflow
      insert w (enabled w operatorId task worker
        (newRegistration w input operatorId sourceProposal generation task worker)) store

structure Reauthorization where
  recordId : Text
  version : Nat
  generation : Nat

/-- A repair that the lead proposed and an operator judges. -/
structure Proposal where
  id : Text
  version : Nat
  leadSessionId : Text
  registration : EnableInput
  reauthorization : Option Reauthorization := none
  /-- The checkout the worker had: placement, key and generation. -/
  binding : Option (Text × Text × Nat)

/-- Only a legacy record, which may not publish, is authorized again. -/
def assertReauthorization (record : Registration) (input : EnableInput) :
    Except Refusal Unit := do
  if record.released ∨ record.lifecycle ≠ .active ∨
      record.authorization.scope.publicationAuthorized ∨ record.taskId ≠ input.taskId ∨
      record.workerSessionId ≠ input.workerSessionId ∨
      sameIdentity record.identity input.identity = false then
    throw .reauthorizationScope
  if unsettled record ∨ w.manualPending record.workerSessionId then throw .unsettled
  if record.decisionPending then throw .waitForHuman
  match w.binding record with
  | some reason => throw (.binding reason)
  | none => pure ()
  let (task, worker) ← w.ownedWorker record.taskId record.workerSessionId
  if ¬(task.state = .running ∨ task.state = .awaitingLead ∨ task.state = .awaitingHuman ∨
        task.state = .completed) ∨ worker.stopRequested ∨ worker.settled = false ∨
      stepsSettled w task.id worker.id = false then
    throw .proposalNotReady

/-- The grant that is replaced, with its evidence. -/
def archiveAuthorization (record : Registration) : Except Refusal Registration :=
  if record.authorization.eligibilityEvidence.any (· ≠ record.eligibilityEvidence) then
    .error .eligibilityEvidenceConflict
  else .ok { record with
    authorizationHistory := record.authorizationHistory ++ [{ record.authorization with
      eligibilityEvidence := record.authorization.eligibilityEvidence.or
        (if record.authorization.scope.publicationAuthorized = false ∨
            record.authorizationHistory = [] then some record.eligibilityEvidence
        else none) }] }

/-- The operator authorized repairs for this pull request and worker. -/
def reauthorize (proposal : Proposal) (reauthorization : Reauthorization) (operatorId : Text)
    (record : Registration) : Except Refusal (Option Registration) := do
  if record.leadSessionId ≠ proposal.leadSessionId then throw .ownership
  if record.version ≠ reauthorization.version then throw .versionConflict
  if record.generation ≠ reauthorization.generation then throw .staleGeneration
  assertReauthorization w record proposal.registration
  let archived ← archiveAuthorization record
  let authorized := { archived with
    eligibilityEvidence := proposal.registration.eligibilityEvidence
    authorization := newAuthorization w operatorId proposal.registration
      (some (proposal.id, proposal.version))
    readyFingerprint := none }
  let cleared :=
    if authorized.hold.any fun hold => hold.kind = .paused then
      clearHold w operatorId w.now authorized
    else authorized
  some <$> save w (requestReview w .enable w.now (some operatorId) cleared)

/-! ### One call -/

/-- One registration, changed. -/
def update (recordId : Text) (change : Registration → Except Refusal (Option Registration))
    (store : Store) : Except Refusal Store :=
  match store.records.get recordId with
  | none => .error .notFound
  | some record => do
      match ← change record with
      | none => return store
      | some changed => return store.put changed

/-- The same, by the lead it belongs to. -/
def updateOwned (leadSessionId recordId : Text)
    (change : Registration → Except Refusal (Option Registration)) : Store → Except Refusal Store :=
  update recordId fun record =>
    if record.leadSessionId ≠ leadSessionId then .error .ownership else change record

/-- Every registration of some, changed. -/
def updateAll (select : Registration → Bool)
    (change : Registration → Except Refusal (Option Registration)) (store : Store) :
    Except Refusal Store :=
  ((store.records.values.filter select).map (·.id)).foldlM (fun store recordId =>
    update recordId change store) store

inductive Operation where
  | enable (input : EnableInput) (operatorId : Text)
  | authorizeProposal (proposal : Proposal) (proposalId : Text) (expectedVersion : Nat)
      (operatorId : Text)
  | stopForSession (sessionId reason : Text)
  | stopForTask (taskId reason : Text)
  | transferTask (taskId leadSessionId : Text)
  | operatorAction (recordId : Text) (expectedVersion : Nat) (action : OperatorAction)
      (operatorId : Text)
  | set (leadSessionId recordId : Text) (expectedVersion : Nat) (action : LeadAction)
  | holdForDecision (leadSessionId recordId : Text) (expectedVersion : Nat) (decision : Decision)
  | acceptBatch (leadSessionId recordId : Text) (generation : Nat) (batchId stepId : Text)
      (attempt : Nat) (prompt : Text)
  | checkpoint (leadSessionId recordId : Text) (expectedVersion : Nat) (checkpoint : Checkpoint)
      (wakeId : Option Text)
  | checkpointObservationReceipt (leadSessionId recordId : Text) (expectedVersion : Nat)
      (receipt : ObservationReceipt)
  | beginManualControl (sessionId : Text) (command : SupervisorCommand) (eventSeqFrom : Nat)
  | reconcileHandbacks
  | recordManualReceipt (sessionId commandId : Text) (state : ManualState)
  | openDueReviews («at» : Time)
  /-- What a claim for a lead's turn opens. The claim is on the wake. -/
  | takeDue (leadSessionId : Text) («at» : Time)
  | markReviewWake (recordId reviewId key : Text) («at» : Time)
  | abandonReview (recordId reviewId summary : Text)
  | markRecoveryWake (recordId incidentId : Text) («at» : Time)

/-- A proposal that an operator judged, as it was read. -/
def authorizeProposal (proposal : Proposal) (proposalId : Text) (expectedVersion : Nat)
    (operatorId : Text) (store : Store) : Except Refusal Store := do
  if proposal.id ≠ proposalId ∨ proposal.version ≠ expectedVersion then throw .versionConflict
  if ¬(w.run proposal.registration.taskId).any fun run =>
      run.leadSessionId = proposal.leadSessionId then
    throw .ownership
  let some (placementId, checkoutKey, bindingGeneration) := proposal.binding
    | throw .proposalBindingRequired
  if ¬(w.session proposal.registration.workerSessionId).any fun worker =>
      worker.placementId = placementId && worker.checkout = checkoutKey &&
        worker.bindingGeneration = bindingGeneration then
    throw .proposalBindingChanged
  match proposal.reauthorization with
  | some reauthorization =>
      update reauthorization.recordId (reauthorize w proposal reauthorization operatorId) store
  | none =>
      enable w proposal.registration operatorId (some (proposal.id, proposal.version)) store

/-- The retained registrations of a worker's session. -/
def manages (sessionId : Text) (record : Registration) : Bool :=
  !record.released && record.workerSessionId = sessionId

def run (operation : Operation) (store : Store) : Except Refusal Store :=
  match operation with
  | .enable input operatorId => enable w input operatorId none store
  | .authorizeProposal proposal proposalId expectedVersion operatorId =>
      authorizeProposal w proposal proposalId expectedVersion operatorId store
  | .stopForSession sessionId reason => updateAll (manages sessionId) (stop w reason) store
  | .stopForTask taskId reason =>
      updateAll (fun record => !record.released && record.taskId = taskId) (stop w reason) store
  | .transferTask taskId leadSessionId =>
      updateAll (fun record => record.taskId = taskId) (transfer w leadSessionId) store
  | .operatorAction recordId expectedVersion action operatorId =>
      update recordId (operatorAction w expectedVersion action operatorId) store
  | .set leadSessionId recordId expectedVersion action =>
      updateOwned leadSessionId recordId (set w leadSessionId expectedVersion action) store
  | .holdForDecision leadSessionId recordId expectedVersion decision =>
      updateOwned leadSessionId recordId (holdForDecision w expectedVersion decision) store
  | .acceptBatch leadSessionId recordId generation batchId stepId attempt prompt =>
      updateOwned leadSessionId recordId
        (acceptBatch w store leadSessionId generation batchId stepId attempt prompt) store
  | .checkpoint leadSessionId recordId expectedVersion report wakeId =>
      updateOwned leadSessionId recordId
        (checkpoint w leadSessionId expectedVersion report wakeId) store
  | .checkpointObservationReceipt leadSessionId recordId expectedVersion receipt =>
      updateOwned leadSessionId recordId
        (checkpointObservationReceipt w store leadSessionId expectedVersion receipt) store
  | .beginManualControl sessionId command eventSeqFrom =>
      updateAll (manages sessionId) (beginManualControl w store command eventSeqFrom) store
  | .reconcileHandbacks =>
      updateAll (fun record => !record.released) (reconcileHandback w) store
  | .recordManualReceipt sessionId commandId state =>
      updateAll (manages sessionId) (recordManualReceipt w commandId state) store
  | .openDueReviews «at» => updateAll (fun record => !record.released) (openDueReview w «at») store
  | .takeDue leadSessionId «at» =>
      updateAll (fun record => !record.released && record.leadSessionId = leadSessionId)
        (openDueReview w «at») store
  | .markReviewWake recordId reviewId key «at» =>
      update recordId (markReviewWake w reviewId key «at») store
  | .abandonReview recordId reviewId summary =>
      update recordId (abandonReview w reviewId summary) store
  | .markRecoveryWake recordId incidentId «at» =>
      update recordId (markRecoveryWake w incidentId «at») store

/-- The registry after a call, which a refusal leaves as it was. -/
def step (store : Store) (call : World × Operation) : Store :=
  match run call.1 call.2 store with
  | .ok next => next
  | .error _ => store

end PrMaintenance

end CopilotFleet
