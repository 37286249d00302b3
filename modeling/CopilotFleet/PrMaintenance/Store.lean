import CopilotFleet.Lib.First
import CopilotFleet.PrMaintenance.Records
import CopilotFleet.Protocol.States
import Mathlib.Order.Nat

/-!
# What Happens to a Registration

The parts that the operations are put together from, each a function from a
registration to a registration or to a refusal: holds and their clearing,
reviews, the settlement of a batch and the effects of the lead.

What is read of the rest of the Host, its sessions, tasks and steps, and of the
clock, comes with the operation as a `World`. So do the receipts of manual
commands, which are kept in an index of their own, and the length limits of the
stored text.

A settlement may raise a decision, and a decision settles the batches that were
not yet sent. Those are settled while it is pending, and then none is raised on
top: that is where the source's recursion ends, and where `settleWith` is given
nothing to raise.

## Main definitions

* `setHold`, `clearHold`: What stops a registration, and what lets it go on.
* `refund`: What an ended batch gives back.
* `settleBatch`: A batch's report, checked and recorded.
* `raiseDecision`: A question for a person.
* `effect`: An action of the lead.
-/

namespace CopilotFleet

namespace PrMaintenance

open Utf16

/-- Why the admission of an action is denied. -/
inductive Denial where
  | releasedOrUnknown
  | maintenanceRetention
  | ownership
  | staleGeneration
  | terminal
  | hold (kind : HoldKind)
  | unsettled
  | pendingOperatorWork
  | decisionPending
  | permissionPending
  | binding (reason : Text)
  | repairAuthorizationRequired
  | executionUncertain
  | resourceReserved
  | workerReserved
  | maintenanceBatchRequired
  | batchNotAdmitted
  | staleAuthorization
  | batchAlreadyAccepted
  | batchNotAccepted
  | staleObservation
  | staleBase
  | draft
  | mergeConflict
  | observationRecoveryRequired
  | workerUnavailable
  | manualExecutionUnsettled
deriving DecidableEq

/-- What an operation is refused with. -/
inductive Refusal where
  | notFound
  | versionConflict
  | ownership
  | ownershipConflict
  | taskAlreadyRegistered
  | released
  | terminal
  | unsettled
  | denied (reason : Denial)
  | hold (kind : HoldKind)
  | held
  | binding (reason : Text)
  | repairAuthorizationRequired
  | executionUncertain
  | stopping
  | taskCancelled
  | decisionConflict
  | decisionSettled
  | decisionPending
  | workConflict
  | workQueueFull
  | operatorRequired
  | userTurnRequired
  | directionRequired
  | staleGeneration
  | promptConflict
  | batchAlreadyAccepted
  | acceptanceMismatch
  | invalidWorkOrder
  | publicationNotAuthorized
  | batchConflict
  | observationIncomplete
  | observationBlocked
  | staleBase
  | duplicateSource
  | sourceMismatch
  | alreadyAddressed
  | notReady
  | workOutstanding
  | incidentOverflow
  | incidentUnknown
  | resolutionConflict
  | resolutionNotReserved
  | recoveryHeld
  | recoveryExhausted
  | wakeRequired
  | wakeExhausted
  | visitRequired
  | staleObservation
  | allowanceExceeded
  | batchSettled
  | notAccepted
  | reconciliationRequired
  | receiptConflict
  | executionUnsettled
  | verificationHeadMismatch
  | findingMismatch
  | findingEvidence
  | incompleteFindings
  | nextActionRequired
  | duplicateEffect
  | effectUsage
  | effectEvidence
  | effectConflict
  | effectNotReserved
  | reviewerNotAuthorized
  | retryNotAuthorized
  | workerEffectRequired
  | obligationAlreadyAttempted
  | checkpointOverflow
  | schema
  | eligibilityEvidenceConflict
  | reauthorizationScope
  | waitForHuman
  | proposalNotReady
  | proposalBindingRequired
  | proposalBindingChanged
  | workerBusy
  | manualActorMissing
  | manualDuplicate
  | manualOperationAmbiguous
  | manualRequestConflict
  | handbackUnavailable
  | independentHold
deriving DecidableEq

/-! ### The rest of the Host -/

structure Session where
  id : Text
  isLead : Bool
  runId : Option Text
  state : SessionState
  stopRequested : Bool
  /-- The worker can be resumed. -/
  hasAgentSession : Bool
  placementId : Text
  checkoutKey : Option Text
  bindingGeneration : Nat

structure Run where
  id : Text
  leadSessionId : Text
  state : RunState

structure Step where
  id : Text
  runId : Text
  sessionId : Option Text
  state : RunStepState
  attempts : Nat
  prompt : Text
  dispatched : Bool

/-- What an operation reads that is not a registration. -/
structure World where
  now : Time
  /-- The token drawn for a registration's next review. -/
  uuid : Text → Text
  /-- The tokens drawn for a new registration and for an authorization. -/
  recordId : Text
  authorizationId : Text
  /-- An instant as it is written. -/
  iso : Time → Text
  session : Text → Option Session
  run : Text → Option Run
  step : Text → Option Step
  /-- The steps of a run. -/
  steps : Text → List Step
  /-- The task and its own worker, where maintenance may use them. -/
  ownedWorker : Text → Text → Except Refusal (Run × Session)
  /-- Why the retained worker or its checkout cannot be used, if it cannot. -/
  binding : Registration → Option Text
  /-- Whether one of these sessions waits for a permission. -/
  permissionPending : Registration → Bool
  /-- Whether a manual command to this session has no final receipt. -/
  manualPending : Text → Bool
  manualCommand : Text → Text → Option ManualCommand
  manualAmbiguous : Text → Text → Bool
  /-- A manual command as the index keeps it. -/
  saveManual : Text → ManualCommand → Except Refusal ManualCommand
  /-- The attempt a session's last dispatch was for. -/
  dispatchAttempt : Text → Option Text
  transitionIntent : Text → Bool
  /-- When a pull request that was read at this time is next due. -/
  routineCheckAt : Time → Time
  /-- Whether a visit of this wake may spend so many requests on a registration. -/
  chargeWake : Text → Text → Text → Nat → Except Refusal Unit
  /-- Whether a wake has time left, if there is one. -/
  wakeLasts : Text → Text → Except Refusal Bool
  /-- What the registration's schema says of the length of its texts and lists. -/
  parses : Registration → Bool
  /-- Whether the stored text is small enough. -/
  fits : Registration → Bool

variable (w : World)

/-- `notificationAttemptKey`, of a step and its run. -/
def attemptKey (run : Option Run) (step : Step) : Text :=
  (run.map (·.id)).getD step.runId ++ (ofString ":" ++ (step.id ++ (ofString ":" ++
    ofString (toString step.attempts))))

/-- Nothing of the batch ever reached the worker. -/
def neverDispatched (record : Registration) (batch : Batch) : Bool :=
  batch.state = .prepared ||
    (batch.state = .accepted && batch.effects = [] &&
      match batch.stepId.bind w.step, w.session record.workerSessionId with
      | some step, some worker =>
          step.sessionId = some worker.id && some step.attempts = batch.attempt &&
            step.state = .pending && !step.dispatched &&
              w.dispatchAttempt worker.id ≠ some (attemptKey (w.run record.taskId) step)
      | _, _ => false)

/-! ### Reviews -/

/-- Opens a review, or reuses the open one. -/
def requestReview (source : ReviewSource) («at» : Time) (actorId : Option Text)
    (record : Registration) : Registration :=
  if record.reviewOpen then record
  else { record with
    reviewHistory := record.reviewHistory ++ record.review.toList
    review := some { id := w.uuid record.id, source, requestedAt := «at», actorId } }

def concludeReview (outcome : ReviewOutcome) («at» : Time) (summary : Option Text)
    (record : Registration) : Registration :=
  match record.review with
  | none => record
  | some review =>
      if review.opened then { record with
        review := some { review with
          concludedAt := some «at»
          outcome := some outcome
          summary := ((summary.filter (· ≠ [])).map (·.take 8192)).or review.summary } }
      else record

/-! ### Holds -/

/-- What is given back for a batch that ends, once. -/
def refund (authorizationId : Text) (batch : Batch) (used : Nat) (published : Bool)
    (counters : Counters) : Counters :=
  if batch.usedMutations.isSome then counters
  else if batch.authorizationId = authorizationId then
    { counters with
      mutationAttempts := counters.mutationAttempts - ((batch.reservedMutations : Int) - used)
      repairBatches := counters.repairBatches -
        if batch.kind = .repair ∧ published = false then 1 else 0
      answerBatches := counters.answerBatches -
        if batch.kind = .answer ∧ batch.stepId = none then 1 else 0 }
  else counters

/-- What an ended batch used, once. -/
def Batch.charge (used : Nat) (batch : Batch) : Batch :=
  { batch with usedMutations := batch.usedMutations.or (some used) }

/-- The finding of a source that nobody got to. -/
def unattempted (outcome : Outcome) (nextAction : Text) (source : Source) : Finding where
  source := source
  outcome := outcome
  stage := .notAttempted
  nextAction := some nextAction

/-- A batch that has not reached the worker is cancelled, and one that has is
    asked to stop. -/
def cancelBatch (reason : Text) («at» : Time) (batch : Batch) : Batch :=
  if batch.outstanding then
    let batch := { batch with
      cancellationRequestedAt := batch.cancellationRequestedAt.or (some «at») }
    if batch.state = .prepared then
      Batch.charge 0 { batch with
        state := .cancelled
        executionSettled := true
        executionNotDispatched := true
        reason := some reason
        evidence := some (ofString
          "Dispatch was not accepted; cancelled transactionally before admission.")
        findings := batch.sources.map
          (unattempted .incomplete (ofString "Prepare again after the hold is cleared.")) }
    else batch
  else batch

def cancelUndispatched (reason : Text) («at» : Time) (record : Registration) : Registration :=
  { record with
    batches := record.batches.map (cancelBatch reason «at»)
    counters := record.batches.foldl (fun counters batch =>
      if batch.state = .prepared then
        refund record.authorization.id batch 0 false counters
      else counters) record.counters }

def cancelRequest (reason : Text) («at» : Time) (request : WorkRequest) : WorkRequest :=
  if request.state = .pending then
    { request with state := .cancelled, settledAt := some «at», reason := some reason }
  else request

def host : Origin where
  actor := .system
  actorId := ofString "host"

/-- Records an exceptional hold. -/
def setHold (kind : HoldKind) (reason : Text) («at» : Time) (origin : Origin)
    (record : Registration) : Registration :=
  let held := concludeReview .held «at» (some reason) { record with
    holdHistory := record.holdHistory ++ record.hold.toList
    hold := some { origin with kind, reason, «at» := «at» }
    readyFingerprint := none }
  let held :=
    if origin.actor = .operator ∧ kind = .paused then
      { held with workRequests := held.workRequests.map (cancelRequest reason «at») }
    else held
  cancelUndispatched reason «at» held

/-- An incident a person's Resume answers. -/
def Incident.clearable (incident : Incident) : Bool :=
  incident.unresolved && (incident.kind = .identity || incident.kind = .providerDenial)

def clearHold (actorId : Text) («at» : Time) (record : Registration) : Registration :=
  match record.hold with
  | none => record
  | some hold =>
      { record with
        holdHistory := record.holdHistory ++ [{ hold with
          reason := hold.reason ++ (ofString " (cleared by " ++ (actorId ++ (ofString " at " ++
            (w.iso «at» ++ ofString ")")))) }]
        hold := none
        manualControl := record.manualControl.map fun control =>
          { control with endedAt := control.endedAt.or (some «at») }
        incidents := record.incidents.map fun incident =>
          if incident.clearable then
            { incident with resolvedAt := some «at», resolution := some .operatorResume }
          else incident
        lastAttempt :=
          if record.incidents.any Incident.clearable then none else record.lastAttempt
        counters := { record.counters with consecutiveFailures := 0 } }

/-! ### Effects -/

/-- What is allowed in a list of effects. -/
def validateEffect (effect : Effect) : Except Refusal Unit := do
  if effect.usedAttempts.any fun used => effect.attempts < used ||
      (effect.state = .known && used = 0) || (unsettledEffect effect && used ≠ effect.attempts) then
    throw .effectUsage
  if effect.state = .known ∧ (effect.evidence = none ∨ effect.providerId = none) then
    throw .effectEvidence
  if effect.state = .notPerformed ∧ effect.evidence = none then throw .effectEvidence

def validateEffects (effects : List Effect) : Except Refusal Unit := do
  if ¬(effects.map (·.key)).Nodup then throw .duplicateEffect
  effects.forM validateEffect

/-- An effect may be told of again with more known of it, never with less. -/
def Effect.preserved (old effect : Effect) : Bool :=
  old.kind = effect.kind && old.headSha = effect.headSha && old.recipient = effect.recipient &&
    old.actor = effect.actor && old.actionIdentity = effect.actionIdentity &&
    old.attempts = effect.attempts && (unsettledEffect old || old.used = effect.used) &&
    (old.providerId = none || old.providerId = effect.providerId) &&
    (old.state ≠ .known || effect.state = .known) &&
    (old.state ≠ .notPerformed || effect.state = .notPerformed)

def preserveEffects (previous next : List Effect) : Except Refusal Unit :=
  previous.forM fun old =>
    match next.find? fun effect => effect.key = old.key with
    | none => throw .effectConflict
    | some effect => if old.preserved effect then pure () else throw .effectConflict

/-- What JavaScript's `Object.assign` leaves of two effects. -/
def Effect.assign (old effect : Effect) : Effect :=
  { effect with
    recipient := effect.recipient.or old.recipient
    providerId := effect.providerId.or old.providerId
    evidence := effect.evidence.or old.evidence
    usedAttempts := effect.usedAttempts.or old.usedAttempts }

/-- What a new effect of the lead's needs. -/
def admitEffect (record : Registration) (effect : Effect) : Except Refusal Unit := do
  if record.authorization.scope.publicationAuthorized = false then throw .publicationNotAuthorized
  if effect.state ≠ .reserved then throw .effectNotReserved
  if record.lifecycle ≠ .active ∨ record.hold.isSome ∨ record.decisionPending ∨
      reconciling record ∨ record.actions.any unsettledEffect ∨
      (record.batches.any fun batch =>
        batch.stepId.isSome && !batch.executionSettled && !batch.outstanding) then
    throw .held
  let some attempt := record.lastAttempt | throw .staleObservation
  if attempt.complete = false ∨ attempt.failure ≠ none ∨
      some effect.headSha ≠ record.observation.bind (·.headSha) ∨
      attempt.headSha ≠ record.observation.bind (·.headSha) ∨
      attempt.snapshotId ≠ record.observation.bind (·.snapshotId) then
    throw .staleObservation
  let some observation := record.observation | throw .observationBlocked
  if observationFresh w.now (record.observationHostAt.getD observation.attemptedAt) = false ∨
      observation.draft = some true ∨ observation.mergeability = .conflicting ∨
      record.incidents.any Incident.unresolved then
    throw .observationBlocked
  let scope := record.authorization.scope
  if effect.kind = .reviewRequest ∧
      ¬(effect.recipient.any fun recipient => scope.reviewers.contains recipient) then
    throw .reviewerNotAuthorized
  if effect.kind = .ciRetry ∧ (scope.retryChecks = false ∨ record.actions.any fun entry =>
      entry.kind = .ciRetry && entry.headSha = effect.headSha &&
        entry.actionIdentity = effect.actionIdentity && !neverSentEffect entry) then
    throw .retryNotAuthorized
  if effect.kind = .push ∨ effect.kind = .reply ∨ effect.kind = .resolve then
    throw .workerEffectRequired
  if record.actions.any fun entry => entry.kind = effect.kind && entry.headSha = effect.headSha &&
      entry.recipient = effect.recipient && entry.actionIdentity = effect.actionIdentity &&
        entry.state ≠ .notPerformed then
    throw .obligationAlreadyAttempted

/-- An action of the lead, reserved or settled. -/
def effect (effect : Effect) (record : Registration) : Except Refusal Registration := do
  validateEffects [effect]
  match record.actions.find? fun entry => entry.key = effect.key with
  | some prior =>
      preserveEffects [prior] [effect]
      if prior = effect then return record
      return { record with
        counters := { record.counters with
          mutationAttempts := record.counters.mutationAttempts -
            if unsettledEffect prior ∧ unsettledEffect effect = false then
              (prior.attempts : Int) - effect.usedAttempts.getD prior.attempts
            else 0 }
        actions := First.setFirst (fun entry => entry.key = effect.key)
          (fun prior => prior.assign effect) record.actions }
  | none =>
      admitEffect w record effect
      return { record with
        counters := { record.counters with
          mutationAttempts := record.counters.mutationAttempts + effect.attempts }
        actions := record.actions ++ [effect] }

/-! ### The settlement of a batch -/

/-- A report on a batch, which is neither back to prepared nor to accepted. -/
structure Settlement where
  batchId : Text
  generation : Nat
  state : BatchState
  findings : List Finding
  effects : List Effect
  executionSettled : Bool
  evidence : Text
  reason : Option Text := none
  usedMutations : Option Nat := none
  published : Bool := false
  sent : state ≠ .prepared ∧ state ≠ .accepted

/-- The report ends the batch. -/
def Settlement.final (update : Settlement) : Bool := !update.state.outstanding

/-- The batch was superseded before anything of it was sent. -/
def provenUnsent (supersedeUnsent : Bool) (record : Registration) (batch : Batch)
    (update : Settlement) : Bool :=
  supersedeUnsent && update.state = .superseded && neverDispatched w record batch

/-- The batch's step, cancelled where nothing of it was sent. -/
def settledStep (unsent : Bool) (batch : Batch) : Option Step :=
  (batch.stepId.bind w.step).map fun step =>
    if unsent then { step with state := .cancelled } else step

/-- The states a session's process has come to rest in. -/
def SessionState.quiescent : SessionState → Bool
  | .idle | .completed | .stopped | .failed => true
  | _ => false

/-- What the receipts of a report have against it. -/
def checkReceipts (unsent : Bool) (record : Registration) (batch : Batch) (update : Settlement) :
    Except Refusal Unit := do
  if batch.state = .prepared ∧
      ¬(update.state = .failed ∨ update.state = .cancelled ∨ update.state = .superseded) then
    throw .notAccepted
  if batch.state = .accepted ∧ unsent = false ∧
      ¬(update.state = .reconciling ∨ update.state = .uncertain) then
    throw .reconciliationRequired
  if batch.executionSettled ∧ update.executionSettled = false then throw .receiptConflict
  if update.executionSettled ∧ batch.stepId.isSome then
    let some step := settledStep w unsent batch | throw .executionUnsettled
    if some step.attempts ≠ batch.attempt ∨ step.state.terminal = false then
      throw .executionUnsettled
    if unsent = false then
      let some worker := w.session record.workerSessionId | throw .executionUnsettled
      if worker.stopRequested ∨ w.transitionIntent worker.id ∨
          SessionState.quiescent worker.state = false then
        throw .executionUnsettled
  if batch.published ∧ update.published = false then throw .receiptConflict

/-- What the findings of a report have against it. -/
def checkFindings (batch : Batch) (heads : List Text) : List Text → List Finding →
    Except Refusal Unit
  | _, [] => .ok ()
  | seen, finding :: rest => do
      if finding.verifiedHeadSha.any fun head => !heads.contains head then
        throw .verificationHeadMismatch
      if seen.contains finding.source.key ∨ ¬ batch.sources.contains finding.source then
        throw .findingMismatch
      if finding.outcome.settled ∧ (finding.evidence = [] ∨
          (finding.responseRequired ∧ finding.responseIds = [])) then
        throw .findingEvidence
      if (batch.findings.find? fun old => old.about finding.source).any fun old =>
          (old.publishedCommit.isSome && old.publishedCommit ≠ finding.publishedCommit) ||
            (old.responseIds.any fun response => !finding.responseIds.contains response) ||
              finding.stage.index < old.stage.index then
        throw .receiptConflict
      checkFindings batch heads (finding.source.key :: seen) rest

/-- The mutations the effects of a report account for. -/
def usedBy (effects : List Effect) : Nat := (effects.map Effect.used).sum

/-- What else a report must say. -/
def checkOutcome (batch : Batch) (update : Settlement) : Except Refusal Unit := do
  if update.final ∧ (update.executionSettled = false ∨ update.effects.any unsettledEffect ∨
      update.findings.length ≠ batch.sources.length ∨ update.usedMutations = none) then
    throw .unsettled
  if update.state = .succeeded ∧ (update.findings.any fun finding => !finding.outcome.settled) then
    throw .incompleteFindings
  if update.state = .partly ∧ (update.findings.any fun finding =>
      !finding.outcome.settled && finding.nextAction.isNone) then
    throw .nextActionRequired
  if batch.reservedMutations < usedBy update.effects then throw .allowanceExceeded
  if update.final ∧ update.usedMutations.getD 0 < usedBy update.effects then
    throw .allowanceExceeded
  if update.final ∧ batch.usedMutations = none ∧
      batch.reservedMutations < update.usedMutations.getD 0 then
    throw .allowanceExceeded

/-- The report shows a publication. -/
def publishedBy (record : Registration) (update : Settlement) : Bool :=
  let known := record.batches.flatMap fun batch => batch.findings.filterMap (·.publishedCommit)
  update.published ||
    (update.findings.any fun finding => finding.publishedCommit.any fun commit =>
      !known.contains commit) ||
    update.effects.any fun effect => effect.kind = .push && effect.state = .known

/-- The batch after a report. -/
def reportedBatch (unsent published : Bool) (update : Settlement) (batch : Batch) : Batch :=
  let notDispatched := (unsent && batch.stepId.isSome) ||
    (update.executionSettled && (settledStep w unsent batch).any fun step =>
      (step.state = .cancelled || step.state = .skipped) && !step.dispatched)
  let charged := if update.final then batch.charge (update.usedMutations.getD 0) else batch
  { charged with
    executionNotDispatched := batch.executionNotDispatched || notDispatched
    state := update.state
    findings := update.findings
    effects := update.effects
    executionSettled := update.executionSettled
    evidence := some update.evidence
    published
    reason := update.reason.or batch.reason }

/-- What is remembered of a finding, whatever batch it came from. -/
def disposition (published : Bool) (batch : Batch) (finding : Finding) : Finding :=
  { finding with
    verifiedHeadSha := finding.verifiedHeadSha.or
      (if published then finding.publishedCommit else some batch.headSha) }

/-- An operator's request is done when the finding of its source is. -/
def completeRequest (batchId : Text) («at» : Time) (requests : List WorkRequest)
    (finding : Finding) : List WorkRequest :=
  if finding.outcome.settled then
    First.setFirst (fun request => request.state = .pending &&
        finding.source.id = workPrefix ++ request.id && finding.source.revision = request.id)
      (fun request => { request with
        state := .completed
        batchId := some batchId
        settledAt := some «at» }) requests
  else requests

/-- The report is written down. -/
def recordSettlement (unsent : Bool) (batch : Batch) (update : Settlement)
    (record : Registration) : Registration :=
  let published := publishedBy record update
  { record with
    counters :=
      if update.final then
        refund record.authorization.id batch (update.usedMutations.getD 0) published
          record.counters
      else record.counters
    batches := First.setFirst (fun entry => entry.id = update.batchId)
      (reportedBatch w unsent published update) record.batches
    findings := update.findings.foldl (fun findings finding =>
      First.put (fun entry => entry.about finding.source)
        (disposition published batch finding) findings) record.findings
    workRequests :=
      if update.final then
        update.findings.foldl (completeRequest batch.id w.now) record.workRequests
      else record.workRequests }

/-- Texts in the order their units have. -/
def sorted (texts : List Text) : List Text := texts.mergeSort fun a b => decide (a ≤ b)

/-- What the loop guard compares, as what it is the digest of. -/
def groupRevision (record : Registration) (group : List Finding) : Text :=
  ((record.observation.bind (·.fingerprint))).getD
    ((ofString "|").intercalate (sorted (group.map fun finding => finding.source.revision)))

/-- A group that is tried a third time without progress, or goes back and forth. -/
def FindingAttempt.stuck (attempt : FindingAttempt) : Bool :=
  3 ≤ attempt.attempts ||
    match attempt.revisions with
    | [a, b, c] => a = c && a ≠ b
    | _ => false

def loopText (attempt : FindingAttempt) : Text :=
  ofString "Finding group \"" ++ (attempt.groupKey ++ (ofString "\" was attempted " ++
    (ofString (toString attempt.attempts) ++
      ofString " times without progress (or flipped back to an earlier state).")))

/-- One attempt at a group, counted. -/
def countAttempt (record : Registration) (update : Settlement)
    (counted : List FindingAttempt × Option Text) (groupKey : Text) :
    List FindingAttempt × Option Text :=
  let group := update.findings.filter fun finding => finding.source.groupKey = groupKey
  let prior := (counted.1.find? fun entry => entry.groupKey = groupKey).getD
    { groupKey, attempts := 0, revisions := [] }
  let attempt := { prior with
    attempts := if group.any (·.progress) then 0 else prior.attempts + 1
    revisions := (prior.revisions ++ [groupRevision record group]).rtake 3 }
  (First.put (fun entry => entry.groupKey = groupKey) attempt counted.1,
    counted.2.or (if attempt.stuck then some (loopText attempt) else none))

/-- The attempts of a batch that ran, and whether one of them is one too many. -/
def countAttempts (batch : Batch) (update : Settlement) (record : Registration) :
    List FindingAttempt × Option Text :=
  if update.final ∧ batch.kind = .repair ∧ batch.stepId.isSome then
    ((batch.sources.map (·.groupKey)).eraseDups).foldl (countAttempt record update)
      (record.findingAttempts, none)
  else (record.findingAttempts, none)

def Registration.headOr (record : Registration) (batch : Batch) : Text :=
  (record.observation.bind (·.headSha)).getD batch.headSha

def humanQuestion (finding : Finding) : Text :=
  finding.source.id ++ (ofString ": " ++
    finding.nextAction.getD ((ofString " ").intercalate finding.evidence))

/-- The decision that findings for a person ask for. -/
def findingDecision (record : Registration) (batch : Batch) (findings : List Finding) :
    Decision where
  id := ofString "finding-" ++ batch.id
  version := 1
  proposal := ((ofString "\n").intercalate (findings.map humanQuestion)).take 8000
  headSha := record.headOr batch
  scope := record.authorization.scope.baseline

/-- The decision that a loop asks for. -/
def loopDecision (record : Registration) (batch : Batch) (reason : Text) : Decision where
  id := ofString "loop-" ++ batch.id
  version := 1
  proposal := reason ++ ofString (" Fleet stopped repeating it. How should this be handled: a " ++
    "different approach, leave it for a person, or ignore that feedback?")
  headSha := record.headOr batch
  scope := record.authorization.scope.baseline

/-- A push asks for a new look. -/
def forgetAttempt (newPublication : Bool) (record : Registration) : Registration :=
  if newPublication then { record with lastAttempt := none, readyFingerprint := none }
  else record

/-- A settled result is reviewed at once. -/
def reviewResult (final : Bool) (batch : Batch) (record : Registration) : Registration :=
  if final ∧ batch.stepId.isSome ∧ batch.executionNotDispatched = false ∧
      record.lifecycle = .active ∧ record.hold.isNone ∧ record.decisionPending = false then
    requestReview w .workerResult w.now none record
  else record

section Settle

variable (raise : Decision → Registration → Except Refusal Registration)

/-- What follows from a report that was written down. -/
def concludeSettlement (unsent : Bool) (batch : Batch) (update : Settlement)
    (record : Registration) : Except Refusal Registration := do
  let newPublication := publishedBy record update && !batch.published
  let reported := reportedBatch w unsent (publishedBy record update) update batch
  let record := recordSettlement w unsent batch update record
  let needsHuman := update.findings.filter fun finding => finding.outcome = .needsHuman
  let record ←
    if needsHuman ≠ [] ∧ record.decisionPending = false then
      raise (findingDecision record batch needsHuman) record
    else pure record
  let counted := countAttempts batch update record
  let record := forgetAttempt newPublication { record with findingAttempts := counted.1 }
  let record ←
    match counted.2 with
    | some reason =>
        if record.decisionPending = false ∧ record.lifecycle = .active then
          raise (loopDecision record batch reason) record
        else pure record
    | none => pure record
  return reviewResult w update.final reported record

/-- `settleBatch`, with what it is to raise a decision. -/
def settleWith (supersedeUnsent : Bool) (update : Settlement) (record : Registration) :
    Except Refusal Registration := do
  let some batch := record.batch update.batchId | throw .staleGeneration
  if update.generation ≠ record.generation ∨ batch.generation ≠ update.generation then
    throw .staleGeneration
  if batch.outstanding = false then
    if batch.state = update.state ∧ batch.findings = update.findings ∧
        batch.effects = update.effects then
      return record
    throw .batchSettled
  let unsent := provenUnsent w supersedeUnsent record batch update
  checkReceipts w unsent record batch update
  checkFindings batch (batch.headSha :: update.findings.filterMap (·.publishedCommit)) []
    update.findings
  validateEffects update.effects
  preserveEffects batch.effects update.effects
  checkOutcome batch update
  concludeSettlement w raise unsent batch update record

end Settle

/-- The report that ends a batch nobody was sent. -/
def unsentSettlement (record : Registration) (batch : Batch) (state : BatchState)
    (sent : state ≠ .prepared ∧ state ≠ .accepted) (outcome : Outcome)
    (nextAction reason evidence : Text) : Settlement where
  batchId := batch.id
  generation := record.generation
  state := state
  findings := batch.sources.map (unattempted outcome nextAction)
  effects := []
  executionSettled := true
  evidence := evidence
  reason := some reason
  usedMutations := some 0
  sent := sent

/-- One batch after the other, each as it is found. -/
def forBatches (f : Batch → Registration → Except Refusal Registration)
    (record : Registration) : Except Refusal Registration :=
  (List.range record.batches.length).foldlM (fun record index =>
    match record.batches[index]? with
    | some batch => f batch record
    | none => .ok record) record

def decisionSettlement (record : Registration) (batch : Batch) : Settlement :=
  unsentSettlement record batch .cancelled ⟨nofun, nofun⟩ .incomplete
    (ofString "Prepare again after the design decision.") (ofString "design_decision")
    (ofString "Cancelled before dispatch while a design decision is pending.")

/-- A decision is asked for. What was prepared would act on the question. -/
def raiseDecision (decision : Decision) (record : Registration) :
    Except Refusal Registration :=
  forBatches (fun batch record =>
    if batch.state = .prepared then
      settleWith w (fun _ record => .ok record) true (decisionSettlement record batch) record
    else .ok record)
    (concludeReview .decision w.now (some decision.proposal) { record with
      decisionHistory := record.decisionHistory ++ record.decision.toList
      decision := some { decision with
        state := .pending
        operatorId := none
        direction := none
        resolvedAt := none }
      readyFingerprint := none })

def settleBatch (supersedeUnsent : Bool) (update : Settlement) (record : Registration) :
    Except Refusal Registration :=
  settleWith w (raiseDecision w) supersedeUnsent update record

end PrMaintenance

end CopilotFleet
