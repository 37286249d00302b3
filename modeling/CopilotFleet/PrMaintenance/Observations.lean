import CopilotFleet.PrMaintenance.Store

/-!
# What an Observation Brings About

A read of the provider is recorded as the latest attempt. One that came to an
end replaces the observation, supersedes what was prepared against another
head, settles the incidents it answers and lets readiness stand or fall. One
that did not is an incident. A capability incident may also be answered by
evidence that the lead gets by other means, which it reserves first.

## Main definitions

* `incident`: Something went wrong with a read.
* `recoveryAllowed`: Whether evidence by other means may answer for the helper.
* `observe`: The read recorded.
* `reserveAlternate`, `alternateObservation`: Evidence by other means.
-/

namespace CopilotFleet

namespace PrMaintenance

open Utf16 Timestamps

variable (w : World)

def RecoveryLimits.incidents : Nat := 20

def RecoveryLimits.attempts : Nat := 3

/-! ### Incidents -/

/-- The replies an ambiguous effect may have been. -/
def ambiguousKeys (record : Registration) : List Text :=
  let keys := ((record.effects.filter fun effect =>
    effect.kind = .reply && effect.state ≠ .notPerformed).map (·.key)).eraseDups
  if keys.length ≤ 200 then keys else []

/-- Room for an incident, by forgetting the first that is resolved. -/
def roomFor (incidents : List Incident) : Except Refusal (List Incident) :=
  if RecoveryLimits.incidents ≤ incidents.length then
    match incidents.findIdx? fun entry => !entry.unresolved with
    | none => .error .incidentOverflow
    | some archived => .ok (incidents.eraseIdx archived)
  else .ok incidents

def incident (observation : Observation) (error : Text) (kind : IncidentKind)
    (record : Registration) : Except Refusal Registration :=
  let key : ObservationKey := { observation, error := some error }
  let known := fun entry : Incident => entry.kind = kind && entry.unresolved
  if record.incidents.any known then
    .ok { record with
      lastError := some error
      incidents := First.setFirst known (fun entry => { entry with
        lastError := error
        lastObservationKey := key
        updatedAt := w.now }) record.incidents }
  else do
    let incidents ← roomFor record.incidents
    let sequence := record.incidentCursor + 1
    return { record with
      lastError := some error
      incidentCursor := sequence
      incidents := incidents ++ [{
        id := record.id ++ (ofString ":" ++ ofString (toString sequence))
        sequence
        kind
        error
        lastError := error
        helperError := observation.helperError
        effectKeys := if kind = .effects then ambiguousKeys record else []
        observationKey := key
        lastObservationKey := key
        createdAt := w.now
        updatedAt := w.now }] }

/-- Whether read-only evidence may resolve a failure of the helper's. -/
def recoveryAllowed (record : Registration) : Bool :=
  record.authorization.scope.publicationAuthorized && record.lifecycle = .active &&
    !record.released && record.hold.isNone &&
    (!record.incidents.any fun entry => entry.unresolved && entry.kind ≠ .capability) &&
    (w.binding record).isNone

/-! ### An observation -/

def scopeChanged : Text := ofString "scope_changed"

def ambiguousEffect : Text := ofString "ambiguous_effect"

/-- The provider turned the read away. -/
def providerDenied (observation : Observation) : Bool :=
  observation.failure = some .auth || observation.failure = some .permission ||
    [ofString "authentication_required", ofString "auth_required", ofString "authentication",
      ofString "permission_denied", ofString "permission_required"].contains
        (((observation.helperError.bind (·.code)).map (·.text)).getD (ofString "undefined"))

/-- The attempt, whatever becomes of it. -/
def attempted (observation : Observation) (hostAttemptedAt hostLatestAt : Timestamp)
    (record : Registration) : Registration :=
  { record with
    lastAttempt := some observation
    lastAttemptAt := some hostAttemptedAt
    lastAttemptLatestAt := if hostLatestAt = hostAttemptedAt then none else some hostLatestAt }

/-- The next unattended check. -/
def scheduled (observation : Observation) (hostAttemptedAt hostLatestAt : Timestamp)
    (record : Registration) : Registration :=
  { record with
    nextCheckAt := max (w.routineCheckAt hostLatestAt.instant)
      ((observation.retryAfter.map fun retryAfter => retryAfter.instant +
        hostAttemptedAt.instant - observation.attemptedAt.instant).getD 0) }

def identityChanged (error : Text) : Text :=
  ofString "The PR or its source branch changed identity: " ++ error

/-- A read that did not come to an end. -/
def observeIncomplete (observation : Observation) (error : Text) (record : Registration) :
    Except Refusal Registration := do
  let denied := providerDenied observation
  let record ← incident w observation error (if denied then .providerDenial else .capability) record
  let counted := observation.failure.any fun failure =>
    failure ≠ .budget && failure ≠ .incomplete
  let record := { record with
    counters :=
      if counted then
        { record.counters with
          consecutiveFailures := record.counters.consecutiveFailures + 1
          totalFailures := record.counters.totalFailures + 1 }
      else record.counters
    readyFingerprint := none }
  if denied then
    return setHold .access (ofString "Provider access was denied: " ++ error) w.now host record
  else return concludeReview .failed w.now (some error) record

/-- The observation replaces the last one. -/
def observed (observation : Observation) (hostAttemptedAt : Timestamp) (record : Registration) :
    Registration :=
  { record with
    observation := some observation
    observationHostAt :=
      if hostAttemptedAt = observation.attemptedAt then none else some hostAttemptedAt
    lastSuccessAt := some hostAttemptedAt
    review := record.review.map fun review =>
      if review.opened then
        { review with claimedAt := review.claimedAt.or (some hostAttemptedAt.instant) }
      else review }

def supersedingSettlement (record : Registration) (batch : Batch) : Settlement :=
  unsentSettlement record batch .superseded ⟨nofun, nofun⟩ .superseded
    (ofString "Prepare from the fresh observation at the new head.") (ofString "head_changed")
    (ofString "Observed head changed before dispatch; reserved allowance refunded.")

/-- What was prepared against another head is superseded. -/
def supersede (observation : Observation) (record : Registration) :
    Except Refusal Registration :=
  forBatches (fun batch record =>
    if neverDispatched w record batch ∧ (some batch.headSha ≠ observation.headSha ∨
        (batch.baseSha.isSome ∧ batch.baseSha ≠ observation.baseSha)) then
      settleBatch w true (supersedingSettlement record batch) record
    else .ok record) record

/-- An ambiguous effect is answered by finding every reply it may have been. -/
def Incident.answered (observation : Observation) (effects : List Effect) (entry : Incident) :
    Bool :=
  entry.kind = .effects && entry.unresolved && entry.effectKeys ≠ [] &&
    entry.effectKeys.all fun key => observation.knownSelfEffectIds.contains key &&
      effects.any fun effect => effect.key = key && effect.state = .known

def resolveEffects (observation : Observation) (record : Registration) : Registration :=
  let record := { record with counters := { record.counters with consecutiveFailures := 0 } }
  if (record.batches.any Batch.outstanding) ∨ record.effects.any unsettledEffect then record
  else { record with
    incidents := record.incidents.map fun entry =>
      if entry.answered observation record.effects then
        { entry with resolvedAt := some w.now, resolution := some .observation }
      else entry }

/-- A capability incident is answered by a read that came later. -/
def resolveCapabilities (observation : Observation) (alternate : Bool) (hostAttemptedAt : Timestamp)
    (record : Registration) : Registration :=
  if recoveryAllowed w record ∧ observationFresh w.now hostAttemptedAt then
    { record with
      incidents := record.incidents.map fun entry =>
        if entry.kind = .capability ∧ entry.unresolved ∧ observation.identity.isSome ∧
            entry.createdAt ≤ hostAttemptedAt.instant then
          { entry with
            resolvedAt := some w.now
            resolution := some (if alternate then .alternateObservation else .observation) }
        else entry }
  else record

/-- What an observation must show for readiness to stand. -/
def Observation.keepsReady (observation : Observation) (fingerprint : Option Text) : Bool :=
  fingerprint = observation.fingerprint && observation.draft ≠ some true &&
    observation.mergeability = .mergeable && observation.checksComplete &&
      observation.reviewsComplete && observation.passed && observation.approved

def dropReadiness (observation : Observation) (record : Registration) : Registration :=
  if observation.keepsReady record.readyFingerprint then record
  else { record with readyFingerprint := none }

def PrState.text : PrState → Text
  | .opened => ofString "open"
  | .merged => ofString "merged"
  | .closed => ofString "closed"

/-- The pull request is merged or closed, which ends maintenance. -/
def recordTerminal (lifecycle : Lifecycle) (state : PrState) (hostAttemptedAt : Time)
    (record : Registration) : Registration :=
  let reason := ofString "PR " ++ state.text
  let record := cancelUndispatched reason hostAttemptedAt
    (concludeReview .terminal hostAttemptedAt (some reason) { record with lifecycle })
  { record with
    workRequests := record.workRequests.map (cancelRequest reason hostAttemptedAt)
    decision := record.decision.map fun decision =>
      if decision.state = .pending then
        { decision with
          state := .withdrawn
          direction := some (ofString "Moot after verified PR " ++
            (state.text ++ ofString "; not approved or fixed."))
          resolvedAt := some hostAttemptedAt }
      else decision }

def concludeObservation (observation : Observation) (alternate : Bool) (hostAttemptedAt : Timestamp)
    (record : Registration) : Registration :=
  let record := if alternate then record else resolveEffects w observation record
  let record := dropReadiness observation
    (resolveCapabilities w observation alternate hostAttemptedAt record)
  if alternate then record
  else
    match observation.state with
    | some .merged => recordTerminal .merged .merged hostAttemptedAt.instant record
    | some .closed => recordTerminal .closed .closed hostAttemptedAt.instant record
    | _ => record

/-- A read of the provider, which may be by other means. -/
def observe (observation : Observation) (error : Text) (alternate : Bool)
    (hostAttemptedAt hostLatestAt : Timestamp) (record : Registration) :
    Except Refusal Registration := do
  if observationFresh w.now hostAttemptedAt = false then throw .staleObservation
  if (record.lastAttemptLatestAt.or record.lastAttemptAt).any fun latest =>
      hostAttemptedAt < latest then
    throw .staleObservation
  let record := attempted observation hostAttemptedAt hostLatestAt record
  if w.permissionPending record then return { record with readyFingerprint := none }
  let record := scheduled w observation hostAttemptedAt hostLatestAt record
  if HelperError.is observation.helperError scopeChanged ∨ (observation.identity.any fun identity =>
      !sameIdentity identity record.identity) then
    let record ← incident w observation error .identity record
    return setHold .identity (identityChanged error) w.now host record
  else if HelperError.is observation.helperError ambiguousEffect then
    let record ← incident w observation error .effects record
    return concludeReview .failed w.now (some error) record
  else if observation.complete = false then observeIncomplete w observation error record
  else
    let record ← supersede w observation (observed observation hostAttemptedAt record)
    return concludeObservation w observation alternate hostAttemptedAt record

/-! ### Evidence by other means -/

structure AlternateAttempt where
  incidentId : Text
  resolutionId : Text
  provenance : Provenance
  requests : Nat

def setIncident (incidentId : Text) (f : Incident → Incident) (record : Registration) :
    Registration :=
  { record with
    incidents := First.setFirst (fun entry => entry.id = incidentId) f record.incidents }

/-- Evidence by other means is reserved, in the lead's own turn. Nothing where
    it was reserved before. -/
def reserveAlternate (attempt : AlternateAttempt) (wakeId : Option Text) (record : Registration) :
    Except Refusal (Option Registration) := do
  let some found := record.incidents.find? fun entry => entry.id = attempt.incidentId
    | throw .incidentUnknown
  match found.attempts.find? fun entry => entry.id = attempt.resolutionId with
  | some previous =>
      if previous.provenance ≠ attempt.provenance ∨ previous.requests ≠ attempt.requests then
        throw .resolutionConflict
      return none
  | none =>
      if found.kind ≠ .capability ∨ found.unresolved = false ∨ recoveryAllowed w record = false then
        throw .recoveryHeld
      if RecoveryLimits.attempts ≤ found.attempts.length then throw .recoveryExhausted
      let some wakeId := wakeId | throw .wakeRequired
      w.chargeWake record.leadSessionId wakeId record.id attempt.requests
      return some (setIncident attempt.incidentId (fun entry => { entry with
        attempts := entry.attempts ++ [{
          id := attempt.resolutionId
          wakeId
          provenance := attempt.provenance
          requests := attempt.requests
          reservedAt := w.now
          state := .reserved }] }) record)

/-- The attempt, with what it brought. -/
def Attempt.receive (observation : Observation) (state : AttemptState) (error : Option Text)
    (attempt : Attempt) : Attempt :=
  { attempt with
    observationKey := some { observation, error := none }
    attemptedAt := some observation.attemptedAt
    complete := some observation.complete
    receivedAt := some w.now
    state
    error := error.or attempt.error }

def setAttempt (incidentId resolutionId : Text) (f : Attempt → Attempt) :
    Registration → Registration :=
  setIncident incidentId fun entry => { entry with
    attempts := First.setFirst (fun attempt => attempt.id = resolutionId) f entry.attempts }

/-- Reserved evidence arrives. Nothing where it arrived before. -/
def alternateObservation (incidentId resolutionId : Text) (observation : Observation)
    (record : Registration) : Except Refusal (Option Registration) := do
  let some found := record.incidents.find? fun entry => entry.id = incidentId
    | throw .resolutionNotReserved
  let some attempt := found.attempts.find? fun entry => entry.id = resolutionId
    | throw .resolutionNotReserved
  let reject := fun error => setAttempt incidentId resolutionId
    (Attempt.receive w observation .rejected (some (ofString error)))
  match attempt.observationKey with
  | some key =>
      if key ≠ { observation, error := none } then throw .resolutionConflict
      return none
  | none =>
      if observationFresh w.now observation.attemptedAt = false ∨
          observation.attemptedAt.instant < attempt.reservedAt ∨
          ((record.lastAttemptLatestAt.or record.lastAttemptAt).any fun latest =>
            observation.attemptedAt < latest) then
        return some (reject "stale_or_future_evidence" record)
      if observation.identity.all fun identity => !sameIdentity identity record.identity then
        if observation.identity.isSome then
          let held ← incident w observation observation.evidence .identity record
          return some (reject "identity_mismatch"
            (setHold .identity (identityChanged observation.evidence) w.now host held))
        return some (reject "identity_mismatch" record)
      if attempt.requests < observation.requestsConsumed ∨ 300000 < observation.elapsedMs ∨
          300000 < w.now - attempt.reservedAt then
        return some (reject "alternate_allowance_exceeded" record)
      -- Only evidence that is in time asks for the wake, which may be unknown.
      if (← w.wakeLasts record.leadSessionId attempt.wakeId) = false then
        return some (reject "alternate_allowance_exceeded" record)
      if found.unresolved = false ∨ found.kind ≠ .capability ∨ recoveryAllowed w record = false then
        return some (reject "recovery_held" record)
      let record ← observe w observation (observationError observation) true
        observation.attemptedAt observation.attemptedAt record
      let resolved := record.incidents.any fun entry =>
        entry.id = incidentId && !entry.unresolved
      return some (setAttempt incidentId resolutionId
        (Attempt.receive w observation (if resolved then .resolved else .incomplete)
          (if observation.complete then none else some (observationError observation))) record)

end PrMaintenance

end CopilotFleet
