import CopilotFleet.Lib.Table
import CopilotFleet.Lib.Timestamps
import CopilotFleet.Lib.Utf16
import Mathlib.Data.List.DropRight

/-!
# Registrations of Maintained Pull Requests

What the Host keeps of a pull request that it maintains: who may act on it,
what was last observed of it, the work that was prepared for it and what
became of that work, and whatever holds it. A registration is one value; every
operation reads it, changes its own copy and replaces it.

A digest is kept as what it is the digest of. A timestamp that another program
wrote, or that is compared with one, is kept as it is written, and any other as
the instant it names.

## Main definitions

* `Observation`: One read of the provider.
* `Batch`: Work that was prepared for the retained worker.
* `Effect`: A change made on the provider, or about to be.
* `Hold`: What stops a registration.
* `Registration`: All of it.
* `unsettled`: Work or effects whose outcome is not known.
* `sources`: What there is to work on.
-/

namespace CopilotFleet

namespace PrMaintenance

open Utf16 Timestamps

/-- Milliseconds since the epoch. -/
abbrev Time := Int

/-- Where a pull request is. -/
inductive Provider where
  | github
  | azureDevops
deriving DecidableEq

/-- What a pull request is, wherever it is read: its number and both its branches. -/
structure Identity where
  provider : Option Provider := none
  host : Text
  organization : Option Text := none
  project : Option Text := none
  projectId : Option Text := none
  repositoryId : Text
  repository : Text
  prNumber : Nat
  headRepositoryId : Text
  headRepository : Text
  headRef : Text
  baseRepositoryId : Text
  baseRepository : Text
  baseRef : Text
deriving DecidableEq

/-- An identity without a provider is one of GitHub's. -/
def sameIdentity (left right : Identity) : Bool :=
  { left with provider := some (left.provider.getD .github) } =
    { right with provider := some (right.provider.getD .github) }

/-- The host, with the organization where there is one to name. -/
def providerKey (identity : Identity) : Text :=
  if identity.provider = some .azureDevops then
    ofString "azure-devops:" ++ (identity.host ++ (ofString "/" ++ identity.organization.getD []))
  else identity.host

/-- A comment, a check or a conflict that asks for work, as it stood. -/
structure Source where
  id : Text
  revision : Text
  groupKey : Text
  evidence : Text
deriving DecidableEq

/-- A source at a revision, as one text. -/
def Source.key (source : Source) : Text := source.id ++ 0 :: source.revision

/-- What became of a source. -/
inductive Outcome where
  | addressed
  | alreadySatisfied
  | needsHuman
  | failed
  | superseded
  | incomplete
deriving DecidableEq

def Outcome.settled : Outcome → Bool
  | .addressed | .alreadySatisfied => true
  | _ => false

/-- How far the work on a source came. -/
inductive Stage where
  | notAttempted
  | inspected
  | modified
  | verified
  | committed
  | published
  | replied
  | resolved
deriving DecidableEq

/-- Where a stage stands among them. -/
def Stage.index : Stage → Nat
  | .notAttempted => 0
  | .inspected => 1
  | .modified => 2
  | .verified => 3
  | .committed => 4
  | .published => 5
  | .replied => 6
  | .resolved => 7

/-- What a report says of one source. -/
structure Finding where
  source : Source
  outcome : Outcome
  stage : Stage
  evidence : List Text := []
  repairCommit : Option Text := none
  publishedCommit : Option Text := none
  verifiedHeadSha : Option Text := none
  responseRequired : Bool := true
  responseIds : List Text := []
  nextAction : Option Text := none
  progress : Bool := false
deriving DecidableEq

/-- The head a finding was verified at. -/
def Finding.head (finding : Finding) : Option Text :=
  finding.verifiedHeadSha.or finding.publishedCommit

/-- The finding is about this revision of this source. -/
def Finding.about (finding : Finding) (source : Source) : Bool :=
  finding.source.id = source.id && finding.source.revision = source.revision

/-- What is changed on the provider. -/
inductive EffectKind where
  | push
  | reply
  | resolve
  | reviewRequest
  | notification
  | ciRetry
deriving DecidableEq

/-- What is known of a change: it may still be made, it was made or not, or nobody can tell. -/
inductive EffectState where
  | reserved
  | known
  | uncertain
  | notPerformed
deriving DecidableEq

/-- One change on the provider, with the attempts it may take and those it took. -/
structure Effect where
  key : Text
  kind : EffectKind
  state : EffectState
  headSha : Text
  recipient : Option Text := none
  actor : Text
  actionIdentity : Text
  providerId : Option Text := none
  evidence : Option Text := none
  attempts : Nat := 1
  usedAttempts : Option Nat := none
deriving DecidableEq

/-- Whether an effect may still happen, or may have happened. -/
def unsettledEffect (effect : Effect) : Bool :=
  effect.state = .reserved || effect.state = .uncertain

def neverSentEffect (effect : Effect) : Bool :=
  effect.state = .notPerformed && effect.usedAttempts = some 0

/-- What an effect has used of its allowance, as far as it is known. -/
def Effect.used (effect : Effect) : Nat := effect.usedAttempts.getD effect.attempts

inductive PrState where
  | opened
  | merged
  | closed
deriving DecidableEq

inductive Mergeability where
  | mergeable
  | conflicting
  | unknown
deriving DecidableEq

inductive CheckState where
  | pending
  | passed
  | failed
  | unknown
deriving DecidableEq

structure Check where
  key : Text
  state : CheckState
  headSha : Text
deriving DecidableEq

inductive ReviewState where
  | required
  | requested
  | approved
  | changesRequested
  | dismissed
deriving DecidableEq

/-- One reviewer's verdict. -/
structure PrReview where
  key : Text
  reviewer : Text
  state : ReviewState
  headSha : Text
deriving DecidableEq

/-- Why a read of the provider failed. -/
inductive Failure where
  | capability
  | network
  | auth
  | permission
  | rateLimit
  | budget
  | incomplete
deriving DecidableEq

/-- A code of the helper's, which should be a string. -/
structure HelperCode where
  isString : Bool
  text : Text
deriving DecidableEq

/-- What the helper said of it. -/
structure HelperError where
  code : Option HelperCode := none
  message : Option Text := none
deriving DecidableEq

/-- The error's code is this string. -/
def HelperError.is (error : Option HelperError) (code : Text) : Bool :=
  (error.bind (·.code)) = some { isString := true, text := code }

/-- One read of the provider. A complete one names what it saw, and failed at
    nothing. -/
structure Observation where
  attemptedAt : Timestamp
  complete : Bool
  requestsConsumed : Nat := 0
  elapsedMs : Nat := 0
  helperError : Option HelperError := none
  checksComplete : Bool := false
  reviewsComplete : Bool := false
  identity : Option Identity := none
  snapshotId : Option Text := none
  headSha : Option Text := none
  baseSha : Option Text := none
  state : Option PrState := none
  draft : Option Bool := none
  fingerprint : Option Text := none
  mergeability : Mergeability := .unknown
  checks : List Check := []
  reviews : List PrReview := []
  sources : List Source := []
  knownSelfEffectIds : List Text := []
  failure : Option Failure := none
  retryAfter : Option Timestamp := none
  evidence : Text
  whole : complete = true → identity.isSome ∧ snapshotId.isSome ∧ headSha.isSome ∧
    state.isSome ∧ fingerprint.isSome ∧ failure = none ∧ helperError = none
deriving DecidableEq

/-- What went wrong with a read. -/
def observationError (observation : Observation) : Text :=
  ((observation.helperError.bind (·.message)).filter (· ≠ [])).getD observation.evidence

/-- Every check passed at the observation's head. -/
def Observation.passed (observation : Observation) : Bool :=
  observation.checks.all fun check =>
    check.state = .passed && some check.headSha = observation.headSha

/-- Every review is an approval of the observation's head. -/
def Observation.approved (observation : Observation) : Bool :=
  observation.reviews.all fun review =>
    review.state = .approved && some review.headSha = observation.headSha

/-- What an incident is about. -/
inductive IncidentKind where
  | capability
  | providerDenial
  | identity
  | effects
deriving DecidableEq

/-- What brought an incident to its end. -/
inductive Resolution where
  | observation
  | alternateObservation
  | operatorResume
deriving DecidableEq

inductive AttemptState where
  | reserved
  | incomplete
  | resolved
  | rejected
deriving DecidableEq

/-- What an observation key is the digest of. -/
structure ObservationKey where
  observation : Observation
  error : Option Text
deriving DecidableEq

structure Provenance where
  source : Text
  method : Text
  evidenceRef : Text
deriving DecidableEq

/-- An attempt to read by other means. -/
structure Attempt where
  id : Text
  wakeId : Text
  provenance : Provenance
  requests : Nat
  reservedAt : Time
  state : AttemptState
  receivedAt : Option Time := none
  observationKey : Option ObservationKey := none
  attemptedAt : Option Timestamp := none
  complete : Option Bool := none
  error : Option Text := none

/-- Trouble of one kind, from the first that was seen of it to what resolved it. -/
structure Incident where
  id : Text
  sequence : Nat
  kind : IncidentKind
  error : Text
  lastError : Text
  helperError : Option HelperError
  effectKeys : List Text
  observationKey : ObservationKey
  lastObservationKey : ObservationKey
  createdAt : Time
  updatedAt : Time
  wakeQueuedAt : Option Time := none
  resolvedAt : Option Time := none
  resolution : Option Resolution := none
  attempts : List Attempt := []

def Incident.unresolved (incident : Incident) : Bool := incident.resolvedAt.isNone

/-- What is known of a batch. -/
inductive BatchState where
  | prepared
  | accepted
  | reconciling
  | uncertain
  | succeeded
  | partly
  | failed
  | cancelled
  | superseded
deriving DecidableEq

/-- The batch still needs execution or reconciliation. -/
def BatchState.outstanding : BatchState → Bool
  | .prepared | .accepted | .reconciling | .uncertain => true
  | _ => false

/-- Whether a batch may change the code or only answers. -/
inductive BatchKind where
  | repair
  | answer
deriving DecidableEq

/-- Work to be prepared. -/
structure PreparedBatch where
  id : Text
  kind : BatchKind
  sources : List Source
  headSha : Text
  baseSha : Option Text := none
  conflictResolution : Option Bool := none
  prompt : Text
  scope : Text
  reservedMutations : Nat
  sources_ne : sources ≠ []

/-- A work order with what it may spend, and what came of it. -/
structure Batch where
  id : Text
  kind : BatchKind
  sources : List Source
  headSha : Text
  baseSha : Option Text
  conflictResolution : Option Bool
  prompt : Text
  scope : Text
  reservedMutations : Nat
  generation : Nat
  authorizationId : Text
  state : BatchState
  workOrder : Option Text := none
  findings : List Finding := []
  effects : List Effect := []
  stepId : Option Text := none
  attempt : Option Nat := none
  executionSettled : Bool := false
  executionNotDispatched : Bool := false
  evidence : Option Text := none
  cancellationRequestedAt : Option Time := none
  reason : Option Text := none
  usedMutations : Option Nat := none
  published : Bool := false

def Batch.outstanding (batch : Batch) : Bool := batch.state.outstanding

/-- Whether a batch was prepared and no worker has it yet. -/
def undispatchedBatch (batch : Batch) : Bool :=
  batch.state = .prepared && batch.stepId.isNone && batch.effects = []

inductive DecisionState where
  | pending
  | directed
  | withdrawn
deriving DecidableEq

/-- A question to a person, and the answer. -/
structure Decision where
  id : Text
  version : Nat
  proposal : Text
  headSha : Text
  scope : Text
  state : DecisionState := .pending
  operatorId : Option Text := none
  direction : Option Text := none
  resolvedAt : Option Time := none

/-- Why a registration is held. -/
inductive HoldKind where
  | stopped
  | paused
  | access
  | identity
  | manualControl
deriving DecidableEq

/-- Who may set and clear a hold. -/
inductive Actor where
  | lead
  | operator
  | nodeConsole
  | system
deriving DecidableEq

structure Origin where
  actor : Actor
  actorId : Text

/-- What stops worker dispatch and new effects. -/
structure Hold extends Origin where
  kind : HoldKind
  reason : Text
  «at» : Time

/-- What a look at the pull request was asked for by. -/
inductive ReviewSource where
  | enable
  | heartbeat
  | manual
  | workerResult
  | direction
  | resume
  | handback
deriving DecidableEq

/-- What came of it. -/
inductive ReviewOutcome where
  | working
  | decision
  | idle
  | terminal
  | failed
  | held
  | abandoned
deriving DecidableEq

/-- One owed look at the pull request. -/
structure Review where
  id : Text
  source : ReviewSource
  requestedAt : Time
  actorId : Option Text := none
  wakeKey : Option Text := none
  wakeQueuedAt : Option Time := none
  claimedAt : Option Time := none
  concludedAt : Option Time := none
  outcome : Option ReviewOutcome := none
  summary : Option Text := none

def Review.opened (review : Review) : Bool := review.concludedAt.isNone

inductive RequestState where
  | pending
  | completed
  | cancelled
deriving DecidableEq

/-- Work a person has asked for beside what the provider shows. -/
structure WorkRequest where
  id : Text
  operatorId : Text
  direction : Text
  createdAt : Time
  state : RequestState
  batchId : Option Text := none
  settledAt : Option Time := none
  reason : Option Text := none

inductive ManualKind where
  | prompt
  | resumeSession
deriving DecidableEq

inductive ManualState where
  | unknown
  | accepted
  | settled
  | rejected
deriving DecidableEq

/-- Whether a command hands the worker back when its turn is over. -/
inductive Handback where
  | ongoing
  | afterTurn
deriving DecidableEq

/-- A person who drives the worker, from the Host or from the Node's console. -/
inductive SessionActor where
  | operator (operatorId : Text)
  | nodeConsole (nodeId : Text)
deriving DecidableEq

def SessionActor.origin : SessionActor → Origin
  | .operator operatorId => { actor := .operator, actorId := operatorId }
  | .nodeConsole nodeId => { actor := .nodeConsole, actorId := nodeId }

/-- Something a person has the worker do. -/
structure ManualCommand where
  id : Text
  kind : ManualKind
  operatorId : Option Text := none
  actor : Option SessionActor := none
  eventSeqFrom : Nat
  state : ManualState
  createdAt : Time
  handback : Option Handback := none

/-- A person has the worker, from the first such command to the handback. -/
structure ManualControl where
  actor : SessionActor
  takenAt : Time
  endedAt : Option Time := none
  commands : List ManualCommand

/-- What a person has agreed to. -/
structure Scope where
  baseline : Text
  verification : Text
  publicationAuthorized : Bool
  replies : Bool := false
  resolveThreads : Bool := false
  reviewers : List Text := []
  retryChecks : Bool := false
deriving DecidableEq

/-- How much work a registration may take without being asked for again. -/
structure Budgets where
  repairBatches : Nat := 3
  answerBatches : Nat := 3
  mutationAttempts : Nat := 100
deriving DecidableEq

/-- A person's agreement to a scope. -/
structure Authorization where
  id : Text
  operatorId : Text
  issuedAt : Time
  headSha : Text
  scope : Scope
  budgets : Budgets
  eligibilityEvidence : Option Text := none
  sourceProposal : Option (Text × Nat) := none

/-- Whether the pull request is open still. -/
inductive Lifecycle where
  | active
  | merged
  | closed
deriving DecidableEq

/-- Audit of what was spent. JavaScript's numbers can go below zero; the schema
    forbids it. -/
structure Counters where
  repairBatches : Int := 0
  answerBatches : Int := 0
  mutationAttempts : Int := 0
  consecutiveFailures : Nat := 0
  totalFailures : Nat := 0
  dispatchesSinceDirection : Nat := 0

structure FindingAttempt where
  groupKey : Text
  attempts : Nat
  revisions : List Text

structure Registration where
  id : Text
  version : Nat := 1
  generation : Nat
  identity : Identity
  leadSessionId : Text
  taskId : Text
  workerSessionId : Text
  placementId : Text
  checkoutKey : Text
  bindingGeneration : Nat
  eligibilityEvidence : Text
  lifecycle : Lifecycle := .active
  hold : Option Hold := none
  holdHistory : List Hold := []
  review : Option Review := none
  reviewHistory : List Review := []
  ownershipReleasedAt : Option Time := none
  retentionReleasedBy : Option Text := none
  workRequests : List WorkRequest := []
  manualControl : Option ManualControl := none
  authorization : Authorization
  authorizationHistory : List Authorization := []
  decision : Option Decision := none
  decisionHistory : List Decision := []
  observation : Option Observation := none
  observationHostAt : Option Timestamp := none
  lastAttempt : Option Observation := none
  lastAttemptAt : Option Timestamp := none
  lastAttemptLatestAt : Option Timestamp := none
  lastSuccessAt : Option Timestamp := none
  lastError : Option Text := none
  incidentCursor : Nat := 0
  incidents : List Incident := []
  lastReconciliationEvidence : Option Text := none
  nextCheckAt : Time
  readyFingerprint : Option Text := none
  counters : Counters := {}
  findings : List Finding := []
  findingAttempts : List FindingAttempt := []
  batches : List Batch := []
  actions : List Effect := []

/-! ### What is derived from a registration -/

namespace Registration

def released (record : Registration) : Bool := record.ownershipReleasedAt.isSome

/-- Whether a person has been asked and has not answered. -/
def decisionPending (record : Registration) : Bool :=
  record.decision.any fun decision => decision.state = .pending

def reviewOpen (record : Registration) : Bool := record.review.any Review.opened

/-- Whether a person has asked for work that was not taken up yet. -/
def workPending (record : Registration) : Bool :=
  record.workRequests.any fun request => request.state = .pending

/-- The first batch of an id. -/
def batch (record : Registration) (batchId : Text) : Option Batch :=
  record.batches.find? fun batch => batch.id = batchId

/-- Every effect the registration knows of. -/
def effects (record : Registration) : List Effect :=
  record.actions ++ record.batches.flatMap (·.effects)

end Registration

/-- The source's `Date.parse`, of an instant, is the instant. Evidence is fresh
    for half an hour, and never before it was read. -/
def observationFresh (now : Time) (hostAttemptedAt : Timestamp) : Bool :=
  0 ≤ now - hostAttemptedAt.instant && now - hostAttemptedAt.instant ≤ 30 * 60 * 1000

def workPrefix : Text := ofString "operator-work:"

/-- The source that stands for an operator's request. -/
def workSource (request : WorkRequest) : Source where
  id := workPrefix ++ request.id
  revision := request.id
  groupKey := workPrefix ++ request.id
  evidence := request.direction

/-- What a person's requests stand for among the sources. -/
def workSources (record : Registration) : List Source :=
  (record.workRequests.filter fun request => request.state = .pending).map workSource

/-- What there is to work on: feedback, and what operators asked for. -/
def sources (record : Registration) : List Source :=
  ((record.observation.map (·.sources)).getD []).filter
    (fun source => !workPrefix.isPrefixOf source.id) ++ workSources record

/-- An execution or an effect whose outcome is not yet known. -/
def reconciling (record : Registration) : Bool :=
  (record.incidents.any fun incident => incident.kind = .effects && incident.unresolved) ||
  (record.batches.any fun batch => batch.state = .uncertain || batch.state = .reconciling ||
    (batch.stepId.isSome && !batch.executionSettled && !batch.outstanding)) ||
  record.effects.any unsettledEffect

/-- The batch that runs on the retained worker. -/
def activeBatch (record : Registration) : Bool :=
  record.batches.any fun batch =>
    batch.state = .accepted && batch.stepId.isSome && !batch.executionSettled

/-- Whether anything is under way, or may have happened unseen. -/
def inFlight (record : Registration) : Bool :=
  (record.manualControl.any fun control => control.commands.any fun command =>
    command.state = .unknown || command.state = .accepted) ||
  (record.incidents.any fun incident => incident.kind = .effects && incident.unresolved) ||
  (record.batches.any fun batch => (batch.outstanding && !undispatchedBatch batch) ||
    (batch.stepId.isSome && !batch.executionSettled) || batch.effects.any unsettledEffect) ||
  record.actions.any unsettledEffect

def unsettled (record : Registration) : Bool :=
  (record.batches.any fun batch => batch.state = .prepared) || inFlight record

/-- A settled record has no batch that is outstanding. -/
theorem outstanding_of_settled {record : Registration} (h : unsettled record = false) :
    ∀ batch ∈ record.batches, batch.outstanding = false := by
  intro batch hbatch
  unfold unsettled inFlight at h
  simp only [Bool.or_eq_false_iff, List.any_eq_false] at h
  rcases h with ⟨hprepared, ⟨⟨_, hflight⟩, _⟩⟩
  have hnot := hflight batch hbatch
  have hstate := hprepared batch hbatch
  by_cases hout : batch.outstanding = true
  · exfalso
    refine hnot ?_
    have hdispatched : undispatchedBatch batch = false := by
      unfold undispatchedBatch
      have hne : ¬ batch.state = .prepared := by
        intro heq
        exact hstate (by simp [heq])
      simp [hne]
    simp [hout, hdispatched]
  · exact Bool.eq_false_iff.mpr hout

end PrMaintenance

end CopilotFleet
