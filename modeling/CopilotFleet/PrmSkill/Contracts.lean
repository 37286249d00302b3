import CopilotFleet.Lib.Table
import CopilotFleet.Lib.Utf16

/-!
# The PR-maintenance Store

What the portable PR-maintenance skill keeps between its commands: the jobs it
maintains, each with the evidence it last read, what that evidence asks for,
what was decided about it and the work batches that were planned for it; and
the one pass that may be running. Every command reads the store, changes a
private copy and replaces it, so the store is a value here.

What is only shown to a person is left out: a job's history, the summaries and
the advice a command prints.

## Main definitions

* `Observation`: The evidence of one read of a PR.
* `Obligation`: Something the evidence asks for.
* `Disposition`: What was decided about a source.
* `Batch`: Work that was planned, with its report.
* `Job`: A registered PR.
* `Store`: The jobs and the active pass.
-/

namespace CopilotFleet

namespace PrmSkill

open Utf16

/-- Milliseconds. -/
abbrev Time := Nat

inductive Provider where
  | github
  | azureDevops
deriving DecidableEq

inductive Mode where
  | observe
  | answer
  | repair
deriving DecidableEq

inductive Lifecycle where
  | active
  | paused
  | merged
  | closed
deriving DecidableEq

inductive HoldKind where
  | design
  | human
  | auth
  | failures
  | noProgress
  | uncertainEffect
  | policyViolation
  | budget
  | ownershipConflict
deriving DecidableEq

structure Hold where
  holdId : Text
  kind : HoldKind
  reason : Text
  createdAt : Time
  sourceIds : List Text

inductive PrState where
  | opened
  | merged
  | closed
deriving DecidableEq

inductive Mergeability where
  | mergeable
  | conflicting
  | unknown
deriving DecidableEq

inductive CheckState where
  | pending
  | passed
  | failed
  | unknown
deriving DecidableEq

structure Check where
  key : Text
  state : CheckState

inductive ReviewState where
  | required
  | requested
  | approved
  | changesRequested
  | dismissed
deriving DecidableEq

structure Review where
  reviewer : Text
  state : ReviewState

/-- Something on the PR that may need an answer: a comment, a failed check. -/
structure Source where
  id : Text
  revision : Text
  groupKey : Text
  evidence : Text

structure Identity where
  host : Option Text
  headRepository : Option Text
  headRef : Option Text

/-- Provider evidence returned by the bundled helper. -/
structure Observation where
  attemptedAt : Time
  complete : Bool
  requestsConsumed : Nat := 0
  checksComplete : Bool := false
  reviewsComplete : Bool := false
  identity : Option Identity := none
  headSha : Option Text := none
  baseSha : Option Text := none
  state : Option PrState := none
  draft : Option Bool := none
  fingerprint : Option Text := none
  mergeability : Mergeability := .unknown
  checks : List Check := []
  reviews : List Review := []
  sources : List Source := []
  failure : Option Text := none
  retryAfter : Option Time := none
  evidence : Text

inductive Outcome where
  | addressed
  | alreadySatisfied
  | needsHuman
  | failed
  | superseded
  | incomplete
deriving DecidableEq

/-- How far the work on a finding got, in order. -/
inductive Stage where
  | notAttempted
  | inspected
  | modified
  | verified
  | committed
  | published
  | replied
  | resolved
deriving DecidableEq

inductive Change where
  | new
  | changed
  | carried
deriving DecidableEq

structure LastDisposition where
  outcome : Outcome
  stage : Stage
  batchId : Text

/-- One actionable item the lead must triage. -/
structure Obligation where
  sourceId : Text
  kind : Text
  revision : Text
  groupKey : Text
  change : Change
  author : Option Text
  url : Option Text
  path : Option Text
  line : Option Int
  body : Option Text
  bodyTruncated : Bool
  contentHash : Option Text
  awaitingPublication : Bool
  evidence : Text
  lastDisposition : Option LastDisposition

structure Disposition where
  sourceId : Text
  revision : Text
  outcome : Outcome
  stage : Stage
  batchId : Text
  reason : Option Text := none
  verifiedHeadSha : Option Text := none
  publishedCommit : Option Text := none
  responseIds : List Text
  recordedAt : Time

inductive EffectKind where
  | push
  | threadComment
  | discussion
  | review
  | threadResolution
deriving DecidableEq

inductive EffectState where
  | known
  | uncertain
  | notPerformed
deriving DecidableEq

/-- A remote action the skill performed, recorded so that it is never mistaken
    for new feedback. -/
structure RecordedEffect where
  effectId : Text
  batchId : Text
  kind : EffectKind
  state : EffectState
  providerId : Option Text
  actor : Option Text
  contentHash : Option Text
  commit : Option Text
  recordedAt : Time

inductive Task where
  | repair
  | answer
deriving DecidableEq

structure OrderedFinding where
  sourceId : Text
  kind : Text
  revision : Text
  groupKey : Text
  task : Task
  instructions : Text

structure Permissions where
  modifyCode : Bool
  push : Bool
  reply : Bool
  resolveThreads : Bool

structure WorkOrder where
  batchId : Text
  jobId : Text
  createdAt : Time
  headSha : Text
  baseSha : Text
  permissions : Permissions
  conflictResolution : Bool
  summary : Text
  findings : List OrderedFinding

structure ReportedFinding where
  sourceId : Text
  revision : Text
  outcome : Outcome
  stage : Stage
  verifiedHeadSha : Option Text := none
  publishedCommit : Option Text := none
  responseIds : List Text := []

structure ReportedEffect where
  kind : EffectKind
  state : EffectState
  providerId : Option Text := none
  actor : Option Text := none
  body : Option Text := none
  commit : Option Text := none

structure WorkReport where
  batchId : Text
  mutationAttempts : Nat
  findings : List ReportedFinding
  effects : List ReportedEffect := []

inductive BatchState where
  | prepared
  | accepted
  | succeeded
  | partly
  | failed
  | cancelled
  | uncertain
deriving DecidableEq

inductive BatchKind where
  | repair
  | answer
deriving DecidableEq

structure Batch where
  batchId : Text
  state : BatchState
  kind : BatchKind
  workOrder : WorkOrder
  report : Option WorkReport := none
  createdAt : Time
  acceptedAt : Option Time := none
  settledAt : Option Time := none

structure Counter where
  limit : Nat
  used : Nat := 0

structure Budgets where
  repairBatches : Counter
  answerBatches : Counter
  mutationAttempts : Counter

structure Failures where
  consecutive : Nat := 0
  cumulative : Nat := 0

/-- The evidence at which a PR was found to be ready. -/
structure Ready where
  fingerprint : Text
  «at» : Time
  headSha : Text
deriving DecidableEq

structure Job where
  jobId : Text
  generation : Nat
  url : Text
  provider : Provider
  identity : Option Identity := none
  mode : Mode
  resolveThreads : Bool
  checkInterval : Time
  lifecycle : Lifecycle := .active
  pauseReason : Option Text := none
  released : Bool := false
  checkout : Option Text
  budgets : Budgets
  failures : Failures := {}
  nextCheckAt : Time
  lastAttempt : Option Observation := none
  lastObservation : Option Observation := none
  observedInPass : Option Text := none
  obligations : List Obligation := []
  dispositions : Table Text Disposition := Table.empty
  effects : List RecordedEffect := []
  batches : List Batch := []
  groupBatchCounts : Table Text Nat := Table.empty
  holds : List Hold := []
  ready : Option Ready := none

structure Pass where
  passId : Text
  startedAt : Time
  deadlineAt : Time
  visitsRemaining : Nat
  requestsRemaining : Nat
  visited : List Text := []
  due : List Text

structure Store where
  activePass : Option Pass := none
  carried : List Text := []
  jobs : Table Text Job := Table.empty

/-- What a command fails with. -/
inductive PrmCode where
  | jobNotFound
  | jobExists
  | jobNotActive
  | jobReleased
  | jobHeld
  | capacityExceeded
  | invalidArgs
  | invalidUrl
  | noActivePass
  | passActive
  | passMismatch
  | passExpired
  | visitBudgetExhausted
  | requestBudgetExhausted
  | observeFirst
  | evidenceStale
  | evidenceIncomplete
  | modeForbids
  | invalidTriage
  | invalidPlan
  | invalidReport
  | batchOutstanding
  | batchNotFound
  | batchSettled
  | confirmationRequired
  | holdNotFound
  | effectsUnsettled
  | recoveryConflict
deriving DecidableEq

/-! ### Limits -/

def PassLimits.visits : Nat := 5

def PassLimits.requests : Nat := 100

def PassLimits.milliseconds : Time := 300000

/-- Per-registration execution budgets, where none is given. -/
def JobBudgetDefaults.repairBatches : Nat := 3

def JobBudgetDefaults.answerBatches : Nat := 3

def JobBudgetDefaults.mutationAttempts : Nat := 100

def StoreLimits.jobs : Nat := 100

def StoreLimits.bodyExcerpt : Nat := 4000

def StoreLimits.obligations : Nat := 200

/-- Evidence older than this cannot justify a new work order. -/
def evidenceMaxAge : Time := 30 * 60 * 1000

/-- How many effects a job remembers. -/
def effectsKept : Nat := 1000

end PrmSkill

end CopilotFleet
