import CopilotFleet.PrmSkill.Contracts
import CopilotFleet.Lib.Run
import Mathlib.Data.List.DropRight

/-!
# The PR-maintenance Engine

The commands of the skill, each a function from the store to the store or to
an error. A command that fails, and one whose store cannot be replaced, leaves
the store as it was (`transact`).

What a command draws at random or reads off the clock comes with it as a
`Choice`, and what the provider answers comes with `recordObservation`.

## Main definitions

* `buildObligations`: What an observation asks for.
* `isSettledAt`: A source stays settled only where it was settled.
* `refreshReadiness`: Readiness, from the observation, obligations and holds.
* `triageJob`: Decisions that need no work.
* `reportBatch`: The result of a work batch.
* `mutate`, `transact`: One command, and what is left when it fails.
-/

namespace CopilotFleet

namespace PrmSkill

open Utf16

/-- What the engine takes from elsewhere. -/
structure Platform where
  /-- The provider and the canonical URL of a PR, if it is one. -/
  parseUrl : Text → Option (Provider × Text)
  /-- The job id of a URL's first registration. -/
  slugFor : Text → Text
  /-- The id of a later registration, by its number. -/
  numbered : Text → Nat → Text
  /-- The digest of what an effect left on the PR. -/
  effectHash : ReportedEffect → Option Text
  /-- The order of job ids. -/
  localeLe : Text → Text → Bool
  toLowerCase : Text → Text

/-- What a command draws and reads. -/
structure Choice where
  now : Time
  passId : Text
  /-- The id a hold is given when there are so many. -/
  holdId : Nat → Text
  /-- Whether the store could be written back. -/
  saved : Bool

variable (platform : Platform) (choice : Choice)

def Store.setJob (store : Store) (job : Job) : Store :=
  { store with jobs := store.jobs.set job.jobId job }

def getJob (store : Store) (jobId : Text) : Except PrmCode (Text × Job) :=
  match store.jobs.get jobId with
  | none => .error .jobNotFound
  | some job => .ok (jobId, job)

def BatchState.outstanding : BatchState → Bool
  | .prepared | .accepted | .uncertain => true
  | _ => false

/-- The batch of a job whose outcome is awaited; a job has one at most. -/
def outstandingBatch (job : Job) : Option Batch :=
  job.batches.find? fun batch => batch.state.outstanding

/-- The pass a command belongs to, where it may still act. -/
def requirePass (store : Store) (passId : Text) (admitAction : Bool) : Except PrmCode Pass :=
  match store.activePass with
  | none => .error .noActivePass
  | some pass =>
      if pass.passId ≠ passId then .error .passMismatch
      else if admitAction ∧ pass.deadlineAt ≤ choice.now then .error .passExpired
      else .ok pass

/-! ### Registration and passes -/

structure BudgetArgs where
  repairBatches : Option Nat := none
  answerBatches : Option Nat := none
  mutationAttempts : Option Nat := none

/-- What a job may spend when it is opened: what was asked for, or the defaults. -/
def BudgetArgs.opened (args : BudgetArgs) : Budgets where
  repairBatches := { limit := args.repairBatches.getD JobBudgetDefaults.repairBatches }
  answerBatches := { limit := args.answerBatches.getD JobBudgetDefaults.answerBatches }
  mutationAttempts := { limit := args.mutationAttempts.getD JobBudgetDefaults.mutationAttempts }

structure AddArgs where
  url : Text
  mode : Mode
  checkout : Option Text
  resolveThreads : Bool
  interval : Time
  budgets : BudgetArgs

/-- A pull request is registered, under the next name where it was registered before. -/
def addJob (args : AddArgs) (store : Store) : Except PrmCode Store :=
  match platform.parseUrl args.url with
  | none => .error .invalidUrl
  | some (provider, url) =>
      if store.jobs.values.any fun job => !job.released && job.url = url then .error .jobExists
      else if StoreLimits.jobs ≤ (store.jobs.values.filter fun job => !job.released).length then
        .error .capacityExceeded
      else if args.mode ≠ .observe ∧ args.checkout.getD [] = [] then .error .invalidArgs
      else if args.resolveThreads ∧ args.mode = .observe then .error .invalidArgs
      else
        let generation := 1 + (store.jobs.values.filter fun job => job.url = url).length
        let slug := platform.slugFor url
        .ok (store.setJob {
          jobId := if generation = 1 then slug else platform.numbered slug generation
          generation
          url
          provider
          mode := args.mode
          resolveThreads := args.resolveThreads
          checkInterval := args.interval
          checkout := args.checkout
          budgets := args.budgets.opened
          nextCheckAt := choice.now })

/-- Whether a job is to be looked at by now. -/
def isDue (job : Job) : Bool :=
  !job.released && job.lifecycle = .active && job.nextCheckAt ≤ choice.now

/-- The earlier due first, and the job id between equals. -/
def dueBefore (a b : Job) : Bool :=
  a.nextCheckAt < b.nextCheckAt ||
    (a.nextCheckAt = b.nextCheckAt && platform.localeLe a.jobId b.jobId)

/-- A pass visits what the last one left, and then what is due. -/
def beginPass (store : Store) : Except PrmCode Store :=
  match store.activePass with
  | some _ => .error .passActive
  | none =>
      let due := store.jobs.values.filter (isDue choice)
      let carried := store.carried.filter fun jobId => due.any fun job => job.jobId = jobId
      let rest := (due.filter fun job => !carried.contains job.jobId).mergeSort
        (dueBefore platform)
      .ok { store with
        carried := []
        activePass := some {
          passId := choice.passId
          startedAt := choice.now
          deadlineAt := choice.now + PassLimits.milliseconds
          visitsRemaining := PassLimits.visits
          requestsRemaining := PassLimits.requests
          due := carried ++ rest.map Job.jobId } }

/-- What a pass leaves for the next one. -/
def unvisited (store : Store) (pass : Pass) : List Text :=
  pass.due.filter fun jobId => !pass.visited.contains jobId &&
    (store.jobs.get jobId).any fun job => !job.released

/-- The pass is over, and what it did not come to is carried over. -/
def endPass (passId : Text) (store : Store) : Except PrmCode Store := do
  let pass ← requirePass choice store passId false
  .ok { store with carried := unvisited store pass, activePass := none }

/-- Retire an abandoned pass whose owner is gone. -/
def recoverPass (passId confirmStopped : Text) (store : Store) : Except PrmCode Store :=
  if confirmStopped.all isSpace then .error .confirmationRequired
  else
    match store.activePass with
    | none => .error .recoveryConflict
    | some pass =>
        if pass.passId ≠ passId then .error .recoveryConflict
        else
          .ok { store with
            carried := pass.due.filter fun jobId => !pass.visited.contains jobId
            activePass := none }

def Provider.defaultRequests : Provider → Nat
  | .github => 20
  | .azureDevops => 39

/-- Charge the visit and reserve requests before any provider traffic. -/
def reserveVisit (passId jobId : Text) (requests : Option Nat) (store : Store) : Except PrmCode Store := do
  let pass ← requirePass choice store passId true
  let (_, job) ← getJob store jobId
  if job.released then throw .jobReleased
  if pass.visitsRemaining < 1 then throw .visitBudgetExhausted
  let wanted := requests.getD job.provider.defaultRequests
  let reserved := min pass.requestsRemaining (min wanted PassLimits.requests)
  if reserved < 1 then throw .requestBudgetExhausted
  return { store with
    activePass := some { pass with
      visitsRemaining := pass.visitsRemaining - 1
      requestsRemaining := pass.requestsRemaining - reserved
      visited := pass.visited ++ [job.jobId] } }

/-! ### Obligations -/

def TRIAGE_PREFIX : Text := ofString "triage:"

def Outcome.settled : Outcome → Bool
  | .addressed | .alreadySatisfied => true
  | _ => false

def EffectKind.text : EffectKind → Text
  | .push => ofString "push"
  | .threadComment => ofString "thread_comment"
  | .discussion => ofString "discussion"
  | .review => ofString "review"
  | .threadResolution => ofString "thread_resolution"

/-- The source an effect shows up as on the PR. -/
def RecordedEffect.sourceId (effect : RecordedEffect) : Option Text :=
  effect.providerId.map fun providerId => effect.kind.text ++ (ofString ":" ++ providerId)

/-- What the provider says of a source beyond the evidence. -/
structure SnapshotSource where
  kind : Text
  id : Text
  body : Option Text := none
  url : Option Text := none
  path : Option Text := none
  line : Option Int := none
  actor : Option Text := none
  contentHash : Option Text := none

/-- The snapshot's entry for a source; of several, the last. -/
def snapshotSource (snapshot : List SnapshotSource) (sourceId : Text) : Option SnapshotSource :=
  (snapshot.filter fun entry => entry.kind ≠ [] && entry.id ≠ [] &&
    entry.kind ++ (ofString ":" ++ entry.id) = sourceId).getLast?

/-- What stands before the first colon. -/
def splitSourceKind (sourceId : Text) : Text :=
  sourceId.takeWhile (· ≠ 0x3A)

/-- A source stays settled only at the exact revision it was settled for. Code
    fixes also need the verified head to still be current; triage decisions
    depend on the text, not on the head. -/
def isSettledAt (disposition : Disposition) (revision : Text) (headSha : Option Text) : Bool :=
  disposition.revision = revision && disposition.outcome.settled &&
    (TRIAGE_PREFIX.isPrefixOf disposition.batchId ||
      (disposition.verifiedHeadSha.isSome && disposition.verifiedHeadSha = headSha))

/-- The head a batch was planned against. -/
def batchHead (job : Job) (batchId : Text) : Option Text :=
  (job.batches.find? fun batch => batch.batchId = batchId).map fun batch =>
    batch.workOrder.headSha

/-- One of the job's own effects, read back. -/
def isRecorded (job : Job) (source : Source) (detail : Option SnapshotSource) : Bool :=
  job.effects.any fun effect => effect.state = .known && effect.sourceId = some source.id &&
    (effect.contentHash = none || effect.contentHash = detail.bind (·.contentHash))

/-- Whether a fix was published and the provider still shows the head from before it. -/
def awaitingPublish (job : Job) (observation : Observation) (source : Source)
    (disposition : Option Disposition) : Bool :=
  disposition.any fun disposition => disposition.revision = source.revision &&
    disposition.outcome.settled && disposition.publishedCommit.isSome &&
      observation.headSha.isSome && observation.headSha = batchHead job disposition.batchId

/-- A text that says something. -/
def given (text : Option Text) : Option Text := text.filter (· ≠ [])

/-- Whether a source is new, as it was, or has changed since. -/
def changeOf (knownRevision : Option Text) (revision : Text) : Change :=
  match knownRevision with
  | none => .new
  | some known => if known = revision then .carried else .changed

/-- What a source asks of the job, as it stands now and with what became of it before. -/
def obligationFor (job : Job) (observation : Observation) (detail : Option SnapshotSource)
    (source : Source) : Obligation :=
  let disposition := job.dispositions.get source.id
  let previous := job.obligations.find? fun entry => entry.sourceId = source.id
  { sourceId := source.id
    kind := (detail.map (·.kind)).getD (splitSourceKind source.id)
    revision := source.revision
    groupKey := source.groupKey
    change := changeOf ((previous.map (·.revision)).or (disposition.map (·.revision)))
      source.revision
    author := given (detail.bind (·.actor))
    url := given (detail.bind (·.url))
    path := given (detail.bind (·.path))
    line := detail.bind (·.line)
    body := (detail.bind (·.body)).map (·.take StoreLimits.bodyExcerpt)
    bodyTruncated := (detail.bind (·.body)).any (StoreLimits.bodyExcerpt < ·.length)
    contentHash := given (detail.bind (·.contentHash))
    awaitingPublication := awaitingPublish job observation source disposition
    evidence := source.evidence.take 2048
    lastDisposition := disposition.map fun disposition =>
      { outcome := disposition.outcome
        stage := disposition.stage
        batchId := disposition.batchId } }

/-- What a source comes to. -/
inductive Reading where
  | selfEffect
  | settled
  | owed (obligation : Obligation)

/-- A source is the job's own effect, settled as it stands, or owed. -/
def readSource (job : Job) (observation : Observation) (snapshot : List SnapshotSource)
    (source : Source) : Reading :=
  let detail := snapshotSource snapshot source.id
  if isRecorded job source detail then .selfEffect
  else if (job.dispositions.get source.id).any fun disposition =>
      isSettledAt disposition source.revision observation.headSha then .settled
  else .owed (obligationFor job observation detail source)

/-- The obligations of some sources, up to as many as the store can hold. -/
def buildObligations (job : Job) (observation : Observation) (snapshot : List SnapshotSource) :
    List Obligation → List Source → List Obligation
  | obligations, [] => obligations
  | obligations, source :: rest =>
      match readSource job observation snapshot source with
      | .selfEffect | .settled => buildObligations job observation snapshot obligations rest
      | .owed obligation =>
          let obligations := obligations ++ [obligation]
          if StoreLimits.obligations ≤ obligations.length then obligations
          else buildObligations job observation snapshot obligations rest

/-! ### Readiness -/

def Mergeability.text : Mergeability → Text
  | .mergeable => ofString "mergeable"
  | .conflicting => ofString "conflicting"
  | .unknown => ofString "unknown"

def CheckState.text : CheckState → Text
  | .pending => ofString "pending"
  | .passed => ofString "passed"
  | .failed => ofString "failed"
  | .unknown => ofString "unknown"

def ReviewState.text : ReviewState → Text
  | .required => ofString "required"
  | .requested => ofString "requested"
  | .approved => ofString "approved"
  | .changesRequested => ofString "changes_requested"
  | .dismissed => ofString "dismissed"

def decimal (n : Nat) : Text := ofString (toString n)

/-- What the evidence itself has against readiness. -/
def evidenceBlockers (observation : Observation) : List Text :=
  (if observation.checksComplete then []
    else [ofString "required-check policy evidence is incomplete"]) ++
  (if observation.reviewsComplete then []
    else [ofString "review policy evidence is incomplete"]) ++
  (if observation.draft = some true then [ofString "PR is a draft"] else []) ++
  (if observation.mergeability = .mergeable then []
    else [ofString "mergeability is " ++ observation.mergeability.text]) ++
  (observation.checks.filter fun check => check.state ≠ .passed).map (fun check =>
    ofString "check " ++ (check.key ++ (ofString " is " ++ check.state.text))) ++
  (observation.reviews.filter fun review => review.state ≠ .approved).map fun review =>
    ofString "review " ++ (review.reviewer ++ (ofString " is " ++ review.state.text))

/-- What the job has against it. -/
def jobBlockers (job : Job) : List Text :=
  (if job.obligations = [] then []
    else [decimal job.obligations.length ++ ofString " open obligation(s)"]) ++
  (if job.holds = [] then [] else [decimal job.holds.length ++ ofString " hold(s)"]) ++
  (if (outstandingBatch job).isSome then [ofString "a work batch is still outstanding"] else [])

def readinessBlockers (job : Job) (observation : Observation) : List Text :=
  evidenceBlockers observation ++ jobBlockers job

/-- The mark a job is given when nothing blocks it. -/
def readyMark (job : Job) (observation : Observation) : Option Ready :=
  if readinessBlockers job observation = [] then
    match observation.fingerprint, observation.headSha with
    | some fingerprint, some headSha => some { fingerprint, «at» := choice.now, headSha }
    | _, _ => none
  else none

/-- Recompute readiness from the current observation, obligations and holds. -/
def refreshReadiness (job : Job) : Job :=
  match job.lastObservation with
  | none => { job with ready := none }
  | some observation =>
      if observation.complete then { job with ready := readyMark choice job observation }
      else { job with ready := none }

/-- A job is held for one more reason. -/
def addHold (kind : HoldKind) (reason : Text) (sourceIds : List Text) (job : Job) : Job :=
  { job with
    holds := job.holds ++ [{
      holdId := choice.holdId job.holds.length
      kind
      reason := reason.take 8192
      createdAt := choice.now
      sourceIds }]
    ready := none }

/-! ### Observing -/

inductive ProviderResult where
  | error (message : Text)
  /-- The helper's answer; nothing when it does not have the shape of an observation. -/
  | answer (observation : Option Observation) (snapshot : List SnapshotSource)

/-- A read that failed is an observation that is not whole. -/
def failureObservation (message : Text) : Observation where
  attemptedAt := choice.now
  complete := false
  failure := some (ofString "incomplete")
  evidence := message.take 8192

def ProviderResult.observation : ProviderResult → Observation
  | .error message => failureObservation choice message
  | .answer (some observation) _ => observation
  | .answer none _ =>
      failureObservation choice (ofString "Helper returned an invalid observation: ")

def ProviderResult.snapshot : ProviderResult → List SnapshotSource
  | .error _ => []
  | .answer _ snapshot => snapshot

/-- Another job that already maintains the same head branch. -/
def ownershipConflict (store : Store) (job : Job) (identity : Identity) : Option Job :=
  store.jobs.values.find? fun other => other.jobId ≠ job.jobId && !other.released &&
    other.identity.any fun owned => owned.host.getD [] = identity.host.getD [] &&
      platform.toLowerCase (owned.headRepository.getD []) =
        platform.toLowerCase (identity.headRepository.getD []) &&
      owned.headRef = identity.headRef

/-- A read that did not come to an end. -/
def recordIncomplete (observation : Observation) (job : Job) : Job :=
  let failure := observation.failure.getD (ofString "incomplete")
  let budget := failure = ofString "budget"
  let failed :=
    if failure = ofString "auth" ∨ failure = ofString "permission" then
      addHold choice .auth (ofString "Provider " ++ (failure ++ (ofString " failure: " ++
        observation.evidence))) [] { job with
          lifecycle := .paused
          pauseReason := some (ofString "Provider authentication or permission failure.") }
    else if budget then job
    else
      let failures : Failures :=
        { consecutive := job.failures.consecutive + 1
          cumulative := job.failures.cumulative + 1 }
      if 3 ≤ failures.consecutive ∨ 10 ≤ failures.cumulative then
        addHold choice .failures (ofString "Observation failed " ++
          (decimal failures.consecutive ++ (ofString " times in a row (" ++
            (decimal failures.cumulative ++ ofString " total).")))) [] { job with
          failures
          lifecycle := .paused
          pauseReason := some (ofString "Repeated observation failures.") }
      else { job with failures }
  { failed with
    nextCheckAt := observation.retryAfter.getD
      (choice.now + if budget then 0 else job.checkInterval) }

/-- The PR is merged or closed. -/
def recordTerminal (lifecycle : Lifecycle) (job : Job) : Job :=
  { job with
    lifecycle
    obligations := []
    ready := none
    batches := job.batches.map fun batch =>
      if batch.state = .prepared then { batch with state := .cancelled } else batch }

/-- What is open is taken in as it was read, and readiness is worked out anew. -/
def recordOpen (observation : Observation) (snapshot : List SnapshotSource) (job : Job) : Job :=
  refreshReadiness choice { job with
    obligations := buildObligations job observation snapshot [] observation.sources
    nextCheckAt := choice.now + job.checkInterval }

/-- A read of a PR this job may maintain. -/
def recordOwned (passId : Text) (observation : Observation) (snapshot : List SnapshotSource)
    (identity : Identity) (job : Job) : Job :=
  let job := { job with
    identity := some identity
    lastObservation := some observation
    observedInPass := some passId
    failures := { job.failures with consecutive := 0 } }
  match observation.state with
  | some .merged => recordTerminal .merged job
  | some .closed => recordTerminal .closed job
  | _ => recordOpen choice observation snapshot job

/-- A read that did. -/
def recordComplete (store : Store) (passId : Text) (observation : Observation)
    (snapshot : List SnapshotSource) (job : Job) : Job :=
  match job.identity with
  | some identity => recordOwned choice passId observation snapshot identity job
  | none =>
      let identity := observation.identity.getD
        { host := none, headRepository := none, headRef := none }
      match ownershipConflict platform store job identity with
      | some conflict =>
          addHold choice .ownershipConflict (ofString "Head branch is already maintained by job " ++
            (conflict.jobId ++ ofString ".")) [] { job with lifecycle := .paused }
      | none => recordOwned choice passId observation snapshot identity job

/-- A visit ends with an answer of the provider, and gives back what it did not spend. -/
def recordObservation (passId jobId : Text) (reserved : Nat) (result : ProviderResult)
    (store : Store) : Except PrmCode Store := do
  let pass ← requirePass choice store passId false
  let (jobId, job) ← getJob store jobId
  let observation := result.observation choice
  let store := { store with
    activePass := some { pass with
      requestsRemaining := pass.requestsRemaining + (reserved - observation.requestsConsumed) } }
  let job := { job with lastAttempt := some observation }
  let job :=
    if observation.complete then
      recordComplete platform choice store passId observation result.snapshot job
    else recordIncomplete choice observation job
  return { store with jobs := store.jobs.set jobId job }

/-! ### Triage -/

inductive Verdict where
  | noAction
  | needsHuman
deriving DecidableEq

structure Decision where
  sourceId : Text
  decision : Verdict
  reason : Text

/-- The obligation a source id names: the first of them. -/
def Job.obligation (job : Job) (sourceId : Text) : Option Obligation :=
  job.obligations.find? fun entry => entry.sourceId = sourceId

/-- The first obligation of a source, waiting for a person. -/
def noteHuman (batchId sourceId : Text) : List Obligation → List Obligation
  | [] => []
  | entry :: rest =>
      if entry.sourceId = sourceId then
        { entry with
          lastDisposition := some { outcome := .needsHuman, stage := .inspected, batchId } } :: rest
      else entry :: noteHuman batchId sourceId rest

/-- One decision on a current obligation. -/
def applyDecision (triageId : Text) (job : Job) (decision : Decision) : Job :=
  match job.obligation decision.sourceId with
  | none => job
  | some obligation =>
      { job with
        dispositions := job.dispositions.set decision.sourceId {
          sourceId := decision.sourceId
          revision := obligation.revision
          outcome := if decision.decision = .noAction then .alreadySatisfied else .needsHuman
          stage := .inspected
          batchId := triageId
          reason := some decision.reason
          responseIds := []
          recordedAt := choice.now }
        obligations :=
          if decision.decision = .noAction then
            job.obligations.filter fun entry => entry.sourceId ≠ decision.sourceId
          else noteHuman triageId decision.sourceId job.obligations }

/-- The job a triage is for, when its decisions can be recorded. -/
def admitTriage (passId jobId : Text) (decisions : List Decision) (store : Store) :
    Except PrmCode (Text × Job) := do
  let _ ← requirePass choice store passId false
  let (jobId, job) ← getJob store jobId
  if job.observedInPass ≠ some passId ∨
      (job.lastObservation.map (·.complete)) ≠ some true then throw .observeFirst
  if ¬(decisions.map (·.sourceId)).Nodup then throw .invalidTriage
  if decisions.any fun decision => (job.obligation decision.sourceId).isNone then
    throw .invalidTriage
  return (jobId, job)

/-- Record lead decisions that need no work batch. -/
def triageJob (passId jobId : Text) (decisions : List Decision) (store : Store) :
    Except PrmCode Store := do
  let (jobId, job) ← admitTriage choice passId jobId decisions store
  let decided := decisions.foldl (applyDecision choice (TRIAGE_PREFIX ++ passId)) job
  return { store with jobs := store.jobs.set jobId (refreshReadiness choice decided) }

/-! ### Work batches -/

/-- A source the next batch is to see to. -/
structure PlannedFinding where
  sourceId : Text
  task : Task
  instructions : Text

structure PlanInput where
  summary : Text
  conflictResolution : Bool := false
  findings : List PlannedFinding

/-- The findings of a work order, or what is wrong with the plan. -/
def orderFindings (job : Job) : List Text → List PlannedFinding →
    Except PrmCode (List OrderedFinding)
  | _, [] => .ok []
  | seen, finding :: rest =>
      if seen.contains finding.sourceId then .error .invalidPlan
      else
        match job.obligation finding.sourceId with
        | none => .error .invalidPlan
        | some obligation =>
            if finding.task = .repair ∧ job.mode ≠ .repair then .error .modeForbids
            else do
              let others ← orderFindings job (finding.sourceId :: seen) rest
              return {
                sourceId := obligation.sourceId
                kind := obligation.kind
                revision := obligation.revision
                groupKey := obligation.groupKey
                task := finding.task
                instructions := finding.instructions } :: others

def MERGE_CONFLICT : Text := ofString "merge-conflict"

/-- Groups that two repair batches already targeted. -/
def repeatedGroups (job : Job) (findings : List OrderedFinding) : List Text :=
  (((findings.filter fun finding => finding.task = .repair).map (·.groupKey)).eraseDups).filter
    fun groupKey => 2 ≤ (job.groupBatchCounts.get groupKey).getD 0

/-- Whether nothing is left of a budget. -/
def Counter.exhausted (counter : Counter) : Bool := counter.limit ≤ counter.used

def Counter.spend (counter : Counter) (n : Nat) : Counter :=
  { counter with used := counter.used + n }

def Counter.refund (counter : Counter) : Counter := { counter with used := counter.used - 1 }

def BatchKind.text : BatchKind → Text
  | .repair => ofString "repair"
  | .answer => ofString "answer"

def Budgets.ofKind (budgets : Budgets) : BatchKind → Counter
  | .repair => budgets.repairBatches
  | .answer => budgets.answerBatches

def Budgets.withKind (budgets : Budgets) (kind : BatchKind) (counter : Counter) : Budgets :=
  match kind with
  | .repair => { budgets with repairBatches := counter }
  | .answer => { budgets with answerBatches := counter }

/-- What changes nothing is an answer; a conflict and a repair change the code. -/
def planKind (input : PlanInput) (findings : List OrderedFinding) : BatchKind :=
  if input.conflictResolution ∨ (findings.any fun finding => finding.task = .repair) then .repair
  else .answer

/-- A plan that passed every check, dispatched or held back by a budget. -/
def acceptBatch (input : PlanInput) (findings : List OrderedFinding) (headSha baseSha : Text)
    (job : Job) : Job :=
  let kind := planKind input findings
  let groups := repeatedGroups job findings
  if groups ≠ [] then
    addHold choice .noProgress (ofString "Two repair batches already targeted " ++
      ((ofString ", ").intercalate groups ++
        ofString " without settling it. A human should decide the next step."))
      ((findings.filter fun finding => groups.contains finding.groupKey).map (·.sourceId)) job
  else if (job.budgets.ofKind kind).exhausted then
    addHold choice .budget (ofString "The " ++ (kind.text ++ (ofString " batch budget (" ++
      (decimal (job.budgets.ofKind kind).limit ++ ofString ") is used up.")))) [] job
  else if job.budgets.mutationAttempts.exhausted then
    addHold choice .budget (ofString "The remote mutation budget is used up.") [] job
  else
    let batchId := job.jobId ++ (ofString "-b" ++ decimal (job.batches.length + 1))
    { job with
      budgets := job.budgets.withKind kind ((job.budgets.ofKind kind).spend 1)
      batches := job.batches ++ [{
        batchId
        state := .accepted
        kind
        workOrder := {
          batchId
          jobId := job.jobId
          createdAt := choice.now
          headSha
          baseSha
          permissions := {
            modifyCode := job.mode = .repair
            push := job.mode = .repair
            reply := true
            resolveThreads := job.resolveThreads }
          conflictResolution := input.conflictResolution
          summary := input.summary
          findings }
        createdAt := choice.now
        acceptedAt := some choice.now }]
      ready := none }

/-- The next batch of a job, within its budgets and about what it owes. -/
def planBatch (passId jobId : Text) (input : PlanInput) (store : Store) : Except PrmCode Store := do
  let _ ← requirePass choice store passId true
  let (jobId, job) ← getJob store jobId
  let some observation := job.lastObservation | throw .observeFirst
  if job.observedInPass ≠ some passId ∨ !observation.complete then throw .observeFirst
  if observation.attemptedAt + evidenceMaxAge < choice.now then throw .evidenceStale
  if job.released ∨ job.lifecycle ≠ .active then throw .jobNotActive
  if job.holds ≠ [] then throw .jobHeld
  if (outstandingBatch job).isSome then throw .batchOutstanding
  if job.mode = .observe then throw .modeForbids
  let some headSha := observation.headSha | throw .evidenceIncomplete
  let some baseSha := observation.baseSha | throw .evidenceIncomplete
  let findings ← orderFindings job [] input.findings
  if input.conflictResolution then
    if job.mode ≠ .repair then throw .modeForbids
    if (job.obligation MERGE_CONFLICT).isNone then throw .invalidPlan
  return { store with
    jobs := store.jobs.set jobId (acceptBatch choice input findings headSha baseSha job) }

def Stage.index : Stage → Nat
  | .notAttempted => 0
  | .inspected => 1
  | .modified => 2
  | .verified => 3
  | .committed => 4
  | .published => 5
  | .replied => 6
  | .resolved => 7

/-- What a reported finding has against its order. -/
def findingProblems (order : WorkOrder) (reported : List Text) (finding : ReportedFinding) :
    List Text :=
  match (order.findings.filter fun ordered => ordered.sourceId = finding.sourceId).getLast? with
  | none => [finding.sourceId ++ ofString " is not in the work order."]
  | some ordered =>
      (if reported.contains finding.sourceId then
        [finding.sourceId ++ ofString " is reported twice."] else []) ++
      (if finding.revision ≠ ordered.revision then
        [finding.sourceId ++ (ofString ": revision must be " ++ (ordered.revision ++
          ofString "."))] else []) ++
      (if finding.outcome = .addressed ∧ ordered.task = .repair then
        (if finding.verifiedHeadSha.isNone then
          [finding.sourceId ++ ofString ": addressed repairs need verifiedHeadSha."] else []) ++
        (if order.permissions.push ∧ finding.publishedCommit.isNone ∧
            finding.stage.index < Stage.published.index then
          [finding.sourceId ++ ofString (": an addressed repair must be published (stage " ++
            "published or later, with publishedCommit).")] else []) else []) ++
      (if finding.outcome = .addressed ∧ ordered.task = .answer ∧ finding.responseIds = [] then
        [finding.sourceId ++ ofString (": an addressed answer needs the reply's provider ID in " ++
          "responseIds.")] else [])

/-- What is wrong with the findings, each with those before it. -/
def findingsProblems (order : WorkOrder) : List Text → List ReportedFinding → List Text
  | _, [] => []
  | reported, finding :: rest =>
      findingProblems order reported finding ++
        findingsProblems order
          (if order.findings.any fun ordered => ordered.sourceId = finding.sourceId then
            finding.sourceId :: reported else reported) rest

/-- Problems a report has against its order; empty when it is consistent. -/
def workReportProblems (order : WorkOrder) (report : WorkReport) : List Text :=
  (if report.batchId ≠ order.batchId then
    [ofString "batchId must be " ++ (order.batchId ++ ofString ".")] else []) ++
  findingsProblems order [] report.findings

/-- What was ordered and not reported. -/
def unreported (order : WorkOrder) (findings : List ReportedFinding) : List ReportedFinding :=
  (order.findings.filter fun ordered =>
    !findings.any fun finding => finding.sourceId = ordered.sourceId).map fun ordered =>
    { sourceId := ordered.sourceId
      revision := ordered.revision
      outcome := .incomplete
      stage := .notAttempted }

def EffectKind.isReply : EffectKind → Bool
  | .threadComment | .discussion | .review => true
  | _ => false

/-- What an effect did that the batch was not permitted to do. -/
def violations (permissions : Permissions) (effect : ReportedEffect) : List Text :=
  if effect.state = .notPerformed then []
  else
    (if effect.kind = .push ∧ !permissions.push then
      [ofString "pushed without push permission"] else []) ++
    (if effect.kind.isReply ∧ !permissions.reply then
      [effect.kind.text ++ ofString " without reply permission"] else []) ++
    (if effect.kind = .threadResolution ∧ !permissions.resolveThreads then
      [ofString "resolved a thread without permission"] else [])

/-- The effects of a batch, numbered in the order they are reported. -/
def recordEffects (batchId : Text) (effects : List ReportedEffect) : List RecordedEffect :=
  effects.mapIdx fun index effect =>
    { effectId := batchId ++ (ofString "-e" ++ decimal (index + 1))
      batchId
      kind := effect.kind
      state := effect.state
      providerId := given effect.providerId
      actor := given effect.actor
      contentHash := platform.effectHash effect
      commit := given effect.commit
      recordedAt := choice.now }

/-- What is kept of a source once a batch has reported on it. -/
def findingDisposition (batchId : Text) (finding : ReportedFinding) : Disposition :=
  { sourceId := finding.sourceId
    revision := finding.revision
    outcome := finding.outcome
    stage := finding.stage
    batchId
    verifiedHeadSha := given finding.verifiedHeadSha
    publishedCommit := given finding.publishedCommit
    responseIds := finding.responseIds
    recordedAt := choice.now }

/-- The holds a report gives rise to. -/
def holdReport (order : WorkOrder) (report : WorkReport) (findings : List ReportedFinding)
    (job : Job) : Job :=
  let broken := report.effects.flatMap (violations order.permissions)
  let uncertain := (report.effects.filter fun effect => effect.state = .uncertain).length
  let needsHuman := findings.filter fun finding => finding.outcome = .needsHuman
  let job :=
    if broken = [] then job
    else addHold choice .policyViolation
      (ofString "The worker reported actions outside its permissions: " ++
        ((ofString "; ").intercalate broken ++ ofString ".")) [] job
  let job :=
    if job.budgets.mutationAttempts.limit < job.budgets.mutationAttempts.used then
      addHold choice .budget (ofString "The remote mutation budget was exceeded.") [] job
    else job
  let job :=
    if uncertain = 0 then job
    else addHold choice .uncertainEffect (ofString "Could not confirm " ++ (decimal uncertain ++
      ofString (" remote action(s). Check the PR and report the batch again with known " ++
        "results."))) [] job
  if needsHuman = [] then job
  else addHold choice .human (ofString "The worker needs a human decision.")
    (needsHuman.map (·.sourceId)) job

/-- How a batch ends: by what is known of its effects, and then of its findings. -/
def reportedState (effects : List ReportedEffect) (findings : List ReportedFinding) : BatchState :=
  if effects.any fun effect => effect.state = .uncertain then .uncertain
  else if findings.all fun finding => finding.outcome.settled then .succeeded
  else if findings.all fun finding =>
      finding.outcome = .failed || finding.stage = .notAttempted then .failed
  else .partly

/-- The first batch of an id, rewritten. -/
def setBatch (batchId : Text) (f : Batch → Batch) : List Batch → List Batch
  | [] => []
  | batch :: rest =>
      if batch.batchId = batchId then f batch :: rest else batch :: setBatch batchId f rest

/-- The job of the first batch of an id. -/
def batchJob (store : Store) (batchId : Text) : Option (Text × Job) :=
  store.jobs.entries.find? fun entry => entry.2.batches.any fun batch => batch.batchId = batchId

def Job.batch (job : Job) (batchId : Text) : Option Batch :=
  job.batches.find? fun batch => batch.batchId = batchId

/-- A report that matches its order. -/
def applyReport (batch : Batch) (report : WorkReport) (job : Job) : Job :=
  let order := batch.workOrder
  let findings := report.findings ++ unreported order report.findings
  let effects := recordEffects platform choice batch.batchId report.effects
  let job := { job with
    effects := ((job.effects.filter fun effect => effect.batchId ≠ batch.batchId) ++
      effects).rtake effectsKept
    budgets := { job.budgets with
      mutationAttempts := job.budgets.mutationAttempts.spend report.mutationAttempts } }
  let job := holdReport choice order report findings job
  let groups := ((order.findings.filter fun finding => finding.task = .repair).map
    (·.groupKey)).eraseDups
  let settled := (findings.filter fun finding => finding.outcome.settled).map (·.sourceId)
  let state := reportedState report.effects findings
  { job with
    dispositions := findings.foldl (fun dispositions finding => dispositions.set finding.sourceId
      (findingDisposition choice batch.batchId finding)) job.dispositions
    groupBatchCounts := groups.foldl (fun counts groupKey =>
      counts.set groupKey ((counts.get groupKey).getD 0 + 1)) job.groupBatchCounts
    obligations := job.obligations.filter fun entry => !settled.contains entry.sourceId
    batches := setBatch batch.batchId (fun batch => { batch with
      state
      report := some { report with findings }
      settledAt := if state = .uncertain then batch.settledAt else some choice.now }) job.batches
    ready := none
    nextCheckAt := if effects = [] then job.nextCheckAt else choice.now }

/-- The worker's report, which is taken whole or refused. -/
def reportBatch (batchId : Text) (report : WorkReport) (store : Store) : Except PrmCode Store := do
  let some (jobId, job) := batchJob store batchId | throw .batchNotFound
  let some batch := job.batch batchId | throw .batchNotFound
  if batch.state ≠ .accepted ∧ batch.state ≠ .uncertain then throw .batchSettled
  if workReportProblems batch.workOrder report ≠ [] then throw .invalidReport
  return { store with jobs := store.jobs.set jobId (applyReport platform choice batch report job) }

/-- A batch without a report is given up, and costs nothing. -/
def cancelBatch (batchId : Text) (store : Store) : Except PrmCode Store := do
  let some (jobId, job) := batchJob store batchId | throw .batchNotFound
  let some batch := job.batch batchId | throw .batchNotFound
  if batch.state ≠ .accepted ∧ batch.state ≠ .prepared then throw .batchSettled
  let cancelled := { job with
    batches := setBatch batchId (fun batch =>
      { batch with state := .cancelled, settledAt := some choice.now }) job.batches
    budgets := job.budgets.withKind batch.kind (job.budgets.ofKind batch.kind).refund }
  return { store with jobs := store.jobs.set jobId cancelled }

/-! ### Holding, pausing and resuming -/

/-- A job is held for a person's decision. -/
def holdJob (jobId : Text) (design : Bool) (reason : Text) (sourceIds : List Text)
    (store : Store) : Except PrmCode Store := do
  let (jobId, job) ← getJob store jobId
  let kind := if design then HoldKind.design else .human
  return { store with jobs := store.jobs.set jobId (addHold choice kind reason sourceIds job) }

/-- A person pauses a job. -/
def pauseJob (jobId reason : Text) (store : Store) : Except PrmCode Store := do
  let (jobId, job) ← getJob store jobId
  if job.lifecycle ≠ .active then throw .jobNotActive
  return { store with
    jobs := store.jobs.set jobId { job with lifecycle := .paused, pauseReason := some reason } }

/-- A person clears named holds, which may let a paused job go on. -/
def clearHolds (clear : List Text) (job : Job) : Job :=
  let holds := job.holds.filter fun hold => !clear.contains hold.holdId
  let job := { job with holds, nextCheckAt := choice.now }
  if job.lifecycle = .paused ∧ holds = [] then
    { job with
      lifecycle := .active
      pauseReason := none
      failures := { job.failures with consecutive := 0 } }
  else job

/-- A person lets a job go on, with the holds that are named cleared. -/
def resumeJob (jobId : Text) (clear : List Text) (confirmHuman : Text) (store : Store) :
    Except PrmCode Store := do
  let (jobId, job) ← getJob store jobId
  if confirmHuman.all isSpace then throw .confirmationRequired
  if job.released then throw .jobReleased
  if clear.any fun holdId => !job.holds.any fun hold => hold.holdId = holdId then
    throw .holdNotFound
  let uncertain := job.holds.any fun hold =>
    clear.contains hold.holdId && hold.kind = .uncertainEffect
  if uncertain ∧ ((outstandingBatch job).map (·.state)) = some .uncertain then
    throw .effectsUnsettled
  return { store with jobs := store.jobs.set jobId (clearHolds choice clear job) }

/-- A job is given up, and is not carried over any more. -/
def releaseJob (jobId : Text) (store : Store) : Except PrmCode Store := do
  let (jobId, job) ← getJob store jobId
  if (outstandingBatch job).isSome then throw .batchOutstanding
  return { store with
    jobs := store.jobs.set jobId { job with released := true }
    carried := store.carried.filter (· ≠ job.jobId) }

/-! ### Commands -/

inductive Command where
  | addJob (args : AddArgs)
  | beginPass
  | reserveVisit (passId jobId : Text) (requests : Option Nat)
  | recordObservation (passId jobId : Text) (reserved : Nat) (result : ProviderResult)
  | triageJob (passId jobId : Text) (decisions : List Decision)
  | planBatch (passId jobId : Text) (input : PlanInput)
  | reportBatch (batchId : Text) (report : WorkReport)
  | cancelBatch (batchId : Text)
  | holdJob (jobId : Text) (design : Bool) (reason : Text) (sourceIds : List Text)
  | pauseJob (jobId reason : Text)
  | resumeJob (jobId : Text) (clear : List Text) (confirmHuman : Text)
  | releaseJob (jobId : Text)
  | endPass (passId : Text)
  | recoverPass (passId confirmStopped : Text)

def mutate (command : Command) (store : Store) : Except PrmCode Store :=
  match command with
  | .addJob args => addJob platform choice args store
  | .beginPass => beginPass platform choice store
  | .reserveVisit passId jobId requests => reserveVisit choice passId jobId requests store
  | .recordObservation passId jobId reserved result =>
      recordObservation platform choice passId jobId reserved result store
  | .triageJob passId jobId decisions => triageJob choice passId jobId decisions store
  | .planBatch passId jobId input => planBatch choice passId jobId input store
  | .reportBatch batchId report => reportBatch platform choice batchId report store
  | .cancelBatch batchId => cancelBatch choice batchId store
  | .holdJob jobId design reason sourceIds => holdJob choice jobId design reason sourceIds store
  | .pauseJob jobId reason => pauseJob jobId reason store
  | .resumeJob jobId clear confirmHuman => resumeJob choice jobId clear confirmHuman store
  | .releaseJob jobId => releaseJob jobId store
  | .endPass passId => endPass choice passId store
  | .recoverPass passId confirmStopped => recoverPass passId confirmStopped store

/-- One command: a failure leaves the store untouched, and so does a store that
    could not be written. -/
def transact (store : Store) (command : Command × Choice) : Store :=
  match mutate platform command.2 command.1 store with
  | .ok next => if command.2.saved then next else store
  | .error _ => store

end PrmSkill

end CopilotFleet
