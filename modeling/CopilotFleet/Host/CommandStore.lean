import CopilotFleet.Host.CommandRecords

/-!
# The Store of Remote Commands

What `CommandExecutionStore` does to its tables. Every change of an execution
names the version it was decided on, and is refused when that is not the
version there is.

`World` is what the rest of the Host and the clock answer. An answer may depend
on all that has happened to this component so far, and nothing is assumed of
it.

## Main definitions

* `World`: The answers of everything else.
* `update`: A change of an execution that names its version.
* `markStart`: The tombstone that lets an attempt begin once.
* `appendOutput`: A piece of output, kept or counted as lost.
* `recordStepEvidence`: A step is dispatched under the fence as it is.
* `enqueuePrompt`: A prompt per key.
* `quarantine`: What a restart takes back.
* `sweep`: What is old enough is forgotten.
-/

namespace CopilotFleet

namespace Commands

open Utf16

structure Link where
  id : Nat
  /-- A `SealedNodeLink` that is open. -/
  ready : Bool
deriving DecidableEq

/-- A managed workspace, as far as a command target needs it. -/
structure Workspace where
  generation : Nat
  runId : Text
  nodeId : Text
  path : Text
  checkout : Option CheckoutIdentity

structure World where
  now : State → Int
  /-- The Node of a session that exists. -/
  session : State → Text → Option Text
  leadLive : State → Text → Bool
  leadIdle : State → Text → Bool
  /-- `terminalRunStates` does not have its state. -/
  taskActive : State → Text → Bool
  placement : State → Text → Option (Text × Text)
  workspace : State → Text → Option Workspace
  /-- Every other rule a target must meet, and the code it is refused with. -/
  refuses : State → Text → RunCommand → Option Text
  /-- Another workspace of the Node has the checkout of a prepared placement. -/
  checkoutTaken : State → Execution → Descriptor → Bool
  normalizedPath : Text → Text
  observationBudget : State → Execution → Option ObservationBudget
  observationExecution : State → Execution → Option Text
  bindObservation : State → Execution → Option Text
  hostId : State → Option Text
  hostLocal : State → Execution → Bool
  /-- What the clocks say of a preparation that is answered now. -/
  preparationTiming : State → Execution → Except Text (Int × Rat)
  preparationConsistent : State → Descriptor → Bool
  preparedClockFailure : State → Execution → Option Text
  nodeSocket : State → Text → Option Link
  blocked : State → Text → Bool
  /-- The message is written to the socket. -/
  delivers : State → Text → HostMessage → Bool
  /-- No room is left for one more request, or one more prompt. -/
  admissionPressure : State → Bool
  promptPressure : State → PromptRecord → Option Text
  eventBytes : OutputEvent → Nat
  admits : State → PromptRecord → Bool
  maxEventSequence : State → Text → Nat
  completionText : Execution → Text

variable (w : World)

/-! ### Executions -/

def State.execution (s : State) (id : Nat) : Option Execution := s.db.executions.get id

def changeDb (f : Db → Db) : Host Unit := Effect.writes fun s => { s with db := f s.db }

def putExecution (execution : Execution) : Host Unit :=
  changeDb fun db => { db with executions := db.executions.set execution.id execution }

def happens (happening : Happening) : Host Unit :=
  changeDb fun db => { db with history := db.history ++ [happening] }

def drawId : Host Nat := do
  let id ← Effect.reads (·.nextId)
  Effect.writes fun s => { s with nextId := s.nextId + 1 }
  pure id

/-- The newest first, up to a limit. -/
def State.list (s : State) : List Execution := s.db.executions.values.reverse.take listLimit

def State.unsettled (s : State) : List Execution :=
  s.db.executions.values.filter (·.settledAt.isNone)

/-- The same request again, as long as it can be answered from what is kept. -/
def requestAgain (leadId key : Text) (digest : Digest) (now : Int) : Host (Option Execution) := do
  match ← Effect.reads (·.db.requests.get (leadId, key)) with
  | none => pure none
  | some row =>
      if row.digest ≠ digest then conflict "request_key_conflict"
      else if row.revoked || retryMs ≤ now - row.createdAt then conflict "request_expired"
      else
        match ← Effect.reads (·.execution row.executionId) with
        | none => conflict "request_expired"
        | some execution => pure (some execution)

def assertAdmission (leadId nodeId : Text) : Host Unit := do
  let pending ← Effect.reads State.unsettled
  if maxLeadPending ≤ (pending.filter fun e => e.leadSessionId = leadId).length ||
      maxNodePending ≤ (pending.filter fun e => e.nodeId = nodeId).length then
    conflict "admission_limit"
  else if ← Effect.reads w.admissionPressure then conflict "lifecycle_storage_pressure"
  else pure ()

def insert (execution : Execution) : Host Execution :=
  writeAtomically do
    assertAdmission w execution.leadSessionId execution.nodeId
    let key := (execution.leadSessionId, execution.requestKey)
    if (← Effect.reads (·.db.requests.get key)).isSome then Effect.raise .other
    else do
      changeDb fun db =>
        { db with
          requests := db.requests.set key
            { executionId := execution.id
              digest := execution.requestDigest
              createdAt := execution.createdAt } }
      putExecution execution
      pure execution

/-- A change of an execution, decided on the version it names. -/
def update (id version : Nat) (patch : Execution → Execution) : Host Execution := do
  match ← Effect.reads (·.execution id) with
  | none => conflict "execution_version_conflict"
  | some current =>
      if current.version ≠ version then conflict "execution_version_conflict"
      else
        let value := { patch current with
          id
          version := version + 1 }
        if value.attemptId ≠ current.attemptId || value.requestDigest ≠ current.requestDigest ||
            value.leadSessionId ≠ current.leadSessionId || value.nodeId ≠ current.nodeId then
          conflict "execution_identity_conflict"
        else do
          putExecution value
          pure value

/-! ### Attempts -/

def putAttempt (id : Nat) (attempt : Attempt) : Host Unit :=
  changeDb fun db => { db with attempts := db.attempts.set id attempt }

/-- The attempt begins, unless it has begun before or was cancelled. -/
def markStart (execution : Execution) : Host Unit := do
  match execution.descriptor with
  | none => Effect.raise .other
  | some descriptor =>
      let absent ← Effect.reads fun s => (s.db.attempts.get execution.id).isNone
      Effect.whenever absent <| putAttempt execution.id
        { attemptId := execution.attemptId
          digest := descriptor.digest
          nodeId := execution.nodeId
          hostId := execution.hostId
          startVersion := some execution.version }
      match ← Effect.reads (·.db.attempts.get execution.id) with
      | none => conflict "attempt_already_recorded"
      | some row =>
          if row.cancelled || row.startVersion ≠ some execution.version then
            conflict "attempt_already_recorded"
          else pure ()

def Execution.attemptDigest (execution : Execution) : Digest :=
  match execution.descriptor with
  | some descriptor => descriptor.digest
  | none => execution.requestDigest

def markCancel (execution : Execution) : Host Unit := do
  match ← Effect.reads (·.db.attempts.get execution.id) with
  | none =>
      putAttempt execution.id
        { attemptId := execution.attemptId
          digest := execution.attemptDigest
          nodeId := execution.nodeId
          hostId := execution.hostId
          cancelled := true }
  | some row =>
      putAttempt execution.id { row with
        cancelled := true
        digest := if row.startVersion.isNone then execution.attemptDigest else row.digest }

def recordReceipt (id : Nat) (receipt : Receipt) : Host Unit := do
  match ← Effect.reads (·.db.attempts.get id) with
  | none => pure ()
  | some row => putAttempt id { row with receipt := some receipt }

/-! ### Output -/

/-- The sequences that are kept of an execution, in order. -/
def State.sequences (s : State) (id : Nat) : List Nat :=
  ((s.db.events.entries.filter fun row => row.1.1 = id).map (·.1.2)).insertionSort (· ≤ ·)

/-- How far the output is whole, what is known to be lost included. -/
def State.throughSeq (s : State) (execution : Execution) : Nat :=
  let kept : List Gap := (s.sequences execution.id).map fun n => { first := n, last := n }
  Ranges.reach 0 ((execution.gaps ++ kept).insertionSort fun a b => a.first ≤ b.first)

def refreshOutput (execution : Execution) : Host Execution := do
  let through ← Effect.reads (·.throughSeq execution)
  let complete := match execution.finalOutputSeq with
    | some final => decide (final ≤ through)
    | none => false
  if complete = execution.outputComplete then pure execution
  else update execution.id execution.version fun e => { e with outputComplete := complete }

def appendOutput (execution : Execution) (event : OutputEvent) : Host (Execution × Bool) :=
  writeAtomically do
    let bytes := decodedLength event.data
    if chunkLimit < bytes then conflict "output_chunk_limit"
    else
      match ← Effect.reads (·.db.events.get (event.executionId, event.sequence)) with
      | some existing =>
          if existing ≠ event then conflict "output_identity_conflict"
          else pure (execution, false)
      | none =>
          if execution.gaps.any fun gap => gap.first ≤ event.sequence && event.sequence ≤ gap.last
          then pure (execution, false)
          else if execution.finalOutputSeq.any (· < event.sequence) then
            conflict "output_after_final_watermark"
          else do
            let total ← Effect.reads fun s => (s.db.events.values.map w.eventBytes).sum
            let retain := execution.outputBytes + bytes ≤ outputLimit &&
              total + w.eventBytes event ≤ hostLogLimit
            Effect.whenever retain <| changeDb fun db =>
              { db with events := db.events.set (event.executionId, event.sequence) event }
            let updated ← update execution.id execution.version fun e => { e with
              outputBytes := execution.outputBytes + if retain then bytes else 0
              lastOutputSeq := max execution.lastOutputSeq event.sequence
              gaps := if retain then execution.gaps
                else mergeCommandGaps
                  (execution.gaps ++ [{ first := event.sequence, last := event.sequence }]) }
            let refreshed ← refreshOutput updated
            pure (refreshed, retain)

/-! ### Fences -/

def putFence (fence : Fence) : Host Unit :=
  changeDb fun db => { db with fences := db.fences.set fence.taskId fence }

def FenceState.closed : FenceState → Bool
  | .executing | .observationRequired => true
  | _ => false

def assertTaskUnfenced (taskId : Text) : Host Unit := do
  if (← Effect.reads (·.db.fences.get taskId)).any (·.state.closed) then
    conflict "command_task_fenced"
  else pure ()

/-- A step is dispatched, and may count as evidence while the fence stands as it does. -/
def recordStepEvidence (taskId stepId : Text) : Host Unit := do
  assertTaskUnfenced taskId
  let fence ← Effect.reads (·.db.fences.get taskId)
  changeDb fun db =>
    { db with
      evidence :=
        match fence with
        | none => db.evidence
        | some fence => db.evidence.set stepId { taskId, revision := fence.revision }
      history := db.history ++ [.dispatched taskId stepId] }

def State.stepHasCurrentEvidence (s : State) (taskId stepId : Text) : Bool :=
  match s.db.fences.get taskId with
  | none => true
  | some fence => s.db.evidence.get stepId = some { taskId, revision := fence.revision }

/-! ### Prompts -/

/-- What is still owed, the most urgent first. -/
def State.prompts (s : State) : List PromptRecord :=
  (s.db.prompts.values.filter fun record => !record.state.retired).insertionSort
    fun a b => b.priority ≤ a.priority

def State.promptsOf (s : State) (leadId : Text) : List PromptRecord :=
  s.prompts.filter fun record => record.delivery.sessionId = leadId

/-- A prompt is reserved, and the lead is not given another. -/
def State.reserved (s : State) (leadId : Text) : Option PromptRecord :=
  (s.promptsOf leadId).find? (·.state.offered)

def putPrompt (record : PromptRecord) : Host Unit :=
  changeDb fun db =>
    { db with prompts := db.prompts.set record.delivery.deliveryId record }

def retiredText : Text := ofString "[retired prompt; delivery identity retained]"

/-- A retired prompt keeps who it was for, and not what it said. -/
def PromptRecord.retained (record : PromptRecord) : PromptRecord :=
  if record.state.retired then
    { record with delivery := { record.delivery with
        attachments := []
        prompt := retiredText } }
  else record

def updatePrompt (record : PromptRecord) : Host Unit := putPrompt record.retained

def enqueuePrompt (record : PromptRecord) : Host PromptRecord :=
  writeAtomically do
    let existing ← Effect.reads fun s => s.db.prompts.values.find? fun other =>
      other.delivery.sessionId = record.delivery.sessionId && other.key = record.key
    match existing with
    | some existing => pure existing
    | none => do
        let pending ← Effect.reads fun s => (s.promptsOf record.delivery.sessionId).length
        if 100 ≤ pending then conflict "lead_prompt_queue_full"
        else do
          let deliveryId ← drawId
          let record := { record with
            delivery := { record.delivery with deliveryId }
            state := .pending
            retryAfter := none }
          match ← Effect.reads (w.promptPressure · record) with
          | some code => Effect.raise (.conflict code)
          | none => do
              putPrompt record
              pure record

def prioritizePrompt (id : Nat) : Host Unit := do
  let now ← Effect.reads w.now
  match ← Effect.reads (·.db.prompts.get id) with
  | none => pure ()
  | some record => putPrompt { record with priority := now }

/-! ### Grants of a session -/

/-- Every Host, Node and lead that a command was ever requested for. -/
def State.sessionGrantTargets (s : State) : List (Text × Text × Text) :=
  (s.db.executions.values.map fun e => (e.hostId, e.nodeId, e.leadSessionId)) ++
    (s.db.requests.entries.filterMap fun row =>
      (s.db.attempts.get row.2.executionId).map fun attempt =>
        (attempt.hostId, attempt.nodeId, row.1.1))

def revokeSessionGrants (leadId : Option Text) : Host Unit :=
  Effect.writes fun s =>
    let targets := s.sessionGrantTargets.filter fun target =>
      leadId.all fun leadId => target.2.2 = leadId
    { s with db := { s.db with revocations := s.db.revocations ∪ targets } }

def State.sessionGrantRevocations (s : State) (nodeId : Text) : List (Text × Text) :=
  (s.db.revocations.filter fun row => row.2.1 = nodeId).map fun row => (row.1, row.2.2)

/-! ### Restarts -/

/-- What a restored archive may not bring back: requests, grants and closed fences. -/
def revokeAuthority : Host Unit := do
  revokeSessionGrants none
  let space ← drawId
  let now ← Effect.reads w.now
  changeDb fun db =>
    { db with
      requests := db.requests.mapValues fun _ row => { row with revoked := true }
      namespaceId := space
      fences := db.fences.mapValues fun _ fence =>
        if fence.state = .clear then fence
        else
          { fence with
            revision := fence.revision + 1
            state := .observationRequired
            changedAt := now } }

/-- Nobody knows what became of a command that may have a process. -/
def Execution.uncertain (e : Execution) (restored : Bool) : Execution :=
  { e with
    state := .reconciliationRequired
    ownership := .unknown
    reasonCode := ofString (if restored then "restore_reconciliation" else "host_restart")
    cancelRequested := if restored then true else e.cancelRequested
    delivery := if restored then .orphaned else e.delivery }

def quarantineExecution (restored : Bool) (execution : Execution) : Host Unit := do
  if execution.state.active then
    discard <| update execution.id execution.version (·.uncertain restored)
  else if restored then
    let now ← Effect.reads w.now
    discard <| update execution.id execution.version fun e => { e with
      state := .expired
      settledAt := some now
      ownership := .notStarted
      reasonCode := ofString "restore_authority_revoked"
      delivery := .orphaned
      finalOutputSeq := some 0
      outputComplete := true }
  else pure ()

/-- No attempt begins again, and nobody is told of an outcome any more. -/
def orphanAll : Host Unit := do
  changeDb fun db =>
    { db with
      attempts := db.attempts.mapValues fun _ row => { row with cancelled := true }
      clocks := db.clocks.mapValues fun _ clock =>
        { clock with
          acceptedAt := none
          elapsedMs := none } }
  let kept ← Effect.reads State.list
  Effect.each kept fun execution =>
    Effect.whenever (execution.delivery ≠ .orphaned) <| discard <|
      update execution.id execution.version fun e => { e with delivery := .orphaned }

def quarantinePrompt (restored : Bool) (record : PromptRecord) : Host Unit :=
  Effect.whenever (restored || record.state = .reserved || record.state = .accepted) <|
    updatePrompt { record with state := if restored then .orphaned else .uncertain }

/-- What a restart, or a restored archive, takes back. -/
def quarantine (restored : Bool) : Host Unit :=
  writeAtomically do
    Effect.whenever restored (revokeAuthority w)
    let unsettled ← Effect.reads State.unsettled
    Effect.each unsettled (quarantineExecution w restored)
    Effect.whenever restored orphanAll
    let prompts ← Effect.reads State.prompts
    Effect.each prompts (quarantinePrompt restored)

/-! ### Forgetting -/

/-- The ranges below `final` that are in none of the pieces. -/
def missingRanges (next final : Nat) : List Nat → List Gap
  | [] => if next ≤ final then [{ first := next, last := final }] else []
  | sequence :: rest =>
      (if next < sequence then [{ first := next, last := sequence - 1 }] else []) ++
        missingRanges (sequence + 1) final rest

/-- Its delivery is over, one way or another. -/
def DeliveryState.concluded : DeliveryState → Bool
  | .settled | .orphaned | .none => true
  | _ => false

/-- It is settled for so long, and nobody is to be told of it any more. -/
def Execution.sweepable (execution : Execution) (now : Int) : Bool :=
  execution.state.terminal && execution.settledAt.any (retentionMs ≤ now - ·) &&
    execution.delivery.concluded

/-- Output that has not come by then is lost. -/
def closeReplay (now : Int) (execution : Execution) : Host Unit := do
  match execution.finalOutputSeq with
  | none => pure ()
  | some final =>
      if execution.settledAt.any (replayMs ≤ now - ·) && !execution.outputComplete then
        let rows ← Effect.reads (·.sequences execution.id)
        let updated ← update execution.id execution.version fun e =>
          { e with gaps := mergeCommandGaps (execution.gaps ++ missingRanges 1 final rows) }
        discard <| refreshOutput updated
      else pure ()

def forget (now : Int) (execution : Execution) : Host Unit := do
  let fence ← Effect.reads fun s => execution.taskId.bind s.db.fences.get
  if fence.any fun fence => fence.executionId = execution.id && fence.state ≠ .clear then
    pure ()
  else
    changeDb fun db =>
      { db with
        events := db.events.keep fun key _ => key.1 ≠ execution.id
        attempts := db.attempts.mapValues fun id row =>
          if id = execution.id then { row with retiredAt := some now } else row
        executions := db.executions.erase execution.id }

def sweepExecution (now : Int) (execution : Execution) : Host Unit := do
  if execution.state.terminal && execution.settledAt.isSome then
    closeReplay now execution
    Effect.whenever (execution.sweepable now) (forget now execution)
  else pure ()

def sweep (now : Int) : Host Unit :=
  writeAtomically do
    let executions ← Effect.reads State.list
    Effect.each executions (sweepExecution now)

/-! ### Preparation clocks -/

def recordPreparationSend (id : Nat) (hostTime : Int) : Host Unit := do
  if (← Effect.reads (·.db.clocks.get id)).isSome then Effect.raise .other
  else changeDb fun db => { db with clocks := db.clocks.set id { hostTime } }

def acceptPreparationClock (id : Nat) (hostTime acceptedAt : Int) (elapsedMs : Rat) : Host Unit := do
  match ← Effect.reads (·.db.clocks.get id) with
  | some clock =>
      if clock.hostTime = hostTime && clock.acceptedAt.isNone then
        changeDb fun db =>
          { db with clocks := db.clocks.set id { clock with
              acceptedAt := some acceptedAt
              elapsedMs := some elapsedMs } }
      else conflict "preparation_clock_conflict"
  | none => conflict "preparation_clock_conflict"

end Commands

end CopilotFleet
