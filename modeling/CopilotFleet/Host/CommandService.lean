import CopilotFleet.Host.CommandStore
import CopilotFleet.Lib.Run

/-!
# The Service of Remote Commands

What `CommandExecutionService` does when somebody asks it to, when a Node says
something, and when time passes. Each operation runs to its end before the
next, and may throw in the middle; what it has written by then stays, except
inside a transaction. Only an observation of a checkout takes longer, and is
answered in an operation of its own.

What it tells browsers, notes for notifications and audits changes none of its
tables and is left out.

## Main definitions

* `request`: A lead asks for a command.
* `prepared`: A Node answers a preparation.
* `decide`: An operator allows or denies it.
* `cancel`, `revokeLead`, `revokeTask`: It is not wanted any more.
* `tick`: What is due is done, and a queued command is started.
* `receiveReceipt`: A Node says how a command stands.
* `promptReceipt`: A Node says how a prompt was taken.
* `step`: One operation.
-/

namespace CopilotFleet

namespace Commands

open Utf16

variable (w : World)

/-! ### Reading -/

def executionCapability : Text := ofString "remote-command-execution-v1"

def permissionsCapability : Text := ofString "command-permissions-v1"

def durableCapability : Text := ofString "durable-lead-delivery-v1"

def admissionVersion : Nat := 1

def localHostApproval : Text := ofString "host:local-node"

def State.connected (s : State) (nodeId : Text) : Option Peer :=
  match w.nodeSocket s nodeId, s.peers.get nodeId with
  | some link, some peer => if link.ready && peer.link = link.id then some peer else none
  | _, _ => none

def State.capable (s : State) (nodeId capability : Text) : Bool :=
  (s.connected w nodeId).any (·.capabilities.contains capability)

/-- Recovery remains available when the Node admits no new start. -/
def State.commandProtocol (s : State) (nodeId : Text) : Bool :=
  (s.connected w nodeId).any (·.commandProtocol)

def State.durableLead (s : State) (leadId : Text) : Bool :=
  (w.session s leadId).any fun nodeId => s.capable w nodeId durableCapability

/-- `assertReadiness` -/
def State.ready (s : State) (nodeId shell : Text) : Bool :=
  match (s.peers.get nodeId).bind (·.readiness) with
  | none => false
  | some readiness =>
      s.capable w nodeId executionCapability &&
        (s.capable w nodeId permissionsCapability || readiness.enabled) &&
          readiness.supported && readiness.admissionVersion = admissionVersion &&
            readiness.shells.contains shell

def refusal (code : String) : Option Failure := some (.conflict (ofString code))

def State.assertLead (s : State) (leadId : Text) : Option Failure :=
  if w.leadLive s leadId then none else refusal "lead_not_live"

def State.assertReadiness (s : State) (nodeId shell : Text) : Option Failure :=
  if s.ready w nodeId shell then none else refusal "unsupported_command_target"

/-- A permission that may be used again, for the directory it was given for. -/
def State.assertReusablePermission (s : State) (execution : Execution) : Option Failure :=
  if !s.capable w execution.nodeId permissionsCapability then
    refusal "command_permission_upgrade_required"
  else
    match execution.descriptor.map (·.prepared) with
    | some prepared =>
        match prepared.permission with
        | some permission =>
            if permission.reusable && permission.commandKey.any (!·.all isSpace) &&
                w.normalizedPath permission.path = w.normalizedPath prepared.cwd then none
            else refusal "command_permission_not_reusable"
        | none => refusal "command_permission_not_reusable"
    | none => refusal "command_permission_not_reusable"

/-- `assertTaskUnfenced` -/
def State.fenced (s : State) (taskId : Text) : Bool :=
  (s.db.fences.get taskId).any (·.state.closed)

/-- The Node, the directory and the task of a command. -/
def State.target (s : State) (leadId : Text) (request : RunCommand) :
    Except Failure (Text × Text × Option Text) := do
  let found ← match request.target with
    | .placement placementId =>
        match w.placement s placementId with
        | none => .error (.conflict (ofString "target_not_found"))
        | some (nodeId, path) => .ok (nodeId, path, request.taskId)
    | .worktree worktreeId generation =>
        match w.workspace s worktreeId with
        | none => .error (.conflict (ofString "target_generation_conflict"))
        | some tree =>
            if tree.generation ≠ generation then
              .error (.conflict (ofString "target_generation_conflict"))
            else if request.taskId.any (· ≠ tree.runId) then
              .error (.conflict (ofString "task_owner_conflict"))
            else .ok (tree.nodeId, tree.path, some tree.runId)
  if found.2.2.any s.fenced then .error (.conflict (ofString "command_task_fenced"))
  else
    match w.refuses s leadId request with
    | some code => .error (.conflict code)
    | none => .ok found

/-- What stands against a command whose target was found before. -/
def State.recheckTarget (s : State) (execution : Execution) : Option Failure :=
  if execution.approvedBy = some localHostApproval && !w.hostLocal s execution then
    refusal "local_node_identity_changed"
  else
    match s.target w execution.leadSessionId execution.toRunCommand with
    | .error e => some e
    | .ok (nodeId, path, _) =>
        if nodeId ≠ execution.nodeId ||
            w.normalizedPath path ≠ w.normalizedPath execution.requestedPath then
          refusal "command_target_changed"
        else (w.observationExecution s execution).map .conflict

def check : Option Failure → Host Unit
  | none => pure ()
  | some e => Effect.raise e

/-- The code a failure is recorded with. -/
def Failure.reason (fallback : String) : Failure → Text
  | .conflict code => code
  | .other => ofString fallback

/-! ### Sending -/

def transmit (nodeId : Text) (message : HostMessage) : Host Bool := do
  if ← Effect.reads (w.delivers · nodeId message) then
    Effect.writes fun s => { s with outbox := s.outbox ++ [{ nodeId, message, tables := s.db }] }
    pure true
  else pure false

/-- Tells the Node of every revocation it was not told of. -/
def sendRevocations (nodeId : Text) : List (Text × Text) → Host Bool
  | [] => pure true
  | target :: rest => do
      if ← Effect.reads fun s => (s.peers.get nodeId).any (·.sentRevocations.contains target) then
        sendRevocations nodeId rest
      else if !(← Effect.reads fun s =>
          s.commandProtocol w nodeId && s.capable w nodeId permissionsCapability) then
        pure false
      else if ← transmit w nodeId (.revokeCommandSessionGrants target.1 target.2) then do
        Effect.writes fun s =>
          match s.peers.get nodeId with
          | none => s
          | some peer =>
              s.setPeer nodeId { peer with sentRevocations := target :: peer.sentRevocations }
        sendRevocations nodeId rest
      else pure false

def sendSessionRevocations (nodeId : Text) : Host Bool := do
  if !(← Effect.reads (·.capable w nodeId permissionsCapability)) then pure true
  else
    let targets ← Effect.reads (·.sessionGrantRevocations nodeId)
    sendRevocations w nodeId targets

/-- The shell of a message that asks for a process. -/
def HostMessage.shell : HostMessage → Option Text
  | .prepareCommandExecution request => some request.shell
  | .startCommandExecution descriptor _ _ _ _ _ => some descriptor.shell
  | _ => none

def HostMessage.isDelivery : HostMessage → Bool
  | .deliverLeadPrompt _ => true
  | _ => false

def send (nodeId : Text) (message : HostMessage) : Host Bool := do
  if (← Effect.reads (w.blocked · nodeId)) && (message.shell.isSome || message.isDelivery) then
    pure false
  else if message.isDelivery then
    if ← Effect.reads (·.capable w nodeId durableCapability) then transmit w nodeId message
    else pure false
  else if !(← Effect.reads (·.commandProtocol w nodeId)) then pure false
  else
    match message.shell with
    | none => transmit w nodeId message
    | some shell =>
        if !(← sendSessionRevocations w nodeId) then pure false
        else if !(← Effect.reads (·.ready w nodeId shell)) then pure false
        else transmit w nodeId message

def sendCancel (execution : Execution) (revokePreparation : Bool) : Host Unit :=
  if execution.cancelRequested || revokePreparation then
    discard <| send w execution.nodeId
      (.cancelCommandExecution execution.hostId execution.id execution.attemptId)
  else pure ()

/-- A request that is retired before it started gives up its place on the Node. -/
def publish (execution : Execution) : Host Unit :=
  if execution.state.terminal && execution.ownership = .notStarted then sendCancel w execution true
  else pure ()

def ack (execution : Execution) : Host Unit := do
  match execution.descriptor with
  | none => pure ()
  | some descriptor =>
      let through ← Effect.reads (·.throughSeq execution)
      discard <| send w execution.nodeId
        (.commandExecutionAck execution.id execution.attemptId descriptor.digest through
          execution.state.terminal)

/-! ### Requests -/

/-- An execution that never started is over. -/
def finish (execution : Execution) (state : ExecutionState) (reasonCode : Text)
    (patch : Execution → Execution) : Host Execution :=
  writeAtomically do
    markCancel execution
    let now ← Effect.reads w.now
    update execution.id execution.version fun e => patch { e with
      state
      reasonCode
      ownership := .notStarted
      settledAt := some now
      finalOutputSeq := some 0
      outputComplete := true
      delivery := .pending }

def fail (execution : Execution) (reasonCode : Text) : Host Unit := do
  let finished ← finish w execution .failed reasonCode id
  publish w finished

def State.preparation (s : State) (execution : Execution) : Preparation where
  toRunCommand := execution.toRunCommand
  executionId := execution.id
  attemptId := execution.attemptId
  hostId := execution.hostId
  nodeId := execution.nodeId
  leadSessionId := execution.leadSessionId
  requestedPath := execution.requestedPath
  createdAt := execution.createdAt
  expiresAt := execution.expiresAt
  hostTime :=
    match s.db.clocks.get execution.id, execution.descriptor with
    | some clock, _ => clock.hostTime
    | none, some descriptor => descriptor.hostTime
    | none, none => execution.createdAt
  observationBudget :=
    match execution.descriptor.bind (·.observationBudget) with
    | some budget => some budget
    | none => w.observationBudget s execution

def sendPreparation (execution : Execution) : Host Unit := do
  if !(← Effect.reads (·.capable w execution.nodeId executionCapability)) then
    fail w execution (ofString "preparation_connection_lost")
  else
    let now ← Effect.reads w.now
    recordPreparationSend execution.id now
    let message ← Effect.reads fun s => HostMessage.prepareCommandExecution (s.preparation w execution)
    if !(← send w execution.nodeId message) then
      fail w execution (ofString "preparation_send_uncertain")

def found (id : Nat) : Host Execution := do
  match ← Effect.reads (·.execution id) with
  | none => Effect.raise .other
  | some execution => pure execution

def request (leadId : Text) (run : RunCommand) (now : Int) : Host Execution := do
  check (← Effect.reads (·.assertLead w leadId))
  match ← requestAgain leadId run.requestKey (.request run) now with
  | some duplicate => pure duplicate
  | none =>
      if !(← Effect.reads (·.durableLead w leadId)) then conflict "durable_lead_delivery_required"
      else
        match ← Effect.reads (·.target w leadId run) with
        | .error e => Effect.raise e
        | .ok (nodeId, path, taskId) => do
            check (← Effect.reads (·.assertReadiness w nodeId run.shell))
            match ← Effect.reads w.hostId with
            | none => conflict "host_identity_missing"
            | some hostId =>
                let execution ← writeAtomically do
                  let id ← drawId
                  let attemptId ← drawId
                  let inserted ← insert w { run with
                    taskId
                    id
                    attemptId
                    version := 0
                    hostId
                    nodeId
                    leadSessionId := leadId
                    requestedPath := path
                    requestDigest := .request run
                    state := .preparing
                    ownership := .notStarted
                    createdAt := now
                    expiresAt := now + approvalMs }
                  check ((← Effect.reads (w.bindObservation · inserted)).map .conflict)
                  pure inserted
                publish w execution
                sendPreparation w execution
                found execution.id

/-! ### Cancellation -/

def cancel (id : Nat) (leadId : Option Text) : Host Execution := do
  check (← Effect.reads fun s => leadId.bind (s.assertLead w))
  match ← Effect.reads (·.execution id) with
  | none => conflict "execution_not_found"
  | some current =>
      if leadId.any (· ≠ current.leadSessionId) then conflict "execution_not_found"
      else if current.state.terminal then pure current
      else
        let execution ← writeAtomically do
          markCancel current
          if current.state.active then
            update id current.version fun e => { e with
              state := .cancelling
              cancelRequested := true
              reasonCode := ofString "cancel_requested" }
          else
            finish w current .cancelled (ofString "cancelled_before_start") fun e =>
              { e with cancelRequested := true }
        publish w execution
        sendCancel w execution false
        pure execution

/-- Every Node is told again of the revocations that concern a lead, or of all. -/
def resendRevocations (leadId : Option Text) : Host Unit := do
  let peers ← Effect.reads fun s => s.peers.entries.map (·.1)
  Effect.each peers fun nodeId => do
    Effect.writes fun s =>
      match s.peers.get nodeId with
      | none => s
      | some peer =>
          s.setPeer nodeId { peer with
            sentRevocations :=
              match leadId with
              | none => []
              | some leadId => peer.sentRevocations.filter (·.2 ≠ leadId) }
    discard <| sendSessionRevocations w nodeId

def revokeLead (leadId : Text) (preservePendingPrompts : Bool) : Host Unit := do
  revokeSessionGrants (some leadId)
  resendRevocations w (some leadId)
  let unsettled ← Effect.reads fun s =>
    s.unsettled.filter fun e => e.leadSessionId = leadId && !e.cancelRequested
  Effect.each unsettled fun execution => discard <| cancel w execution.id none
  let prompts ← Effect.reads (·.promptsOf leadId)
  Effect.each prompts fun record => do
    if preservePendingPrompts && (record.state = .pending || record.state = .rejectedBusy) then
      pure ()
    else updatePrompt { record with state := .orphaned }

def revokeAllSessionGrants : Host Unit := do
  revokeSessionGrants none
  resendRevocations w none

def revokeTask (taskId : Text) : Host Unit := do
  let unsettled ← Effect.reads fun s => s.unsettled.filter fun e => e.taskId = some taskId
  Effect.each unsettled fun execution => discard <| cancel w execution.id none

def reconcileSessionGrants : Host Unit := do
  let leads ← Effect.reads fun s => (s.sessionGrantTargets.map (·.2.2)).eraseDups
  Effect.each leads fun leadId => do
    if (← Effect.reads (·.assertLead w leadId)).isSome then revokeSessionGrants (some leadId)
  let peers ← Effect.reads fun s => s.peers.entries.map (·.1)
  Effect.each peers fun nodeId => discard <| sendSessionRevocations w nodeId

/-! ### Prompts -/

def queueLeadPrompt (leadId prompt : Text) (key : PromptKey) (executions : List Nat)
    (executionBinding : Option Text) (attachments : List Attachment) : Host PromptRecord := do
  check (← Effect.reads (·.assertLead w leadId))
  if !(← Effect.reads (·.durableLead w leadId)) then conflict "durable_lead_delivery_required"
  else
    let now ← Effect.reads w.now
    let nodeId ← Effect.reads fun s => (w.session s leadId).getD []
    enqueuePrompt w
      { delivery := { deliveryId := 0, sessionId := leadId, prompt, executionBinding, attachments }
        nodeId
        key
        state := .pending
        executions
        createdAt := now }

/-- The lead is owed the outcome of an execution. -/
def queueCompletion (execution : Execution) : Host Unit := do
  if (← Effect.reads (·.assertLead w execution.leadSessionId)).isSome then
    let orphaned ← update execution.id execution.version fun e => { e with delivery := .orphaned }
    publish w orphaned
  else if ← Effect.reads (·.durableLead w execution.leadSessionId) then
    writeAtomically do
      let record ← queueLeadPrompt w execution.leadSessionId (w.completionText execution)
        (.command execution.id) [execution.id] none []
      let reserved ← update execution.id execution.version fun e => { e with
        delivery := .reserved
        deliveryId := some record.delivery.deliveryId }
      publish w reserved

/-- A prompt the lead may be given now. -/
def State.due (s : State) (leadId : Text) (record : PromptRecord) : Bool :=
  (record.state = .pending ||
    record.state = .rejectedBusy &&
      record.retryAfterSeq.any (· < w.maxEventSequence s leadId)) && w.admits s record

def pumpLead (leadId : Text) : Host Unit := do
  if ← Effect.reads fun s =>
      (s.assertLead w leadId).isSome || w.blocked s ((w.session s leadId).getD []) ||
        !s.durableLead w leadId || !w.leadIdle s leadId || (s.reserved leadId).isSome then
    pure ()
  else
    match ← Effect.reads fun s => (s.promptsOf leadId).find? (s.due w leadId) with
    | none => pure ()
    | some record => do
        updatePrompt { record with state := .reserved }
        let nodeId ← Effect.reads fun s => (w.session s leadId).getD []
        if !(← send w nodeId (.deliverLeadPrompt record.delivery)) then
          updatePrompt { record with state := .uncertain }

/-- A receipt that names the native session that has taken the prompt. -/
def LeadPromptReceipt.bound (receipt : LeadPromptReceipt) : Bool :=
  (receipt.state = .accepted || receipt.state = .uncertain || receipt.state = .settled) &&
    receipt.nativeSessionId.isSome && receipt.attemptId.isSome

/-- A receipt that contradicts what is known of its prompt. -/
def PromptRecord.refuses (record : PromptRecord) (receipt : LeadPromptReceipt) : Bool :=
  let nativeRequired :=
    receipt.state = .accepted || receipt.state = .uncertain || receipt.state = .settled
  (nativeRequired && !(receipt.nativeSessionId.isSome && receipt.attemptId.isSome)) ||
    receipt.nativeSessionId.isSome ≠ receipt.attemptId.isSome ||
      (nativeRequired && record.state = .rejectedBusy) ||
        record.receipt.any fun previous =>
          previous.bound &&
            (previous.nativeSessionId ≠ receipt.nativeSessionId ||
              previous.attemptId ≠ receipt.attemptId || receipt.state = .rejected ||
                receipt.state = .rejectedBusy)

/-- An execution hears what became of its prompt. -/
def tell (delivery : DeliveryState) (id : Nat) : Host Unit := do
  match ← Effect.reads (·.execution id) with
  | none => pure ()
  | some execution => do
      let moved ← update id execution.version fun e => { e with delivery }
      publish w moved

def promptReceipt (nodeId : Text) (receipt : LeadPromptReceipt) : Host Bool := do
  if !(← Effect.reads (·.capable w nodeId durableCapability)) then pure false
  else
    match ← Effect.reads (·.db.prompts.get receipt.deliveryId) with
    | none => pure false
    | some record =>
        if record.nodeId ≠ nodeId || record.delivery.sessionId ≠ receipt.sessionId ||
            record.refuses receipt then pure false
        else if record.receipt = some receipt then pure true
        else if record.state = .orphaned then do
          updatePrompt { record with receipt := some receipt }
          pure true
        else if record.state.retired || record.state = .pending then pure false
        else if receipt.state = .rejectedBusy && record.state = .accepted then pure false
        else if receipt.state = .accepted && !(record.state = .reserved ||
            record.state = .uncertain) &&
              !(record.state = .accepted && !record.receipt.any (·.bound)) then pure false
        else
          writeAtomically do
            let now ← Effect.reads w.now
            let seq ← Effect.reads (w.maxEventSequence · receipt.sessionId)
            let busy : Bool := receipt.state = .rejectedBusy
            updatePrompt { record with
              state := receipt.state.prompt
              receipt := some receipt
              retryAfter := if busy then some now else record.retryAfter
              retryAfterSeq := if busy then some seq else record.retryAfterSeq }
            Effect.each record.executions (tell w receipt.state.delivery)
            pure true

/-! ### Time passes -/

/-- The prompts of a lead that is gone go to nobody. -/
def orphanPrompts : Host Unit := do
  let prompts ← Effect.reads State.prompts
  Effect.each prompts fun record => do
    if (← Effect.reads (·.assertLead w record.delivery.sessionId)).isSome then
      updatePrompt { record with state := .orphaned }
      Effect.each record.executions (tell w .orphaned)

/-- What stands against a start at the last moment. -/
def State.dispatchFailure (s : State) (execution : Execution) : Option Failure :=
  match w.preparedClockFailure s execution with
  | some code => some (.conflict code)
  | none =>
      let reused : Option Failure :=
        if (execution.automaticApproval && execution.approvedBy ≠ some localHostApproval) ||
            execution.approvalScope.any (· ≠ .once) then s.assertReusablePermission w execution
        else none
      (reused <|> s.assertReadiness w execution.nodeId execution.shell) <|>
        if s.durableLead w execution.leadSessionId then s.recheckTarget w execution else none

/-- A fence is taken for an execution, and remembers what was to be verified. -/
def Fence.taken (previous : Option Fence) (taskId : Text) (executionId : Nat) (now : Int) :
    Fence where
  taskId
  executionId
  revision := (previous.map (·.revision)).getD 0 + 1
  state := .executing
  changedAt := now
  previousVerificationAt := previous.bind fun fence =>
    if fence.state = .verificationRequired then some fence.changedAt else none

def takeFence (current : Execution) (now : Int) : Host Unit := do
  match current.managed with
  | none => pure ()
  | some taskId => do
      let previous ← Effect.reads (·.db.fences.get taskId)
      putFence (Fence.taken previous taskId current.id now)

/-- The tombstone, the fence and the execution itself, all or nothing. -/
def begin (execution : Execution) (now : Int) : Host Execution :=
  writeAtomically do
    check (← Effect.reads (·.assertLead w execution.leadSessionId))
    check (← Effect.reads (·.recheckTarget w execution))
    let current ← found execution.id
    if current.cancelRequested || current.state ≠ .queued || current.descriptor.isNone ||
        current.approvedAt.isNone || current.approvedBy.isNone then conflict "start_not_authorized"
    else
      takeFence current now
      let updated ← update current.id current.version fun e => { e with
        state := .starting
        ownership := .unknown }
      markStart updated
      pure updated

def startMessage (s : State) (starting : Execution) (descriptor : Descriptor) (approvedBy : Text)
    (approvedAt : Int) : HostMessage :=
  let permissions := s.capable w starting.nodeId permissionsCapability
  .startCommandExecution descriptor approvedBy approvedAt starting.version
    (if permissions then some (starting.approvalScope.getD .once) else none)
    (if permissions then
      some (starting.automaticApproval && starting.approvedBy ≠ some localHostApproval)
    else none)

/-- A queued command is started, and the Node is told so once. -/
def startExecution (execution : Execution) (now : Int) : Host Unit := do
  let starting ← begin w execution now
  publish w starting
  match starting.descriptor, starting.approvedBy, starting.approvedAt with
  | some descriptor, some approvedBy, some approvedAt => do
      let message ← Effect.reads (startMessage w · starting descriptor approvedBy approvedAt)
      if !(← send w starting.nodeId message) then
        let uncertain ← update starting.id starting.version fun e => { e with
          state := .reconciliationRequired
          reasonCode := ofString "start_send_uncertain" }
        publish w uncertain
  | _, _, _ => Effect.raise .other

def State.nodeBusy (s : State) (execution : Execution) : Bool :=
  s.unsettled.any fun entry =>
    entry.id ≠ execution.id && entry.nodeId = execution.nodeId && entry.state.active

/-- What a tick does with an execution that is not settled. -/
def tickExecution (now : Int) (execution : Execution) : Host Unit := do
  if ← Effect.reads (w.blocked · execution.nodeId) then pure ()
  else
    let timing ← Effect.reads (w.preparationTiming · execution)
    match timing, execution.state with
    | .error reason, .preparing => fail w execution reason
    | _, _ =>
        if !execution.state.active && commandApprovalExpiresAt execution ≤ now then
          let expired ← finish w execution .expired (ofString "authorization_expired") id
          publish w expired
        else if ← Effect.reads fun s =>
            (s.assertLead w execution.leadSessionId).isSome ||
              execution.taskId.any (!w.taskActive s ·) then
          discard <| cancel w execution.id none
        else if execution.state ≠ .queued then pure ()
        else if ← Effect.reads (·.nodeBusy execution) then pure ()
        else
          match ← Effect.reads (·.dispatchFailure w execution) with
          | some failure =>
              if failure = .conflict (ofString "unsupported_command_target") &&
                  (← Effect.reads (w.nodeSocket · execution.nodeId)).isNone then pure ()
              else fail w execution (failure.reason "dispatch_recheck_failed")
          | none =>
              if ← Effect.reads (·.durableLead w execution.leadSessionId) then
                startExecution w execution now

/-- Asks for a fresh look at the checkout a command may have changed. -/
def observe (execution : Execution) : Host Unit := do
  match execution.target, execution.taskId with
  | .worktree _ generation, some taskId => do
      match ← Effect.reads (·.db.fences.get taskId) with
      | none => pure ()
      | some fence =>
          if fence.executionId ≠ execution.id || fence.state ≠ .observationRequired ||
              (← Effect.reads (·.observations.get execution.id)).isSome ||
                !(← Effect.reads (·.commandProtocol w execution.nodeId)) then pure ()
          else
            Effect.writes fun s =>
              { s with observations := s.observations.set execution.id (fence, generation) }
  | _, _ => pure ()

def tickOutcome (execution : Execution) : Host Unit := do
  observe w execution
  if execution.delivery = .pending then
    Effect.rescue (queueCompletion w execution) fun e =>
      match e with
      | .conflict _ => pure ()
      | .other => Effect.raise .other

def tick (now : Int) : Host Unit := do
  reconcileSessionGrants w
  orphanPrompts w
  let unsettled ← Effect.reads State.unsettled
  Effect.each unsettled (tickExecution w now)
  let executions ← Effect.reads State.list
  Effect.each executions (tickOutcome w)
  let leads ← Effect.reads fun s => (s.prompts.map (·.delivery.sessionId)).eraseDups
  Effect.each leads (pumpLead w)
  let lastSweep ← Effect.reads (·.lastSweep)
  if 60000 < now - lastSweep then
    sweep now
    Effect.writes fun s => { s with lastSweep := now }
  else pure ()

/-! ### Decisions -/

inductive Decision where
  | allowOnce
  | allowSession
  | allowAlways
  | deny
deriving DecidableEq

def Decision.scope : Decision → ApprovalScope
  | .allowSession => .session
  | .allowAlways => .always
  | _ => .once

/-- What a decision makes of an execution that waits for it. -/
def decided (current : Execution) (descriptor : Descriptor) (decision : Decision) (actor : Text)
    (now : Int) : Host Execution := do
  if decision = .deny then finish w current .denied (ofString "operator_denied") id
  else
    let barred ← Effect.reads (·.assertReusablePermission w current)
    Effect.whenever (decision ≠ .allowOnce) (check barred)
    match ← Effect.reads (w.preparedClockFailure · current) with
    | some failure => finish w current .failed failure id
    | none => do
        happens (.approved current.id descriptor actor now)
        update current.id current.version fun e => { e with
          state := .queued
          approvedBy := some actor
          approvedAt := some now
          approvalScope := some decision.scope
          automaticApproval := false }

def decide (id : Nat) (decision : Decision) (expectedVersion : Nat) (digest : Digest)
    (actor : Text) (now : Int) : Host Execution := do
  let execution ← writeAtomically do
    match ← Effect.reads (·.execution id) with
    | none => conflict "approval_conflict"
    | some current =>
        match current.descriptor with
        | none => conflict "approval_conflict"
        | some descriptor =>
            if current.state ≠ .awaitingApproval || current.version ≠ expectedVersion ||
                descriptor.digest ≠ digest then conflict "approval_conflict"
            else if commandApprovalExpiresAt current ≤ now then
              finish w current .expired (ofString "approval_expired") (fun e => e)
            else do
              check (← Effect.reads (·.assertLead w current.leadSessionId))
              match ← Effect.reads (·.recheckTarget w current) with
              | some failure =>
                  if commandApprovalExpiresAt current ≤ (← Effect.reads w.now) then
                    finish w current .expired (ofString "approval_expired") (fun e => e)
                  else Effect.raise failure
              | none => decided w current descriptor decision actor now
  publish w execution
  tick w now
  found id

/-! ### Answers of a Node -/

structure PreparedAnswer where
  executionId : Nat
  attemptId : Nat
  ok : Bool
  descriptor : Option Descriptor
  error : Option Text

/-- The descriptor is of what was asked for, and its digest is its own. -/
def State.describes (s : State) (current : Execution) (descriptor : Descriptor) : Bool :=
  descriptor.toPreparation = s.preparation w current &&
    descriptor.digest = .prepared descriptor.toPreparation descriptor.prepared &&
      w.normalizedPath descriptor.prepared.cwd =
        w.normalizedPath descriptor.prepared.checkout.path &&
        descriptor.prepared.permission.all fun permission =>
          w.normalizedPath permission.path = w.normalizedPath descriptor.prepared.cwd

/-- What stands against a prepared command, and whether it is another checkout. -/
def State.preparedFailure (s : State) (nodeId : Text) (current : Execution)
    (descriptor : Descriptor) : Option Failure × Bool :=
  match (s.assertLead w current.leadSessionId <|> s.assertReadiness w nodeId current.shell) <|>
      s.recheckTarget w current with
  | some failure => (some failure, false)
  | none =>
      match current.target with
      | .worktree worktreeId _ =>
          (none, (w.workspace s worktreeId).bind (·.checkout) ≠ some descriptor.prepared.checkout)
      | .placement _ => (none, w.checkoutTaken s current descriptor)

/-- Who has approved a command without being asked. -/
def State.automaticApproval (s : State) (nodeId : Text) (current : Execution)
    (descriptor : Descriptor) : Option (Text × ApprovalScope) :=
  if w.hostLocal s current then some (localHostApproval, .once)
  else if !s.capable w nodeId permissionsCapability then none
  else
    match descriptor.prepared.permission with
    | none => none
    | some permission =>
        match permission.grantedBy with
        | none => none
        | some grantedBy =>
            if !permission.reusable || !permission.commandKey.any (!·.all isSpace) then none
            else
              match grantedBy with
              | .builtin => some (ofString "node:" ++ nodeId ++ ofString ":builtin", .once)
              | .session => some (ofString "node:" ++ nodeId ++ ofString ":session", .session)
              | .always => some (ofString "node:" ++ nodeId ++ ofString ":always", .always)

/-- A prepared command waits for approval, or is approved already. -/
def accept (nodeId : Text) (current : Execution) (descriptor : Descriptor) (receivedWall : Int)
    (elapsedMs : Rat) : Host Execution :=
  writeAtomically do
    acceptPreparationClock current.id descriptor.hostTime receivedWall elapsedMs
    match ← Effect.reads (·.automaticApproval w nodeId current descriptor) with
    | none =>
        update current.id current.version fun e => { e with
          descriptor := some descriptor
          state := .awaitingApproval }
    | some (approvedBy, scope) => do
        happens (.approved current.id descriptor approvedBy receivedWall)
        update current.id current.version fun e => { e with
          descriptor := some descriptor
          state := .queued
          approvedBy := some approvedBy
          approvedAt := some receivedWall
          approvalScope := some scope
          automaticApproval := true }

/-- What is prepared in time waits for approval, or cannot be used. -/
def preparedLive (nodeId : Text) (current : Execution) (descriptor : Descriptor) : Host Bool := do
  match ← Effect.reads (w.preparationTiming · current) with
  | .error reason => do
      let failed ← finish w current .failed reason fun e => { e with descriptor := some descriptor }
      publish w failed
      pure true
  | .ok (receivedWall, elapsedMs) =>
      if !(← Effect.reads (w.preparationConsistent · descriptor)) then do
        let failed ← finish w current .failed (ofString "preparation_clock_inconsistent") fun e =>
          { e with descriptor := some descriptor }
        publish w failed
        pure true
      else
        match ← Effect.reads (·.preparedFailure w nodeId current descriptor) with
        | (some (.conflict code), _) => do
            fail w current code
            pure true
        | (some .other, _) => Effect.raise .other
        | (none, true) => pure false
        | (none, false) => do
            let next ← accept w nodeId current descriptor receivedWall elapsedMs
            publish w next
            pure true

/-- What is prepared for a command that is over is only written down. -/
def preparedRetired (current : Execution) (descriptor : Descriptor) : Host Bool := do
  match current.descriptor with
  | some own =>
      if own ≠ descriptor then pure false
      else do
        publish w current
        pure true
  | none => do
      let next ← update current.id current.version fun e =>
        { e with descriptor := some descriptor }
      publish w next
      pure true

def prepared (nodeId : Text) (message : PreparedAnswer) : Host Bool := do
  match ← Effect.reads (·.execution message.executionId) with
  | none => pure false
  | some current =>
      let retired : Bool := current.state.terminal && current.ownership = .notStarted
      if current.nodeId ≠ nodeId || current.attemptId ≠ message.attemptId then pure false
      else if current.state ≠ .preparing && !retired then
        pure (message.descriptor.isSome && current.descriptor = message.descriptor)
      else if retired && !message.ok then pure true
      else if !retired && current.expiresAt ≤ (← Effect.reads w.now) then do
        let expired ← finish w current .expired (ofString "preparation_expired") id
        publish w expired
        pure true
      else if !message.ok then do
        let failed ← finish w current .failed (ofString "preparation_failed") fun e =>
          { e with error := message.error.getD (ofString "Node preparation refused") }
        publish w failed
        pure true
      else
        match message.descriptor with
        | none => Effect.raise .other
        | some descriptor =>
            if !(← Effect.reads (·.describes w current descriptor)) then pure false
            else if retired then preparedRetired w current descriptor
            else preparedLive w nodeId current descriptor

/-! ### Receipts -/

/-- A receipt that an attempt which never began can be believed. -/
def Receipt.noStart (receipt : Receipt) : Bool :=
  (receipt.state = .cancelled || receipt.state = .expired || receipt.state = .failed) &&
    receipt.ownership = .notStarted && receipt.exitCode.isNone && !receipt.outcomeKnown &&
      !receipt.descendantCleanupForced && receipt.startedAt.isNone && receipt.settledAt.isSome &&
        receipt.finalOutputSeq = some 0 && receipt.gaps = []

/-- The command was prepared, and waits. -/
def Receipt.waiting (receipt : Receipt) : Bool :=
  receipt.state = .awaitingApproval && receipt.ownership = .notStarted &&
    receipt.exitCode.isNone && !receipt.outcomeKnown && receipt.settledAt.isNone

/-- A receipt of an execution that may have a process, which does not fit it. -/
def Receipt.misfit (receipt : Receipt) (current : Execution) : Bool :=
  let terminal := receipt.state.terminal
  (terminal && (!(receipt.ownership = .notStarted || receipt.ownership = .quiescent) ||
    receipt.settledAt.isNone || receipt.finalOutputSeq.isNone)) ||
  (receipt.state = .succeeded && (receipt.exitCode ≠ some 0 || !receipt.outcomeKnown ||
    receipt.descendantCleanupForced || receipt.ownership ≠ .quiescent)) ||
  (receipt.state = .failed && receipt.exitCode = some 0) ||
  (receipt.descendantCleanupForced && terminal &&
    !(receipt.state = .interrupted || receipt.state = .timedOut || receipt.state = .cancelled)) ||
  ((receipt.state = .denied || receipt.state = .expired) && receipt.ownership ≠ .notStarted) ||
  (receipt.state = .interrupted && receipt.ownership ≠ .quiescent) ||
  (receipt.state = .running && (receipt.ownership ≠ .active || receipt.startedAt.isNone)) ||
  (!terminal && receipt.settledAt.isSome) ||
  (!terminal && !receipt.state.active) ||
  (receipt.state = .failed && receipt.ownership = .quiescent && !receipt.outcomeKnown) ||
  (receipt.state = .timedOut && receipt.ownership ≠ .quiescent) ||
  (receipt.state = .starting && current.state ≠ .starting) ||
  receipt.finalOutputSeq.any (fun final =>
    final < current.lastOutputSeq || receipt.gaps.any (final < ·.last)) ||
  (current.finalOutputSeq.isSome && receipt.finalOutputSeq ≠ current.finalOutputSeq)

/-- A receipt of an attempt that never began. -/
def receiveNoStart (receipt : Receipt) (current : Execution) (attempt : Option Attempt) :
    Host Bool := do
  if current.ownership ≠ .notStarted || !receipt.noStart || current.lastOutputSeq ≠ 0 then
    pure false
  else
    match attempt.bind (·.receipt) with
    | some previous =>
        if previous ≠ receipt then pure false
        else do
          ack w current
          pure true
    | none =>
        let alreadyTerminal := current.state.terminal
        if !alreadyTerminal && current.state.active then pure false
        else
          let next ← writeAtomically do
            markCancel current
            recordReceipt current.id receipt
            if alreadyTerminal then pure current
            else
              let now ← Effect.reads w.now
              let updated ← update current.id current.version fun e => { e with
                state := receipt.state
                ownership := .notStarted
                exitCode := none
                outcomeKnown := false
                reasonCode := receipt.reason.take 200
                error := receipt.reason
                settledAt := some now
                finalOutputSeq := some 0
                delivery := if current.delivery = .orphaned then .orphaned else .pending }
              refreshOutput updated
          Effect.whenever (!alreadyTerminal) (publish w next)
          ack w next
          pure true

/-- What is still said of an execution that is over: that more output is lost. -/
def receiveGaps (receipt : Receipt) (current : Execution) (previous : Receipt) : Host Bool := do
  if previous.outcome ≠ receipt.outcome ||
      !receipt.finalOutputSeq.any (fun final => !receipt.gaps.any (final < ·.last)) then pure false
  else
    let updated ← writeAtomically do
      let next ← update current.id current.version fun e =>
        { e with gaps := mergeCommandGaps (current.gaps ++ receipt.gaps) }
      recordReceipt current.id receipt
      refreshOutput next
    publish w updated
    ack w updated
    pure true

/-- What becomes of its fence when a command is over: one that never ran leaves
    it as it was found. -/
def Fence.released (fence : Fence) (receipt : Receipt) (now : Int) : Fence :=
  if receipt.ownership = .notStarted then
    match fence.previousVerificationAt with
    | some previous =>
        { fence with
          state := .verificationRequired
          changedAt := previous }
    | none =>
        { fence with
          state := .clear
          changedAt := now }
  else
    { fence with
      state := .observationRequired
      changedAt := now }

/-- The fence of a command that is over, where it is still its own. -/
def settleFence (receipt : Receipt) (current : Execution) : Host Unit := do
  match current.managed with
  | none => pure ()
  | some taskId =>
      let now ← Effect.reads w.now
      Effect.whenever (receipt.ownership ≠ .notStarted) <|
        happens (.settled current.id taskId now)
      match ← Effect.reads (·.db.fences.get taskId) with
      | none => pure ()
      | some fence =>
          if fence.executionId ≠ current.id then pure ()
          else putFence (fence.released receipt now)

/-- What a receipt makes of an execution that may have a process. -/
def Execution.received (e : Execution) (receipt : Receipt) (now : Int) : Execution :=
  { e with
    state :=
      if e.cancelRequested && !receipt.state.terminal then .cancelling else receipt.state
    ownership := receipt.ownership
    exitCode := receipt.exitCode
    outcomeKnown := receipt.outcomeKnown
    descendantCleanupForced := receipt.descendantCleanupForced
    reasonCode := receipt.reason.take 200
    error := receipt.reason
    startedAt :=
      if receipt.ownership = .notStarted then none
      else if receipt.startedAt.isSome then receipt.startedAt else e.startedAt
    settledAt := if receipt.settledAt.isSome then some now else e.settledAt
    finalOutputSeq :=
      if receipt.finalOutputSeq.isSome then receipt.finalOutputSeq else e.finalOutputSeq
    gaps := mergeCommandGaps (e.gaps ++ receipt.gaps)
    delivery :=
      if receipt.state.terminal then if e.delivery = .orphaned then .orphaned else .pending
      else e.delivery }

/-- A receipt of an execution that may have a process is written down. -/
def acceptReceipt (receipt : Receipt) (current : Execution) : Host Execution :=
  writeAtomically do
    let now ← Effect.reads w.now
    let updated ← update current.id current.version fun e => e.received receipt now
    recordReceipt current.id receipt
    Effect.whenever receipt.state.terminal (settleFence w receipt current)
    refreshOutput updated

/-- A retired execution is acknowledged again, and nothing else. -/
def ackRetired (nodeId : Text) (receipt : Receipt) (attempt : Option Attempt) : Host Bool := do
  match attempt with
  | none => pure false
  | some attempt =>
      match attempt.receipt, receipt.finalOutputSeq with
      | some previous, some final =>
          if attempt.retiredAt.isSome && attempt.nodeId = nodeId &&
              attempt.attemptId = receipt.attemptId && attempt.digest = receipt.digest &&
                receipt.state.terminal &&
                  (receipt.ownership = .notStarted || receipt.ownership = .quiescent) &&
                    previous.outcome = receipt.outcome then
            send w nodeId
              (.commandExecutionAck receipt.executionId receipt.attemptId receipt.digest final true)
          else pure false
      | _, _ => pure false

def receiveReceipt (nodeId : Text) (receipt : Receipt) : Host Bool := do
  if receipt.ownership = .notStarted && receipt.startedAt.isSome then pure false
  else
    let attempt ← Effect.reads (·.db.attempts.get receipt.executionId)
    match ← Effect.reads (·.execution receipt.executionId) with
    | none => ackRetired w nodeId receipt attempt
    | some current =>
        if current.nodeId ≠ nodeId || current.attemptId ≠ receipt.attemptId then pure false
        else if receipt.waiting && current.descriptor.all (·.digest = receipt.digest) then do
          Effect.whenever (current.state.terminal && current.ownership = .notStarted) <|
            sendCancel w current true
          pure true
        else if (current.descriptor.map (·.digest)) ≠ some receipt.digest then pure false
        else
          match attempt.bind (·.startVersion), attempt with
          | none, _ | _, none => receiveNoStart w receipt current attempt
          | some _, some attempt =>
              if attempt.receipt = some receipt then do
                ack w current
                pure true
              else if current.state.terminal then
                match attempt.receipt with
                | none => pure false
                | some previous => receiveGaps w receipt current previous
              else if !current.state.active || receipt.misfit current then pure false
              else do
                let next ← acceptReceipt w receipt current
                publish w next
                ack w next
                tick w (← Effect.reads w.now)
                pure true

def receiveOutput (nodeId : Text) (event : OutputEvent) : Host Bool := do
  match ← Effect.reads (·.execution event.executionId) with
  | none => pure false
  | some execution =>
      let started ← Effect.reads fun s =>
        (s.db.attempts.get execution.id).bind (·.startVersion)
      if execution.nodeId ≠ nodeId || execution.attemptId ≠ event.attemptId ||
          !started.any (· ≠ 0) || execution.descriptor.isNone then pure false
      else
        let (next, _) ← appendOutput w execution event
        Effect.whenever (next.outputComplete ≠ execution.outputComplete ||
          (execution.gaps = [] && next.gaps ≠ [])) (publish w next)
        ack w next
        pure true

inductive NodeMessage where
  | prepared (answer : PreparedAnswer)
  | output (event : OutputEvent)
  | update (receipt : Receipt)
  | inventory (readiness : Readiness) (executions : List Receipt)
  | leadPromptReceipt (receipt : LeadPromptReceipt)

/-- `CommandExecutionNodeMessageSchema`, past the shape of the fields. -/
def NodeMessage.valid : NodeMessage → Bool
  | .prepared answer => !answer.ok || answer.descriptor.isSome
  | .output event => 0 < event.sequence
  | .update receipt => receipt.valid
  | .inventory _ executions => executions.length ≤ 128 && executions.all Receipt.valid
  | .leadPromptReceipt _ => true

/-- The receipts of an inventory, until one is refused. -/
def receiveInventory (nodeId : Text) : List Receipt → Host Bool
  | [] => do
      tick w (← Effect.reads w.now)
      pure true
  | receipt :: rest => do
      if ← receiveReceipt w nodeId receipt then receiveInventory nodeId rest
      else pure false

def handleNodeMessage (nodeId : Text) (message : NodeMessage) : Host Bool := do
  if !message.valid then pure false
  else
    match message with
    | .leadPromptReceipt receipt => promptReceipt w nodeId receipt
    | message =>
        if !(← Effect.reads (·.commandProtocol w nodeId)) then pure false
        else
          match message with
          | .leadPromptReceipt receipt => promptReceipt w nodeId receipt
          | .inventory readiness executions => do
              Effect.writes fun s =>
                match s.peers.get nodeId with
                | none => s
                | some peer => s.setPeer nodeId { peer with readiness := some readiness }
              receiveInventory w nodeId executions
          | .update receipt => receiveReceipt w nodeId receipt
          | .prepared answer => do
              let accepted ← prepared w nodeId answer
              let queued ← Effect.reads fun s =>
                (s.execution answer.executionId).any (·.state = .queued)
              let now ← Effect.reads w.now
              Effect.whenever (accepted && queued) (tick w now)
              pure accepted
          | .output event => receiveOutput w nodeId event

/-! ### Connections -/

def nodeReady (nodeId : Text) (capabilities : List Text) (readiness : Option Readiness) :
    Host Unit :=
  Effect.writes fun s =>
    match w.nodeSocket s nodeId with
    | none => { s with peers := s.peers.erase nodeId }
    | some link =>
        s.setPeer nodeId
          { link := link.id
            commandProtocol := readiness.isSome
            capabilities
            readiness }

def nodeDisconnected (nodeId : Text) : Host Unit := do
  Effect.writes fun s => { s with peers := s.peers.erase nodeId }
  let preparing ← Effect.reads fun s =>
    s.unsettled.filter fun e => e.nodeId = nodeId && e.state = .preparing
  Effect.each preparing fun execution =>
    fail w execution (ofString "preparation_connection_changed")
  let active ← Effect.reads fun s =>
    s.unsettled.filter fun e => e.nodeId = nodeId && e.state.active
  Effect.each active fun execution => do
    let lost ← update execution.id execution.version fun e => { e with
      state := .reconciliationRequired
      ownership := .unknown
      reasonCode := ofString "node_offline" }
    publish w lost
  let prompts ← Effect.reads fun s =>
    s.prompts.filter fun record =>
      record.nodeId = nodeId && (record.state = .reserved || record.state = .accepted)
  Effect.each prompts fun record => updatePrompt { record with state := .uncertain }

/-- What is asked of a Node in messages of at most 128 executions. -/
def sendReconcile (nodeId hostId : Text) : Nat → List (Nat × Nat × Nat) → Host Unit
  | 0, _ | _, [] => pure ()
  | fuel + 1, executions => do
      discard <| send w nodeId (.reconcileCommandExecutions hostId (executions.take 128))
      sendReconcile nodeId hostId fuel (executions.drop 128)

def reconnect (nodeId : Text) : Host Unit := do
  if ← Effect.reads (w.blocked · nodeId) then pure ()
  else
    reconcileSessionGrants w
    let hostId ← Effect.reads fun s => (w.hostId s).getD []
    let executions ← Effect.reads fun s =>
      (s.list.filter fun e => e.nodeId = nodeId && (e.state.active || !e.outputComplete)).map
        fun e => (e.id, e.attemptId, s.throughSeq e)
    sendReconcile w nodeId hostId executions.length executions
    let unsettled ← Effect.reads fun s => s.unsettled.filter fun e => e.nodeId = nodeId
    Effect.each unsettled fun execution => do
      Effect.whenever (execution.state = .preparing) <|
        fail w execution (ofString "preparation_connection_changed")
      sendCancel w execution false
    let prompts ← Effect.reads fun s =>
      s.prompts.filter fun record => record.nodeId = nodeId && record.state.offered
    Effect.each prompts fun record =>
      discard <| send w nodeId (.deliverLeadPrompt record.delivery)
    tick w (← Effect.reads w.now)

/-- What a look at a checkout has found. -/
structure Observation where
  ok : Bool
  pathExists : Bool
  registered : Bool
  generation : Nat
  observedAt : Int

/-- The checkout was seen after the command was over, and nobody has begun since. -/
def noteObservation (executionId : Nat) (fence : Fence) (generation : Nat)
    (outcome : Option Observation) : Host Unit := do
  match outcome with
  | none => pure ()
  | some observation => do
      let current ← Effect.reads (·.db.fences.get fence.taskId)
      if observation.ok && observation.pathExists && observation.registered &&
          observation.generation = generation && fence.changedAt ≤ observation.observedAt &&
            current.any (·.executionId = executionId) then
        let now ← Effect.reads w.now
        changeDb fun db =>
          { db with
            fences := db.fences.set fence.taskId { fence with
              state := .verificationRequired
              changedAt := now }
            history := db.history ++ [.observed fence.taskId observation.observedAt] }
      else pure ()

/-- An observation is answered, or fails. -/
def observed (executionId : Nat) (outcome : Option Observation) : Host Unit := do
  match ← Effect.reads (·.observations.get executionId) with
  | none => pure ()
  | some (fence, generation) => do
      noteObservation w executionId fence generation outcome
      Effect.writes fun s => { s with observations := s.observations.erase executionId }

/-- The Host is started again: the tables are what is left of it. -/
def restart : Host Unit := do
  Effect.writes fun s =>
    { s with
      peers := Table.empty
      observations := Table.empty
      lastSweep := 0 }
  quarantine w false

/-! ### Runs -/

inductive Op where
  | request (leadId : Text) (run : RunCommand) (now : Int)
  | decide (id : Nat) (decision : Decision) (expectedVersion : Nat) (digest : Digest)
      (actor : Text) (now : Int)
  | cancel (id : Nat) (leadId : Option Text)
  | revokeLead (leadId : Text) (preservePendingPrompts : Bool)
  | revokeAllSessionGrants
  | revokeTask (taskId : Text)
  | tick (now : Int)
  | nodeReady (nodeId : Text) (capabilities : List Text) (readiness : Option Readiness)
  | nodeMessage (nodeId : Text) (message : NodeMessage)
  | nodeDisconnected (nodeId : Text)
  | reconnect (nodeId : Text)
  | observed (executionId : Nat) (outcome : Option Observation)
  | queueLeadPrompt (leadId prompt : Text) (key : Text) (executionBinding : Option Text)
      (attachments : List Attachment)
  | prioritizePrompt (deliveryId : Nat)
  | pumpLead (leadId : Text)
  | recordStepEvidence (taskId stepId : Text)
  | restart

def operate (w : World) : Op → Host Unit
  | .request leadId run now => discard <| request w leadId run now
  | .decide id decision expectedVersion digest actor now =>
      discard <| decide w id decision expectedVersion digest actor now
  | .cancel id leadId => discard <| cancel w id leadId
  | .revokeLead leadId preserve => revokeLead w leadId preserve
  | .revokeAllSessionGrants => revokeAllSessionGrants w
  | .revokeTask taskId => revokeTask w taskId
  | .tick now => tick w now
  | .nodeReady nodeId capabilities readiness => nodeReady w nodeId capabilities readiness
  | .nodeMessage nodeId message => discard <| handleNodeMessage w nodeId message
  | .nodeDisconnected nodeId => nodeDisconnected w nodeId
  | .reconnect nodeId => reconnect w nodeId
  | .observed executionId outcome => observed w executionId outcome
  | .queueLeadPrompt leadId prompt key binding attachments =>
      discard <| queueLeadPrompt w leadId prompt (.other key) [] binding attachments
  | .prioritizePrompt deliveryId => prioritizePrompt w deliveryId
  | .pumpLead leadId => pumpLead w leadId
  | .recordStepEvidence taskId stepId => recordStepEvidence taskId stepId
  | .restart => restart w

/-- An operation, whether it throws or not; the rest of the world is another
    one each time. -/
def step (s : State) (input : World × Op) : State := (operate input.1 input.2 s).2

end Commands

end CopilotFleet
