import CopilotFleet.Lib.Table
import CopilotFleet.Orchestrator.Placement

/-!
# The Planner

What the engine should do next with one run, decided from a snapshot: the run
and its steps, every session, Node and placement, and the turns known to have
completed. The answer is a list of actions, to be executed in order, and a
reason for each pending step that was left pending.

One pass has four parts. It records what has already happened to the steps in
flight (`settleStep`), skips what can no longer run (`skipStep`), dispatches
what may (`dispatchStep`), and last looks at the run as a whole (`conclude`).
Between the parts nothing is written to the steps. What the pass has settled
so far overlays their states, and that overlay is what each later part reads.

A row of the snapshot is identified by its primary key, so the keys of each
table of the input are distinct, and so are the names the steps of one run
have among each other.

## Main definitions

* `ScheduleAction`, `StepHold`: What a pass answers.
* `ScheduleInput`: The snapshot.
* `Pass`: What a pass has decided so far.
* `Board`: What the dispatch loop reads and never changes.
* `settleStep`, `skipStep`, `dispatchStep`, `conclude`: The four parts.
* `planNextActions`: The whole pass.
-/

namespace CopilotFleet

open Utf16

namespace Orchestrator

inductive ScheduleAction where
  | startStep (stepId placementId prompt : Text)
  /-- Re-attaches the session a pending retry already belongs to. -/
  | resumeStep (stepId sessionId : Text) (exceptionId : Option Text)
  | promptStep (stepId sessionId prompt : Text)
  | advanceStep (stepId : Text)
  | settleStep (stepId : Text) (state : RunStepState) (output : Text)
  | skipStep (stepId reason : Text)
  | stopSession (sessionId reason : Text)
  | deliverPrompt (runId prompt : Text)
  | wakeLead (runId prompt : Text)
  | finishRun (state : RunState) (reason : Text)
  deriving DecidableEq, Repr

inductive StepHoldCode where
  | taskHeld
  | nodesUnknown
  | dependencies
  | workspaceNotReady
  | stopPending
  | dismissed
  | nodeOffline
  | checkoutBusy
  | parallelLimit
  | nodeHeadroom
  | nodeCapacity
  | sessionBusy
  | noPlacement
  | maintenanceHold
  | commandFence
  | cleanupPending
  deriving DecidableEq, Repr

structure HeldCapacity where
  kind : SessionKind
  reserved : Nat
  limit : Nat
  deriving DecidableEq, Repr

structure StepHold where
  code : StepHoldCode
  detail : Text
  conflicts : Option (List Text) := none
  nodeId : Option Text := none
  placementId : Option Text := none
  checkoutKey : Option Text := none
  capacity : Option HeldCapacity := none
  deriving DecidableEq, Repr

/-- An operator-approved, one-shot exception for one queued retry. -/
structure ScheduleException where
  requestId : Text
  sessionId : Text
  attempt : Nat
  deriving DecidableEq, Repr

structure ScheduleInput where
  workspaceReady : Option Bool := none
  parkableSessionIds : List Text := []
  run : Run
  steps : List RunStep
  sessions : List FleetSession
  nodes : List FleetNode
  placements : List Placement
  repositoryCapabilities : List PlacementRepositoryCapability := []
  /-- Sessions whose current turn has ended. -/
  turnCompleteSessionIds : List Text := []
  stepOutputs : Text → Option Text := fun _ => none
  nowMs : Int
  holds : Option (Table Text StepHold) := none
  exceptions : Text → Option ScheduleException := fun _ => none
  steps_nodup : (steps.map RunStep.id).Nodup
  stepKeys_nodup : (steps.map RunStep.stepKey).Nodup
  sessions_nodup : (sessions.map FleetSession.id).Nodup
  nodes_nodup : (nodes.map FleetNode.id).Nodup
  placements_nodup : (placements.map Placement.id).Nodup

/-- What a pass has decided so far. -/
structure Pass where
  settled : Table Text RunStepState
  actions : List ScheduleAction
  holds : Option (Table Text StepHold)
  reservedByNode : Table (Text × SessionKind) Nat
  writingInFlight : List Text
  started : Nat
  dispatched : List Text

namespace Pass

def push (s : Pass) (action : ScheduleAction) : Pass :=
  { s with actions := s.actions ++ [action] }

def hold (s : Pass) (step : RunStep) (value : StepHold) : Pass :=
  { s with holds := s.holds.map fun holds => holds.set step.id value }

/-- The state of a step as it will be, not as it was. -/
def effectiveState (s : Pass) (step : RunStep) : RunStepState :=
  (s.settled.get step.id).getD step.state

def advance (s : Pass) (step : RunStep) : Pass :=
  { s with
    settled := s.settled.set step.id .running
    actions := s.actions ++ [.advanceStep step.id] }

def settle (s : Pass) (step : RunStep) (state : RunStepState) (output : Text) : Pass :=
  { s with
    settled := s.settled.set step.id state
    actions := s.actions ++ [.settleStep step.id state output] }

def skip (s : Pass) (step : RunStep) (reason : Text) : Pass :=
  { s with
    settled := s.settled.set step.id .skipped
    actions := s.actions ++ [.skipStep step.id reason] }

end Pass

section

variable (env : Environment) (input : ScheduleInput)

/-- The session a step names, if it names one. -/
def sessionOf (step : RunStep) : Option FleetSession :=
  if step.sessionId ≠ [] then sessionById input.sessions step.sessionId else none

def turnComplete (session : FleetSession) : Bool :=
  input.turnCompleteSessionIds.contains session.id

/-- Whether the Node of a step is online, when its Node is known at all. -/
def nodeOnlineForStep (step : RunStep) : Option Bool :=
  let placement :=
    if step.placementId ≠ [] then placementById input.placements step.placementId else none
  let nodeId := match placement with
    | some placement => some placement.nodeId
    | none => (sessionById input.sessions step.sessionId).map FleetSession.nodeId
  match nodeId with
  | none => none
  | some nodeId =>
      if nodeId = [] then none else (nodeById input.nodes nodeId).map FleetNode.online

/-- The Node has confirmed that it took the command of a starting step. -/
def acknowledged (step : RunStep) (pending : FleetSession) : Bool :=
  if 1 < step.attempts then
    pending.state = .running || pending.state.terminal ||
      -- Only a dispatched prompt's current-attempt receipt proves it ran.
      (step.dispatchedAt ≠ [] && pending.state = .idle && turnComplete input pending)
  else pending.state ≠ .queued && pending.state ≠ .offline

/-- The dispatch of a step is older than its deadline. -/
def overdue (step : RunStep) : Bool :=
  step.dispatchedAt ≠ [] && (env.parseDate step.dispatchedAt).any fun since =>
    (input.run.policy.startingTimeoutMs : Int) < input.nowMs - since

/-- The step has run for longer than its time budget. -/
def timedOut (step : RunStep) : Bool :=
  (env.parseDate step.updatedAt).any fun updated =>
    (input.run.policy.stepTimeoutMs : Int) < input.nowMs - updated

def outputOf (step : RunStep) : Text := (input.stepOutputs step.id).getD []

/-- A running step settles on what its session has become. -/
def settleRunning (s : Pass) (step : RunStep) : Pass :=
  match sessionOf input step with
  | none => s.settle step .failed (ofString "The session running this step is gone.")
  | some session =>
      -- Offline is unknown, not lost: the Node may still be holding the agent.
      if session.state = .offline then s
      else if session.state.terminal then
        s.settle step
          (if session.state = .completed && turnComplete input session then .succeeded
            else .failed)
          (outputOf input step)
      -- The only success: the agent finished a turn and went back to idle.
      else if session.state = .idle && turnComplete input session then
        s.settle step .succeeded (outputOf input step)
      else if timedOut env input step then
        s.push (.stopSession session.id (ofString "Step exceeded its time budget"))
      else s

/-- A starting step whose command was not acknowledged fails at its deadline. -/
def settleUnacknowledged (s : Pass) (step : RunStep) : Pass :=
  -- Only a node we can see is one we can conclude anything about.
  if nodeOnlineForStep input step = some false then s
  else if overdue env input step then
    s.settle step .failed (ofString "The node never acknowledged this dispatch.")
  else s

/-- What has already happened to one step. -/
def settleStep (s : Pass) (step : RunStep) : Pass :=
  match step.state with
  | .starting =>
      if (sessionOf input step).any (acknowledged input step) then
        -- A fast agent can finish before the next tick arrives.
        settleRunning env input (s.advance step) step
      else settleUnacknowledged env input s step
  | .running => settleRunning env input s step
  | _ => s

/-- The state of the step a key names, as the settlements left it. -/
def stateByKey (s : Pass) (stepKey : Text) : Option RunStepState :=
  (input.steps.find? fun step => step.stepKey = stepKey).map s.effectiveState

def failedState : Option RunStepState → Bool
  | some .failed => true
  | some .skipped => true
  | some .cancelled => true
  | _ => false

/-- A pending step with a failed dependency is skipped. `states` is read once,
    before any step is skipped. -/
def skipStep (states : Text → Option RunStepState) (s : Pass) (step : RunStep) : Pass :=
  if s.effectiveState step ≠ .pending then s
  else
    match step.dependsOn.find? fun key => failedState (states key) with
    | none => s
    | some blocked =>
        if blocked = [] then s
        else s.skip step (ofString "Depends on " ++ blocked ++ ofString ", which did not succeed.")

/-! ### The dispatch loop -/

def isInFlight (state : RunStepState) : Bool := state = .starting || state = .running

/-- What the dispatch loop reads and never changes. -/
structure Board where
  stateByKey : Text → Option RunStepState
  inFlight : List RunStep
  activeRetries : List RunStep

/-- A pending retry whose session is not idle and not over yet. -/
def isActiveRetry (s : Pass) (step : RunStep) : Bool :=
  s.effectiveState step = .pending &&
    (sessionOf input step).any fun session => session.state ≠ .idle && !session.state.terminal

def board (states : Text → Option RunStepState) (s : Pass) : Board where
  stateByKey := states
  inFlight := input.steps.filter fun step => isInFlight (s.effectiveState step)
  activeRetries := input.steps.filter (isActiveRetry input s)

/-- The sessions and steps the dispatch loop found at work. -/
def Board.working (b : Board) : List RunStep := b.inFlight ++ b.activeRetries

def heldBy (session : FleetSession) : Bool :=
  holdsCheckout session (nodeById input.nodes session.nodeId)

/-- The key a step at a placement writes under. -/
def stepKeyAt (step : RunStep) (placementId : Text) : Text :=
  match step.executionBinding with
  | some binding => binding.checkoutKey
  | none => executionKey input.run placementId

def needsLease (step : RunStep) : Bool := requiresCheckoutLease input.run step.category

/-- The keys written under before anything is dispatched. -/
def initialWriting (b : Board) : List Text :=
  (input.sessions.filter (heldBy input)).map checkoutLockKey ++
    (b.working.filter fun step => needsLease input step && step.placementId ≠ []).map
      fun step => stepKeyAt input step step.placementId

def reservedFor (s : Pass) (nodeId : Text) (kind : SessionKind) : Nat :=
  -- Remembering a count that was only read changes no later answer.
  (s.reservedByNode.get (nodeId, kind)).getD (reservedSessionCount input.sessions nodeId kind)

def heldByHuman : Bool := input.run.state = .awaitingHuman

def workspaceReady : Bool :=
  input.workspaceReady.getD (match input.run.workspaceBinding with
    | some binding => binding.effectiveMode ≠ .managed || binding.initialization = .ready
    | none => true)

def parallelBudget (b : Board) : Int :=
  if heldByHuman input then 0
  else (input.run.policy.maxParallel : Int) - b.inFlight.length - b.activeRetries.length

def hasWritingStep : Bool := input.steps.any fun step => isWritingCategory step.category

def awaitingPerson : StepHold where
  code := .taskHeld
  detail := ofString ("The task is waiting for a person's review; " ++
    "nothing new is dispatched until it is approved, sent back or reopened.")

def budgetHold (b : Board) (s : Pass) : StepHold :=
  if heldByHuman input then awaitingPerson
  else
    { code := .parallelLimit
      detail := ofString "The task already runs " ++
        ofString (toString (b.inFlight.length + b.activeRetries.length + s.started)) ++
        ofString " of its " ++ ofString (toString input.run.policy.maxParallel) ++
        ofString " parallel steps; this starts when one settles."
      conflicts := some ((b.working.map RunStep.sessionId).filter (· ≠ [])) }

/-- The reasons a step is held before a session is looked for. -/
def gate (b : Board) (step : RunStep) : Option StepHold :=
  let retryWorkspaceReady := step.sessionId ≠ [] && step.workspaceState = some .ready &&
    step.executionBinding.isSome
  let unmet := step.dependsOn.filter fun key => b.stateByKey key ≠ some .succeeded
  if !workspaceReady input && !retryWorkspaceReady then
    some { code := .workspaceNotReady
           detail := ofString "The task's workspace is still being prepared." }
  else if unmet ≠ [] then
    some { code := .dependencies
           detail := ofString "Waiting for " ++ join unmet ++ ofString " to succeed first." }
  else if input.run.managed && step.executionBinding.isNone then
    some { code := .workspaceNotReady
           detail := ofString "This step's isolated workspace is not ready yet." }
  else none

def parkReason : Text :=
  ofString ("Park the settled conversation and verify process quiescence " ++
    "before checkout handoff.")

/-- An idle worker that has settled its work and holds what the step needs. -/
def parkable (s : Pass) (step : RunStep) (desiredKey : Text) (occupant : FleetSession) : Bool :=
  !(occupant.id = step.sessionId || !heldBy input occupant || occupant.runRole = .lead ||
      occupant.state ≠ .idle || occupant.stopRequested ||
      checkoutLockKey occupant ≠ desiredKey) &&
    (input.parkableSessionIds.contains occupant.id ||
      input.steps.any fun previous =>
        previous.sessionId = occupant.id && (s.effectiveState previous).terminal)

def stops (sessionId : Text) : ScheduleAction → Bool
  | .stopSession stopped _ => stopped = sessionId
  | _ => false

def parkOccupant (step : RunStep) (desiredKey : Text) (s : Pass) (occupant : FleetSession) :
    Pass :=
  if parkable input s step desiredKey occupant && !s.actions.any (stops occupant.id) then
    s.push (.stopSession occupant.id parkReason)
  else s

/-- What the step would write under where it, or else its run, is placed. -/
def desiredKey (step : RunStep) : Text :=
  stepKeyAt input step
    (if step.placementId ≠ [] then step.placementId else input.run.placementId)

/-- Parks the settled workers that hold what a step needs. -/
def parkOccupants (s : Pass) (step : RunStep) : Pass :=
  if !heldByHuman input && workspaceReady input && needsLease input step then
    input.sessions.foldl (parkOccupant input step (desiredKey input step)) s
  else s

/-- What the dispatch loop does with a step that is still pending. -/
inductive Decision where
  | hold (value : StepHold)
  | fail (output : Text)
  | prompt (sessionId key : Text)
  | resume (sessionId key nodeId : Text) (kind : SessionKind) (exceptionId : Option Text)
  | start (placement : Placement)
  /-- Leave the loop: the parallel budget is spent. -/
  | exhausted

def stateText : SessionState → Text
  | .queued => ofString "queued"
  | .starting => ofString "starting"
  | .running => ofString "running"
  | .idle => ofString "idle"
  | .cancelling => ofString "cancelling"
  | .offline => ofString "offline"
  | .stopped => ofString "stopped"
  | .completed => ofString "completed"
  | .failed => ofString "failed"

def sessionBusyDetail (state : SessionState) : Text :=
  match state with
  | .starting => ofString ("The worker's conversation is being started or restored; " ++
      "its queued follow-up is sent once it is idle.")
  | .running => ofString ("The worker is running a turn; " ++
      "its queued follow-up is sent once that turn ends and the worker is idle.")
  | .cancelling => ofString ("The worker is cancelling its current turn; " ++
      "its queued follow-up is sent once it is idle.")
  | .offline => ofString ("The worker's Node connection is being re-established; " ++
      "its queued follow-up waits for the worker's state.")
  | other => ofString "The worker is " ++ stateText other ++
      ofString "; its queued follow-up is sent once it is idle."

def sessionLabel (session : FleetSession) : Text :=
  if session.name ≠ [] then ofString "\"" ++ session.name ++ ofString "\""
  else ofString "session " ++ session.id.take 8

/-- Names who holds a checkout, and whether Fleet will hand it over by itself. -/
def checkoutBusyDetail (placement : Placement) (node : FleetNode)
    (occupants : List FleetSession) : Text :=
  let managed := occupants.all fun occupant =>
    occupant.runRole = .worker || occupant.runRole = .reviewer
  let managedCheckout := occupants.any FleetSession.bound
  let needsQuiescence :=
    managedCheckout || node.capabilities.contains managedWorktreesCapability
  placement.localPath ++ ofString " on " ++ node.name ++ ofString " is in use by " ++
    join (occupants.map fun occupant =>
      sessionLabel occupant ++ ofString " (" ++ stateText occupant.state ++ ofString ")") ++
    ofString ". " ++
    (if managedCheckout then ofString "One live process holds a managed checkout at a time."
      else ofString ("Only one writer can use a legacy checkout at a time; " ++
        "read-only work can share it.")) ++
    ofString " " ++
    (if needsQuiescence then
      (if managed then ofString ("Fleet parks a settled task worker before handing its " ++
          "checkout over, so this resumes by itself once that session finishes its turn.")
        else ofString ("A session that no task manages keeps the checkout until whoever is " ++
          "using it stops it."))
      else ofString ("This resumes by itself once the writing turn finishes or its session " ++
        "is stopped."))

/-- The other live sessions holding what a retry would write to. -/
def occupantsOf (step : RunStep) (session : FleetSession) (key : Text) : List FleetSession :=
  if needsLease input step then
    input.sessions.filter fun candidate =>
      candidate.id ≠ session.id && checkoutLockKey candidate = key && heldBy input candidate
  else []

/-- The sessions of this task's own steps that write under a key. -/
def sameTaskWriters (b : Board) (step : RunStep) (key : Text) : List Text :=
  ((b.working.filter fun entry => entry.id ≠ step.id &&
      stepKeyAt input entry entry.placementId = key && needsLease input entry).map
    RunStep.sessionId).filter (· ≠ [])

/-- The exception an operator approved for exactly this session and attempt. -/
def approved (step : RunStep) (session : FleetSession) : Option ScheduleException :=
  (input.exceptions step.id).filter fun granted =>
    granted.sessionId = session.id && granted.attempt = step.attempts

/-- The sessions that hold the slots of a Node. -/
def slotHolders (node : FleetNode) (kind : SessionKind) : List Text :=
  (input.sessions.filter (reserves node.id kind)).map FleetSession.id

def capacityDetail (node : FleetNode) (kind : SessionKind) (reserved limit : Nat) : Text :=
  if reserved < limit then
    node.name ++ ofString " is at Fleet's scheduling limit for " ++ kindText kind ++
      ofString " work: " ++ ofString (toString reserved) ++ ofString " of " ++
      ofString (toString limit) ++ ofString (" slots are held, and Fleet keeps the last slot " ++
        "free on a multi-slot Node.")
  else
    node.name ++ ofString " is full for " ++ kindText kind ++ ofString " work: " ++
      ofString (toString reserved) ++ ofString " of " ++ ofString (toString limit) ++
      ofString " slots are held. The follow-up resumes when one frees."

def capacityHold (node : FleetNode) (kind : SessionKind) (reserved limit : Nat) : StepHold where
  code := if reserved < limit then .nodeHeadroom else .nodeCapacity
  detail := capacityDetail node kind reserved limit
  conflicts := some (slotHolders input node kind)
  capacity := some { kind, reserved, limit }

/-- A hold that names where the retry is attached. -/
def heldAt (node : FleetNode) (placementId : Text) (value : StepHold) : StepHold :=
  { value with nodeId := some node.id, placementId := some placementId }

def stopPendingHold : StepHold where
  code := .stopPending
  detail := ofString ("A Stop for this worker has not been acknowledged yet; " ++
    "the queued follow-up waits for it.")

def dismissedHold : StepHold where
  code := .dismissed
  detail := ofString ("The worker session is dismissed; " ++
    "restore it before its queued follow-up can run.")

def nodeOfflineHold (node : FleetNode) : StepHold where
  code := .nodeOffline
  detail := node.name ++ ofString " is offline; the queued follow-up waits for it to reconnect."

def occupiedHold (placement : Placement) (node : FleetNode) (key : Text)
    (occupants : List FleetSession) : StepHold where
  code := .checkoutBusy
  detail := checkoutBusyDetail placement node occupants
  conflicts := some (occupants.map FleetSession.id)
  checkoutKey := some key

def sameTaskBusy (b : Board) (step : RunStep) (placement : Placement) (node : FleetNode)
    (key : Text) : StepHold where
  code := .checkoutBusy
  detail := ofString "Another step of this task is writing to " ++ placement.localPath ++
    ofString " on " ++ node.name ++ ofString "; one writer per checkout."
  conflicts := some (sameTaskWriters input b step key)
  checkoutKey := some key

/-- A retry whose session is over: the last check is the room on its Node, where
    an approved exception spends the reserved margin and no more than that. -/
def resumeDecision (s : Pass) (step : RunStep) (session : FleetSession) (node : FleetNode)
    (placementId key : Text) : Decision :=
  if 0 < remainingCapacity node (reservedFor input s node.id session.kind) session.kind then
    .resume session.id key node.id session.kind none
  else
    match (approved input step session).filter fun _ =>
        reservedFor input s node.id session.kind < capacityFor node session.kind with
    | some granted => .resume session.id key node.id session.kind
        (if granted.requestId ≠ [] then some granted.requestId else none)
    | none => .hold (heldAt node placementId (capacityHold input node session.kind
        (reservedFor input s node.id session.kind) (capacityFor node session.kind)))

/-- A retry whose session, placement and Node are all there; `key` is what it
    writes under. -/
def workerDecision (b : Board) (s : Pass) (step : RunStep) (session : FleetSession)
    (placement : Placement) (node : FleetNode) (placementId key : Text) : Decision :=
  if session.stopRequested then .hold (heldAt node placementId stopPendingHold)
  else if session.dismissed then .hold (heldAt node placementId dismissedHold)
  else if !node.online then .hold (heldAt node placementId (nodeOfflineHold node))
  else if occupantsOf input step session key ≠ [] then
    .hold (heldAt node placementId
      (occupiedHold placement node key (occupantsOf input step session key)))
  else if session.state = .idle then
    if parallelBudget input b ≤ s.started then
      .hold (heldAt node placementId (budgetHold input b s))
    else if needsLease input step && s.writingInFlight.contains key &&
        !(heldBy input session && s.started = 0) then
      .hold (heldAt node placementId (sameTaskBusy input b step placement node key))
    else .prompt session.id key
  else if !session.state.terminal then
    .hold (heldAt node placementId
      { code := .sessionBusy, detail := sessionBusyDetail session.state })
  else if step.dispatchedAt ≠ [] then
    .fail (if session.currentActivity ≠ [] then session.currentActivity
      else ofString "The existing worker session ended while it was being resumed.")
  else if parallelBudget input b ≤ s.started then
    .hold (heldAt node placementId (budgetHold input b s))
  else if needsLease input step && s.writingInFlight.contains key then
    .hold (heldAt node placementId (sameTaskBusy input b step placement node key))
  else resumeDecision input s step session node placementId key

/-- Where the session of a retry is attached. -/
def retryPlacementId (step : RunStep) : Text :=
  if step.placementId ≠ [] then step.placementId
  else ((sessionById input.sessions step.sessionId).map FleetSession.placementId).getD []

/-- The session, placement and Node of a retry, when none of them was removed. -/
def attachment (step : RunStep) : Option (FleetSession × Placement × FleetNode) :=
  match sessionById input.sessions step.sessionId with
  | none => none
  | some session =>
      if retryPlacementId input step = [] then none
      else
        match placementById input.placements (retryPlacementId input step) with
        | none => none
        | some placement =>
            (nodeById input.nodes placement.nodeId).map fun node => (session, placement, node)

/-- A pending step with a session is a retry of that same conversation. -/
def retryDecision (b : Board) (s : Pass) (step : RunStep) : Decision :=
  match attachment input step with
  | none => .fail (ofString ("The queued follow-up's original session, placement or Node was " ++
      "removed. Read the task context before deciding on replacement work."))
  | some (session, placement, node) =>
      workerDecision input b s step session placement node (retryPlacementId input step)
        (stepKeyAt input step (retryPlacementId input step))

def placementRequest (s : Pass) (step : RunStep) : PlacementRequest where
  run := input.run
  category := step.category
  hasWritingStep := hasWritingStep input
  placements := input.placements
  nodes := input.nodes
  reservedFor := reservedFor input s
  writingInFlight := s.writingInFlight
  repositoryCapabilities := input.repositoryCapabilities

/-- A pending step without a session asks for a placement. -/
def freshDecision (b : Board) (s : Pass) (step : RunStep) : Decision :=
  if parallelBudget input b ≤ s.started then .exhausted
  else
    match choosePlacement env (placementRequest input s step) step with
    | .error reason => .hold { code := .noPlacement, detail := reason }
    | .ok placement => .start placement

def lease (s : Pass) (step : RunStep) (key : Text) : List Text :=
  if needsLease input step then s.writingInFlight ++ [key] else s.writingInFlight

def Pass.prompt (s : Pass) (step : RunStep) (sessionId key : Text) : Pass :=
  { s with
    writingInFlight := lease input s step key
    started := s.started + 1
    dispatched := s.dispatched ++ [step.id]
    actions := s.actions ++ [.promptStep step.id sessionId step.prompt] }

def Pass.resume (s : Pass) (step : RunStep) (sessionId key nodeId : Text) (kind : SessionKind)
    (exceptionId : Option Text) : Pass :=
  { s with
    reservedByNode := s.reservedByNode.set (nodeId, kind) (reservedFor input s nodeId kind + 1)
    writingInFlight := lease input s step key
    started := s.started + 1
    dispatched := s.dispatched ++ [step.id]
    actions := s.actions ++ [.resumeStep step.id sessionId exceptionId] }

def Pass.start (s : Pass) (step : RunStep) (placement : Placement) : Pass :=
  { s with
    reservedByNode := s.reservedByNode.set (placement.nodeId, kindOf step.category)
      (reservedFor input s placement.nodeId (kindOf step.category) + 1)
    writingInFlight := lease input s step (stepKeyAt input step placement.id)
    settled := s.settled.set step.id .starting
    started := s.started + 1
    dispatched := s.dispatched ++ [step.id]
    actions := s.actions ++ [.startStep step.id placement.id step.prompt] }

/-- Carries a decision out; nothing when the loop is to be left. -/
def carryOut (s : Pass) (step : RunStep) : Decision → Option Pass
  | .hold value => some (s.hold step value)
  | .fail output => some (s.settle step .failed output)
  | .prompt sessionId key => some (s.prompt input step sessionId key)
  | .resume sessionId key nodeId kind exceptionId =>
      some (s.resume input step sessionId key nodeId kind exceptionId)
  | .start placement => some (s.start input step placement)
  | .exhausted => none

/-- One turn of the dispatch loop; nothing when the loop is left. -/
def dispatchStep (b : Board) (s : Pass) (step : RunStep) : Option Pass :=
  if s.effectiveState step ≠ .pending then some s
  else
    match gate input b step with
    | some value => some (s.hold step value)
    | none =>
        let parked := parkOccupants input s step
        if step.sessionId ≠ [] then
          carryOut input parked step (retryDecision input b parked step)
        else carryOut input parked step (freshDecision env input b parked step)

/-- The dispatch loop, and whether it was left for want of budget. -/
def dispatchLoop (b : Board) : List RunStep → Pass → Pass × Bool
  | [], s => (s, false)
  | step :: rest, s =>
      match dispatchStep env input b s step with
      | none => (parkOccupants input s step, true)
      | some s => dispatchLoop b rest s

/-- A step the budget cut off is held for the budget. -/
def holdCutOff (b : Board) (s : Pass) (step : RunStep) : Pass :=
  if s.effectiveState step = .pending && !s.dispatched.contains step.id &&
      s.holds.all fun holds => (holds.get step.id).isNone then
    s.hold step (budgetHold input b s)
  else s

/-! ### The run as a whole -/

def lead : Option FleetSession :=
  if input.run.leadSessionId ≠ [] then sessionById input.sessions input.run.leadSessionId
  else none

def leadIdle : Bool := (lead input).any fun session => session.state = .idle

def anyFailed (s : Pass) : Bool :=
  input.steps.any fun step =>
    s.effectiveState step = .failed || s.effectiveState step = .cancelled

/-- A message the run is holding goes first, then the end of the run, then a wake. -/
def conclude (s : Pass) : Pass :=
  if input.run.pendingPrompt ≠ [] && leadIdle input then
    s.push (.deliverPrompt input.run.id input.run.pendingPrompt)
  else if input.run.policy.wakePolicy = .none then
    if input.steps.all (fun step => (s.effectiveState step).terminal) && input.steps ≠ [] then
      if anyFailed input s && input.run.policy.onStepFailure ≠ .«continue» then
        s.push (.finishRun .failed (ofString "A step failed."))
      else s.push (.finishRun .completed [])
    else s
  -- One wake per unseen settle, and only into an idle Lead.
  else if !heldByHuman input && input.run.wakeSeq < input.run.settleSeq &&
      input.run.emptyWakeCount < 2 && leadIdle input then
    s.push (.wakeLead input.run.id [])
  else s

def emptyPass : Pass where
  settled := Table.empty
  actions := []
  holds := input.holds
  reservedByNode := Table.empty
  writingInFlight := []
  started := 0
  dispatched := []

def holdEveryPending (value : StepHold) : Pass :=
  (input.steps.filter fun step => step.state = .pending).foldl
    (fun s step => s.hold step value) (emptyPass input)

/-- The pass after the settlements. -/
def settledPass : Pass := input.steps.foldl (settleStep env input) (emptyPass input)

/-- The pass after the settlements and the skips. -/
def skippedPass : Pass :=
  input.steps.foldl (skipStep (stateByKey input (settledPass env input)))
    (settledPass env input)

/-- What the dispatch loop finds. -/
def planBoard : Board :=
  board input (stateByKey input (settledPass env input)) (skippedPass env input)

/-- The pass as the dispatch loop begins it. -/
def readyPass : Pass :=
  { skippedPass env input with
    writingInFlight := initialWriting input (planBoard env input) }

def dispatchedPass : Pass × Bool :=
  dispatchLoop env input (planBoard env input) input.steps (readyPass env input)

/-- The pass with a reason for the steps the budget cut off. -/
def explainedPass : Pass :=
  let after := dispatchedPass env input
  if after.2 then input.steps.foldl (holdCutOff input (planBoard env input)) after.1
  else after.1

/-- Why a run is not planned for at all, with the reason its steps are given. -/
def idleReason : Option (Option StepHold) :=
  if input.run.state.terminal then some none
  else if input.run.state = .awaitingApproval then
    some (some { code := .taskHeld
                 detail := ofString ("The task is waiting for its plan to be approved; " ++
                   "nothing is dispatched yet.") })
  else if input.run.state = .blocked then
    some (some { code := .taskHeld
                 detail := ofString ("The task is blocked; " ++
                   "nothing is dispatched until it is unblocked.") })
  -- A Host that just restarted has not heard from anyone yet.
  else if input.nodes ≠ [] && input.nodes.all (fun node => !node.online) then
    some (some { code := .nodesUnknown
                 detail := ofString ("No Node has reported since the Host started. " ++
                   "Scheduling resumes when one reconnects.") })
  else none

/-- What the engine should do next: the actions, with the reasons beside them. -/
def planNextActions : Pass :=
  match idleReason input with
  | some none => emptyPass input
  | some (some value) => holdEveryPending input value
  | none => conclude input (explainedPass env input)

end

/-! ### A small fleet

One capable machine with two checkouts of one workspace, a worker at the first
of them, and steps of one run.
-/

namespace Sample

def environment : Environment where
  now := 0
  parseDate := fun _ => some 0
  trim := id
  toLowerCase := id
  localeCompare := fun a b => if a = b then .eq else if a < b then .lt else .gt

def node : FleetNode where
  id := ofString "node"
  name := ofString "node"
  capabilities := [managedWorktreesCapability, hostYoloCapability]
  maxSessions := 4
  online := true

def first : Placement where
  id := ofString "first"
  workspaceId := ofString "app"
  nodeId := ofString "node"
  localPath := ofString "/first"

def second : Placement where
  id := ofString "second"
  workspaceId := ofString "app"
  nodeId := ofString "node"
  localPath := ofString "/second"

def worker (state : SessionState) : FleetSession where
  id := ofString "worker"
  placementId := ofString "first"
  nodeId := ofString "node"
  state := state
  runRole := .worker

def run : Run where
  id := ofString "run"
  workspaceId := ofString "app"
  state := .running

/-- A step that writes. -/
def step (id : String) (state : RunStepState) : RunStep where
  id := ofString id
  stepKey := ofString id
  prompt := ofString "go on"
  category := ofString "implement"
  state := state
  updatedAt := ofString "1970-01-01T00:00:00.000Z"

theorem places_nodup : ([first, second].map Placement.id).Nodup := by decide +kernel

/-- A snapshot of two steps, the run being as it is in `run`. -/
def snapshot (state : SessionState) (earlier later : RunStep)
    (hids : ([earlier, later].map RunStep.id).Nodup)
    (hkeys : ([earlier, later].map RunStep.stepKey).Nodup) : ScheduleInput where
  run := run
  steps := [earlier, later]
  sessions := [worker state]
  nodes := [node]
  placements := [first, second]
  nowMs := 0
  steps_nodup := hids
  stepKeys_nodup := hkeys
  sessions_nodup := List.nodup_singleton _
  nodes_nodup := List.nodup_singleton _
  placements_nodup := places_nodup

end Sample

end Orchestrator

end CopilotFleet
