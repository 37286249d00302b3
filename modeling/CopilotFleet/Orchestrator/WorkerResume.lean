import CopilotFleet.Orchestrator.Schedule

/-!
# Resume Now

A follow-up that is queued for a retained worker waits for a slot on the
worker's Node, and the last slot of a Node is kept free. Resume now asks a
person to spend that slot once. What is approved is a request: a record bound
to one attempt of one step, one conversation, one Node and checkout, the text
of the prompt and the sessions that hold the Node's slots. All of this goes
into a fingerprint, which is computed again from the fleet as it stands when
the request is decided, before each planning pass, and while it waits.

Every write of a request moves its version, and names the version it was read
at. A decision names the version and the fingerprint that the person was shown.

## Main definitions

* `WorkerResumeRequest`: The durable record of one request.
* `Requests`: The store of requests, one active for each step.
* `Live`: The fleet as a call finds it.
* `bind`: What a request binds to, or why it cannot.
* `Binding.fingerprint`: What tells one binding from another.
-/

namespace CopilotFleet

open Utf16

namespace Orchestrator

namespace WorkerResume

/-! ### Requests -/

inductive WorkerResumeRequestState where
  | awaitingApproval
  | approved
  | launching
  | launched
  | cancelled
  | expired
  | stale
  | failed
  deriving DecidableEq, Repr

/-- `activeWorkerResumeRequestStates`: states that hold the step's one active slot. -/
def WorkerResumeRequestState.active : WorkerResumeRequestState → Bool
  | .awaitingApproval => true
  | .approved => true
  | .launching => true
  | _ => false

def requestStateText : WorkerResumeRequestState → Text
  | .awaitingApproval => ofString "awaiting_approval"
  | .approved => ofString "approved"
  | .launching => ofString "launching"
  | .launched => ofString "launched"
  | .cancelled => ofString "cancelled"
  | .expired => ofString "expired"
  | .stale => ofString "stale"
  | .failed => ofString "failed"

/-- `WORKER_RESUME_LIMITS`. -/
def approvalMs : Int := 10 * 60000

def launchMs : Int := 2 * 60000

def requesterCooldownMs : Int := 30 * 60000

def reasonChars : Nat := 1000

inductive ActorKind where
  | operator
  | orchestrator
  deriving DecidableEq, Repr

/-- Who asked. An orchestrator may ask; only an authenticated person may approve. -/
structure ResumeActor where
  kind : ActorKind
  id : Text
  deriving DecidableEq, Repr

/-- What a request was made for. Nothing of it changes afterwards. -/
structure Bound where
  runId : Text
  stepId : Text
  stepAttempt : Nat
  sessionId : Text
  agentSessionId : Text
  nodeId : Text
  nodeName : Text
  placementId : Text
  localPath : Text
  checkoutKey : Text
  promptDigest : Text
  restrictionDetail : Text
  capacity : HeldCapacity
  fingerprint : Text
  reason : Text
  requestedBy : ResumeActor
  requestedAt : Int
  expiresAt : Int
  deriving DecidableEq, Repr

structure WorkerResumeRequest extends Bound where
  id : Text
  version : Nat
  state : WorkerResumeRequestState
  decidedBy : Text := []
  decidedAt : Option Int := none
  /-- An approved request that has not launched by then lapses. -/
  launchBy : Option Int := none
  launchedAt : Option Int := none
  acknowledgedAt : Option Int := none
  outcome : Text
  updatedAt : Int
  deriving DecidableEq, Repr

inductive ConflictCode where
  | stepNotFound
  | notOwner
  | nothingQueued
  | requestExists
  | requestNotFound
  | approvalConflict
  | expired
  | stale
  /-- Any error that is not a `WorkerResumeConflict`. -/
  | internal
  deriving DecidableEq, Repr

/-- A refused operation, with the record as it now stands when there is one. -/
structure WorkerResumeConflict where
  code : ConflictCode
  message : Text
  request : Option WorkerResumeRequest := none
  deriving DecidableEq, Repr

def internal : WorkerResumeConflict where
  code := .internal
  message := []

/-! ### The store -/

abbrev Requests := Table Text WorkerResumeRequest

/-- Settled requests stay readable for a while. -/
def SETTLED_RETENTION_MS : Int := 7 * 24 * 60 * 60000

/-- What a write changes of a record. A field left out keeps its value. -/
structure Patch where
  state : Option WorkerResumeRequestState := none
  outcome : Text
  decidedBy : Option Text := none
  decidedAt : Option Int := none
  launchBy : Option Int := none
  launchedAt : Option Int := none
  acknowledgedAt : Option Int := none

namespace Requests

variable (requests : Requests)

/-- The step's one request still waiting, approved or launching. -/
def active (stepId : Text) : Option WorkerResumeRequest :=
  requests.values.find? fun request => request.stepId = stepId && request.state.active

/-- `ORDER BY created_at,id`. -/
def older (a b : WorkerResumeRequest) : Bool :=
  a.requestedAt < b.requestedAt || (a.requestedAt = b.requestedAt && !decide (b.id < a.id))

def listActive : List WorkerResumeRequest :=
  (requests.values.filter fun request => request.state.active).mergeSort older

/-- The most recent request an orchestrator made for this exact attempt. -/
def latestFromOrchestrator (stepId : Text) (attempt : Nat) : Option WorkerResumeRequest :=
  ((requests.values.filter fun request => request.stepId = stepId &&
    request.stepAttempt = attempt && request.requestedBy.kind = .orchestrator).mergeSort
      fun a b => older b a).head?

/-- What the schema asks of a record. -/
def valid (request : WorkerResumeRequest) : Bool :=
  0 < request.version && request.runId ≠ [] && request.stepId ≠ [] && 0 < request.stepAttempt &&
    request.sessionId ≠ [] && request.nodeId ≠ [] && request.promptDigest ≠ [] &&
    request.fingerprint ≠ []

/-- The unique index of active requests has another row for this step. -/
def taken (request : WorkerResumeRequest) : Bool :=
  request.state.active && requests.values.any fun other =>
    other.id ≠ request.id && other.stepId = request.stepId && other.state.active

def insert (request : WorkerResumeRequest) : Except WorkerResumeConflict Requests :=
  if !valid request then .error internal
  else if (requests.get request.id).isSome || taken requests request then
    match active requests request.stepId with
    | some existing => .error {
        code := .requestExists
        message := ofString "A resume request for this queued follow-up is already open."
        request := some existing }
    | none => .error internal
  else .ok (requests.set request.id request)

def patched (current : WorkerResumeRequest) (patch : Patch) (now : Int) : WorkerResumeRequest :=
  { current with
    state := patch.state.getD current.state
    outcome := patch.outcome
    decidedBy := patch.decidedBy.getD current.decidedBy
    decidedAt := patch.decidedAt <|> current.decidedAt
    launchBy := patch.launchBy <|> current.launchBy
    launchedAt := patch.launchedAt <|> current.launchedAt
    acknowledgedAt := patch.acknowledgedAt <|> current.acknowledgedAt
    version := current.version + 1
    updatedAt := now }

/-- Moves a request forward only from the version the caller read. -/
def update (id : Text) (expectedVersion : Nat) (patch : Patch) (now : Int) :
    Except WorkerResumeConflict (Requests × WorkerResumeRequest) :=
  match requests.get id with
  | none => .error {
      code := .approvalConflict
      message := ofString "This resume request changed after it was read." }
  | some current =>
      if current.version ≠ expectedVersion then .error {
        code := .approvalConflict
        message := ofString "This resume request changed after it was read."
        request := some current }
      else if taken requests (patched current patch now) then .error internal
      else .ok (requests.set id (patched current patch now), patched current patch now)

/-- Drops settled history past its retention; active requests are never pruned. -/
def prune (nowMs : Int) : Requests :=
  requests.keep fun _ request =>
    !(request.updatedAt < nowMs - SETTLED_RETENTION_MS && !request.state.active)

end Requests

/-! ### The fleet -/

structure WorkerSession extends FleetSession where
  runId : Text := []
  workspaceId : Text := []
  agentSessionId : Text := []
  cleanupRequested : Bool := false

structure WorkerNode extends FleetNode where
  os : Text := []

structure WorkerStep extends RunStep where
  runId : Text
  output : Text := []

inductive MaintenanceAction where
  | resume
  | execute
  deriving DecidableEq, Repr

/-- The fleet as a call finds it. What other services answer is part of it. -/
structure Live where
  runs : Table Text Run
  steps : Table Text WorkerStep
  sessions : List WorkerSession
  nodes : List WorkerNode
  placements : List Placement
  /-- `service.nodeWorkBlocked`. -/
  nodeWorkBlocked : Text → Option Text
  /-- A command of the task is executing or has to be observed. -/
  commandSettling : Text → Bool
  /-- A person controls a PR-maintenance worker of the task. -/
  manualControl : Text → Bool
  /-- Why PR maintenance refuses an action, or nothing. -/
  maintenance : MaintenanceAction → Run → WorkerSession → WorkerStep → Option Text
  /-- The holds of the latest scheduling pass over a task. -/
  holds : Text → Option (Text → Option StepHold)

namespace Live

variable (live : Live)

def session (id : Text) : Option WorkerSession :=
  live.sessions.find? fun session => session.id = id

def node (id : Text) : Option WorkerNode := live.nodes.find? fun node => node.id = id

def placement (id : Text) : Option Placement := placementById live.placements id

/-- A step of a task by the session it is attached to. -/
def stepBySession (sessionId : Text) : Option WorkerStep :=
  if sessionId = [] then none
  else live.steps.values.find? fun step => step.sessionId = sessionId

def hold (runId stepId : Text) : Option StepHold :=
  (live.holds runId).bind fun holds => holds stepId

end Live

/-! ### Paths -/

def isDriveLetter (u : UInt16) : Bool := (65 ≤ u && u ≤ 90) || (97 ≤ u && u ≤ 122)

def isSlash (u : UInt16) : Bool := u = 47 || u = 92

/-- The path begins with a drive, as in `c:\`. -/
def drivePath : Text → Bool
  | drive :: colon :: slash :: _ => isDriveLetter drive && colon = 58 && isSlash slash
  | _ => false

variable (env : Environment)

def normalizedPath (path os : Text) : Text :=
  let windows := os = ofString "win32" || drivePath path || (ofString "\\\\").isPrefixOf path
  let unified := if windows then path.map fun u => if u = 47 then 92 else u else path
  let ending : UInt16 := if windows then 92 else 47
  let trimmed := (unified.reverse.dropWhile fun u => u = ending).reverse
  let trimmed := if trimmed = [] then unified else trimmed
  if windows then env.toLowerCase trimmed else trimmed

/-- The same directory, or one inside the other: either way they share files. -/
def sharesTree (left right os : Text) : Bool :=
  let a := normalizedPath env left os
  let b := normalizedPath env right os
  let separator : Text := if a.contains 92 || b.contains 92 then [92] else [47]
  a = b || (b ++ separator).isPrefixOf a || (a ++ separator).isPrefixOf b

/-! ### What a request binds to -/

/-- What goes into a fingerprint. -/
structure Facts where
  runId : Text
  stepId : Text
  attempt : Nat
  sessionId : Text
  agentSessionId : Text
  nodeId : Text
  kind : SessionKind
  limit : Nat
  placementId : Text
  localPath : Text
  checkoutKey : Text
  promptDigest : Text
  holders : List Text
  deriving DecidableEq, Repr

/-- The hashes of a text and of a fingerprint's JSON. -/
structure Digests where
  sha256 : Text → Text
  fingerprint : Facts → Text

/-- Everything an exceptional resume is bound to, recomputed from live state. -/
structure Binding where
  run : Run
  step : WorkerStep
  session : WorkerSession
  node : WorkerNode
  placementId : Text
  localPath : Text
  checkoutKey : Text
  kind : SessionKind
  reserved : Nat
  limit : Nat
  holders : List WorkerSession

/-- `RUNNABLE_TASK_STATES`. -/
def runnable : RunState → Bool
  | .planning => true
  | .running => true
  | .awaitingLead => true
  | _ => false

def runStateText : RunState → Text
  | .awaitingApproval => ofString "awaiting_approval"
  | .planning => ofString "planning"
  | .running => ofString "running"
  | .blocked => ofString "blocked"
  | .awaitingLead => ofString "awaiting_lead"
  | .awaitingHuman => ofString "awaiting_human"
  | .aggregating => ofString "aggregating"
  | .completed => ofString "completed"
  | .failed => ofString "failed"
  | .cancelled => ofString "cancelled"

def stepStateText : RunStepState → Text
  | .pending => ofString "pending"
  | .starting => ofString "starting"
  | .running => ofString "running"
  | .succeeded => ofString "succeeded"
  | .failed => ofString "failed"
  | .skipped => ofString "skipped"
  | .cancelled => ofString "cancelled"

namespace Live

variable (live : Live)

/-- The retained worker of a queued follow-up. -/
def retained (run : Run) (step : WorkerStep) : Except Text WorkerSession :=
  if !runnable run.state then
    .error (if run.state = .awaitingHuman then
      ofString "The task is waiting for a person's review."
    else ofString "The task is " ++ runStateText run.state ++ ofString ".")
  else if step.state ≠ .pending || step.sessionId = [] then
    .error (ofString "This step has no queued follow-up waiting to resume.")
  else if step.dispatchedAt ≠ [] then .error (ofString "The worker is already being resumed.")
  else
    match (live.session step.sessionId).filter fun session => session.runId = run.id with
    | none => .error (ofString "The step's retained worker session is no longer available.")
    | some session =>
        if !session.state.terminal then
          .error (ofString "The worker is " ++ stateText session.state ++
            ofString ", so there is nothing to resume.")
        else if session.agentSessionId = [] then
          .error (ofString "The worker has no resumable Copilot conversation.")
        else if session.stopRequested then
          .error (ofString "A Stop for this worker has not been acknowledged.")
        else if session.dismissed then .error (ofString "The worker session is dismissed.")
        else if session.cleanupRequested then
          .error (ofString "The worker session is being deleted.")
        else .ok session

/-- The first of both maintenance actions that is refused. -/
def held (run : Run) (session : WorkerSession) (step : WorkerStep) : Option Text :=
  live.maintenance .resume run session step <|> live.maintenance .execute run session step

/-- Where the retained worker is attached. -/
def attached (run : Run) (step : WorkerStep) (session : WorkerSession) :
    Except Text (Placement × WorkerNode) :=
  let placementId := if step.placementId ≠ [] then step.placementId else session.placementId
  match live.placement placementId, live.node session.nodeId with
  | some placement, some node =>
      if placement.nodeId ≠ node.id then
        .error (ofString ("The worker's original checkout or Node was removed; " ++
          "a retained worker never moves."))
      else if !node.online then .error (node.name ++ ofString " is offline.")
      else
        match live.nodeWorkBlocked node.id with
        | some blocked => .error blocked
        | none =>
            if live.commandSettling run.id then
              .error (ofString "A command is still settling on this task's checkout.")
            else if live.manualControl run.id then
              .error (ofString ("A person has manual control of this task's " ++
                "PR-maintenance worker."))
            else
              match live.held run session step with
              | some reason =>
                  .error (ofString "PR maintenance holds this worker: " ++ reason ++ ofString ".")
              | none => .ok (placement, node)
  | _, _ => .error (ofString ("The worker's original checkout or Node was removed; " ++
      "a retained worker never moves."))

/-- The checkout a step works in. -/
def checkoutOf (run : Run) (step : WorkerStep) (placementId : Text) : Text :=
  match step.executionBinding with
  | some binding => binding.checkoutKey
  | none => executionKey run placementId

def pathOf (step : WorkerStep) (placement : Placement) : Text :=
  match step.executionBinding with
  | some binding => binding.cwd
  | none => placement.localPath

/-- Where a session works. -/
def sessionPath (session : WorkerSession) : Option Text :=
  match session.executionBinding with
  | some binding => some binding.cwd
  | none => (live.placement session.placementId).map Placement.localPath

/-- The live sessions that hold the checkout, or share its files. -/
def sharing (session : WorkerSession) (node : WorkerNode) (checkoutKey localPath : Text) :
    List WorkerSession :=
  live.sessions.filter fun candidate =>
    (session.bound || !session.readOnly) && candidate.id ≠ session.id &&
      candidate.nodeId = node.id &&
      holdsCheckout candidate.toFleetSession (some node.toFleetNode) &&
      (checkoutLockKey candidate.toFleetSession = checkoutKey ||
        -- A home-directory conversation contains every checkout beneath it.
        (!isChatsWorkspace candidate.workspaceId &&
          match live.sessionPath candidate with
          | some path => path ≠ [] && sharesTree env path localPath node.os
          | none => false))

/-- The live sessions that hold the slots of a Node. -/
def holders (node : WorkerNode) (kind : SessionKind) : List WorkerSession :=
  live.sessions.filter fun candidate =>
    candidate.nodeId = node.id && !candidate.state.terminal && candidate.toFleetSession.kind = kind

/-- Recomputes what an exceptional resume would bind to, or why it cannot. -/
def bind (run : Run) (step : WorkerStep) : Except Text Binding :=
  match live.retained run step with
  | .error reason => .error reason
  | .ok session =>
      match live.attached run step session with
      | .error reason => .error reason
      | .ok (placement, node) =>
          let placementId := if step.placementId ≠ [] then step.placementId
            else session.placementId
          let checkoutKey := checkoutOf run step placementId
          let localPath := pathOf step placement
          let sharing := live.sharing env session node checkoutKey localPath
          let kind := session.toFleetSession.kind
          let holders := live.holders node kind
          let limit := capacityFor node.toFleetNode kind
          if sharing ≠ [] then
            .error (localPath ++ ofString " on " ++ node.name ++ ofString " is in use by " ++
              join (sharing.map fun session =>
                if session.name ≠ [] then session.name else session.id) ++
              ofString "; the required checkout lease cannot be shared.")
          else if limit ≤ holders.length then
            .error (node.name ++ ofString " is at its hard limit for " ++ kindText kind ++
              ofString " work (" ++ ofString (toString holders.length) ++ ofString " of " ++
              ofString (toString limit) ++ ofString ").")
          else if 0 < remainingCapacity node.toFleetNode holders.length kind then
            .error (node.name ++ ofString " has a free " ++ kindText kind ++
              ofString " slot, so ordinary scheduling applies.")
          else .ok {
            run, step, session, node, placementId, localPath, checkoutKey, kind
            reserved := holders.length
            limit, holders }

end Live

namespace Binding

variable (digests : Digests) (binding : Binding)

def promptDigest : Text := digests.sha256 binding.step.prompt

def facts : Facts where
  runId := binding.run.id
  stepId := binding.step.id
  attempt := binding.step.attempts
  sessionId := binding.session.id
  agentSessionId := binding.session.agentSessionId
  nodeId := binding.node.id
  kind := binding.kind
  limit := binding.limit
  placementId := binding.placementId
  localPath := binding.localPath
  checkoutKey := binding.checkoutKey
  promptDigest := binding.promptDigest digests
  holders := (binding.holders.map fun holder => holder.id).mergeSort fun a b => !decide (b < a)

def fingerprint : Text := digests.fingerprint (binding.facts digests)

end Binding

end WorkerResume

end Orchestrator

end CopilotFleet
