import CopilotFleet.Orchestrator.WorkerResume

/-!
# The Resume Service

What is done with requests: asking for one, deciding it, offering it to the
planner, spending it on a launch, and settling it when what it depends on has
changed.

The scheduler runs in the middle of a call: `request` and `decide` first give
it a pass, in which exceptions are computed and launched. Such a pass is a list
of the scheduler's own operations here, which may change the fleet at will.
Beside the requests goes a log of what was approved, offered and launched, with
the fleet as it stood.

## Main definitions

* `Live.admissionFor`: What a step waits for.
* `revalidate`: Why a request can no longer be applied.
* `exceptionsFor`, `claimLaunch`, `failLaunch`, `reconcileOne`: The scheduler's side.
* `System.request`, `System.decide`: The side of those who ask and decide.
* `Op`, `step`: What happens next.
-/

namespace CopilotFleet

open Utf16

namespace Orchestrator

namespace WorkerResume

variable (env : Environment)

/-! ### Why a step waits -/

inductive AdmissionState where
  | queued
  | blocked
  | awaitingApproval
  | starting
  | running
  deriving DecidableEq, Repr

inductive AdmissionCode where
  | held (code : StepHoldCode)
  | scheduling
  | resumeApproval
  | resuming
  | dispatched
  | running
  deriving DecidableEq, Repr

/-- `queuedStepAdmissionCodes`, of the codes a hold has: Fleet starts these by itself. -/
def queuedHold : StepHoldCode → Bool
  | .sessionBusy => true
  | .parallelLimit => true
  | .nodeHeadroom => true
  | .nodeCapacity => true
  | .dependencies => true
  | .workspaceNotReady => true
  | .nodesUnknown => true
  | .noPlacement => true
  | _ => false

structure StepAdmission where
  state : AdmissionState
  code : AdmissionCode
  detail : Text
  /-- Resume now can ask for an approval that overrides the reserved slot. -/
  nodeHeadroom : Bool := false
  resumable : Bool
  requestId : Option Text := none
  deriving DecidableEq, Repr

def orText (text other : Text) : Text := if text ≠ [] then text else other

namespace Live

variable (live : Live)

def nodeNameFor (step : WorkerStep) (session : Option WorkerSession) : Text :=
  let placement := live.placement (orText step.placementId
    ((session.map fun session => session.placementId).getD []))
  let nodeId := ((placement.map Placement.nodeId) <|>
    (session.map fun session => session.nodeId)).getD []
  ((live.node nodeId).map fun node => node.name).getD []

def restoring (nodeName : Text) : Text :=
  ofString "Restoring the worker's conversation on " ++ orText nodeName (ofString "its Node") ++
    ofString "; the queued follow-up is sent once it is ready."

def heldDetail (hold : StepHold) (exception resumable : Bool) : Text :=
  hold.detail ++
    (if exception then ofString (" Resume now can ask an authenticated operator to spend " ++
      "that reserved slot once.") else []) ++
    (if hold.code = .checkoutBusy && resumable then ofString (" No approval overrides checkout " ++
      "exclusivity, and a retained worker cannot move to another checkout without leaving its " ++
      "conversation and uncommitted work behind.") else [])

def admissionFor (requests : Requests) (run : Run) (step : WorkerStep) : Option StepAdmission :=
  let session := if step.sessionId ≠ [] then live.session step.sessionId else none
  let resumable := step.sessionId ≠ [] && session.isSome
  let ended := session.any fun session => session.state.terminal
  let live? := session.any fun session => !session.state.terminal
  let hold := live.hold run.id step.id
  if step.state.terminal then none
  else if step.state = .running then some {
    state := .running, code := .running, resumable
    detail := ofString "The Node acknowledged this turn; the worker is running it." }
  else if step.state = .starting then some {
    state := .starting, code := .dispatched, resumable
    detail := if 1 < step.attempts && step.sessionId ≠ [] then
      ofString "The queued follow-up was sent; waiting for the Node to acknowledge it."
    else ofString "The worker was dispatched; waiting for the Node to start it." }
  else
    match requests.active step.id with
    | some request =>
        if request.state = .awaitingApproval then some {
          state := .awaitingApproval, code := .resumeApproval, resumable, nodeHeadroom := true
          detail := ofString "Waiting for an authenticated operator to approve once or cancel: " ++
            request.restrictionDetail
          requestId := some request.id }
        else if !live? then some {
          state := .starting, code := .resuming, resumable
          detail := orText request.outcome
            (ofString "Approved once; Fleet is resuming the worker.")
          requestId := some request.id }
        else waiting (some request) session resumable ended live? hold
    | none => waiting none session resumable ended live? hold
where
  /-- A step that nobody is asked about. -/
  waiting (request : Option WorkerResumeRequest) (session : Option WorkerSession)
      (resumable ended live? : Bool) (hold : Option StepHold) : Option StepAdmission :=
    -- A restored conversation that is idle but still held says why its prompt waits.
    if live? && (request.isSome || step.dispatchedAt ≠ []) &&
        !((session.any fun session => session.state = .idle) && hold.isSome) then some {
      state := .starting, code := .resuming, resumable
      detail := match request with
        | some request => request.outcome
        | none => restoring (live.nodeNameFor step session)
      requestId := request.map fun request => request.id }
    else
      match hold with
      | none => some {
          state := .queued, code := .scheduling, resumable
          detail := ofString "Waiting for the next scheduling pass." }
      | some hold =>
          let exception := hold.code = .nodeHeadroom && resumable && ended
          some {
            state := if queuedHold hold.code then .queued else .blocked
            code := .held hold.code, resumable, nodeHeadroom := exception
            detail := heldDetail hold exception resumable
            requestId := request.map fun request => request.id }

end Live

/-! ### Moving requests along -/

namespace Requests

/-- A request is moved on from the version it was read at. -/
def finish (requests : Requests) (request : WorkerResumeRequest)
    (state : WorkerResumeRequestState) (outcome : Text) (patch : Patch) (now : Int) :
    Except WorkerResumeConflict (Requests × WorkerResumeRequest) :=
  requests.update request.id request.version { patch with state := some state, outcome } now

def settle (requests : Requests) (request : WorkerResumeRequest)
    (state : WorkerResumeRequestState) (outcome : Text) (now : Int) :
    Except WorkerResumeConflict Requests :=
  (requests.finish request state outcome { outcome } now).map Prod.fst

end Requests

/-- Each of some requests in turn, until one throws. What was done before is done. -/
def eachOf {σ : Type} (visit : σ → WorkerResumeRequest → Except WorkerResumeConflict σ) :
    List WorkerResumeRequest → σ → σ × Option WorkerResumeConflict
  | [], s => (s, none)
  | request :: rest, s =>
      match visit s request with
      | .ok next => eachOf visit rest next
      | .error conflict => (s, some conflict)

def NOBODY_DECIDED : Text :=
  ofString ("Nobody decided before the approval window closed. The follow-up stays queued " ++
    "and ordinary scheduling continues.")

def LAPSED : Text :=
  ofString ("The approval lapsed before Fleet could launch it; nothing was launched and the " ++
    "follow-up stays queued.")

/-- An approval may still be launched. A record without a time never lapses. -/
def lapsed (request : WorkerResumeRequest) (nowMs : Int) : Bool :=
  match request.launchBy with
  | some launchBy => launchBy < nowMs
  | none => false

def bounded (text : Text) (limit : Nat) : Text :=
  if text.length ≤ limit then text else text.take (limit - 1) ++ [8230]

section

variable (digests : Digests) (live : Live)

/-- The request is for what the fleet gives now. -/
def Live.binds (run : Run) (step : WorkerStep) (request : WorkerResumeRequest) : Bool :=
  match live.bind env run step with
  | .ok binding => binding.fingerprint digests = request.fingerprint
  | .error _ => false

/-- Why a request can no longer be applied, or nothing when it still can. -/
def revalidate (request : WorkerResumeRequest) (run : Run) (step : WorkerStep)
    (requireHold : Bool) : Option Text :=
  if step.attempts ≠ request.stepAttempt || step.sessionId ≠ request.sessionId then
    some (ofString "The queued follow-up was replaced.")
  else if step.state.terminal then
    some (ofString "The queued follow-up is no longer waiting: its step ended " ++
      stepStateText step.state ++ ofString ".")
  else if step.state ≠ .pending || step.dispatchedAt ≠ [] then
    some (ofString ("Ordinary scheduling already resumed this worker; " ++
      "the exception is not needed."))
  else
    match (live.session step.sessionId).filter fun session => !session.state.terminal with
    | some session =>
        some (ofString "The worker is already " ++ stateText session.state ++
          ofString ("; its queued follow-up is sent through ordinary scheduling " ++
            "once it is idle."))
    | none =>
        match live.bind env run step with
        | .error reason => some reason
        | .ok binding =>
            if binding.promptDigest digests ≠ request.promptDigest then
              some (ofString "The queued follow-up's prompt changed.")
            else if binding.fingerprint digests ≠ request.fingerprint then
              some (ofString ("The sessions holding the Node's slots, the checkout or the " ++
                "worker changed since the request."))
            else if requireHold then
              match live.hold run.id step.id with
              | some hold =>
                  if hold.code = .nodeHeadroom then none
                  else some (ofString "The follow-up is now held for another reason: " ++
                    hold.detail)
              | none => some (ofString "Scheduling has not evaluated this follow-up yet.")
            else none

/-- One approved request before a pass: offered to the planner, or settled. -/
def offer (run : Run) (nowMs : Int) (clock : Text → Int)
    (s : Requests × Table Text ScheduleException) (request : WorkerResumeRequest) :
    Except WorkerResumeConflict (Requests × Table Text ScheduleException) :=
  if request.runId ≠ run.id || request.state ≠ .approved then .ok s
  else if lapsed request nowMs then
    (s.1.settle request .expired LAPSED (clock request.id)).map (·, s.2)
  else
    let reason := match live.steps.get request.stepId with
      | some step => revalidate env digests live request run step false
      | none => some (ofString "The step no longer exists.")
    match reason with
    | some reason =>
        (s.1.settle request .stale (ofString "Not launched: " ++ reason) (clock request.id)).map
          (·, s.2)
    | none => .ok (s.1, s.2.set request.stepId {
        requestId := request.id
        sessionId := request.sessionId
        attempt := request.stepAttempt })

/-- Approved requests the scheduler may spend in this pass. -/
def exceptionsFor (requests : Requests) (run : Run) (nowMs : Int) (clock : Text → Int) :
    (Requests × Table Text ScheduleException) × Option WorkerResumeConflict :=
  eachOf (offer env digests live run nowMs clock) requests.listActive (requests, .empty)

/-- How far the resumed worker has come. -/
def progressOf (request : WorkerResumeRequest) (step : WorkerStep) : Text :=
  if step.state = .starting then
    ofString "Queued follow-up sent; waiting for the Node to acknowledge it."
  else if (live.session step.sessionId).any fun session => session.state = .idle then
    ofString "Conversation restored; the queued follow-up is being sent."
  else request.outcome

/-- What a request whose launch was sent comes to. -/
def follow (requests : Requests) (request : WorkerResumeRequest) (nowMs : Int)
    (clock : Text → Int) : Except WorkerResumeConflict Requests :=
  match (live.steps.get request.stepId).filter fun step =>
      step.attempts = request.stepAttempt with
  | none => requests.settle request .failed
      (ofString "The resumed step was removed or replaced.") (clock request.id)
  | some step =>
      if step.state = .running || step.state = .succeeded then
        (requests.finish request .launched (request.nodeName ++
          ofString (" restored the same conversation and acknowledged the queued " ++
            "follow-up.")) { outcome := [], acknowledgedAt := some nowMs }
              (clock request.id)).map Prod.fst
      else if step.state.terminal then
        requests.settle request .failed (ofString "The resumed follow-up ended " ++
          stepStateText step.state ++ ofString ": " ++
            bounded (orText step.output (ofString "no reason was recorded")) 500)
          (clock request.id)
      else
        let progress := progressOf live request step
        if progress ≠ request.outcome then
          (requests.update request.id request.version { outcome := progress }
            (clock request.id)).map Prod.fst
        else .ok requests

def reconcileOne (nowMs : Int) (runId : Option Text) (clock : Text → Int) (requests : Requests)
    (request : WorkerResumeRequest) : Except WorkerResumeConflict Requests :=
  if runId.any fun runId => request.runId ≠ runId then .ok requests
  else if request.state = .awaitingApproval then
    if request.expiresAt ≤ nowMs then
      requests.settle request .expired NOBODY_DECIDED (clock request.id)
    else
      match live.runs.get request.runId, live.steps.get request.stepId with
      | some run, some step =>
          match revalidate env digests live request run step false with
          | some reason => requests.settle request .stale
              (ofString "No longer applicable: " ++ reason) (clock request.id)
          | none => .ok requests
      | _, _ => requests.settle request .stale (ofString "The task or its step no longer exists.")
          (clock request.id)
  else if request.state = .approved then
    if lapsed request nowMs then requests.settle request .expired LAPSED (clock request.id)
    else .ok requests
  else follow live requests request nowMs clock

end

/-- Spends an approval: only for this exact step attempt, and only once. -/
def claimLaunch (requests : Requests) (requestId : Text) (step : WorkerStep) (nowMs : Int)
    (clock : Text → Int) : Except WorkerResumeConflict (Requests × Option WorkerResumeRequest) :=
  match (requests.get requestId).filter fun request => request.state = .approved &&
      request.stepId = step.id && request.stepAttempt = step.attempts &&
      request.sessionId = step.sessionId && !lapsed request nowMs with
  | none => .ok (requests, none)
  | some request =>
      (requests.update request.id request.version {
        state := some .launching
        launchedAt := some nowMs
        outcome := ofString "Resume sent to " ++ request.nodeName ++
          ofString "; waiting for the Node to restore the conversation."
        } (clock requestId)).map fun (requests, launching) => (requests, some launching)

/-- The resume command could not be sent. -/
def failLaunch (requests : Requests) (requestId reason : Text) (clock : Text → Int) :
    Except WorkerResumeConflict Requests :=
  match (requests.get requestId).filter fun request => request.state.active with
  | none => .ok requests
  | some request => requests.settle request .failed (ofString "Resume failed: " ++ reason)
      (clock requestId)

/-! ### The service -/

inductive Decision where
  | approveOnce
  | cancel
  deriving DecidableEq, Repr

structure WorkerResumeDecision where
  decision : Decision
  expectedVersion : Nat
  fingerprint : Text

/-- What happened to approvals. The service keeps no such record; it is read off its answers. -/
inductive Event where
  /-- An operator approved a request, with the fleet as it stood. -/
  | approved (request : WorkerResumeRequest) (decision : WorkerResumeDecision)
      (operatorId : Text) (nowMs : Int) (live : Live)
  /-- An exception was offered to a planning pass. -/
  | offered (requestId : Text) (nowMs : Int) (live : Live)
  /-- An approval was spent on a step. -/
  | launched (requestId : Text) (step : WorkerStep) (nowMs : Int)

structure System where
  live : Live
  requests : Requests
  lastPrunedAt : Int
  /-- The ids of the requests there ever were. -/
  drawn : List Text
  log : List Event

/-- What the scheduler does in the middle of a call, or between calls. -/
inductive Tick where
  | fleet (live : Live)
  | exceptionsFor (run : Run) (nowMs : Int) (clock : Text → Int)
  /-- A launch in a transaction that may yet be rolled back. -/
  | claimLaunch (requestId : Text) (step : WorkerStep) (nowMs : Int) (clock : Text → Int)
      (commits : Bool)
  | failLaunch (requestId reason : Text) (clock : Text → Int)
  | reconcile (nowMs : Int) (runId : Option Text) (clock : Text → Int)

structure ResumeInput where
  stepId : Option Text := none
  sessionId : Option Text := none
  reason : Text := []

inductive OutcomeStatus where
  | starting
  | running
  | queued
  | blocked
  | awaitingApproval
  deriving DecidableEq, Repr

structure WorkerResumeOutcome where
  status : OutcomeStatus
  admission : Option StepAdmission := none
  request : Option WorkerResumeRequest := none
  message : Text

/-- What a decision came to, before anything is launched. -/
structure Decided where
  request : WorkerResumeRequest
  error : Option WorkerResumeConflict := none
  launch : Bool := false

section

variable (digests : Digests)

/-- The request that is waiting, where an exception is offered for each step. -/
def spoken (exceptions : Table Text ScheduleException) (nowMs : Int) (live : Live) : List Event :=
  exceptions.values.map fun granted => .offered granted.requestId nowMs live

namespace System

def tick (s : System) : Tick → System
  | .fleet live => { s with live }
  | .exceptionsFor run nowMs clock =>
      let offered := WorkerResume.exceptionsFor env digests s.live s.requests run nowMs clock
      { s with
        requests := offered.1.1
        log := s.log ++ if offered.2.isNone then spoken offered.1.2 nowMs s.live else [] }
  | .claimLaunch requestId step nowMs clock commits =>
      match WorkerResume.claimLaunch s.requests requestId step nowMs clock with
      | .ok (requests, some _) =>
          if commits then
            { s with requests, log := s.log ++ [.launched requestId step nowMs] }
          else s
      | _ => s
  | .failLaunch requestId reason clock =>
      match WorkerResume.failLaunch s.requests requestId reason clock with
      | .ok requests => { s with requests }
      | .error _ => s
  | .reconcile nowMs runId clock =>
      let due := runId.isNone && 60 * 60000 < nowMs - s.lastPrunedAt
      let pruned := if due then s.requests.prune nowMs else s.requests
      { s with
        lastPrunedAt := if due then nowMs else s.lastPrunedAt
        requests := (eachOf (reconcileOne env digests s.live nowMs runId clock) pruned.listActive
          pruned).1 }

def ticks (s : System) (ticks : List Tick) : System := ticks.foldl (tick env digests) s

/-- The record that is made of a binding. -/
def requestOf (binding : Binding) (actor : ResumeActor) (reason id : Text) (nowMs : Int) :
    WorkerResumeRequest where
  runId := binding.run.id
  stepId := binding.step.id
  stepAttempt := binding.step.attempts
  sessionId := binding.session.id
  agentSessionId := binding.session.agentSessionId
  nodeId := binding.node.id
  nodeName := binding.node.name
  placementId := binding.placementId
  localPath := binding.localPath
  checkoutKey := binding.checkoutKey
  promptDigest := binding.promptDigest digests
  restrictionDetail := binding.node.name ++ ofString " is at Fleet's scheduling limit for " ++
    kindText binding.kind ++ ofString " work: " ++ ofString (toString binding.reserved) ++
    ofString " of " ++ ofString (toString binding.limit) ++
    ofString (" slots are held, and Fleet keeps the last slot free on a multi-slot Node so " ++
      "ordinary dispatch never fills it.")
  capacity := { kind := binding.kind, reserved := binding.reserved, limit := binding.limit }
  fingerprint := binding.fingerprint digests
  reason := bounded (env.trim reason) reasonChars
  requestedBy := actor
  requestedAt := nowMs
  expiresAt := nowMs + approvalMs
  id
  version := 1
  state := .awaitingApproval
  outcome := ofString "Waiting for an authenticated operator to approve once or cancel."
  updatedAt := nowMs

/-- The step a request is about, and its task. -/
def addressed (s : System) (input : ResumeInput) (actor : ResumeActor) :
    Except WorkerResumeConflict (WorkerStep × Run) :=
  let found := match input.stepId.filter fun id => id ≠ [] with
    | some stepId => s.live.steps.get stepId
    | none => s.live.stepBySession (input.sessionId.getD [])
  match found with
  | none => .error {
      code := .stepNotFound
      message := ofString "No queued follow-up belongs to that worker." }
  | some step =>
      if (input.sessionId.getD []) ≠ [] && some step.sessionId ≠ input.sessionId then .error {
        code := .stepNotFound
        message := ofString "That session does not own this step's queued follow-up." }
      else
        match s.live.runs.get step.runId with
        | none => .error {
            code := .stepNotFound
            message := ofString "That task no longer exists." }
        | some run =>
            if actor.kind = .orchestrator && run.leadSessionId ≠ actor.id then .error {
              code := .notOwner
              message := ofString "That worker belongs to another orchestrator's task." }
            else if step.sessionId = [] || step.state.terminal then .error {
              code := .nothingQueued
              message := ofString ("This worker has no queued follow-up to resume. Queue the " ++
                "next turn with fleet_follow_up first.") }
            else .ok (step, run)

/-- An answer that changes nothing further. -/
def answered (s : System) (status : OutcomeStatus) (admission : Option StepAdmission)
    (request : Option WorkerResumeRequest) (message : Text) :
    System × Except WorkerResumeConflict WorkerResumeOutcome :=
  (s, .ok { status, admission, request, message })

def admission (s : System) (runId stepId : Text) : Option StepAdmission :=
  match s.live.runs.get runId, s.live.steps.get stepId with
  | some run, some step =>
      if step.runId = run.id then s.live.admissionFor s.requests run step else none
  | _, _ => none

/-- Asks for an approval where nothing else stands in the way. The task is as it was read
    before the pass. -/
def ask (s : System) (run : Run) (step : WorkerStep) (actor : ResumeActor) (reason id : Text)
    (nowMs : Int) : System × Except WorkerResumeConflict WorkerResumeOutcome :=
  match s.admission run.id step.id with
  | none => (s, .error internal)
  | some fresh =>
      if !fresh.nodeHeadroom then
        if fresh.state = .blocked then
          s.answered .blocked fresh none (ofString "Blocked: " ++ fresh.detail ++
            ofString " No approval can override this.")
        else
          s.answered .queued fresh none (ofString "Queued: " ++ fresh.detail ++
            ofString " Fleet starts it by itself; no approval is needed or available.")
      else
        let prior := if actor.kind = .orchestrator then
            (s.requests.latestFromOrchestrator step.id step.attempts).filter fun prior =>
              (prior.state = .cancelled || prior.state = .expired) &&
                nowMs - prior.updatedAt < requesterCooldownMs
          else none
        match prior with
        | some prior =>
            s.answered .queued fresh prior (ofString "An operator " ++
              (if prior.state = .cancelled then ofString "cancelled"
                else ofString "did not answer") ++
              ofString (" the last request for this follow-up. Do not ask again; it stays " ++
                "queued and ordinary scheduling continues."))
        | none =>
            match s.live.bind env run step with
            | .error reason =>
                s.answered .blocked fresh none (ofString "Blocked: " ++ reason ++
                  ofString " No approval was requested.")
            | .ok binding =>
                let request := requestOf env digests binding actor reason id nowMs
                match s.requests.insert request with
                | .error conflict => (s, .error conflict)
                | .ok requests =>
                    let next := { s with requests, drawn := s.drawn ++ [id] }
                    next.answered .awaitingApproval (next.admission run.id step.id) request
                      (ofString ("Approval requested. An authenticated operator must " ++
                        "choose Approve once or Cancel in Fleet; nothing launches until then."))

/-- What is answered about a worker that runs or is being resumed. -/
def underWay (step : WorkerStep) (current : Option WorkerResumeRequest) : Text :=
  if step.state = .running then
    ofString "The worker is already running this follow-up; the Node acknowledged it."
  else
    match current with
    | some current => orText current.outcome
        (ofString "An approved resume for this follow-up is under way.")
    | none => ofString ("Ordinary scheduling is already resuming this worker; no approval was " ++
        "needed. It reports running once the Node acknowledges the follow-up.")

/-- Resume now, asked by a person or an orchestrator. Ordinary scheduling has the first word. -/
def request (s : System) (input : ResumeInput) (actor : ResumeActor) (id : Text) (nowMs : Int)
    (clock : Text → Int) (pass : List Tick) :
    System × Except WorkerResumeConflict WorkerResumeOutcome :=
  match s.addressed input actor with
  | .error conflict => (s, .error conflict)
  | .ok (found, run) =>
      let s := if found.state = .pending then s.ticks env digests pass else s
      match s.live.steps.get found.id with
      | none => (s, .error internal)
      | some step =>
          if step.state.terminal then
            s.answered .blocked none none (env.trim
              (ofString "The queued follow-up is no longer waiting: its step ended " ++
                stepStateText step.state ++ ofString ". " ++ bounded step.output 400))
          else
            match s.admission run.id step.id with
            | none => (s, .error internal)
            | some admission =>
                let current := s.requests.active step.id
                if step.state = .running || step.state = .starting ||
                    admission.state = .starting then
                  s.answered (if step.state = .running then .running else .starting) admission
                    current (underWay step current)
                else
                  match current.filter fun current => current.state = .awaitingApproval with
                  | none => s.ask env digests run step actor input.reason id nowMs
                  | some current =>
                      if s.live.binds env digests run step current then
                        s.answered .awaitingApproval admission current
                          (ofString ("An approval request for this follow-up is already " ++
                            "waiting. It was not duplicated."))
                      else
                        match s.requests.settle current .stale
                          (ofString ("Replaced: the Node, checkout or queued work changed " ++
                            "before anyone decided.")) (clock current.id) with
                        | .error conflict => (s, .error conflict)
                        | .ok requests =>
                            { s with requests }.ask env digests run step actor input.reason id
                              nowMs

end System

/-- A decision on a request as it stands once the scheduler has had its pass. -/
def commit (live : Live) (requests : Requests) (shown current : WorkerResumeRequest)
    (decision : WorkerResumeDecision) (operatorId : Text) (nowMs : Int) (clock : Text → Int) :
    Except WorkerResumeConflict (Requests × Decided) :=
  if current.version ≠ shown.version then
    .ok (requests, {
      request := current
      error := some {
        code := .approvalConflict
        message := ofString "This request is already " ++ requestStateText current.state ++
          ofString ": " ++ current.outcome
        request := some current } })
  else if current.expiresAt ≤ nowMs then
    (requests.finish current .expired NOBODY_DECIDED { outcome := [] } (clock current.id)).map
      fun (requests, request) => (requests, {
        request
        error := some {
          code := .expired
          message := ofString ("This request expired before the decision arrived. Nothing was " ++
            "launched; request Resume now again if it is still needed.") } })
  else if decision.decision = .cancel then
    (requests.finish current .cancelled (ofString "Cancelled by " ++ operatorId ++
      ofString ". The follow-up stays queued; ordinary scheduling continues.")
      { outcome := [], decidedBy := some operatorId, decidedAt := some nowMs }
      (clock current.id)).map fun (requests, request) => (requests, { request })
  else
    let reason := match live.runs.get current.runId, live.steps.get current.stepId with
      | some run, some step => revalidate env digests live current run step true
      | _, _ => some (ofString "The task or its step no longer exists.")
    match reason with
    | some reason =>
        (requests.finish current .stale (ofString "Not approved: " ++ reason ++
          ofString " Nothing was launched.")
          { outcome := [], decidedBy := some operatorId, decidedAt := some nowMs }
          (clock current.id)).map fun (requests, request) => (requests, {
            request
            error := some {
              code := .stale
              message := reason ++ ofString (" Nothing was launched; request Resume now again " ++
                "if it is still needed.")
              request := some request } })
    | none =>
        (requests.update current.id current.version {
          state := some .approved
          outcome := ofString "Approved once by " ++ operatorId ++
            ofString "; Fleet is resuming the worker."
          decidedBy := some operatorId
          decidedAt := some nowMs
          launchBy := some (nowMs + launchMs) } (clock current.id)).map
            fun (requests, request) => (requests, { request, launch := true })

/-- An operator's decision on one request. It names the version and the fingerprint that the
    dialog displayed. -/
def System.decide (s : System) (requestId : Text) (decision : WorkerResumeDecision)
    (operatorId : Text) (nowMs : Int) (clock : Text → Int) (before after : List Tick) :
    System × Except WorkerResumeConflict WorkerResumeRequest :=
  match s.requests.get requestId with
  | none => (s, .error {
      code := .requestNotFound
      message := ofString "That resume request is gone." })
  | some shown =>
      if shown.state ≠ .awaitingApproval || shown.version ≠ decision.expectedVersion ||
          shown.fingerprint ≠ decision.fingerprint then
        (s, .error {
          code := .approvalConflict
          message := if shown.state = .awaitingApproval then
              ofString ("This request changed after it was shown. Review it again before " ++
                "deciding.")
            else ofString "This request is already " ++ requestStateText shown.state ++
              ofString "; nothing was changed."
          request := some shown })
      else
        let s := if decision.decision = .approveOnce && nowMs < shown.expiresAt then
            s.ticks env digests before
          else s
        match s.requests.get requestId with
        | none => (s, .error internal)
        | some current =>
            match commit env digests s.live s.requests shown current decision operatorId nowMs
              clock with
            | .error conflict => (s, .error conflict)
            | .ok (requests, decided) =>
                let s := { s with
                  requests
                  log := s.log ++ if decided.launch then
                    [.approved current decision operatorId nowMs s.live] else [] }
                match decided.error with
                | some conflict => (s, .error conflict)
                | none =>
                    let s := if decided.launch then s.ticks env digests after else s
                    (s, .ok ((s.requests.get requestId).getD decided.request))

/-! ### Runs -/

inductive Op where
  | tick (tick : Tick)
  | request (input : ResumeInput) (actor : ResumeActor) (id : Text) (nowMs : Int)
      (clock : Text → Int) (pass : List Tick)
  | decide (requestId : Text) (decision : WorkerResumeDecision) (operatorId : Text)
      (nowMs : Int) (clock : Text → Int) (before after : List Tick)
  /-- A restored archive never inherits an approval. -/
  | clear

def step (s : System) : Op → System
  | .tick tick => s.tick env digests tick
  | .request input actor id nowMs clock pass =>
      (s.request env digests input actor id nowMs clock pass).1
  | .decide requestId decision operatorId nowMs clock before after =>
      (s.decide env digests requestId decision operatorId nowMs clock before after).1
  | .clear => { s with requests := .empty }

def System.start (live : Live) : System where
  live
  requests := .empty
  lastPrunedAt := 0
  drawn := []
  log := []

/-- The id that is drawn was never drawn before. -/
def Fresh (s : System) : Op → Prop
  | .request _ _ id _ _ _ => id ∉ s.drawn
  | _ => True

end

end WorkerResume

end Orchestrator

end CopilotFleet
