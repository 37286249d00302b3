import CopilotFleet.Lib.Utf16
import CopilotFleet.Protocol.States

/-!
# Nodes, Placements, Sessions and Runs

The records the Host plans from: the machines of the fleet, the checkouts on
them, the sessions running there, and the runs with their steps. Each record
has the fields the planner reads. An optional boolean is a boolean here, since
the code only ever asks whether it is set, and an optional record is an
`Option`.

An identifier that is the empty string means there is none, as in the source.

## Main definitions

* `ExecutionBinding`: The isolated checkout a session or a step was bound to.
* `FleetNode`, `Placement`, `FleetSession`: A machine, a checkout, a session.
* `Run`, `RunStep`: A run and one of its steps.
* `isWritingCategory`: Whether work of a category writes to its checkout.
* `checkoutLockKey`: What a session locks.
-/

namespace CopilotFleet

open Utf16

/-- `MANAGED_WORKTREES_CAPABILITY`. -/
def managedWorktreesCapability : Text := ofString "managed-worktrees-v1"

/-- `PORTABLE_WORKTREE_RESULTS_CAPABILITY`. -/
def portableWorktreeResultsCapability : Text := ofString "portable-worktree-results-v1"

/-- `HOST_YOLO_CAPABILITY`. -/
def hostYoloCapability : Text := ofString "host-yolo"

/-- `CHATS_WORKSPACE_ID`. -/
def chatsWorkspaceId : Text := ofString "chats"

inductive AccessClass where
  | shell
  | noCheckout
  deriving DecidableEq, Repr

structure ExecutionBinding where
  worktreeId : Text := []
  generation : Nat := 0
  sourcePlacementId : Text
  cwd : Text := []
  checkoutKey : Text
  accessClass : AccessClass := .shell
  /-- The Host's dispatch fencing token, which a resume may rotate. -/
  leaseAttempt : Text := []
  quarantined : Bool := false
  deriving DecidableEq, Repr

inductive RunRole where
  | none
  | lead
  | worker
  | reviewer
  deriving DecidableEq, Repr

structure FleetNode where
  id : Text
  name : Text
  capabilities : List Text
  maxSessions : Nat
  online : Bool
  deriving DecidableEq, Repr

structure Placement where
  id : Text
  workspaceId : Text
  nodeId : Text
  localPath : Text
  workspaceName : Option Text := none
  nodeName : Option Text := none
  deriving DecidableEq, Repr

structure FleetSession where
  executionBinding : Option ExecutionBinding := none
  id : Text
  placementId : Text
  nodeId : Text
  state : SessionState
  name : Text := []
  currentActivity : Text := []
  runRole : RunRole := .none
  stopRequested : Bool := false
  dismissed : Bool := false
  readOnly : Bool := false
  deriving DecidableEq, Repr

inductive WorkspaceMode where
  | legacy
  | managed
  deriving DecidableEq, Repr

inductive WorkspaceInitialization where
  | notRequired
  | pending
  | reserved
  | ready
  | blocked
  | quarantined
  deriving DecidableEq, Repr

inductive ObjectFormat where
  | sha1
  | sha256
  deriving DecidableEq, Repr

structure RunWorkspaceBinding where
  effectiveMode : WorkspaceMode := .legacy
  originatingPlacementId : Text := []
  repositoryIdentity : Text := []
  repositoryObjectFormat : Option ObjectFormat := none
  managedWorktreeId : Text := []
  generation : Nat := 0
  baseSha : Text := []
  checkoutKey : Text := []
  initialization : WorkspaceInitialization := .notRequired
  deriving DecidableEq, Repr

structure RepositoryIdentity where
  id : Text
  objectFormat : ObjectFormat
  deriving DecidableEq, Repr

structure PlacementRepositoryCapability where
  placementId : Text
  nodeId : Text
  localPath : Option Text := none
  repositoryIdentity : RepositoryIdentity
  baseSha : Text
  baseAvailable : Bool
  baseMaterializable : Bool := false
  portableResultsSupported : Bool := true
  verifiedAt : Text
  deriving DecidableEq, Repr

inductive OnStepFailure where
  | wake
  | failFast
  | «continue»
  deriving DecidableEq, Repr

inductive WakePolicy where
  | onAnySettle
  | none
  deriving DecidableEq, Repr

structure RunPolicy where
  maxParallel : Nat := 3
  yolo : Bool := true
  onStepFailure : OnStepFailure := .wake
  wakePolicy : WakePolicy := .none
  stepTimeoutMs : Nat := 3600000
  startingTimeoutMs : Nat := 120000
  deriving DecidableEq, Repr

structure Run where
  workspaceBinding : Option RunWorkspaceBinding := none
  id : Text
  workspaceId : Text
  state : RunState
  leadSessionId : Text := []
  placementId : Text := []
  policy : RunPolicy := {}
  pendingPrompt : Text := []
  settleSeq : Nat := 0
  wakeSeq : Nat := 0
  emptyWakeCount : Nat := 0
  deriving DecidableEq, Repr

inductive StepWorkspaceState where
  | notRequired
  | pending
  | reserved
  | creating
  | composing
  | ready
  | finalizing
  | completed
  | blocked
  | quarantined
  deriving DecidableEq, Repr

structure RunStep where
  executionBinding : Option ExecutionBinding := none
  workspaceState : Option StepWorkspaceState := none
  id : Text
  stepKey : Text
  prompt : Text
  category : Text := []
  dependsOn : List Text := []
  state : RunStepState
  sessionId : Text := []
  placementId : Text := []
  attempts : Nat := 0
  dispatchedAt : Text := []
  updatedAt : Text
  deriving DecidableEq, Repr

/-- Categories that write to the checkout. -/
def isWritingCategory (category : Text) : Bool :=
  category = ofString "implement" || category = ofString "test"

def isChatsWorkspace (workspaceId : Text) : Bool := workspaceId = chatsWorkspaceId

/-- `effectiveMode === "managed"`, asked of a run that may have no binding. -/
def Run.managed (run : Run) : Bool :=
  match run.workspaceBinding with
  | some binding => binding.effectiveMode = .managed
  | none => false

/-- The process holds a managed worktree of its own. -/
def FleetSession.bound (session : FleetSession) : Bool :=
  match session.executionBinding with
  | some binding => binding.worktreeId ≠ []
  | none => false

/-- What a session locks: its managed checkout, or else its placement. -/
def checkoutLockKey (session : FleetSession) : Text :=
  match session.executionBinding with
  | some binding => if binding.worktreeId ≠ [] then binding.checkoutKey else session.placementId
  | none => session.placementId

end CopilotFleet
