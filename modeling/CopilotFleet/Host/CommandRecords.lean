import CopilotFleet.Lib.Effect
import CopilotFleet.Lib.Ranges
import CopilotFleet.Lib.Table
import CopilotFleet.Lib.Utf16
import Mathlib.Data.List.Sort

/-!
# Records of Remote Commands

What the Host keeps of the commands it sends to Nodes: the executions
themselves, and beside each what must outlive it. A request and an attempt
leave tombstones, so that neither is made twice. A task has a fence, which
closes its checkout while a command may be changing it and until somebody has
looked and tested again. What a lead is owed is a prompt, and the prompt names
the executions it reports.

Identifiers that are drawn at random are numbers here, each used once.
Timestamps are the instants they name. A digest is kept as what it is the
digest of, so two are equal exactly when their sources are.

## Main definitions

* `Execution`: A command, from request to outcome.
* `Attempt`: What is remembered of its start, even after it is swept.
* `Fence`: What stands between a command and the work of its task.
* `PromptRecord`: What is owed to a lead.
* `Db`: The tables.
* `State`: The tables, what is in memory, and what has been sent.
* `mergeCommandGaps`: Ranges of output that are lost, each once.
-/

namespace CopilotFleet

namespace Commands

open Utf16

inductive ExecutionState where
  | preparing
  | awaitingApproval
  | queued
  | starting
  | running
  | cancelling
  | reconciliationRequired
  | succeeded
  | failed
  | denied
  | expired
  | cancelled
  | timedOut
  | interrupted
deriving DecidableEq

/-- `terminalCommandExecutionStates` -/
def ExecutionState.terminal : ExecutionState → Bool
  | .succeeded | .failed | .denied | .expired | .cancelled | .timedOut | .interrupted => true
  | _ => false

/-- `activeStates`: a process may exist. -/
def ExecutionState.active : ExecutionState → Bool
  | .starting | .running | .cancelling | .reconciliationRequired => true
  | _ => false

inductive Ownership where
  | notStarted
  | active
  | quiescent
  | unknown
deriving DecidableEq

inductive DeliveryState where
  | none
  | pending
  | reserved
  | accepted
  | rejectedBusy
  | uncertain
  | settled
  | orphaned
deriving DecidableEq

inductive PromptState where
  | pending
  | reserved
  | accepted
  | rejectedBusy
  | uncertain
  | settled
  | rejected
  | orphaned
deriving DecidableEq

/-- A prompt that is never sent again. -/
def PromptState.retired : PromptState → Bool
  | .settled | .rejected | .orphaned => true
  | _ => false

/-- Where a delivery has been offered to the Node. -/
def PromptState.offered : PromptState → Bool
  | .reserved | .accepted | .uncertain => true
  | _ => false

/-- Output that is lost, from one sequence to another. -/
abbrev Gap := Range

inductive CommandTarget where
  | placement (placementId : Text)
  | worktree (worktreeId : Text) (generation : Nat)
deriving DecidableEq

def CommandTarget.isWorktree : CommandTarget → Bool
  | .worktree _ _ => true
  | .placement _ => false

structure RunCommand where
  target : CommandTarget
  command : Text
  shell : Text
  reason : Text
  timeoutMs : Nat
  requestKey : Text
  taskId : Option Text
  maintenanceObservation : Option Text
deriving DecidableEq

structure ObservationBudget where
  deadlineAt : Int
  requests : Nat
deriving DecidableEq

/-- What the Node is asked to prepare. -/
structure Preparation extends RunCommand where
  executionId : Nat
  attemptId : Nat
  hostId : Text
  nodeId : Text
  leadSessionId : Text
  requestedPath : Text
  createdAt : Int
  expiresAt : Int
  hostTime : Int
  observationBudget : Option ObservationBudget
deriving DecidableEq

inductive GrantedBy where
  | builtin
  | session
  | always
deriving DecidableEq

structure PermissionMatch where
  reusable : Bool
  commandKey : Option Text
  path : Text
  grantedBy : Option GrantedBy
  /-- Its explanation, its rule and the version of the policy. -/
  basis : Text
deriving DecidableEq

structure CheckoutIdentity where
  key : Text
  path : Text
deriving DecidableEq

structure PreparedTarget where
  cwd : Text
  checkout : CheckoutIdentity
  repository : CheckoutIdentity
  shellPath : Text
  preparedAt : Int
  permission : Option PermissionMatch
  /-- The offset and the uncertainty of the Node's clock. -/
  clock : Text
deriving DecidableEq

inductive Digest where
  | request (request : RunCommand)
  | prepared (body : Preparation) (prepared : PreparedTarget)
  | other (text : Text)
deriving DecidableEq

/-- What the Node has prepared, and an approval is an approval of. -/
structure Descriptor extends Preparation where
  prepared : PreparedTarget
  digest : Digest
deriving DecidableEq

inductive ApprovalScope where
  | once
  | session
  | always
deriving DecidableEq

structure Execution extends RunCommand where
  id : Nat
  attemptId : Nat
  version : Nat
  hostId : Text
  nodeId : Text
  leadSessionId : Text
  requestedPath : Text
  requestDigest : Digest
  descriptor : Option Descriptor := none
  state : ExecutionState
  ownership : Ownership
  createdAt : Int
  expiresAt : Int
  approvedBy : Option Text := none
  approvedAt : Option Int := none
  approvalScope : Option ApprovalScope := none
  automaticApproval : Bool := false
  cancelRequested : Bool := false
  exitCode : Option Int := none
  outcomeKnown : Bool := false
  descendantCleanupForced : Bool := false
  reasonCode : Text := []
  error : Text := []
  startedAt : Option Int := none
  settledAt : Option Int := none
  lastOutputSeq : Nat := 0
  finalOutputSeq : Option Nat := none
  outputComplete : Bool := false
  outputBytes : Nat := 0
  gaps : List Gap := []
  delivery : DeliveryState := .none
  deliveryId : Option Nat := none
deriving DecidableEq

/-- An execution of a task in its own worktree, whose fence it takes. -/
def Execution.managed (execution : Execution) : Option Text :=
  if execution.target.isWorktree then execution.taskId else none

/-- What a Node says of an execution. -/
structure Receipt where
  executionId : Nat
  attemptId : Nat
  digest : Digest
  state : ExecutionState
  ownership : Ownership
  exitCode : Option Int
  reason : Text
  descendantCleanupForced : Bool := false
  outcomeKnown : Bool := false
  startedAt : Option Int := none
  settledAt : Option Int := none
  finalOutputSeq : Option Nat := none
  gaps : List Gap := []
deriving DecidableEq

/-- `CommandReceiptSchema`, past the shape of the fields. -/
def Receipt.valid (receipt : Receipt) : Bool :=
  (!(receipt.state = .interrupted || receipt.state = .timedOut) ||
      receipt.ownership = .quiescent) &&
    (!receipt.state.terminal || receipt.ownership = .quiescent ||
      receipt.ownership = .notStarted) &&
      (!(receipt.state = .succeeded) ||
        (receipt.exitCode = some 0 && receipt.outcomeKnown && !receipt.descendantCleanupForced &&
          receipt.ownership = .quiescent)) &&
        receipt.gaps.length ≤ 128 &&
          receipt.gaps.all fun gap => 0 < gap.first && gap.first ≤ gap.last

/-- A receipt without the part of it that may grow. -/
def Receipt.outcome (receipt : Receipt) : Receipt := { receipt with gaps := [] }

structure OutputEvent where
  executionId : Nat
  attemptId : Nat
  sequence : Nat
  stderr : Bool
  /-- The bytes in base 64. -/
  data : Text
  «at» : Int
deriving DecidableEq

/-- The number of bytes some base 64 stands for. -/
def decodedLength (data : Text) : Nat :=
  data.length / 4 * 3 - (data.reverse.takeWhile (· = 61)).length

structure Request where
  executionId : Nat
  digest : Digest
  createdAt : Int
  revoked : Bool := false
deriving DecidableEq

structure Attempt where
  attemptId : Nat
  digest : Digest
  nodeId : Text
  hostId : Text
  retiredAt : Option Int := none
  startVersion : Option Nat := none
  cancelled : Bool := false
  receipt : Option Receipt := none
deriving DecidableEq

inductive FenceState where
  | executing
  | observationRequired
  | verificationRequired
  | clear
deriving DecidableEq

structure Fence where
  taskId : Text
  executionId : Nat
  revision : Nat
  state : FenceState
  changedAt : Int
  previousVerificationAt : Option Int := none
deriving DecidableEq

structure Evidence where
  taskId : Text
  revision : Nat
deriving DecidableEq

inductive NotificationPhase where
  | approval
  | closed
  | completion
deriving DecidableEq

structure PreparationClock where
  hostTime : Int
  acceptedAt : Option Int := none
  elapsedMs : Option Rat := none
deriving DecidableEq

structure Attachment where
  content : Text
deriving DecidableEq

structure LeadPromptDelivery where
  deliveryId : Nat
  sessionId : Text
  prompt : Text
  executionBinding : Option Text := none
  attachments : List Attachment := []
deriving DecidableEq

inductive LeadPromptReceiptState where
  | accepted
  | rejectedBusy
  | uncertain
  | settled
  | rejected
deriving DecidableEq

def LeadPromptReceiptState.prompt : LeadPromptReceiptState → PromptState
  | .accepted => .accepted
  | .rejectedBusy => .rejectedBusy
  | .uncertain => .uncertain
  | .settled => .settled
  | .rejected => .rejected

def LeadPromptReceiptState.delivery : LeadPromptReceiptState → DeliveryState
  | .accepted => .accepted
  | .rejectedBusy => .rejectedBusy
  | .uncertain => .uncertain
  | .settled => .settled
  | .rejected => .orphaned

structure LeadPromptReceipt where
  deliveryId : Nat
  sessionId : Text
  state : LeadPromptReceiptState
  detail : Text
  «at» : Int
  nativeSessionId : Option Text := none
  attemptId : Option Nat := none
deriving DecidableEq

/-- The keys that begin with `command:` are made for completions only. -/
inductive PromptKey where
  | command (executionId : Nat)
  | other (text : Text)
deriving DecidableEq

structure PromptRecord where
  delivery : LeadPromptDelivery
  nodeId : Text
  key : PromptKey
  state : PromptState
  executions : List Nat
  createdAt : Int
  retryAfter : Option Int := none
  receipt : Option LeadPromptReceipt := none
  retryAfterSeq : Option Nat := none
  /-- A column of its own. -/
  priority : Int := 0
deriving DecidableEq

/-- What has come about, in the order it did; it is kept for the proofs, and
    no operation reads it. -/
inductive Happening where
  | approved (executionId : Nat) (descriptor : Descriptor) (approvedBy : Text) (approvedAt : Int)
  | settled (executionId : Nat) (taskId : Text) (changedAt : Int)
  | observed (taskId : Text) (observedAt : Int)
  | dispatched (taskId stepId : Text)
deriving DecidableEq

structure Db where
  executions : Table Nat Execution := Table.empty
  events : Table (Nat × Nat) OutputEvent := Table.empty
  requests : Table (Text × Text) Request := Table.empty
  attempts : Table Nat Attempt := Table.empty
  fences : Table Text Fence := Table.empty
  evidence : Table Text Evidence := Table.empty
  notifications : Table Nat NotificationPhase := Table.empty
  clocks : Table Nat PreparationClock := Table.empty
  /-- The Host, the Node and the lead whose grants are revoked. -/
  revocations : List (Text × Text × Text) := []
  namespaceId : Nat := 0
  prompts : Table Nat PromptRecord := Table.empty
  history : List Happening := []

structure Readiness where
  enabled : Bool
  supported : Bool
  shells : List Text
  admissionVersion : Nat
deriving DecidableEq

structure Peer where
  link : Nat
  commandProtocol : Bool
  capabilities : List Text
  readiness : Option Readiness
  sentRevocations : List (Text × Text) := []
deriving DecidableEq

inductive HostMessage where
  | prepareCommandExecution (request : Preparation)
  | startCommandExecution (descriptor : Descriptor) (approvedBy : Text) (approvedAt : Int)
      (version : Nat) (approvalScope : Option ApprovalScope) (automaticApproval : Option Bool)
  | revokeCommandSessionGrants (hostId leadSessionId : Text)
  | cancelCommandExecution (hostId : Text) (executionId attemptId : Nat)
  | reconcileCommandExecutions (hostId : Text) (executions : List (Nat × Nat × Nat))
  | commandExecutionAck (executionId attemptId : Nat) (digest : Digest) (throughSeq : Nat)
      (terminal : Bool)
  | deliverLeadPrompt (delivery : LeadPromptDelivery)
deriving DecidableEq

/-- A message that was sent, and the tables as they were when it was. -/
structure Sent where
  nodeId : Text
  message : HostMessage
  tables : Db

structure State where
  db : Db := {}
  peers : Table Text Peer := Table.empty
  /-- The observations under way, each with the fence and the generation it is for. -/
  observations : Table Nat (Fence × Nat) := Table.empty
  lastSweep : Int := 0
  outbox : List Sent := []
  nextId : Nat := 0

def State.setPeer (s : State) (nodeId : Text) (peer : Peer) : State :=
  { s with peers := s.peers.set nodeId peer }

/-- What stops an operation: a conflict with its code, or anything else. -/
inductive Failure where
  | conflict (code : Text)
  | other
deriving DecidableEq

abbrev Host (α : Type) : Type := Effect State Failure α

def conflict {α : Type} (code : String) : Host α := Effect.raise (.conflict (ofString code))

/-- The tables go back to what they were; what is in memory or sent stays. -/
def writeAtomically {α : Type} (work : Host α) : Host α :=
  Effect.transaction (fun before after => { after with db := before.db }) work

/-! ### Limits -/

def outputLimit : Nat := 10 * 1024 * 1024

def chunkLimit : Nat := 24 * 1024

def hostLogLimit : Nat := 512 * 1024 * 1024

def approvalMs : Int := 1800000

def retryMs : Int := 86400000

def replayMs : Int := 7 * 86400000

def retentionMs : Int := 30 * 86400000

def maxLeadPending : Nat := 10

def maxNodePending : Nat := 32

def listLimit : Nat := 10000

/-! ### Ranges of lost output -/

/-- A tail in too many pieces is one lossy range. -/
def mergeCommandGaps (ranges : List Gap) : List Gap := Ranges.compress 127 (Ranges.merge ranges)

/-- When a request that has not started can be approved no more. -/
def commandApprovalExpiresAt (execution : Execution) : Int :=
  match execution.descriptor.bind (·.observationBudget) with
  | some budget => if budget.deadlineAt < execution.expiresAt then budget.deadlineAt
      else execution.expiresAt
  | none => execution.expiresAt

end Commands

end CopilotFleet
