import CopilotFleet.Host.CommandStore
import CopilotFleet.Lib.Refusal
import CopilotFleet.Orchestrator.Schedule

/-!
# What a Run Owes Its Lead

A run keeps one text that its lead is still to be told, and two counters whose
difference is a wake that the lead is still owed. The engine hands both over to
a durable queue of prompts, in one transaction each: the run is marked as
delivered, and a record of the queue is made under a key that is written from
the run. The queue is idempotent, so what it has a record for under that key it
does not make another one for.

Everything that decides from outside is an answer of the environment: the
clock, the sessions, what a store refuses to change, the size of a payload and
whether a message can be sent. A call that throws in its transaction leaves
everything as it was.

What was handed over is kept in `commits`, with the queue before and after. No
operation reads it.

## Main definitions

* `RunRow`, `PromptRecord`: The rows of the two tables.
* `updateRun`, `recordRunSettle`, `recordRunWake`: Writes of a run.
* `enqueuePrompt`, `updatePrompt`: Writes of the queue.
* `queueRunPrompt`, `queueRunWake`: The two transactions.
* `deliverPrompt`, `wakeLead`, `pumpLead`: What the engine does with them.
* `promptReceipt`: What a Node's receipt comes to.
* `moveOwed`: What a transfer does with the owed prompts.

## Theorems

-/

namespace CopilotFleet

open Utf16 Refusal

namespace LeadPrompts

open Commands (PromptState LeadPromptReceipt LeadPromptReceiptState retiredText)

/-! ### Rows -/

structure RunRow extends Run where
  name : Text := []
  updatedAt : Int
deriving DecidableEq

/-- The key of a prompt, as what it is written from. Those of a run begin with
    `run-prompt:` and with `run-wake:`. -/
inductive PromptKey where
  | runPrompt (runId : Text) (updatedAt : Int)
  | runWake (runId : Text) (settleSeq : Nat)
  | other (key : Text)
  /-- `randomUUID`. -/
  | drawn (token : Nat)
deriving DecidableEq

/-- The key is one of the run's. -/
def PromptKey.ofRun (runId : Text) : PromptKey → Bool
  | .runPrompt id _ => id = runId
  | .runWake id _ => id = runId
  | .other _ => false
  | .drawn _ => false

structure PromptRecord where
  deliveryId : Nat
  leadId : Text
  nodeId : Text
  key : PromptKey
  prompt : Text
  state : PromptState := .pending
  receipt : Option LeadPromptReceipt := none
  retryAfterSeq : Option Nat := none
  /-- A column of its own. -/
  priority : Int := 0
deriving DecidableEq

/-- A session, with what the queue asks of it. -/
structure LeadSession extends FleetSession where
  runId : Text := []
  cleanupRequested : Bool := false
  /-- `getSessionTransitionIntent` is `stop`. -/
  stopping : Bool := false
deriving DecidableEq

/-- Something that was handed over to the queue. -/
structure Commit where
  runId : Text
  leadId : Text
  text : Text
  key : PromptKey
  /-- The record that serves it. -/
  record : Nat
  before : List PromptRecord
  after : List PromptRecord
deriving DecidableEq

structure State where
  runs : Table Text RunRow := Table.empty
  /-- In the order of their rows. -/
  prompts : List PromptRecord := []
  /-- The next random number. -/
  drawn : Nat := 0
  /-- Leads already sent a prompt during the tick in progress. -/
  promptedThisTick : List Text := []
  /-- Prompts that were sent without the queue. -/
  sent : List (Text × Text) := []
  commits : List Commit := []

/-- A change of a run's row. What other columns are set to is not modelled. -/
structure RunPatch where
  state : Option RunState := none
  leadSessionId : Option Text := none
  pendingPrompt : Option Text := none
  emptyWakeCount : Option Nat := none
  others : Bool := false
deriving DecidableEq

/-- What the environment answers during one call. -/
structure World where
  now : Int
  session : Text → Option LeadSession
  /-- The Node of a session takes durable deliveries. -/
  capable : Text → Bool
  /-- What `updateRun` refuses before it writes. -/
  runRefusal : RunRow → RunPatch → Option Text := fun _ _ => none
  sessionMutable : Text → Bool := fun _ => true
  promptPressure : List PromptRecord → Text → Option Text := fun _ _ => none
  waitingBriefOwed : Text → Bool := fun _ => false
  consoleBlocked : Text → Bool := fun _ => false
  maxEventSequence : Text → Nat := fun _ => 0
  /-- The local agent's requests let a prompt go. -/
  admits : PromptRecord → Bool := fun _ => true
  send : Bool := true
  wakeEnvelope : RunRow → Text := fun _ => []

variable (w : World)

/-! ### Runs -/

/-- The columns of a patch. -/
def RunPatch.write (patch : RunPatch) (now : Int) (row : RunRow) : RunRow :=
  { row with
    state := patch.state.getD row.state
    leadSessionId := patch.leadSessionId.getD row.leadSessionId
    pendingPrompt := patch.pendingPrompt.getD row.pendingPrompt
    emptyWakeCount := patch.emptyWakeCount.getD row.emptyWakeCount
    updatedAt := now }

/-- Nothing is to be set. -/
def RunPatch.empty (patch : RunPatch) : Bool :=
  patch.state.isNone && patch.leadSessionId.isNone && patch.pendingPrompt.isNone &&
    patch.emptyWakeCount.isNone && !patch.others

def State.setRun (row : RunRow) (s : State) : State :=
  { s with runs := s.runs.set row.id row }

def updateRun (id : Text) (patch : RunPatch) (s : State) : Except Text State :=
  match s.runs.get id with
  | none => .ok s
  | some row =>
      match w.runRefusal row patch with
      | some code => .error code
      | none => if patch.empty then .ok s else .ok (s.setRun (patch.write w.now row))

def recordRunSettle (id : Text) (s : State) : State :=
  match s.runs.get id with
  | none => s
  | some row =>
      s.setRun { row with
        settleSeq := row.settleSeq + 1
        updatedAt := w.now }

/-- Catches the wake counter up to the settle counter. -/
def recordRunWake (row : RunRow) (s : State) : State :=
  s.setRun { row with
    wakeSeq := row.settleSeq
    updatedAt := w.now }

/-- Whether there was a lead to record it for. -/
def recordOrchestratorPrompt (leadId : Text) : Except Text Bool :=
  if w.sessionMutable leadId = false then .error (ofString "session_immutable")
  else .ok ((w.session leadId).any fun session => session.runRole = .lead)

/-- Claims one held run prompt and its lead's receipt together. -/
def recordRunPromptDelivery (runId leadId prompt : Text) (s : State) :
    Except Text (Option State) :=
  match s.runs.get runId with
  | none => .ok none
  | some row =>
      if row.leadSessionId ≠ leadId ∨ row.pendingPrompt ≠ prompt then .ok none
      else do
        let s ← updateRun w runId { pendingPrompt := some [] } s
        let recorded ← recordOrchestratorPrompt w leadId
        if recorded then .ok (some s) else .error (ofString "Run Lead session not found")

/-- Records a run wake and its lead's receipt together. -/
def recordRunWakePrompt (runId leadId : Text) (s : State) : Except Text (Option State) :=
  match s.runs.get runId with
  | none => .ok none
  | some row =>
      if row.leadSessionId ≠ leadId then .ok none
      else do
        let recorded ← recordOrchestratorPrompt w leadId
        if recorded then .ok (some (recordRunWake w row s))
        else .error (ofString "Run Lead session not found")

/-! ### The queue -/

/-- What is still owed to a lead, the most urgent first. -/
def State.promptsOf (leadId : Text) (s : State) : List PromptRecord :=
  (s.prompts.filter fun record => record.leadId = leadId && !record.state.retired).insertionSort
    fun a b => b.priority ≤ a.priority

/-- A prompt is reserved, and the lead is not given another. -/
def State.reserved (leadId : Text) (s : State) : Option PromptRecord :=
  (s.promptsOf leadId).find? (·.state.offered)

/-- The record of a lead under a key. -/
def State.promptByKey (leadId : Text) (key : PromptKey) (s : State) : Option PromptRecord :=
  s.prompts.find? fun record => record.leadId = leadId && record.key = key

def enqueuePrompt (leadId nodeId prompt : Text) (key : PromptKey) (s : State) :
    Except Text (PromptRecord × State) :=
  match s.promptByKey leadId key with
  | some existing => .ok (existing, s)
  | none =>
      if 100 ≤ (s.promptsOf leadId).length then .error (ofString "lead_prompt_queue_full")
      else
        match w.promptPressure s.prompts prompt with
        | some code => .error code
        | none =>
            let record : PromptRecord :=
              { deliveryId := s.drawn
                leadId
                nodeId
                key
                prompt }
            .ok (record, { s with
              prompts := s.prompts ++ [record]
              drawn := s.drawn + 1 })

/-- A retired prompt keeps who it was for, and not what it said. -/
def PromptRecord.retained (record : PromptRecord) : PromptRecord :=
  if record.state.retired then { record with prompt := retiredText } else record

/-- A record is written over the one with its identity; its key, its lead and its priority
    are columns that are not written again. -/
def State.updatePrompt (record : PromptRecord) (s : State) : State :=
  { s with
    prompts := s.prompts.map fun old =>
      if old.deliveryId = record.deliveryId then
        { old with
          prompt := record.retained.prompt
          state := record.state
          receipt := record.receipt
          retryAfterSeq := record.retryAfterSeq }
      else old }

def State.prioritizePrompt (id : Nat) (priority : Int) (s : State) : State :=
  { s with
    prompts := s.prompts.map fun old =>
      if old.deliveryId = id then { old with priority } else old }

def lead (leadId : Text) (s : State) : Except Text LeadSession :=
  match w.session leadId with
  | none => .error (ofString "lead_not_live")
  | some session =>
      if session.runRole ≠ .lead ∨ session.state.terminal ∨ session.cleanupRequested ∨
          session.stopRequested ∨ session.stopping ∨
          (session.runId ≠ [] ∧
            ((s.runs.get session.runId).all fun row => row.state.terminal) = true) then
        .error (ofString "lead_not_live")
      else .ok session

/-- The Node of a lead takes durable deliveries. -/
def durableLead (leadId : Text) : Bool :=
  (w.session leadId).any fun session => w.capable session.nodeId

def queueLeadPrompt (leadId prompt : Text) (key : PromptKey) (s : State) :
    Except Text (PromptRecord × State) := do
  let session ← lead w leadId s
  if durableLead w leadId = false then .error (ofString "durable_lead_delivery_required")
  else enqueuePrompt w leadId session.nodeId prompt key s

/-- It is kept what was handed over, and what became of the queue. -/
def State.commit (runId leadId text : Text) (key : PromptKey) (record : Nat)
    (before : List PromptRecord) (s : State) : State :=
  { s with
    commits := s.commits ++ [{
      runId
      leadId
      text
      key
      record
      before
      after := s.prompts }] }

/-- The transaction that hands over the text a run owes. -/
def queueRunPrompt (run : RunRow) (leadId prompt : Text) (key : PromptKey) (s : State) :
    Except Text (Option State) := do
  match ← recordRunPromptDelivery w run.id leadId prompt s with
  | none => .ok none
  | some recorded => do
      let (record, queued) ← queueLeadPrompt w leadId prompt key recorded
      .ok (some (queued.commit run.id leadId prompt key record.deliveryId s.prompts))

/-- The transaction that hands over the wake a run owes. -/
def queueRunWake (run : RunRow) (leadId : Text) (s : State) : Except Text (Option State) := do
  let prompt := w.wakeEnvelope run
  match ← recordRunWakePrompt w run.id leadId s with
  | none => .ok none
  | some recorded => do
      let key := .runWake run.id run.settleSeq
      let (record, queued) ← queueLeadPrompt w leadId prompt key recorded
      .ok (some (queued.commit run.id leadId prompt key record.deliveryId s.prompts))

/-- The first prompt that may go is reserved and sent. -/
def pumpLead (leadId : Text) (s : State) : State :=
  match lead w leadId s with
  | .error _ => s
  | .ok session =>
      if w.consoleBlocked session.nodeId || !durableLead w leadId || session.state ≠ .idle ||
          (s.reserved leadId).isSome then s
      else
        let record := (s.promptsOf leadId).find? fun entry =>
          (entry.state = .pending ||
            (entry.state = .rejectedBusy &&
              entry.retryAfterSeq.any fun seq => seq < w.maxEventSequence leadId)) &&
            w.admits entry
        match record, recordOrchestratorPrompt w leadId with
        | some record, .ok _ =>
            let s := s.updatePrompt { record with state := .reserved }
            if w.send then s else s.updatePrompt { record with state := .uncertain }
        | _, _ => s

/-! ### Receipts -/

/-- A receipt binds a delivery to one native turn. -/
def bound (receipt : LeadPromptReceipt) : Bool :=
  (receipt.state = .accepted || receipt.state = .uncertain || receipt.state = .settled) &&
    receipt.nativeSessionId.any (· ≠ []) && receipt.attemptId.isSome

/-- Why a receipt is not taken, where it is not. -/
def receiptRefused (nodeId : Text) (receipt : LeadPromptReceipt) (record : PromptRecord) : Bool :=
  let nativeRequired :=
    receipt.state = .accepted || receipt.state = .uncertain || receipt.state = .settled
  let native := receipt.nativeSessionId.any (· ≠ [])
  record.nodeId ≠ nodeId || record.leadId ≠ receipt.sessionId ||
    (nativeRequired && !(native && receipt.attemptId.isSome)) ||
    (native != receipt.attemptId.isSome) ||
    (nativeRequired && record.state = .rejectedBusy) ||
    (record.receipt.any fun previous => bound previous &&
      (previous.nativeSessionId ≠ receipt.nativeSessionId ||
        previous.attemptId ≠ receipt.attemptId ||
        receipt.state = .rejected || receipt.state = .rejectedBusy))

def promptReceipt (nodeId : Text) (receipt : LeadPromptReceipt) (s : State) : State :=
  match s.prompts.find? fun record => record.deliveryId = receipt.deliveryId with
  | none => s
  | some record =>
      let wasBound := record.receipt.any bound
      if !w.capable nodeId || receiptRefused nodeId receipt record then s
      else if record.receipt = some receipt then s
      else if record.state = .orphaned then
        s.updatePrompt { record with receipt := some receipt }
      else if record.state.retired || record.state = .pending then s
      else if receipt.state = .rejectedBusy && record.state = .accepted then s
      else if receipt.state = .accepted &&
          !(record.state = .reserved || record.state = .uncertain) &&
          !(record.state = .accepted && !wasBound) then s
      else
        s.updatePrompt { record with
          state := receipt.state.prompt
          receipt := some receipt
          retryAfterSeq :=
            if receipt.state = .rejectedBusy then some (w.maxEventSequence receipt.sessionId)
            else record.retryAfterSeq }

/-! ### The engine -/

/-- The lead of a run can be given a prompt. -/
def idleLead (run : RunRow) : Bool :=
  run.leadSessionId ≠ [] && (w.session run.leadSessionId).any fun session =>
    session.state = .idle && !session.cleanupRequested

/-- Hands over a message the run has been holding, once. -/
def deliverPrompt (run : RunRow) (prompt : Text) (s : State) : State :=
  let leadId := run.leadSessionId
  if idleLead w run = false then s
  else if durableLead w leadId then
    match queueRunPrompt w run leadId prompt (.runPrompt run.id run.updatedAt) s with
    | .ok (some s) => pumpLead w leadId s
    | _ => s
  else if w.waitingBriefOwed run.id || s.promptedThisTick.contains leadId then s
  else
    let prompted := { s with promptedThisTick := leadId :: s.promptedThisTick }
    match recordRunPromptDelivery w run.id leadId prompt prompted with
    | .ok (some s) => { s with sent := s.sent ++ [(leadId, prompt)] }
    | .ok none => s
    | .error _ => prompted

/-- Delivers one wake, and only one. -/
def wakeLead (run : RunRow) (s : State) : State :=
  let leadId := run.leadSessionId
  if idleLead w run = false then s
  else if durableLead w leadId then
    match queueRunWake w run leadId s with
    | .ok (some s) => pumpLead w leadId s
    | _ => s
  else if s.promptedThisTick.contains leadId then s
  else
    let prompted := { s with promptedThisTick := leadId :: s.promptedThisTick }
    match recordRunWakePrompt w run.id leadId prompted with
    | .ok (some s) => { s with sent := s.sent ++ [(leadId, w.wakeEnvelope run)] }
    | .ok none => s
    | .error _ => prompted

inductive Owed where
  | deliverPrompt (prompt : Text)
  | wakeLead
deriving DecidableEq

/-- What the planner hands over at the end of a plan. -/
def owedAction (run : Run) (leadIdle heldByHuman : Bool) : Option Owed :=
  if run.pendingPrompt ≠ [] && leadIdle then some (.deliverPrompt run.pendingPrompt)
  else if run.policy.wakePolicy = .none then none
  else if !heldByHuman && run.wakeSeq < run.settleSeq && run.emptyWakeCount < 2 && leadIdle then
    some .wakeLead
  else none

/-- What else a tick writes of the run rows, before it hands over. -/
inductive Write where
  | update (id : Text) (patch : RunPatch)
  | settle (id : Text)
deriving DecidableEq

/-- An update that is refused writes nothing. -/
def update (id : Text) (patch : RunPatch) (s : State) : State :=
  match updateRun w id patch s with
  | .ok t => t
  | .error _ => s

def write (s : State) : Write → State
  | .update id patch => update w id patch s
  | .settle id => recordRunSettle w id s

/-- One pass over a run that is not held as a whole. The run is read before anything else
    of the plan is carried out. -/
def tickRun (runId : Text) (writes : List Write) (s : State) : State :=
  match s.runs.get runId with
  | none => s
  | some run =>
      if run.state.terminal then s
      else
        let leadIdle := run.leadSessionId ≠ [] &&
          (w.session run.leadSessionId).any fun session => session.state = .idle
        let s := writes.foldl (write w) s
        match owedAction run.toRun leadIdle (run.state = .awaitingHuman) with
        | some (.deliverPrompt prompt) => deliverPrompt w run prompt s
        | some .wakeLead => wakeLead w run s
        | none => s

/-- An operator hands the owed text over at once. -/
def sendNow (runId leadId : Text) (s : State) : State :=
  match s.runs.get runId with
  | none => s
  | some run =>
      if durableLead w leadId = false then s
      else
        let key := .drawn s.drawn
        match queueRunPrompt w run leadId run.pendingPrompt key { s with drawn := s.drawn + 1 } with
        | .ok (some s) =>
            let s := (s.promptByKey leadId key).elim s fun record =>
              s.prioritizePrompt record.deliveryId w.now
            pumpLead w leadId s
        | _ => s

/-! ### Transfers -/

def carriedPromptChars : Nat := 24000

def shortened : Text :=
  ofString ("[… earlier notifications for this task were shortened here; " ++
    "fleet_get_task has the full record …]")

def blankLine : Text := [0x0A, 0x0A]

/-- What the previous owner was owed, its middle left out where it is too long. -/
def carriedOver (owed : List Text) : Text :=
  let text := blankLine.intercalate owed
  if text.length ≤ carriedPromptChars then text
  else
    let half := carriedPromptChars / 2
    blankLine.intercalate [text.take half, shortened, text.drop (text.length - half)]

/-- `part.trim()` is not empty. -/
def blank (text : Text) : Bool := text.all isSpace

/-- Texts that are owed together. -/
def owedTogether (parts : List Text) : Text :=
  blankLine.intercalate (parts.filter fun part => !blank part)

/-- A prompt of the run that is not on its way yet. -/
def PromptRecord.unsent (runId : Text) (record : PromptRecord) : Bool :=
  record.key.ofRun runId && (record.state = .pending || record.state = .rejectedBusy)

/-- What the previous owner is still owed of the run, in the order of its queue. -/
def State.owedPrompts (run : RunRow) (s : State) : List PromptRecord :=
  if run.leadSessionId = [] then []
  else (s.promptsOf run.leadSessionId).filter (·.unsent run.id)

/-- The unsent prompts are taken back. -/
def State.orphanAll (records : List PromptRecord) (s : State) : State :=
  records.foldl (fun s record => s.updatePrompt { record with state := .orphaned }) s

/-- What a transfer does with the prompts and with the run: the unsent prompts come back
    to the run, behind the brief and before what it owes already. -/
def moveOwed (run : RunRow) (targetId brief : Text) (s : State) : Except Text State :=
  let owed := s.owedPrompts run
  let pendingPrompt :=
    if run.state.terminal then run.pendingPrompt
    else owedTogether [brief, carriedOver (owed.map (·.prompt)), run.pendingPrompt]
  updateRun w run.id
    { leadSessionId := some targetId
      pendingPrompt :=
        if pendingPrompt ≠ run.pendingPrompt then some pendingPrompt else none }
    (s.orphanAll owed)

/-! ### The planner -/

end LeadPrompts

end CopilotFleet
