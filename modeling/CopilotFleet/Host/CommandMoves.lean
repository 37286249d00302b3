import CopilotFleet.Host.CommandService

/-!
# What an Operation can Do to a Command

Some twenty entry points write the same few tables. `Core` is what the
guarantees speak of: the executions and their output, the fences and the
evidence of tasks, what is owed to leads, the observations under way, the starts
and acknowledgements that were sent and what has come about. `Move` lists everything that is ever done to it, one
constructor for each kind of change together with what was checked for it, so
that an invariant is one case analysis and never looks at an operation again.

A prompt is taken from a lead that is revoked without a word to the executions
it reports. `Move careful` is the same list where that happens only to prompts
that owe no execution anything.

## Main definitions

* `Core`: What the guarantees speak of.
* `Change`: What may become of one execution and nothing else.
* `Move`: What may become of everything.
* `Became`: What may become of one execution at all.
* `Core.Keyed`: Every row stands under its own key, with its gaps in order.
* `Core.Flagged`: The flag for complete output says what it caches.
* `Known`: An execution that was read, as far as it still is what was read.

## Theorems

* `Move.keyed`: Rows stay under their keys.
* `Move.row`: A row is as it was, or what became of it, or new.
* `Known.stable`: What was read and has not moved on is still there.
* `Settled.stable`: What is over stays over.
-/

namespace CopilotFleet

namespace Commands

open Utf16

/-! ### What is in view -/

def HostMessage.isStart : HostMessage → Bool
  | .startCommandExecution _ _ _ _ _ _ => true
  | _ => false

def HostMessage.isAck : HostMessage → Bool
  | .commandExecutionAck _ _ _ _ _ => true
  | _ => false

structure Core where
  executions : Nat → Option Execution
  events : Nat × Nat → Option OutputEvent
  fences : Text → Option Fence
  evidence : Text → Option Evidence
  prompts : Nat → Option PromptRecord
  observations : Nat → Option (Fence × Nat)
  history : List Happening
  starts : List Sent
  acks : List Sent
  nextId : Nat

def State.core (s : State) : Core where
  executions := s.db.executions.get
  events := s.db.events.get
  fences := s.db.fences.get
  evidence := s.db.evidence.get
  prompts := s.db.prompts.get
  observations := s.observations.get
  history := s.db.history
  starts := s.outbox.filter (·.message.isStart)
  acks := s.outbox.filter (·.message.isAck)
  nextId := s.nextId

namespace Core

def put (c : Core) (e : Execution) : Core :=
  { c with executions := Function.update c.executions e.id (some e) }

def putPrompt (c : Core) (p : PromptRecord) : Core :=
  { c with prompts := Function.update c.prompts p.delivery.deliveryId (some p) }

def putFence (c : Core) (f : Fence) : Core :=
  { c with fences := Function.update c.fences f.taskId (some f) }

def happens (c : Core) (happening : Happening) : Core :=
  { c with history := c.history ++ [happening] }

@[simp] theorem put_executions_self (c : Core) (e : Execution) :
    (c.put e).executions e.id = some e := Function.update_self ..

theorem put_executions (c : Core) (e : Execution) (id : Nat) :
    (c.put e).executions id = if id = e.id then some e else c.executions id :=
  Function.update_apply ..

theorem putPrompt_prompts (c : Core) (p : PromptRecord) (id : Nat) :
    (c.putPrompt p).prompts id = if id = p.delivery.deliveryId then some p else c.prompts id :=
  Function.update_apply ..

theorem putFence_fences (c : Core) (f : Fence) (taskId : Text) :
    (c.putFence f).fences taskId = if taskId = f.taskId then some f else c.fences taskId :=
  Function.update_apply ..

@[simp] theorem put_fences (c : Core) (e : Execution) : (c.put e).fences = c.fences := rfl
@[simp] theorem put_prompts (c : Core) (e : Execution) : (c.put e).prompts = c.prompts := rfl

@[simp] theorem putPrompt_executions (c : Core) (p : PromptRecord) :
    (c.putPrompt p).executions = c.executions := rfl

@[simp] theorem happens_fences (c : Core) (h : Happening) : (c.happens h).fences = c.fences := rfl

/-- A command has begun: the execution, and the fence of its task. -/
def begun (c : Core) (e : Execution) (now : Int) : Core :=
  match e.managed with
  | none => c.put e
  | some taskId => (c.putFence (Fence.taken (c.fences taskId) taskId e.id now)).put e

/-- A command is over that may have run: what is to be verified, and its fence. -/
def released (c : Core) (e : Execution) (receipt : Receipt) (now : Int) : Core :=
  match e.managed with
  | none => c
  | some taskId =>
      let noted := if receipt.ownership ≠ .notStarted then c.happens (.settled e.id taskId now) else c
      match c.fences taskId with
      | none => noted
      | some fence =>
          if fence.executionId ≠ e.id then noted else noted.putFence (fence.released receipt now)

@[simp] theorem begun_executions (c : Core) (e : Execution) (now : Int) :
    (c.begun e now).executions = (c.put e).executions := by
  unfold begun
  cases e.managed <;> rfl

@[simp] theorem begun_events (c : Core) (e : Execution) (now : Int) :
    (c.begun e now).events = c.events := by
  unfold begun
  cases e.managed <;> rfl

@[simp] theorem begun_prompts (c : Core) (e : Execution) (now : Int) :
    (c.begun e now).prompts = c.prompts := by
  unfold begun
  cases e.managed <;> rfl

@[simp] theorem begun_observations (c : Core) (e : Execution) (now : Int) :
    (c.begun e now).observations = c.observations := by
  unfold begun
  cases e.managed <;> rfl

@[simp] theorem begun_evidence (c : Core) (e : Execution) (now : Int) :
    (c.begun e now).evidence = c.evidence := by
  unfold begun
  cases e.managed <;> rfl

@[simp] theorem begun_history (c : Core) (e : Execution) (now : Int) :
    (c.begun e now).history = c.history := by
  unfold begun
  cases e.managed <;> rfl

@[simp] theorem begun_starts (c : Core) (e : Execution) (now : Int) :
    (c.begun e now).starts = c.starts := by
  unfold begun
  cases e.managed <;> rfl

@[simp] theorem begun_nextId (c : Core) (e : Execution) (now : Int) :
    (c.begun e now).nextId = c.nextId := by
  unfold begun
  cases e.managed <;> rfl

/-- What `released` leaves alone. -/
theorem released_same (c : Core) (e : Execution) (receipt : Receipt) (now : Int) :
    (c.released e receipt now).executions = c.executions ∧
      (c.released e receipt now).events = c.events ∧
        (c.released e receipt now).prompts = c.prompts ∧
          (c.released e receipt now).observations = c.observations ∧
            (c.released e receipt now).evidence = c.evidence ∧
              (c.released e receipt now).starts = c.starts ∧
                (c.released e receipt now).acks = c.acks ∧
                  (c.released e receipt now).nextId = c.nextId := by
  unfold released
  cases e.managed with
  | none => exact ⟨rfl, rfl, rfl, rfl, rfl, rfl, rfl, rfl⟩
  | some taskId =>
      simp only
      cases c.fences taskId with
      | none =>
          simp only
          split <;> exact ⟨rfl, rfl, rfl, rfl, rfl, rfl, rfl, rfl⟩
      | some fence =>
          simp only
          split <;> split <;> exact ⟨rfl, rfl, rfl, rfl, rfl, rfl, rfl, rfl⟩

@[simp] theorem released_executions (c : Core) (e : Execution) (receipt : Receipt) (now : Int) :
    (c.released e receipt now).executions = c.executions :=
  (c.released_same e receipt now).1

@[simp] theorem released_events (c : Core) (e : Execution) (receipt : Receipt) (now : Int) :
    (c.released e receipt now).events = c.events :=
  (c.released_same e receipt now).2.1

@[simp] theorem released_prompts (c : Core) (e : Execution) (receipt : Receipt) (now : Int) :
    (c.released e receipt now).prompts = c.prompts :=
  (c.released_same e receipt now).2.2.1

@[simp] theorem released_observations (c : Core) (e : Execution) (receipt : Receipt) (now : Int) :
    (c.released e receipt now).observations = c.observations :=
  (c.released_same e receipt now).2.2.2.1

@[simp] theorem released_evidence (c : Core) (e : Execution) (receipt : Receipt) (now : Int) :
    (c.released e receipt now).evidence = c.evidence :=
  (c.released_same e receipt now).2.2.2.2.1

@[simp] theorem released_starts (c : Core) (e : Execution) (receipt : Receipt) (now : Int) :
    (c.released e receipt now).starts = c.starts :=
  (c.released_same e receipt now).2.2.2.2.2.1

@[simp] theorem released_nextId (c : Core) (e : Execution) (receipt : Receipt) (now : Int) :
    (c.released e receipt now).nextId = c.nextId :=
  (c.released_same e receipt now).2.2.2.2.2.2.2

/-- What is noted when a command is over that may have run. -/
theorem released_history (c : Core) (e : Execution) (receipt : Receipt) (now : Int) :
    (c.released e receipt now).history = c.history ++
      match e.managed with
      | none => []
      | some taskId => if receipt.ownership ≠ .notStarted then [.settled e.id taskId now] else [] := by
  unfold released
  cases e.managed with
  | none => exact (List.append_nil _).symm
  | some taskId =>
      simp only
      cases c.fences taskId with
      | none =>
          simp only
          split
          · rfl
          · exact (List.append_nil _).symm
      | some fence =>
          simp only
          split <;> split
          · rfl
          · exact (List.append_nil _).symm
          · rfl
          · exact (List.append_nil _).symm

/-- A sequence is stored, or known to be lost. -/
def Accounted (c : Core) (id : Nat) (gaps : List Gap) (n : Nat) : Prop :=
  (c.events (id, n)).isSome = true ∨ Ranges.Covers gaps n

/-- The flag for complete output says what it caches. -/
def Flagged (c : Core) (e : Execution) : Prop :=
  e.outputComplete = true ↔ ∃ final, e.finalOutputSeq = some final ∧
    ∀ n, 1 ≤ n → n ≤ final → c.Accounted e.id e.gaps n

end Core

/-! ### One execution -/

/-- Gaps as they were, or with more that was lost. -/
def Merged (old new : List Gap) : Prop :=
  new = old ∨ ∃ lost : List Gap, (∀ r ∈ lost, r.first ≤ r.last) ∧
    new = mergeCommandGaps (old ++ lost)

/-- An execution as it is first written. -/
structure Execution.Fresh (e : Execution) : Prop where
  state : e.state = .preparing
  ownership : e.ownership = .notStarted
  descriptor : e.descriptor = none
  settledAt : e.settledAt = none
  delivery : e.delivery = .none
  deliveryId : e.deliveryId = none
  gaps : e.gaps = []
  finalOutputSeq : e.finalOutputSeq = none
  outputComplete : e.outputComplete = false

/-- What may become of an execution, and of nothing else. -/
inductive Change (e : Execution) : Execution → Prop where
  /-- It is over before it started. -/
  | retire (version : Nat) (state : ExecutionState) (descriptor : Option Descriptor)
      (delivery : DeliveryState) (settledAt : Int) (exitCode : Option Int)
      (outcomeKnown cancelRequested : Bool) (reasonCode error : Text)
      (later : e.version < version) (waits : e.state.terminal = false)
      (idle : e.state.active = false) (ended : state.terminal = true)
      (described : descriptor = e.descriptor ∨ ∃ d, descriptor = some d ∧ d.executionId = e.id)
      (owed : delivery = .pending ∨ delivery = .orphaned ∧ e.delivery = .orphaned) :
      Change e { e with
        version
        state
        descriptor
        delivery
        ownership := .notStarted
        settledAt := some settledAt
        exitCode
        outcomeKnown
        cancelRequested
        reasonCode
        error
        outputComplete := true
        finalOutputSeq := some 0 }
  /-- It is to be stopped. -/
  | withdraw (reasonCode : Text) (busy : e.state.active = true) :
      Change e { e with
        version := e.version + 1
        state := .cancelling
        cancelRequested := true
        reasonCode }
  | prepare (d : Descriptor) (waits : e.state = .preparing) (described : d.executionId = e.id) :
      Change e { e with
        version := e.version + 1
        descriptor := some d
        state := .awaitingApproval }
  /-- Nobody knows what became of it. -/
  | lose (ownership : Ownership) (reasonCode : Text) (busy : e.state.active = true) :
      Change e { e with
        version := e.version + 1
        state := .reconciliationRequired
        ownership
        reasonCode }
  /-- What the Node had prepared comes after it was over. -/
  | describe (d : Descriptor) (ended : e.state.terminal = true) (described : d.executionId = e.id) :
      Change e { e with
        version := e.version + 1
        descriptor := some d }
  /-- There is nobody to tell. -/
  | orphan (owed : e.delivery = .pending) :
      Change e { e with
        version := e.version + 1
        delivery := .orphaned }

theorem Change.id {e e' : Execution} (h : Change e e') : e'.id = e.id := by
  cases h <;> rfl

theorem Change.version {e e' : Execution} (h : Change e e') : e.version < e'.version := by
  cases h with
  | retire version state descriptor delivery settledAt exitCode outcomeKnown cancelRequested
      reasonCode error later => exact later
  | _ => exact Nat.lt_succ_self e.version

/-- More is known of the output of an execution. -/
structure Execution.Output (e e' : Execution) : Prop where
  made : e' = { e with
    version := e'.version
    lastOutputSeq := e'.lastOutputSeq
    outputBytes := e'.outputBytes
    gaps := e'.gaps
    outputComplete := e'.outputComplete }
  later : e.version < e'.version
  gaps : Merged e.gaps e'.gaps

/-- What a Node has said of an execution that may have a process. -/
structure Execution.Heard (e e' : Execution) (receipt : Receipt) (now : Int) : Prop where
  busy : e.state.active = true
  said : ∀ r ∈ receipt.gaps, r.first ≤ r.last
  made : e' = { e.received receipt now with
    version := e'.version
    outputComplete := e'.outputComplete }
  later : e.version < e'.version

/-! ### Everything -/

/-- A start that was sent just when its command had begun. -/
structure Sent.Follows (x : Sent) (c : Core) (e : Execution) : Prop where
  nodeId : x.nodeId = e.nodeId
  message : ∃ d approvedBy approvedAt scope automatic, e.descriptor = some d ∧
    e.approvedBy = some approvedBy ∧ e.approvedAt = some approvedAt ∧
      x.message = .startCommandExecution d approvedBy approvedAt e.version scope automatic
  executions : x.tables.executions.get = c.executions
  history : x.tables.history = c.history
  attempt : ∃ attempt, x.tables.attempts.get e.id = some attempt ∧
    attempt.startVersion = some e.version ∧ attempt.cancelled = false

/-- An acknowledgement of no more than there is, unless the execution is gone. -/
structure Sent.Acknowledges (x : Sent) (c : Core) : Prop where
  executions : x.tables.executions.get = c.executions
  message : ∃ id attemptId digest through terminal,
    x.message = .commandExecutionAck id attemptId digest through terminal ∧
      ∀ row, c.executions id = some row →
        ∀ n, 1 ≤ n → n ≤ through → c.Accounted id row.gaps n

/-- The executions a prompt reports have all heard what became of it. -/
def Delivered (ids : List Nat) (delivery : DeliveryState)
    (before after : Nat → Option Execution) : Prop :=
  ∀ id, match before id with
    | none => after id = none
    | some e =>
        if id ∈ ids then ∃ v, e.version < v ∧ after id = some { e with delivery, version := v }
        else after id = some e

/-- A row is as it was, or it is one of the prompt's and has heard. -/
theorem Delivered.rows {ids : List Nat} {delivery : DeliveryState}
    {before after : Nat → Option Execution} (h : Delivered ids delivery before after) {id : Nat}
    {x : Execution} (hx : after id = some x) :
    (id ∉ ids ∧ before id = some x) ∨
      (id ∈ ids ∧ ∃ e v, before id = some e ∧ e.version < v ∧
        x = { e with delivery, version := v }) := by
  have hid := h id
  cases he : before id with
  | none =>
      rw [he] at hid
      simp only at hid
      rw [hid] at hx
      cases hx
  | some e =>
      rw [he] at hid
      simp only at hid
      split at hid
      · next hmem =>
          rcases hid with ⟨v, hv, hafter⟩
          rw [hafter, Option.some.injEq] at hx
          exact .inr ⟨hmem, e, v, rfl, hv, hx.symm⟩
      · next hmem =>
          rw [hid, Option.some.injEq] at hx
          exact .inl ⟨hmem, by rw [hx]⟩

/-- The same prompt, in another state. -/
structure PromptRecord.Follows (p' p : PromptRecord) : Prop where
  deliveryId : p'.delivery.deliveryId = p.delivery.deliveryId
  key : p'.key = p.key
  executions : p'.executions = p.executions

/-- A prompt that waits still has to reach somebody. -/
def DeliveryState.live : DeliveryState → Bool
  | .reserved | .accepted | .uncertain | .rejectedBusy => true
  | _ => false

inductive Move (careful : Prop) (c : Core) : Core → Prop where
  | draw (n : Nat) (grows : c.nextId ≤ n) : Move careful c { c with nextId := n }
  | request (e : Execution) (n : Nat) (fresh : e.Fresh) (new : c.nextId ≤ e.id) (drawn : e.id < n) :
      Move careful c { c.put e with nextId := n }
  | change (e e' : Execution) (row : c.executions e.id = some e) (change : Change e e') :
      Move careful c (c.put e')
  | approve (e e' : Execution) (d : Descriptor) (approvedBy : Text) (approvedAt : Int)
      (scope : ApprovalScope) (automatic : Bool) (row : c.executions e.id = some e)
      (waits : e.state = .preparing ∨ e.state = .awaitingApproval) (described : d.executionId = e.id)
      (made : e' = { e with
        version := e.version + 1
        descriptor := some d
        state := .queued
        approvedBy := some approvedBy
        approvedAt := some approvedAt
        approvalScope := some scope
        automaticApproval := automatic }) :
      Move careful c ((c.happens (.approved e.id d approvedBy approvedAt)).put e')
  /-- A queued command begins, and the Node is told so at most once. -/
  | start (e e' : Execution) (now : Int) (sent : List Sent) (row : c.executions e.id = some e)
      (queued : e.state = .queued) (wanted : e.cancelRequested = false)
      (alone : ∀ id row, c.executions id = some row → row.settledAt = none →
        row.nodeId = e.nodeId → row.state.active = true → id = e.id)
      (unfenced : ∀ taskId fence, e.managed = some taskId → c.fences taskId = some fence →
        fence.state.closed = false)
      (made : e' = { e with
        version := e.version + 1
        state := .starting
        ownership := .unknown })
      (once : sent = [] ∨ ∃ x, sent = [x] ∧ x.message.isStart = true ∧
        x.Follows (c.begun e' now) e') :
      Move careful c { c.begun e' now with starts := c.starts ++ sent }
  | output (e e' : Execution) (row : c.executions e.id = some e) (output : e.Output e')
      (flagged : c.Flagged e') :
      Move careful c (c.put e')
  | append (e e' : Execution) (event : OutputEvent) (c' : Core)
      (row : c.executions e.id = some e) (absent : c.events (e.id, event.sequence) = none)
      (stored : c' = { c with
        events := Function.update c.events (e.id, event.sequence) (some event) })
      (output : e.Output e') (flagged : c'.Flagged e') (positive : 0 < event.sequence) :
      Move careful c (c'.put e')
  | ack (x : Sent) (ack : x.message.isAck = true) (acknowledges : x.Acknowledges c) :
      Move careful c { c with acks := c.acks ++ [x] }
  /-- The Node says that a command goes on. -/
  | report (e e' : Execution) (receipt : Receipt) (now : Int) (row : c.executions e.id = some e)
      (heard : e.Heard e' receipt now) (goes : receipt.state.terminal = false)
      (still : receipt.state.active = true) (unsettled : receipt.settledAt = none)
      (flagged : c.Flagged e') :
      Move careful c (c.put e')
  /-- The Node says that a command which may have run is over. -/
  | settle (e e' : Execution) (receipt : Receipt) (now now' : Int)
      (row : c.executions e.id = some e) (heard : e.Heard e' receipt now)
      (ended : receipt.state.terminal = true) (said : receipt.settledAt.isSome = true)
      (known : receipt.ownership = .notStarted ∨ receipt.ownership = .quiescent)
      (flagged : c.Flagged e') :
      Move careful c ((c.put e').released e' receipt now')
  | observe (id : Nat) (f : Fence) (generation : Nat) (row : c.fences f.taskId = some f)
      (own : f.executionId = id) (closed : f.state = .observationRequired) :
      Move careful c
        { c with observations := Function.update c.observations id (some (f, generation)) }
  | forget (observations : Nat → Option (Fence × Nat))
      (less : ∀ id x, observations id = some x → c.observations id = some x) :
      Move careful c { c with observations }
  | observed (id : Nat) (f current : Fence) (generation : Nat) (observedAt now : Int)
      (asked : c.observations id = some (f, generation)) (later : f.changedAt ≤ observedAt)
      (row : c.fences f.taskId = some current) (own : current.executionId = id) :
      Move careful c ((c.putFence { f with
        state := .verificationRequired
        changedAt := now }).happens (.observed f.taskId observedAt))
  | dispatch (taskId stepId : Text) (evidence : Text → Option Evidence)
      (unfenced : ∀ fence, c.fences taskId = some fence → fence.state.closed = false)
      (noted : evidence = match c.fences taskId with
        | none => c.evidence
        | some fence =>
            Function.update c.evidence stepId (some { taskId, revision := fence.revision })) :
      Move careful c { c.happens (.dispatched taskId stepId) with evidence }
  | sweep (id : Nat) (ended : ∀ row, c.executions id = some row → row.state.terminal = true) :
      Move careful c { c with
        executions := Function.update c.executions id none
        events := fun key => if key.1 = id then none else c.events key }
  /-- A prompt that reports no execution. -/
  | enqueue (p : PromptRecord) (n : Nat) (new : c.nextId ≤ p.delivery.deliveryId)
      (drawn : p.delivery.deliveryId < n) (none : p.executions = [])
      (other : ∀ id, p.key ≠ .command id) :
      Move careful c { c.putPrompt p with nextId := n }
  /-- The lead is owed the outcome of an execution. -/
  | complete (e e' : Execution) (p : PromptRecord) (n : Nat) (row : c.executions e.id = some e)
      (owed : e.delivery = .pending) (new : c.nextId ≤ p.delivery.deliveryId)
      (drawn : p.delivery.deliveryId < n) (waits : p.state = .pending)
      (key : p.key = .command e.id) (reports : p.executions = [e.id])
      (made : e' = { e with
        version := e.version + 1
        delivery := .reserved
        deliveryId := some p.delivery.deliveryId }) :
      Move careful c { (c.putPrompt p).put e' with nextId := n }
  /-- It is owed under a prompt that is there. -/
  | completeAgain (e e' : Execution) (p : PromptRecord) (row : c.executions e.id = some e)
      (owed : e.delivery = .pending) (there : c.prompts p.delivery.deliveryId = some p)
      (key : p.key = .command e.id)
      (made : e' = { e with
        version := e.version + 1
        delivery := .reserved
        deliveryId := some p.delivery.deliveryId }) :
      Move careful c (c.put e')
  | revise (p p' : PromptRecord) (row : c.prompts p.delivery.deliveryId = some p)
      (same : p'.Follows p) (still : p'.state.retired = p.state.retired) :
      Move careful c (c.putPrompt p')
  | deliver (p p' : PromptRecord) (delivery : DeliveryState) (executions : Nat → Option Execution)
      (row : c.prompts p.delivery.deliveryId = some p) (waits : p.state.retired = false)
      (same : p'.Follows p) (still : delivery.live = true → p'.state.retired = false)
      (ended : delivery ≠ .none ∧ delivery ≠ .pending)
      (told : Delivered p.executions delivery c.executions executions) :
      Move careful c { c.putPrompt p' with executions }
  /-- A lead that is revoked loses its prompts. -/
  | abandon (p p' : PromptRecord) (row : c.prompts p.delivery.deliveryId = some p)
      (same : p'.Follows p) (gone : p'.state = .orphaned)
      (owes : careful → ∀ id ∈ p.executions, ∀ e, c.executions id = some e →
        e.delivery.live = false) :
      Move careful c (c.putPrompt p')

/-! ### Rows and their keys -/

/-- A descriptor is of its own execution. -/
def Execution.Described (e : Execution) : Prop :=
  ∀ d, e.descriptor = some d → d.executionId = e.id

/-- What `gaps` of an execution always is. -/
structure Tidy (gaps : List Gap) : Prop where
  normal : Ranges.Normal gaps
  length : gaps.length ≤ 128

theorem mergeCommandGaps_tidy {ranges : List Gap} (h : ∀ r ∈ ranges, r.first ≤ r.last) :
    Tidy (mergeCommandGaps ranges) :=
  ⟨Ranges.compress_normal _ (Ranges.merge_spec h).1, Ranges.compress_length _ _⟩

theorem mergeCommandGaps_covers {ranges : List Gap} (h : ∀ r ∈ ranges, r.first ≤ r.last) {n : Nat}
    (hn : Ranges.Covers ranges n) : Ranges.Covers (mergeCommandGaps ranges) n :=
  Ranges.compress_covers _ (Ranges.merge_spec h).1 (((Ranges.merge_spec h).2 n).mpr hn)

theorem Merged.tidy {old new : List Gap} (h : Merged old new) (hold : Tidy old) : Tidy new := by
  rcases h with rfl | ⟨lost, hlost, rfl⟩
  · exact hold
  · refine mergeCommandGaps_tidy fun r hr => ?_
    rcases List.mem_append.mp hr with hr | hr
    · exact hold.normal.valid r hr
    · exact hlost r hr

theorem Merged.covers {old new : List Gap} (h : Merged old new) (hold : Tidy old) {n : Nat}
    (hn : Ranges.Covers old n) : Ranges.Covers new n := by
  rcases h with rfl | ⟨lost, hlost, rfl⟩
  · exact hn
  · refine mergeCommandGaps_covers (fun r hr => ?_) ((Ranges.covers_append _ _ n).mpr (.inl hn))
    rcases List.mem_append.mp hr with hr | hr
    · exact hold.normal.valid r hr
    · exact hlost r hr

/-- What is true of every row: it stands under its own key, every number that is
    used was drawn, an execution is settled exactly when it is over, and what is
    described is the execution itself. -/
structure Core.Keyed (c : Core) : Prop where
  described : ∀ id e, c.executions id = some e → e.Described
  settled : ∀ id e, c.executions id = some e → e.settledAt.isSome = e.state.terminal
  gaps : ∀ id e, c.executions id = some e → Tidy e.gaps
  execution : ∀ id e, c.executions id = some e → e.id = id ∧ id < c.nextId
  prompt : ∀ id p, c.prompts id = some p → p.delivery.deliveryId = id ∧ id < c.nextId
  fence : ∀ taskId f, c.fences taskId = some f → f.taskId = taskId

theorem Fence.released_taskId (fence : Fence) (receipt : Receipt) (now : Int) :
    (fence.released receipt now).taskId = fence.taskId := by
  unfold Fence.released
  split
  · split <;> rfl
  · rfl

theorem Fence.released_executionId (fence : Fence) (receipt : Receipt) (now : Int) :
    (fence.released receipt now).executionId = fence.executionId := by
  unfold Fence.released
  split
  · split <;> rfl
  · rfl

theorem Fence.released_revision (fence : Fence) (receipt : Receipt) (now : Int) :
    (fence.released receipt now).revision = fence.revision := by
  unfold Fence.released
  split
  · split <;> rfl
  · rfl

/-- The fences after a release: of one task, and only where it was its own. -/
theorem Core.released_fences (c : Core) (e : Execution) (receipt : Receipt) (now : Int)
    (hkeyed : ∀ taskId f, c.fences taskId = some f → f.taskId = taskId) (taskId : Text) :
    (c.released e receipt now).fences taskId = c.fences taskId ∨
      ∃ fence, e.managed = some taskId ∧ c.fences taskId = some fence ∧
        fence.executionId = e.id ∧
          (c.released e receipt now).fences taskId = some (fence.released receipt now) := by
  unfold Core.released
  cases hmanaged : e.managed with
  | none => exact .inl rfl
  | some own =>
      simp only
      cases hfence : c.fences own with
      | none =>
          refine .inl ?_
          simp only
          split <;> rfl
      | some fence =>
          simp only
          by_cases hown : fence.executionId = e.id
          · rw [if_neg (by simpa using hown), Core.putFence_fences, fence.released_taskId,
              hkeyed own fence hfence]
            by_cases htask : taskId = own
            · rw [if_pos htask, htask]
              exact .inr ⟨fence, rfl, hfence, hown, rfl⟩
            · rw [if_neg htask]
              refine .inl ?_
              split <;> rfl
          · rw [if_pos hown]
            refine .inl ?_
            split <;> rfl

theorem Core.begun_fences (c : Core) (e : Execution) (now : Int) (taskId : Text) :
    (c.begun e now).fences taskId =
      if e.managed = some taskId then some (Fence.taken (c.fences taskId) taskId e.id now)
      else c.fences taskId := by
  unfold Core.begun
  cases hmanaged : e.managed with
  | none => rfl
  | some own =>
      simp only [Core.put_fences, Core.putFence_fences, Option.some.injEq]
      by_cases htask : own = taskId
      · rw [if_pos htask, htask]
        exact if_pos rfl
      · rw [if_neg htask]
        exact if_neg fun h => htask h.symm

/-- What may become of an execution, whatever else changes with it. -/
inductive Became (e : Execution) : Execution → Prop where
  | change (e' : Execution) (change : Change e e') : Became e e'
  | approve (d : Descriptor) (approvedBy : Text) (approvedAt : Int) (scope : ApprovalScope)
      (automatic : Bool) (waits : e.state = .preparing ∨ e.state = .awaitingApproval)
      (described : d.executionId = e.id) :
      Became e { e with
        version := e.version + 1
        descriptor := some d
        state := .queued
        approvedBy := some approvedBy
        approvedAt := some approvedAt
        approvalScope := some scope
        automaticApproval := automatic }
  | start (queued : e.state = .queued) :
      Became e { e with
        version := e.version + 1
        state := .starting
        ownership := .unknown }
  | output (e' : Execution) (output : e.Output e') : Became e e'
  | heard (e' : Execution) (receipt : Receipt) (now : Int) (heard : e.Heard e' receipt now)
      (ends : receipt.settledAt.isSome = receipt.state.terminal)
      (still : receipt.state.terminal = false → receipt.state.active = true) : Became e e'
  | reserve (deliveryId : Nat) (owed : e.delivery = .pending) :
      Became e { e with
        version := e.version + 1
        delivery := .reserved
        deliveryId := some deliveryId }
  | deliver (delivery : DeliveryState) (version : Nat) (later : e.version < version)
      (ended : delivery ≠ .none ∧ delivery ≠ .pending) :
      Became e { e with
        delivery
        version }

theorem Became.id {e e' : Execution} (h : Became e e') : e'.id = e.id := by
  cases h with
  | change e' change => exact change.id
  | output e' output => rw [output.made]
  | heard e' receipt now heard => rw [heard.made]; rfl
  | _ => rfl

theorem Became.version {e e' : Execution} (h : Became e e') : e.version < e'.version := by
  cases h with
  | change e' change => exact change.version
  | output e' output => exact output.later
  | heard e' receipt now heard => exact heard.later
  | deliver delivery version later ended => exact later
  | _ => exact Nat.lt_succ_self e.version

theorem Became.merged {e e' : Execution} (h : Became e e') : Merged e.gaps e'.gaps := by
  cases h with
  | change e' change => cases change <;> exact .inl rfl
  | output e' output => exact output.gaps
  | heard e' receipt now heard =>
      rw [heard.made]
      exact .inr ⟨receipt.gaps, heard.said, rfl⟩
  | _ => exact .inl rfl

/-- What is to be run, and where, stays. -/
theorem Became.binding {e e' : Execution} (h : Became e e') :
    e'.toRunCommand = e.toRunCommand ∧ e'.nodeId = e.nodeId := by
  cases h with
  | change e' change => cases change <;> exact ⟨rfl, rfl⟩
  | output e' output =>
      rw [output.made]
      exact ⟨rfl, rfl⟩
  | heard e' receipt now heard =>
      rw [heard.made]
      exact ⟨rfl, rfl⟩
  | _ => exact ⟨rfl, rfl⟩

theorem ExecutionState.not_active_of_terminal {state : ExecutionState}
    (h : state.terminal = true) : state.active = false := by
  cases state <;> simp_all [ExecutionState.terminal, ExecutionState.active]

theorem ExecutionState.not_terminal_of_active {state : ExecutionState}
    (h : state.active = true) : state.terminal = false := by
  cases state <;> simp_all [ExecutionState.terminal, ExecutionState.active]

/-- What a receipt makes of a state is over when the receipt says so. -/
theorem Execution.received_terminal (e : Execution) (receipt : Receipt) (now : Int) :
    (e.received receipt now).state.terminal = receipt.state.terminal := by
  unfold Execution.received
  simp only
  split
  · next h =>
      simp only [Bool.and_eq_true, Bool.not_eq_true'] at h
      rw [h.2]
      rfl
  · rfl

/-- An execution is settled exactly when it is over. -/
theorem Became.ends {e e' : Execution} (h : Became e e')
    (hsettled : e.settledAt.isSome = e.state.terminal) :
    e'.settledAt.isSome = e'.state.terminal := by
  cases h with
  | change e' change =>
      cases change with
      | retire version state descriptor delivery settledAt exitCode outcomeKnown cancelRequested
          reasonCode error later waits idle ended => exact ended.symm
      | withdraw reasonCode busy =>
          rw [ExecutionState.not_terminal_of_active busy] at hsettled
          exact hsettled
      | prepare d waits =>
          rw [waits] at hsettled
          exact hsettled
      | lose ownership reasonCode busy =>
          rw [ExecutionState.not_terminal_of_active busy] at hsettled
          exact hsettled
      | describe | orphan => exact hsettled
  | approve d approvedBy approvedAt scope automatic waits =>
      rcases waits with waits | waits <;> rw [waits] at hsettled <;> exact hsettled
  | start queued =>
      rw [queued] at hsettled
      exact hsettled
  | output e' output =>
      rw [output.made]
      exact hsettled
  | heard e' receipt now heard ends =>
      rw [heard.made]
      change (e.received receipt now).settledAt.isSome = (e.received receipt now).state.terminal
      rw [Execution.received_terminal, ← ends]
      rw [ExecutionState.not_terminal_of_active heard.busy] at hsettled
      unfold Execution.received
      -- The receipt ends it exactly when it says when it ended.
      by_cases hsaid : receipt.settledAt.isSome = true
      · rw [if_pos hsaid, hsaid]
        rfl
      · rw [if_neg hsaid, Bool.eq_false_iff.mpr hsaid]
        exact hsettled
  | reserve | deliver => exact hsettled

theorem Became.described {e e' : Execution} (h : Became e e') (he : e.Described) :
    e'.Described := by
  cases h with
  | change e' change =>
      cases change with
      | retire version state descriptor delivery settledAt exitCode outcomeKnown cancelRequested
          reasonCode error later waits idle ended described =>
          intro d hd
          rcases described with hsame | ⟨d', hd', hid⟩
          · exact he d (hsame.symm.trans hd)
          · rw [← Option.some.inj (hd'.symm.trans hd)]
            exact hid
      | prepare d waits described =>
          intro d' hd'
          rw [← Option.some.inj hd']
          exact described
      | describe d ended described =>
          intro d' hd'
          rw [← Option.some.inj hd']
          exact described
      | withdraw | lose | orphan => exact he
  | approve d approvedBy approvedAt scope automatic waits described =>
      intro d' hd'
      rw [← Option.some.inj hd']
      exact described
  | output e' output =>
      intro d hd
      rw [output.made] at hd ⊢
      exact he d hd
  | heard e' receipt now heard =>
      intro d hd
      rw [heard.made] at hd ⊢
      exact he d hd
  | start | reserve | deliver => exact he

/-- A row after a write of one row. -/
theorem Core.put_row {c d : Core} {e e' row' : Execution} {id : Nat}
    (hd : d.executions = c.executions) (hrow : c.executions e.id = some e) (hbecame : Became e e')
    (hget : (d.put e').executions id = some row') :
    c.executions id = some row' ∨ ∃ row, c.executions id = some row ∧ Became row row' := by
  rw [Core.put_executions, hbecame.id, hd] at hget
  by_cases heq : id = e.id
  · rw [if_pos heq, Option.some.injEq] at hget
    rw [← hget, heq]
    exact .inr ⟨e, hrow, hbecame⟩
  · rw [if_neg heq] at hget
    exact .inl hget

/-- A row after a move: as it was, what became of it, or new. -/
theorem Move.row {careful : Prop} {c c' : Core} (h : Move careful c c') {id : Nat}
    {row' : Execution} (hrow' : c'.executions id = some row') :
    (c.executions id = some row' ∨ ∃ row, c.executions id = some row ∧ Became row row') ∨
      (c.nextId ≤ id ∧ id < c'.nextId ∧ row'.id = id ∧ row'.Fresh) := by
  cases h with
  | request e n fresh new drawn =>
      have hget : (c.put e).executions id = some row' := hrow'
      rw [Core.put_executions] at hget
      by_cases heq : id = e.id
      · rw [if_pos heq, Option.some.injEq] at hget
        rw [← hget, heq]
        exact .inr ⟨new, drawn, rfl, fresh⟩
      · rw [if_neg heq] at hget
        exact .inl (.inl hget)
  | change e e' row change => exact .inl (Core.put_row rfl row (.change e' change) hrow')
  | approve e e' d approvedBy approvedAt scope automatic row waits described made =>
      subst made
      exact .inl (Core.put_row rfl row
        (.approve d approvedBy approvedAt scope automatic waits described) hrow')
  | start e e' now sent row queued wanted alone unfenced made once =>
      have hget : (c.put e').executions id = some row' := by
        rw [← Core.begun_executions c e' now]
        exact hrow'
      subst made
      exact .inl (Core.put_row rfl row (.start queued) hget)
  | output e e' row output flagged =>
      exact .inl (Core.put_row rfl row (.output e' output) hrow')
  | append e e' event d row absent stored output flagged =>
      subst stored
      exact .inl (Core.put_row (d := { c with
        events := Function.update c.events (e.id, event.sequence) (some event) }) rfl row
        (.output e' output) hrow')
  | report e e' receipt now row heard goes still unsettled flagged =>
      refine .inl (Core.put_row rfl row (.heard e' receipt now heard ?_ fun _ => still) hrow')
      rw [goes, unsettled]
      rfl
  | settle e e' receipt now now' row heard ended said known flagged =>
      -- Letting a fence go touches no execution.
      rw [Core.released_executions] at hrow'
      refine .inl (Core.put_row rfl row (.heard e' receipt now heard ?_ fun hgoes => ?_) hrow')
      · rw [ended, said]
      · rw [ended] at hgoes
        cases hgoes
  | sweep swept ended =>
      have hget : Function.update c.executions swept none id = some row' := hrow'
      rw [Function.update_apply] at hget
      by_cases heq : id = swept
      · rw [if_pos heq] at hget
        cases hget
      · rw [if_neg heq] at hget
        exact .inl (.inl hget)
  | complete e e' p n row owed new drawn waits key reports made =>
      subst made
      exact .inl (Core.put_row (d := c.putPrompt p) rfl row (.reserve _ owed) hrow')
  | completeAgain e e' p row owed there key made =>
      subst made
      exact .inl (Core.put_row rfl row (.reserve _ owed) hrow')
  | deliver p p' delivery executions row waits same still ended told =>
      -- A prompt may report several executions, and each row is told once.
      rcases told.rows hrow' with ⟨_, hold⟩ | ⟨_, e, v, hold, hv, rfl⟩
      · exact .inl (.inl hold)
      · exact .inl (.inr ⟨e, hold, .deliver delivery v hv ended⟩)
  | _ => exact .inl (.inl hrow')

/-- No number is given back. -/
theorem Move.grows {careful : Prop} {c c' : Core} (h : Move careful c c') :
    c.nextId ≤ c'.nextId := by
  cases h with
  | draw n grows => exact grows
  | request e n fresh new drawn => exact new.trans drawn.le
  | enqueue p n new drawn none other => exact new.trans drawn.le
  | complete e e' p n row owed new drawn waits key reports made => exact new.trans drawn.le
  | start e e' now sent row queued wanted alone unfenced made once =>
      exact (Core.begun_nextId c e' now).ge
  | append e e' event d row absent stored output flagged => subst stored; exact le_rfl
  | settle e e' receipt now now' row heard ended said known flagged =>
      exact (Core.released_nextId (c.put e') e' receipt now').ge
  | _ => exact le_rfl

/-- The prompts after a write of one prompt are under their keys. -/
theorem Core.Keyed.putPrompt {c : Core} (hc : c.Keyed) {p : PromptRecord} {n : Nat}
    (hn : c.nextId ≤ n) (hp : p.delivery.deliveryId < n) {id : Nat} {p' : PromptRecord}
    (hget : (c.putPrompt p).prompts id = some p') : p'.delivery.deliveryId = id ∧ id < n := by
  rw [Core.putPrompt_prompts] at hget
  by_cases heq : id = p.delivery.deliveryId
  · rw [if_pos heq, Option.some.injEq] at hget
    rw [← hget, heq]
    exact ⟨rfl, hp⟩
  · rw [if_neg heq] at hget
    have hold := hc.prompt id p' hget
    exact ⟨hold.1, hold.2.trans_le hn⟩

/-- Every move keeps the tables keyed. Of the executions this is said of a row after
    a move (`Move.row`), and of prompts and fences move by move. -/
theorem Move.keyed {careful : Prop} {c c' : Core} (hc : c.Keyed) (h : Move careful c c') :
    c'.Keyed := by
  refine ⟨?_, ?_, ?_, ?_, ?_, ?_⟩
  · intro id e he
    rcases h.row he with (hold | ⟨row, hrow, hbecame⟩) | ⟨_, _, _, hfresh⟩
    · exact hc.described id e hold
    · exact hbecame.described (hc.described id row hrow)
    · intro d hd
      rw [hfresh.descriptor] at hd
      cases hd
  · intro id e he
    rcases h.row he with (hold | ⟨row, hrow, hbecame⟩) | ⟨_, _, _, hfresh⟩
    · exact hc.settled id e hold
    · exact hbecame.ends (hc.settled id row hrow)
    · rw [hfresh.settledAt, hfresh.state]
      rfl
  · intro id e he
    rcases h.row he with (hold | ⟨row, hrow, hbecame⟩) | ⟨_, _, _, hfresh⟩
    · exact hc.gaps id e hold
    · exact hbecame.merged.tidy (hc.gaps id row hrow)
    · rw [hfresh.gaps]
      exact ⟨Ranges.normal_nil, Nat.zero_le _⟩
  · intro id e he
    rcases h.row he with (hold | ⟨row, hrow, hbecame⟩) | ⟨_, hdrawn, hid, _⟩
    · have hkey := hc.execution id e hold
      exact ⟨hkey.1, hkey.2.trans_le h.grows⟩
    · have hkey := hc.execution id row hrow
      exact ⟨hbecame.id.trans hkey.1, hkey.2.trans_le h.grows⟩
    · exact ⟨hid, hdrawn⟩
  · intro id p hp
    -- A prompt that is written again keeps its number.
    have hrevised : ∀ q q' : PromptRecord, c.prompts q.delivery.deliveryId = some q →
        q'.Follows q → (c.putPrompt q').prompts id = some p →
          p.delivery.deliveryId = id ∧ id < c.nextId := by
      intro q q' hq hsame hget
      refine hc.putPrompt le_rfl ?_ hget
      rw [hsame.deliveryId]
      exact (hc.prompt _ q hq).2
    cases h with
    | enqueue q n new drawn none other => exact hc.putPrompt (new.trans drawn.le) drawn hp
    | complete e e' q n row owed new drawn waits key reports made =>
        exact hc.putPrompt (new.trans drawn.le) drawn hp
    | revise q q' row same still => exact hrevised q q' row same hp
    | deliver q q' delivery executions row waits same still ended told =>
        exact hrevised q q' row same hp
    | abandon q q' row same gone owes => exact hrevised q q' row same hp
    | draw n grows =>
        have hkey := hc.prompt id p hp
        exact ⟨hkey.1, hkey.2.trans_le grows⟩
    | request e n fresh new drawn =>
        have hkey := hc.prompt id p hp
        exact ⟨hkey.1, hkey.2.trans_le (new.trans drawn.le)⟩
    | start e e' now sent row queued wanted alone unfenced made once =>
        have hget : (c.begun e' now).prompts id = some p := hp
        rw [Core.begun_prompts] at hget
        have hnext : (c.begun e' now).nextId = c.nextId := Core.begun_nextId ..
        exact ⟨(hc.prompt id p hget).1, lt_of_lt_of_eq (hc.prompt id p hget).2 hnext.symm⟩
    | append e e' event d row absent stored output flagged =>
        subst stored
        exact hc.prompt id p hp
    | settle e e' receipt now now' row heard ended said known flagged =>
        rw [Core.released_prompts] at hp
        rw [Core.released_nextId]
        exact hc.prompt id p hp
    | _ => exact hc.prompt id p hp
  · intro taskId f hf
    cases h with
    | start e e' now sent row queued wanted alone unfenced made once =>
        have hget : (c.begun e' now).fences taskId = some f := hf
        rw [Core.begun_fences] at hget
        split at hget
        · rw [← Option.some.inj hget]
          rfl
        · exact hc.fence taskId f hget
    | append e e' event d row absent stored output flagged =>
        subst stored
        exact hc.fence taskId f hf
    | settle e e' receipt now now' row heard ended said known flagged =>
        -- Only the fence of the command that is over is written.
        rcases Core.released_fences (c.put e') e' receipt now' hc.fence taskId with
          hsame | ⟨fence, _, hfence, _, hreleased⟩
        · rw [hsame] at hf
          exact hc.fence taskId f hf
        · rw [hreleased, Option.some.injEq] at hf
          rw [← hf, Fence.released_taskId]
          exact hc.fence taskId fence hfence
    | observed id g current generation observedAt now asked later row own =>
        have hget : (c.putFence { g with
          state := .verificationRequired
          changedAt := now }).fences taskId = some f := hf
        rw [Core.putFence_fences] at hget
        split at hget
        · next heq =>
            rw [← Option.some.inj hget]
            exact heq.symm
        · exact hc.fence taskId f hget
    | _ => exact hc.fence taskId f hf

/-- What the operations are steps of. -/
def moves (careful : Prop) : Effect.Abstraction State Core where
  view := State.core
  Step := Move careful
  Inv := Core.Keyed
  keeps := fun _ _ => Move.keyed

/-! ### What was read before -/

/-- A row that has not moved on from what was read, or has moved on from it. -/
structure Execution.Since (row e : Execution) : Prop where
  version : e.version ≤ row.version
  same : row.version = e.version → row = e
  gaps : ∀ n, Ranges.Covers e.gaps n → Ranges.Covers row.gaps n
  run : row.toRunCommand = e.toRunCommand
  nodeId : row.nodeId = e.nodeId

theorem Execution.Since.refl (e : Execution) : e.Since e :=
  ⟨le_rfl, fun _ => rfl, fun _ hn => hn, rfl, rfl⟩

/-- An execution that was read. -/
def Known (e : Execution) (c : Core) : Prop :=
  e.id < c.nextId ∧ ∀ row, c.executions e.id = some row → row.Since e

/-- Nothing that was over has a row that is not. -/
def Settled (id : Nat) (c : Core) : Prop :=
  id < c.nextId ∧ ∀ row, c.executions id = some row → row.state.terminal = true

theorem Known.of_row {c : Core} (hc : c.Keyed) {e : Execution} {id : Nat}
    (h : c.executions id = some e) : Known e c := by
  have hkey := hc.execution id e h
  rw [← hkey.1] at h hkey
  refine ⟨hkey.2, fun row hrow => ?_⟩
  rw [h, Option.some.injEq] at hrow
  rw [hrow]
  exact Execution.Since.refl row

/-- The row that was read has not moved on. -/
theorem Known.row {c : Core} {e row : Execution} (h : Known e c)
    (hrow : c.executions e.id = some row) (hversion : row.version = e.version) : row = e :=
  (h.2 row hrow).same hversion

theorem Known.stable (careful : Prop) (e : Execution) : (moves careful).Stable (Known e) := by
  intro c c' hc hmove hknown
  refine ⟨hknown.1.trans_le (Move.grows hmove), fun row hrow => ?_⟩
  rcases Move.row hmove hrow with (hold | ⟨before, hbefore, hbecame⟩) | ⟨hnew, _⟩
  · exact hknown.2 row hold
  · have hsince := hknown.2 before hbefore
    have hlt := hsince.version.trans_lt hbecame.version
    refine ⟨hlt.le, fun heq => absurd heq (Nat.ne_of_gt hlt), fun n hn => ?_,
      hbecame.binding.1.trans hsince.run, hbecame.binding.2.trans hsince.nodeId⟩
    exact hbecame.merged.covers (hc.gaps _ before hbefore) (hsince.gaps n hn)
  · exact absurd hknown.1 (Nat.not_lt.mpr hnew)

/-- What is over stays over, with the outcome it has. -/
theorem Became.settled {e e' : Execution} (h : Became e e') (hover : e.state.terminal = true) :
    e'.state = e.state ∧ e'.ownership = e.ownership ∧ e'.exitCode = e.exitCode ∧
      e'.finalOutputSeq = e.finalOutputSeq ∧ e'.settledAt = e.settledAt := by
  have hidle := ExecutionState.not_active_of_terminal hover
  cases h with
  | change e' change =>
      cases change with
      | describe | orphan => exact ⟨rfl, rfl, rfl, rfl, rfl⟩
      | retire version state descriptor delivery settledAt exitCode outcomeKnown cancelRequested
          reasonCode error later waits => rw [hover] at waits; cases waits
      | withdraw reasonCode busy => rw [hidle] at busy; cases busy
      | prepare d waits => rw [waits] at hover; cases hover
      | lose ownership reasonCode busy => rw [hidle] at busy; cases busy
  | approve d approvedBy approvedAt scope automatic waits =>
      rcases waits with waits | waits <;> rw [waits] at hover <;> cases hover
  | start queued => rw [queued] at hover; cases hover
  | output e' output =>
      rw [output.made]
      exact ⟨rfl, rfl, rfl, rfl, rfl⟩
  | heard e' receipt now heard =>
      have hbusy := heard.busy
      rw [hidle] at hbusy
      cases hbusy
  | reserve | deliver => exact ⟨rfl, rfl, rfl, rfl, rfl⟩

theorem Settled.stable (careful : Prop) (id : Nat) : (moves careful).Stable (Settled id) := by
  intro c c' hc hmove hsettled
  refine ⟨hsettled.1.trans_le (Move.grows hmove), fun row hrow => ?_⟩
  rcases Move.row hmove hrow with (hold | ⟨before, hbefore, hbecame⟩) | ⟨hnew, _⟩
  · exact hsettled.2 row hold
  · have hover := hsettled.2 before hbefore
    rw [(hbecame.settled hover).1]
    exact hover
  · exact absurd hsettled.1 (Nat.not_lt.mpr hnew)

end Commands

end CopilotFleet
