import CopilotFleet.Orchestrator.CheckoutWriters

/-!
# Capacity and Parallelism of One Pass

A pass dispatches no more steps than the parallel budget leaves, and asks no
Node for more sessions of a kind than it takes (`capacity_kept`). Prompts reuse
a session and take no slot; starts and resumes take one each, counted in the
order of the actions, on top of the slots that were held before the pass.

On a Node that takes more than one session the last slot is spent only with an
exception, which the action then names. That alone needs the exceptions to have
names: `capacity_kept_fails` is an exception with the empty request id, which
the planner spends without a trace in the action.

The planner counts in a cache it fills as it goes. The invariant is that what
the cache answers is always the count: the sessions of the snapshot and the
actions so far.

## Main definitions

* `slotOf`: The Node and the kind of session an action takes a slot of.
* `slotsTaken`: The slots held once an action is carried out.
* `WithinCapacity`: An action stays within the capacity of its Node.
* `WithinMargin`: It leaves the last slot alone, or names an exception.
* `NamedExceptions`: Every exception has a request id.
* `Counted`: What the dispatch loop keeps.

## Theorems

* `counted_keeps`: One turn of the dispatch loop keeps the count.
* `capacity_kept`: Capacity and parallelism of one pass.
* `capacity_kept_fails`: A nameless exception is spent unseen.
-/

namespace CopilotFleet

open Utf16

namespace Orchestrator

variable {env : Environment} {input : ScheduleInput}

def isDispatch (action : ScheduleAction) : Bool := action.dispatched.isSome

/-- The Node and the kind of the session an action starts or resumes. -/
def slotOf (input : ScheduleInput) : ScheduleAction → Option (Text × SessionKind)
  | .startStep stepId placementId _ =>
      match stepById input stepId, placementById input.placements placementId with
      | some step, some placement => some (placement.nodeId, kindOf step.category)
      | _, _ => none
  | .resumeStep stepId _ _ =>
      ((stepById input stepId).bind (attachment input)).map fun (session, placement, _) =>
        (placement.nodeId, session.kind)
  | _ => none

/-- The action starts or resumes a session. -/
def takesSlot : ScheduleAction → Bool
  | .startStep _ _ _ => true
  | .resumeStep _ _ _ => true
  | _ => false

def exceptionIdOf : ScheduleAction → Option Text
  | .resumeStep _ _ exceptionId => exceptionId
  | _ => none

/-- The starts and resumes of a kind on a Node among some actions. -/
def slotCount (input : ScheduleInput) (actions : List ScheduleAction) (slot : Text × SessionKind) :
    Nat :=
  actions.countP fun action => slotOf input action = some slot

/-- The slots of a kind held on a Node once some actions are carried out. -/
def slotsTaken (input : ScheduleInput) (actions : List ScheduleAction)
    (slot : Text × SessionKind) : Nat :=
  reservedSessionCount input.sessions slot.1 slot.2 + slotCount input actions slot

/-- An action takes a slot its Node has, and an exception it names is one for
    exactly this step's session and attempt. -/
structure WithinCapacity (input : ScheduleInput) (before : List ScheduleAction)
    (action : ScheduleAction) : Prop where
  placed : takesSlot action = true → (slotOf input action).isSome = true
  room : ∀ slot, slotOf input action = some slot →
    ∃ node, nodeById input.nodes slot.1 = some node ∧
      slotsTaken input (before ++ [action]) slot ≤ capacityFor node slot.2
  granted : ∀ exceptionId, exceptionIdOf action = some exceptionId →
    ∃ step ∈ input.steps, action.dispatched = some step.id ∧
      ∃ granted, input.exceptions step.id = some granted ∧ granted.requestId = exceptionId ∧
        granted.sessionId = step.sessionId ∧ granted.attempt = step.attempts

/-- Without an exception, an action does not take the last slot of several. -/
def WithinMargin (input : ScheduleInput) (before : List ScheduleAction)
    (action : ScheduleAction) : Prop :=
  ∀ slot node, slotOf input action = some slot → nodeById input.nodes slot.1 = some node →
    1 < capacityFor node slot.2 → exceptionIdOf action = none →
      slotsTaken input (before ++ [action]) slot ≤ capacityFor node slot.2 - 1

/-- Every exception an operator approved has a request id. -/
def NamedExceptions (input : ScheduleInput) : Prop :=
  ∀ stepId granted, input.exceptions stepId = some granted → granted.requestId ≠ []

/-- What the dispatch loop keeps while `rest` is still to be visited. -/
structure Counted (input : ScheduleInput) (b : Board) (rest : List RunStep) (s : Pass) :
    Prop where
  steps : ∀ step ∈ rest, step ∈ input.steps
  reserved : ∀ nodeId kind,
    reservedFor input s nodeId kind = slotsTaken input s.actions (nodeId, kind)
  started : s.started = s.actions.countP isDispatch
  budget : (s.started : Int) ≤ max 0 (parallelBudget input b)
  within : Run.Each (WithinCapacity input) s.actions
  margin : NamedExceptions input → Run.Each (WithinMargin input) s.actions

theorem slotOf_of_undispatched {action : ScheduleAction} (h : action.dispatched = none) :
    slotOf input action = none := by
  cases action <;> first | rfl | cases h

theorem withinCapacity_of_undispatched {before : List ScheduleAction} {action : ScheduleAction}
    (h : action.dispatched = none) : WithinCapacity input before action := by
  refine ⟨?_, ?_, ?_⟩
  · intro htakes
    cases action <;> simp [ScheduleAction.dispatched, takesSlot] at h htakes
  · intro slot hslot
    rw [slotOf_of_undispatched h] at hslot
    cases hslot
  · intro exceptionId hexception
    cases action <;> simp [ScheduleAction.dispatched, exceptionIdOf] at h hexception

theorem withinMargin_of_undispatched {before : List ScheduleAction} {action : ScheduleAction}
    (h : action.dispatched = none) : WithinMargin input before action := by
  intro slot node hslot
  rw [slotOf_of_undispatched h] at hslot
  cases hslot

theorem slotsTaken_snoc (actions : List ScheduleAction) (action : ScheduleAction)
    (slot : Text × SessionKind) :
    slotsTaken input (actions ++ [action]) slot =
      slotsTaken input actions slot + if slotOf input action = some slot then 1 else 0 := by
  unfold slotsTaken slotCount
  rw [List.countP_append, List.countP_singleton]
  simp only [decide_eq_true_eq]
  omega

theorem Counted.tail {b : Board} {step : RunStep} {rest : List RunStep} {s : Pass}
    (h : Counted input b (step :: rest) s) : Counted input b rest s :=
  { h with steps := fun other hother => h.steps other (List.mem_cons_of_mem _ hother) }

/-- An action that dispatches nothing takes no slot. -/
theorem Counted.push {b : Board} {rest : List RunStep} {s s' : Pass} {action : ScheduleAction}
    (h : Counted input b rest s) (haction : action.dispatched = none)
    (hactions : s'.actions = s.actions ++ [action])
    (hreserved : s'.reservedByNode = s.reservedByNode) (hstarted : s'.started = s.started) :
    Counted input b rest s' := by
  refine ⟨h.steps, ?_, ?_, ?_, ?_, fun hnamed => ?_⟩
  · intro nodeId kind
    have hsame : reservedFor input s' nodeId kind = reservedFor input s nodeId kind := by
      unfold reservedFor
      rw [hreserved]
    rw [hsame, h.reserved, hactions, slotsTaken_snoc, slotOf_of_undispatched haction]
    simp
  · rw [hstarted, h.started, hactions, List.countP_append, List.countP_singleton]
    simp [isDispatch, haction]
  · rw [hstarted]
    exact h.budget
  · rw [hactions, Run.each_snoc]
    exact ⟨h.within, withinCapacity_of_undispatched haction⟩
  · rw [hactions, Run.each_snoc]
    exact ⟨h.margin hnamed, withinMargin_of_undispatched haction⟩

/-- A dispatch within the budget that takes at most the slot the cache notes. -/
theorem Counted.dispatch {b : Board} {step : RunStep} {rest : List RunStep} {s s' : Pass}
    {action : ScheduleAction} (h : Counted input b (step :: rest) s)
    (haction : action.dispatched = some step.id)
    (hactions : s'.actions = s.actions ++ [action]) (hstarted : s'.started = s.started + 1)
    (hbudget : (s.started : Int) < parallelBudget input b)
    (hreserved : ∀ nodeId kind, reservedFor input s' nodeId kind =
      reservedFor input s nodeId kind +
        if slotOf input action = some (nodeId, kind) then 1 else 0)
    (hwithin : WithinCapacity input s.actions action)
    (hmargin : NamedExceptions input → WithinMargin input s.actions action) :
    Counted input b rest s' := by
  refine ⟨h.tail.steps, ?_, ?_, ?_, ?_, fun hnamed => ?_⟩
  · intro nodeId kind
    rw [hreserved, h.reserved, hactions, slotsTaken_snoc]
  · rw [hstarted, h.started, hactions, List.countP_append, List.countP_singleton]
    simp [isDispatch, haction]
  · rw [hstarted]
    have hle : parallelBudget input b ≤ max 0 (parallelBudget input b) := Int.le_max_right _ _
    omega
  · rw [hactions, Run.each_snoc]
    exact ⟨h.within, hwithin⟩
  · rw [hactions, Run.each_snoc]
    exact ⟨h.margin hnamed, hmargin hnamed⟩

theorem nodeById_id {nodes : List FleetNode} {id : Text} {node : FleetNode}
    (h : nodeById nodes id = some node) : node.id = id := by
  simpa using List.find?_some h

/-- What the cache answers after one more session of a kind on a Node. -/
theorem reservedFor_set {s s' : Pass} {nodeId : Text} {kind : SessionKind}
    (hset : s'.reservedByNode =
      s.reservedByNode.set (nodeId, kind) (reservedFor input s nodeId kind + 1))
    (nodeId' : Text) (kind' : SessionKind) :
    reservedFor input s' nodeId' kind' =
      reservedFor input s nodeId' kind' +
        if some (nodeId, kind) = some (nodeId', kind') then 1 else 0 := by
  unfold reservedFor at hset ⊢
  rw [hset, Table.get_set]
  by_cases hsame : (nodeId', kind') = (nodeId, kind)
  · rw [if_pos hsame, if_pos (by rw [hsame])]
    cases hsame
    rfl
  · rw [if_neg hsame, if_neg]
    · rfl
    · intro h
      exact hsame (Option.some.inj h).symm

/-- One slot below the margin is one slot within the capacity. -/
theorem room_of_margin {node : FleetNode} {kind : SessionKind} {count : Nat}
    (h : count < margin node kind) :
    count + 1 ≤ capacityFor node kind ∧
      (1 < capacityFor node kind → count + 1 ≤ capacityFor node kind - 1) := by
  refine ⟨Nat.lt_of_lt_of_le h (margin_le node kind), ?_⟩
  intro hmany
  unfold margin at h
  rw [if_neg (by omega)] at h
  omega

theorem approved_spec {step : RunStep} {session : FleetSession} {granted : ScheduleException}
    (h : approved input step session = some granted) :
    input.exceptions step.id = some granted ∧ granted.sessionId = session.id ∧
      granted.attempt = step.attempts := by
  unfold approved at h
  rw [Option.filter_eq_some_iff, Bool.and_eq_true, decide_eq_true_eq, decide_eq_true_eq] at h
  exact h

/-- One turn of the dispatch loop keeps the count. -/
theorem counted_keeps (env : Environment) (input : ScheduleInput) (b : Board) :
    DispatchKeeps env input b (Counted input b) where
  passed := fun step rest s h _ => h.tail
  held := fun step rest s value h _ =>
    ⟨h.tail.steps, h.reserved, h.started, h.budget, h.within, h.margin⟩
  parked := fun rest s sessionId h => h.push rfl rfl rfl rfl
  failed := fun step rest s output h _ _ => h.tail.push rfl rfl rfl rfl
  prompted := by
    intro step rest s sessionId key h _ _ hchecked
    -- A prompt goes to a session that runs, and takes no slot.
    rcases hchecked.retry with ⟨session, placement, node, hretry, _⟩
    refine h.dispatch rfl rfl rfl hretry.budget ?_ ?_ fun _ => nofun
    · intro nodeId kind
      rw [if_neg (by nofun)]
      rfl
    · exact ⟨by nofun, by nofun, by nofun⟩
  resumed := by
    intro step rest s sessionId key nodeId kind exceptionId h _ _ hchecked
    rcases hchecked.retry with
      ⟨session, placement, node, hretry, rfl, rfl, _, rfl, hroom⟩
    -- The slot of a resume is on the machine the step is attached to.
    have hmem : step ∈ input.steps := h.steps step List.mem_cons_self
    rcases attachment_spec hretry.attached with ⟨_, hsession, _, hnode⟩
    have hid : node.id = placement.nodeId := nodeById_id hnode
    have hslot : slotOf input (.resumeStep step.id session.id exceptionId) =
        some (node.id, session.kind) := by
      simp only [slotOf, stepById_self hmem, Option.bind_some, hretry.attached, Option.map_some]
      rw [hid]
    rw [← hid] at hnode
    refine h.dispatch rfl rfl rfl hretry.budget ?_ ⟨?_, ?_, ?_⟩ ?_
    · intro nodeId' kind'
      rw [hslot]
      exact reservedFor_set rfl nodeId' kind'
    · intro _
      rw [hslot]
      rfl
    · intro slot hslot'
      rw [hslot, Option.some.injEq] at hslot'
      subst hslot'
      refine ⟨node, hnode, ?_⟩
      rw [slotsTaken_snoc, ← h.reserved, if_pos hslot]
      -- There is a slot left, or the exception takes the last one.
      rcases hroom with ⟨hmargin, _⟩ | ⟨hlimit, _⟩
      · exact (room_of_margin hmargin).1
      · exact hlimit
    · intro exceptionId' hcarried
      have hcarried' : exceptionId = some exceptionId' := hcarried
      rcases hroom with ⟨_, hnone⟩ | ⟨_, granted, hgranted, hexception⟩
      · rw [hnone] at hcarried'
        cases hcarried'
      · rcases approved_spec hgranted with ⟨hexceptions, hgrantedSession, hattempt⟩
        rw [hcarried'] at hexception
        split at hexception
        · exact ⟨step, hmem, rfl, granted, hexceptions, (Option.some.inj hexception).symm,
            hgrantedSession.trans hsession, hattempt⟩
        · cases hexception
    · intro hnamed slot node' hslot' hnode' hmany hnone
      rw [hslot, Option.some.injEq] at hslot'
      subst hslot'
      rw [hnode, Option.some.injEq] at hnode'
      subst hnode'
      rw [slotsTaken_snoc, ← h.reserved, if_pos hslot]
      rcases hroom with ⟨hmargin, _⟩ | ⟨_, granted, hgranted, hexception⟩
      · exact (room_of_margin hmargin).2 hmany
      · -- An exception that has a name is named by the action.
        rw [if_pos (hnamed step.id granted (approved_spec hgranted).1)] at hexception
        have hcarried : exceptionId = none := hnone
        rw [hcarried] at hexception
        cases hexception
  started := by
    intro step rest s placement h _ _ hchecked
    have hmem : step ∈ input.steps := h.steps step List.mem_cons_self
    rcases hchecked.roomy.node with ⟨node, hnode, _, hroom⟩
    -- A fresh start is never made in the last slot, so it carries no exception.
    have hid : node.id = placement.nodeId := nodeById_id hnode
    have hplacement : placementById input.placements placement.id = some placement :=
      placementById_self hchecked.roomy.mem
    have hslot : slotOf input (.startStep step.id placement.id step.prompt) =
        some (placement.nodeId, kindOf step.category) := by
      simp only [slotOf, stepById_self hmem, hplacement]
    have hmargin := (remainingCapacity_pos node _ _).mp hroom
    rw [hid] at hmargin
    have hroom := room_of_margin hmargin
    refine h.dispatch rfl rfl rfl hchecked.budget ?_ ⟨?_, ?_, by nofun⟩ ?_
    · intro nodeId' kind'
      rw [hslot]
      exact reservedFor_set rfl nodeId' kind'
    · intro _
      rw [hslot]
      rfl
    · intro slot hslot'
      rw [hslot, Option.some.injEq] at hslot'
      subst hslot'
      refine ⟨node, hnode, ?_⟩
      rw [slotsTaken_snoc, ← h.reserved, if_pos hslot]
      exact hroom.1
    · intro _ slot node' hslot' hnode' hmany _
      rw [hslot, Option.some.injEq] at hslot'
      subst hslot'
      have hsame : some node = some node' := hnode.symm.trans hnode'
      rw [Option.some.injEq] at hsame
      subst hsame
      rw [slotsTaken_snoc, ← h.reserved, if_pos hslot]
      exact hroom.2 hmany

/-- The cache is empty and nothing has been started. -/
def Uncounted (s : Pass) : Prop := s.reservedByNode = Table.empty ∧ s.started = 0

theorem readyPass_counted (env : Environment) (input : ScheduleInput) :
    Counted input (planBoard env input) input.steps (readyPass env input) := by
  have hnone : Undispatched (skippedPass env input) := skippedPass_undispatched env input
  have hsettled : Uncounted (settledPass env input) :=
    settledPass_keeps ⟨rfl, rfl⟩ (fun _ _ _ hs => hs) (fun _ _ hs => hs) (fun _ _ _ _ hs _ => hs)
  have hfresh : Uncounted (skippedPass env input) := skippedPass_keeps hsettled fun _ _ _ hs => hs
  -- Nothing was dispatched before the loop, so no slot is taken.
  have hslots : ∀ slot, slotCount input (readyPass env input).actions slot = 0 := by
    intro slot
    unfold slotCount
    rw [List.countP_eq_zero]
    intro action haction
    rw [slotOf_of_undispatched (hnone action haction)]
    simp
  have hstarted : (readyPass env input).started = 0 := hfresh.2
  have hundispatched {before after : List ScheduleAction} {action : ScheduleAction}
      (hsplit : (readyPass env input).actions = before ++ action :: after) :
      action.dispatched = none := by
    refine hnone action ?_
    have hmem : action ∈ (readyPass env input).actions := by
      rw [hsplit]
      exact List.mem_append_right _ List.mem_cons_self
    exact hmem
  refine ⟨fun step hstep => hstep, ?_, ?_, ?_, ?_, ?_⟩
  · intro nodeId kind
    unfold reservedFor slotsTaken
    have hcache : (readyPass env input).reservedByNode = Table.empty := hfresh.1
    rw [hcache, Table.get_empty, hslots]
    rfl
  · rw [hstarted, eq_comm, List.countP_eq_zero]
    intro action haction
    unfold isDispatch
    rw [hnone action haction]
    nofun
  · rw [hstarted]
    exact Int.le_max_left _ _
  · intro before action after hsplit
    exact withinCapacity_of_undispatched (hundispatched hsplit)
  · intro _ before action after hsplit
    exact withinMargin_of_undispatched (hundispatched hsplit)

theorem Concluding.undispatched {s : Pass} {action : ScheduleAction}
    (h : Concluding input s action) : action.dispatched = none := by
  rcases h with ⟨prompt, rfl⟩ | ⟨prompt, rfl⟩ | ⟨⟨state, reason, rfl⟩, _⟩
  · rfl
  · rfl
  · rfl

/-- Capacity and parallelism of one pass: the dispatches fit what the steps in
    flight and the active retries leave of the parallel limit, none is made
    while a person is reviewing, and every start and resume takes a slot its
    Node has; the last one only with an exception, if exceptions have names. -/
theorem capacity_kept (env : Environment) (input : ScheduleInput) :
    (((planNextActions env input).actions.countP isDispatch : Int) ≤
        max 0 ((input.run.policy.maxParallel : Int) - (planBoard env input).inFlight.length -
          (planBoard env input).activeRetries.length)) ∧
      (input.run.state = .awaitingHuman →
        (planNextActions env input).actions.countP isDispatch = 0) ∧
      Run.Each (WithinCapacity input) (planNextActions env input).actions ∧
      (NamedExceptions input →
        Run.Each (WithinMargin input) (planNextActions env input).actions) := by
  rcases (counted_keeps env input (planBoard env input)).loop input.steps
      (readyPass env input) (readyPass_counted env input) with ⟨rest, hcounted, _⟩
  have hbudget : ((planNextActions env input).actions.countP isDispatch : Int) ≤
      max 0 (parallelBudget input (planBoard env input)) ∧
      Run.Each (WithinCapacity input) (planNextActions env input).actions ∧
      (NamedExceptions input →
        Run.Each (WithinMargin input) (planNextActions env input).actions) := by
    -- A plan may end with one more action, which dispatches nothing.
    have hdispatched := hcounted.budget
    rw [hcounted.started] at hdispatched
    rcases planNextActions_cases env input with h | h | ⟨action, haction, h⟩
    · rw [h]
      exact ⟨Int.le_max_left _ _, Run.each_nil _, fun _ => Run.each_nil _⟩
    · rw [h]
      exact ⟨hdispatched, hcounted.within, hcounted.margin⟩
    · rw [h, List.countP_append, List.countP_singleton, Run.each_snoc, Run.each_snoc]
      refine ⟨?_, ⟨hcounted.within, withinCapacity_of_undispatched haction.undispatched⟩,
        fun hnamed => ⟨hcounted.margin hnamed, withinMargin_of_undispatched haction.undispatched⟩⟩
      rw [if_neg (by unfold isDispatch; rw [haction.undispatched]; nofun)]
      exact hdispatched
  refine ⟨?_, ?_, hbudget.2⟩
  · have hle := hbudget.1
    unfold parallelBudget at hle
    split at hle
    · exact Int.le_trans hle (Int.max_le.mpr ⟨Int.le_max_left _ _, Int.le_max_left _ _⟩)
    · exact hle
  · intro hhuman
    have hle := hbudget.1
    have hheld : heldByHuman input = true := by
      unfold heldByHuman
      rw [hhuman]
      rfl
    unfold parallelBudget at hle
    rw [if_pos hheld] at hle
    omega

namespace Sample

/-- Two stopped workers to be resumed on a machine that takes two sessions, with
    exceptions of the given id. -/
def resumes (requestId : Text) : ScheduleInput where
  run := run
  steps := [
    { step "one" .pending with sessionId := ofString "worker", placementId := ofString "first" },
    { step "two" .pending with sessionId := ofString "other", placementId := ofString "second" }]
  sessions := [
    worker .stopped,
    { worker .stopped with id := ofString "other", placementId := ofString "second" }]
  nodes := [{ node with maxSessions := 2 }]
  placements := [first, second]
  nowMs := 0
  exceptions := fun stepId =>
    if stepId = ofString "two" then
      some { requestId, sessionId := ofString "other", attempt := 0 }
    else none
  steps_nodup := by decide +kernel
  stepKeys_nodup := by decide +kernel
  sessions_nodup := by decide +kernel
  nodes_nodup := List.nodup_singleton _
  placements_nodup := places_nodup

theorem resumes_named {requestId : Text} (h : requestId ≠ []) :
    NamedExceptions (resumes requestId) := by
  intro stepId granted hgranted
  simp only [resumes, Option.ite_none_right_eq_some, Option.some.injEq] at hgranted
  rw [← hgranted.2]
  exact h

end Sample

/-- The first of two workers is resumed within the margin, the second with an
    approved exception, which its action names. -/
theorem capacity_kept_resumes :
    ((planNextActions Sample.environment (Sample.resumes (ofString "request"))).actions =
        [.resumeStep (ofString "one") (ofString "worker") none,
          .resumeStep (ofString "two") (ofString "other") (some (ofString "request"))]) ∧
      Run.Each (WithinMargin (Sample.resumes (ofString "request")))
        (planNextActions Sample.environment (Sample.resumes (ofString "request"))).actions :=
  ⟨by decide +kernel,
    (capacity_kept Sample.environment (Sample.resumes (ofString "request"))).2.2.2
      (Sample.resumes_named (by decide +kernel))⟩

/-- An exception without a request id is spent, and the action does not say so:
    the Node is filled to its ceiling of two by an action without an exception. -/
theorem capacity_kept_fails :
    ¬Run.Each (WithinMargin (Sample.resumes []))
      (planNextActions Sample.environment (Sample.resumes [])).actions := by
  intro h
  have hactions : (planNextActions Sample.environment (Sample.resumes [])).actions =
      [.resumeStep (ofString "one") (ofString "worker") none] ++
        .resumeStep (ofString "two") (ofString "other") none :: [] := by
    decide +kernel
  have hover := h _ _ _ hactions (ofString "node", .writing) { Sample.node with maxSessions := 2 }
    (by decide +kernel) (by decide +kernel) (by decide +kernel) rfl
  revert hover
  decide +kernel

end Orchestrator

end CopilotFleet
