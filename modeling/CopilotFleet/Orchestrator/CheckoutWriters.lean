import CopilotFleet.Orchestrator.Decisions

/-!
# One Writer for a Checkout

A step that needs the lease on a checkout writes under a key: that of its
isolated checkout when it was bound to one, and otherwise that of the placement
it is dispatched at. No pass of the planner dispatches two steps that write
under one key, and none dispatches a step whose key another session holds or
another step in flight writes under (`one_writer`).

The dispatch loop keeps a set of the keys written under. Every path that
dispatches adds to it and all but one are refused by it: a prompt to a session
that holds its own checkout passes it over while nothing has been dispatched
yet. So the invariant says what the set contains and that it is complete, and
that no dispatch at all has been made while the count is zero.

Two things have to hold of the snapshot. A step without a session is bound to
a checkout of its own only in a managed run: in a legacy run the key it is
tested under is not the key it would be entered under. And a retry does not
share its session with a step in flight, since a session is never its own
obstacle. `one_writer_fails` shows that neither can be left out.

## Main definitions

* `leased`: The step an action dispatches with the key it writes under.
* `OneWriter`: No two writers under one key.
* `InFlightHeld`: The sessions of the steps in flight hold their keys.
* `BoundManaged`, `OwnSession`: What the snapshot has to satisfy.
* `Writing`: What the dispatch loop keeps.

## Theorems

* `writing_keeps`: One turn of the dispatch loop keeps it.
* `one_writer`: One writer for a checkout.
* `one_writer_fails`: Neither condition can be left out.
-/

namespace CopilotFleet

open Utf16

namespace Orchestrator

variable {env : Environment} {input : ScheduleInput}

/-- The step an action dispatches, with the placement it is dispatched at. -/
def dispatchOf (input : ScheduleInput) : ScheduleAction → Option (RunStep × Text)
  | .startStep stepId placementId _ => (stepById input stepId).map fun step => (step, placementId)
  | .resumeStep stepId _ _ =>
      (stepById input stepId).map fun step => (step, retryPlacementId input step)
  | .promptStep stepId _ _ =>
      (stepById input stepId).map fun step => (step, retryPlacementId input step)
  | _ => none

/-- The step an action dispatches and the key it writes under, if it takes a lease. -/
def leased (input : ScheduleInput) (action : ScheduleAction) : Option (RunStep × Text) :=
  ((dispatchOf input action).filter fun d => needsLease input d.1).map fun d =>
    (d.1, stepKeyAt input d.1 d.2)

def leases (input : ScheduleInput) (actions : List ScheduleAction) : List (RunStep × Text) :=
  actions.filterMap (leased input)

/-- No two dispatches write under one key, and none writes under a key that
    another session holds or another step in flight writes under. -/
structure OneWriter (input : ScheduleInput) (actions : List ScheduleAction) : Prop where
  distinct : (leases input actions).Pairwise fun d e => d.2 ≠ e.2
  sessions : ∀ d ∈ leases input actions, ∀ session ∈ input.sessions,
    heldBy input session = true → checkoutLockKey session = d.2 → session.id = d.1.sessionId
  inFlight : ∀ d ∈ leases input actions, ∀ other ∈ input.steps,
    isInFlight other.state = true → needsLease input other = true →
    stepKeyAt input other other.placementId ≠ d.2

/-- Every step in flight that needs a lease has a live session holding its key. -/
def InFlightHeld (input : ScheduleInput) : Prop :=
  ∀ step ∈ input.steps, isInFlight step.state = true → needsLease input step = true →
    ∃ session ∈ input.sessions, session.id = step.sessionId ∧ heldBy input session = true ∧
      checkoutLockKey session = stepKeyAt input step step.placementId

/-- A step without a session is bound to a checkout of its own only in a managed run. -/
def BoundManaged (input : ScheduleInput) : Prop :=
  ∀ step ∈ input.steps, step.sessionId = [] → step.executionBinding.isSome = true →
    input.run.managed = true

/-- A retry does not share its session with a step in flight. -/
def OwnSession (input : ScheduleInput) : Prop :=
  ∀ step ∈ input.steps, step.state = .pending → step.sessionId ≠ [] →
    ∀ other ∈ input.steps, isInFlight other.state = true → other.sessionId ≠ step.sessionId

instance : Decidable (InFlightHeld input) := by
  unfold InFlightHeld
  infer_instance

instance : Decidable (BoundManaged input) := by
  unfold BoundManaged
  infer_instance

instance : Decidable (OwnSession input) := by
  unfold OwnSession
  infer_instance

/-- What the dispatch loop keeps while `rest` is still to be visited. -/
structure Writing (input : ScheduleInput) (rest : List RunStep) (s : Pass) : Prop where
  steps : ∀ step ∈ rest, step ∈ input.steps
  overlaid : Overlaid s
  held : ∀ session ∈ input.sessions, heldBy input session = true →
    checkoutLockKey session ∈ s.writingInFlight
  keys : ∀ d ∈ leases input s.actions, d.2 ∈ s.writingInFlight
  distinct : (leases input s.actions).Pairwise fun d e => d.2 ≠ e.2
  others : ∀ d ∈ leases input s.actions,
    d.1 ∈ input.steps ∧ d.1.state = .pending ∧
      ∀ session ∈ input.sessions, heldBy input session = true → checkoutLockKey session = d.2 →
        d.1.sessionId ≠ [] ∧ session.id = d.1.sessionId
  unstarted : s.started = 0 → leases input s.actions = []

theorem leases_append_single (actions : List ScheduleAction) (action : ScheduleAction) :
    leases input (actions ++ [action]) = leases input actions ++ (leased input action).toList := by
  unfold leases
  rw [List.filterMap_append, List.filterMap_cons, List.filterMap_nil]
  cases leased input action <;> rfl

theorem leased_of_undispatched {action : ScheduleAction} (h : action.dispatched = none) :
    leased input action = none := by
  cases action <;> first | rfl | cases h

theorem leases_of_undispatched {s : Pass} (h : Undispatched s) : leases input s.actions = [] := by
  unfold leases
  rw [List.filterMap_eq_nil_iff]
  exact fun action haction => leased_of_undispatched (h action haction)

theorem Writing.tail {step : RunStep} {rest : List RunStep} {s : Pass}
    (h : Writing input (step :: rest) s) : Writing input rest s :=
  { h with steps := fun other hother => h.steps other (List.mem_cons_of_mem _ hother) }

/-- An action that dispatches nothing leaves the writers as they are. -/
theorem Writing.push {rest : List RunStep} {s s' : Pass} {action : ScheduleAction}
    (h : Writing input rest s) (haction : action.dispatched = none)
    (hactions : s'.actions = s.actions ++ [action]) (hoverlaid : Overlaid s')
    (hwriting : s'.writingInFlight = s.writingInFlight) (hstarted : s'.started = s.started) :
    Writing input rest s' := by
  have hleases : leases input s'.actions = leases input s.actions := by
    rw [hactions, leases_append_single, leased_of_undispatched haction]
    exact List.append_nil _
  refine ⟨h.steps, hoverlaid, ?_, ?_, ?_, ?_, ?_⟩
  · rw [hwriting]
    exact h.held
  · rw [hleases, hwriting]
    exact h.keys
  · rw [hleases]
    exact h.distinct
  · rw [hleases]
    exact h.others
  · rw [hleases, hstarted]
    exact h.unstarted

/-- A dispatch under `key` adds one writer, if it takes a lease, provided that
    nobody writes under the key yet or nothing has been dispatched yet. -/
theorem Writing.dispatch {step : RunStep} {rest : List RunStep} {s s' : Pass}
    {action : ScheduleAction} (placementId key : Text)
    (h : Writing input (step :: rest) s) (hpending : s.effectiveState step = .pending)
    (haction : dispatchOf input action = some (step, placementId))
    (hkey : key = stepKeyAt input step placementId)
    (hactions : s'.actions = s.actions ++ [action]) (hoverlaid : Overlaid s')
    (hwriting : s'.writingInFlight = lease input s step key)
    (hstarted : s'.started = s.started + 1)
    (hfree : needsLease input step = true → key ∈ s.writingInFlight → s.started = 0)
    (hothers : needsLease input step = true → ∀ session ∈ input.sessions,
      heldBy input session = true → checkoutLockKey session = key →
        step.sessionId ≠ [] ∧ session.id = step.sessionId) :
    Writing input rest s' := by
  have hmem : step ∈ input.steps := h.steps step List.mem_cons_self
  have hsub : ∀ k ∈ s.writingInFlight, k ∈ s'.writingInFlight := by
    intro k hk
    rw [hwriting]
    unfold lease
    split
    · exact List.mem_append_left _ hk
    · exact hk
  have hstarted' : s'.started = 0 → leases input s'.actions = [] := by
    intro hzero
    omega
  by_cases hlease : needsLease input step = true
  · have hleased : leased input action = some (step, key) := by
      unfold leased
      rw [haction, Option.filter_some, if_pos hlease, hkey]
      rfl
    have hleases : leases input s'.actions = leases input s.actions ++ [(step, key)] := by
      rw [hactions, leases_append_single, hleased]
      rfl
    have hnew : key ∈ s'.writingInFlight := by
      rw [hwriting]
      unfold lease
      rw [if_pos hlease]
      exact List.mem_append_right _ List.mem_cons_self
    refine ⟨h.tail.steps, hoverlaid, fun session hs hheld => hsub _ (h.held session hs hheld),
      ?_, ?_, ?_, hstarted'⟩
    · intro d hd
      rw [hleases, List.mem_append, List.mem_singleton] at hd
      rcases hd with hd | rfl
      · exact hsub _ (h.keys d hd)
      · exact hnew
    · rw [hleases, List.pairwise_append]
      refine ⟨h.distinct, List.pairwise_singleton _ _, ?_⟩
      intro d hd e he hsame
      rw [List.mem_singleton] at he
      subst he
      -- The key of an earlier dispatch is in the set, so this one was not refused
      -- only because there is no earlier dispatch.
      have hin : d.2 ∈ s.writingInFlight := h.keys d hd
      rw [hsame] at hin
      rw [h.unstarted (hfree hlease hin)] at hd
      cases hd
    · intro d hd
      rw [hleases, List.mem_append, List.mem_singleton] at hd
      rcases hd with hd | rfl
      · exact h.others d hd
      · exact ⟨hmem, (h.overlaid.pending hpending).2, hothers hlease⟩
  · have hleased : leased input action = none := by
      unfold leased
      rw [haction, Option.filter_some, if_neg hlease]
      rfl
    have hleases : leases input s'.actions = leases input s.actions := by
      rw [hactions, leases_append_single, hleased]
      exact List.append_nil _
    refine ⟨h.tail.steps, hoverlaid, fun session hs hheld => hsub _ (h.held session hs hheld),
      ?_, ?_, ?_, hstarted'⟩
    · rw [hleases]
      exact fun d hd => hsub _ (h.keys d hd)
    · rw [hleases]
      exact h.distinct
    · rw [hleases]
      exact h.others

/-- What a retry has been checked for: only its own session holds its key. -/
theorem RetryChecked.own {b : Board} {s : Pass} {step : RunStep} {session : FleetSession}
    {placement : Placement} {node : FleetNode}
    (h : RetryChecked input b s step session placement node)
    (hlease : needsLease input step = true) :
    ∀ other ∈ input.sessions, heldBy input other = true →
      checkoutLockKey other = stepKeyAt input step (retryPlacementId input step) →
        step.sessionId ≠ [] ∧ other.id = step.sessionId := by
  intro other hother hheld hkey
  refine ⟨h.named, ?_⟩
  have hid : session.id = step.sessionId := (attachment_spec h.attached).2.1
  have hvacant := h.vacant
  unfold occupantsOf at hvacant
  rw [if_pos hlease, List.filter_eq_nil_iff] at hvacant
  have hself := hvacant other hother
  simp only [hkey, hheld, decide_true, Bool.and_true, decide_eq_true_eq, not_not] at hself
  rw [hself, hid]

/-- One turn of the dispatch loop keeps the writers apart. -/
theorem writing_keeps (env : Environment) (hbound : BoundManaged input) (b : Board) :
    DispatchKeeps env input b (Writing input) where
  passed := fun step rest s h _ => h.tail
  held := fun step rest s value h _ =>
    ⟨h.tail.steps, h.overlaid, h.held, h.keys, h.distinct, h.others, h.unstarted⟩
  parked := fun rest s sessionId h => h.push rfl rfl h.overlaid rfl rfl
  failed := fun step rest s output h _ _ =>
    h.tail.push rfl rfl (h.overlaid.set (by nofun) rfl) rfl rfl
  prompted := by
    intro step rest s sessionId key h hpending _ hchecked
    rcases hchecked.retry with ⟨session, placement, node, hretry, _, _, hfree⟩
    have hmem : step ∈ input.steps := h.steps step List.mem_cons_self
    refine h.dispatch (retryPlacementId input step) key hpending ?_
      hchecked.key_eq rfl h.overlaid rfl rfl hfree ?_
    · simp only [dispatchOf, stepById_self hmem, Option.map_some]
    · rw [hchecked.key_eq]
      exact hretry.own
  resumed := by
    intro step rest s sessionId key nodeId kind exceptionId h hpending _ hchecked
    rcases hchecked.retry with ⟨session, placement, node, hretry, _⟩
    have hmem : step ∈ input.steps := h.steps step List.mem_cons_self
    refine h.dispatch (retryPlacementId input step) key hpending ?_
      hchecked.key_eq rfl h.overlaid rfl rfl
      (fun hlease hin => absurd hin (hchecked.unwritten hlease)) ?_
    · simp only [dispatchOf, stepById_self hmem, Option.map_some]
    · rw [hchecked.key_eq]
      exact hretry.own
  started := by
    intro step rest s placement h hpending _ hchecked
    have hmem : step ∈ input.steps := h.steps step List.mem_cons_self
    -- The key it was tested under is the key it is entered under.
    have hkey : freshKey input.run step placement.id = stepKeyAt input step placement.id := by
      unfold freshKey stepKeyAt
      cases hbinding : step.executionBinding with
      | none => rfl
      | some binding =>
          have hmanaged := hbound step hmem hchecked.unnamed (by rw [hbinding]; rfl)
          rw [Option.filter_some, if_pos hmanaged]
    have hfree : needsLease input step = true →
        stepKeyAt input step placement.id ∉ s.writingInFlight := by
      rw [← hkey]
      exact hchecked.unleased
    refine h.dispatch placement.id _ hpending ?_ rfl rfl
      (h.overlaid.set (by nofun) rfl) rfl rfl (fun hlease hin => absurd hin (hfree hlease)) ?_
    · simp only [dispatchOf, stepById_self hmem, Option.map_some]
    · intro hlease session hsession hheld hlock
      have hin := h.held session hsession hheld
      rw [hlock] at hin
      exact absurd hin (hfree hlease)

theorem readyPass_writing (env : Environment) (input : ScheduleInput) :
    Writing input input.steps (readyPass env input) := by
  have hnone : leases input (readyPass env input).actions = [] :=
    leases_of_undispatched (skippedPass_undispatched env input)
  refine ⟨fun step hstep => hstep, skippedPass_overlaid env input, ?_, ?_, ?_, ?_, fun _ => hnone⟩
  · intro session hsession hheld
    exact List.mem_append_left _ (List.mem_map_of_mem (List.mem_filter.mpr ⟨hsession, hheld⟩))
  · rw [hnone]
    exact List.forall_mem_nil _
  · rw [hnone]
    exact List.Pairwise.nil
  · rw [hnone]
    exact List.forall_mem_nil _

/-- The writers of a whole pass are those of its dispatch loop. -/
theorem leases_planNextActions (env : Environment) (input : ScheduleInput) :
    leases input (planNextActions env input).actions = [] ∨
      leases input (planNextActions env input).actions =
        leases input (dispatchedPass env input).1.actions := by
  rcases planNextActions_cases env input with h | h | ⟨action, haction, h⟩
  · rw [h]
    exact Or.inl rfl
  · rw [h]
    exact Or.inr rfl
  · have hnone : leased input action = none := by
      rcases haction with ⟨prompt, rfl⟩ | ⟨prompt, rfl⟩ | ⟨⟨state, reason, rfl⟩, _⟩
      · rfl
      · rfl
      · rfl
    rw [h, leases_append_single, hnone]
    exact Or.inr (List.append_nil _)

/-- One writer for a checkout: no pass dispatches two steps that write under one
    key, nor a step whose key another session holds or another step in flight
    writes under. -/
theorem one_writer (env : Environment) (input : ScheduleInput) (hheld : InFlightHeld input)
    (hbound : BoundManaged input) (hown : OwnSession input) :
    OneWriter input (planNextActions env input).actions := by
  rcases (writing_keeps env hbound (planBoard env input)).loop input.steps
      (readyPass env input) (readyPass_writing env input) with ⟨rest, hwriting, _⟩
  rcases leases_planNextActions env input with hleases | hleases
  · refine ⟨?_, ?_, ?_⟩
    · rw [hleases]
      exact List.Pairwise.nil
    · rw [hleases]
      exact List.forall_mem_nil _
    · rw [hleases]
      exact List.forall_mem_nil _
  · refine ⟨?_, ?_, ?_⟩
    · rw [hleases]
      exact hwriting.distinct
    · rw [hleases]
      intro d hd session hsession hlive hkey
      exact ((hwriting.others d hd).2.2 session hsession hlive hkey).2
    · rw [hleases]
      intro d hd other hother hflight hlease hkey
      rcases hwriting.others d hd with ⟨hmem, hpending, hsessions⟩
      rcases hheld other hother hflight hlease with ⟨session, hsession, hid, hlive, hlock⟩
      rcases hsessions session hsession hlive (hlock.trans hkey) with ⟨hnamed, hsame⟩
      exact hown d.1 hmem hpending hnamed other hother hflight (hid.symm.trans hsame)

namespace Sample

def inFlight : RunStep :=
  { step "one" .running with sessionId := ofString "worker", placementId := ofString "first" }

def retry : RunStep :=
  { step "two" .pending with sessionId := ofString "worker", placementId := ofString "first" }

/-- A step in flight at one checkout while another is placed at the second. -/
def busy : ScheduleInput :=
  snapshot .running inFlight
    { step "two" .pending with placementId := ofString "second" }
    (by decide +kernel) (by decide +kernel)

/-- Two fresh steps of a legacy run, bound to one checkout. -/
def boundTwice : ScheduleInput :=
  let binding : ExecutionBinding :=
    { sourcePlacementId := ofString "first", checkoutKey := ofString "shared" }
  snapshot .stopped
    { step "one" .pending with
      executionBinding := some binding, placementId := ofString "first" }
    { step "two" .pending with
      executionBinding := some binding, placementId := ofString "second" }
    (by decide +kernel) (by decide +kernel)

/-- A retry that names the session of a step in flight. -/
def sharedSession : ScheduleInput :=
  snapshot .idle inFlight retry (by decide +kernel) (by decide +kernel)

end Sample

/-- The second step of `Sample.busy` is started beside the one in flight. -/
theorem one_writer_busy :
    OneWriter Sample.busy (planNextActions Sample.environment Sample.busy).actions ∧
      (leases Sample.busy (planNextActions Sample.environment Sample.busy).actions).map
        (fun d => d.2) = [ofString "second"] :=
  ⟨one_writer Sample.environment Sample.busy (by decide +kernel) (by decide +kernel)
    (by decide +kernel), by decide +kernel⟩

/-- Neither condition can be left out: two steps bound to one checkout are both
    started in a legacy run, and a retry is prompted into the checkout of the
    step in flight whose session it shares. -/
theorem one_writer_fails :
    (InFlightHeld Sample.boundTwice ∧ OwnSession Sample.boundTwice ∧
      ¬OneWriter Sample.boundTwice
        (planNextActions Sample.environment Sample.boundTwice).actions) ∧
      InFlightHeld Sample.sharedSession ∧ BoundManaged Sample.sharedSession ∧
        ¬OneWriter Sample.sharedSession
          (planNextActions Sample.environment Sample.sharedSession).actions := by
  refine ⟨⟨by decide +kernel, by decide +kernel, ?_⟩, by decide +kernel, by decide +kernel, ?_⟩
  · intro h
    have hkeys : ((leases Sample.boundTwice
        (planNextActions Sample.environment Sample.boundTwice).actions).map fun d => d.2) =
        [ofString "shared", ofString "shared"] := by
      decide +kernel
    have hpairwise := List.pairwise_map.mpr h.distinct
    rw [hkeys] at hpairwise
    simp at hpairwise
  · intro h
    have hlease : (Sample.retry, ofString "first") ∈
        leases Sample.sharedSession
          (planNextActions Sample.environment Sample.sharedSession).actions := by
      decide +kernel
    exact h.inFlight _ hlease Sample.inFlight (by decide +kernel)
      (by decide +kernel) (by decide +kernel) (by decide +kernel)

end Orchestrator

end CopilotFleet
