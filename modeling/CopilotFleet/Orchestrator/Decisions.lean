import CopilotFleet.Lib.Run
import CopilotFleet.Orchestrator.Schedule

/-!
# What the Planner Has Checked

Each part of a pass, turned inside out: what must have been the case for the
part to do what it did. The results about whole passes rest on these and never
look into the planner's definitions again.

Parking settled workers only ever appends requests to stop a session, so an
invariant of the dispatch loop has to bear those beside the dispatches
themselves.

## Main definitions

* `PromptChecked`, `ResumeChecked`, `StartChecked`: What a dispatch has been checked for.
* `SettleChecked`, `FailChecked`: What a settlement has been checked for.
* `DispatchKeeps`: What one turn of the dispatch loop keeps.

## Theorems

* `retryDecision_cases`, `freshDecision_cases`: Every decision of the dispatch loop.
* `settleStep_cases`, `skipStep_cases`: One turn of the loops before it.
* `DispatchKeeps.loop`: What one turn keeps, the dispatch loop keeps.
-/

namespace CopilotFleet

open Utf16

namespace Orchestrator

variable {env : Environment} {input : ScheduleInput}

/-! ### The decisions -/

/-- What both kinds of dispatch to an existing session have been checked for. -/
structure RetryChecked (input : ScheduleInput) (b : Board) (s : Pass) (step : RunStep)
    (session : FleetSession) (placement : Placement) (node : FleetNode) : Prop where
  named : step.sessionId ≠ []
  attached : attachment input step = some (session, placement, node)
  vacant : occupantsOf input step session (stepKeyAt input step (retryPlacementId input step)) = []
  budget : (s.started : Int) < parallelBudget input b

/-- What a retry is attached to is what it names. -/
theorem attachment_spec {step : RunStep} {session : FleetSession} {placement : Placement}
    {node : FleetNode} (h : attachment input step = some (session, placement, node)) :
    sessionById input.sessions step.sessionId = some session ∧ session.id = step.sessionId ∧
      placementById input.placements (retryPlacementId input step) = some placement ∧
      nodeById input.nodes placement.nodeId = some node := by
  unfold attachment at h
  split at h
  · cases h
  · rename_i found hfound
    split at h
    · cases h
    · split at h
      · cases h
      · rename_i place hplace
        rw [Option.map_eq_some_iff] at h
        rcases h with ⟨machine, hmachine, heq⟩
        cases heq
        exact ⟨hfound, by simpa using List.find?_some hfound, hplace, hmachine⟩

/-- What a failing retry has been checked for: what it was attached to is gone,
    or its session ended while it was being resumed. -/
def FailChecked (input : ScheduleInput) (step : RunStep) : Prop :=
  attachment input step = none ∨
    ∃ session placement node, attachment input step = some (session, placement, node) ∧
      session.state.terminal = true

/-- What a prompt has been checked for. -/
structure PromptChecked (input : ScheduleInput) (b : Board) (s : Pass) (step : RunStep)
    (sessionId key : Text) : Prop where
  key_eq : key = stepKeyAt input step (retryPlacementId input step)
  retry : ∃ session placement node, RetryChecked input b s step session placement node ∧
    session.id = sessionId ∧ session.state = .idle ∧
    (needsLease input step = true → key ∈ s.writingInFlight → s.started = 0)

/-- There is room on the Node for one more session, or an exception for this one. -/
def Room (input : ScheduleInput) (s : Pass) (step : RunStep) (session : FleetSession)
    (node : FleetNode) (exceptionId : Option Text) : Prop :=
  (reservedFor input s node.id session.kind < margin node session.kind ∧ exceptionId = none) ∨
    (reservedFor input s node.id session.kind < capacityFor node session.kind ∧
      ∃ granted, approved input step session = some granted ∧
        exceptionId = if granted.requestId ≠ [] then some granted.requestId else none)

/-- What a resume has been checked for. -/
structure ResumeChecked (input : ScheduleInput) (b : Board) (s : Pass) (step : RunStep)
    (sessionId key nodeId : Text) (kind : SessionKind) (exceptionId : Option Text) : Prop where
  key_eq : key = stepKeyAt input step (retryPlacementId input step)
  unwritten : needsLease input step = true → key ∉ s.writingInFlight
  retry : ∃ session placement node, RetryChecked input b s step session placement node ∧
    session.id = sessionId ∧ session.kind = kind ∧ session.state.terminal = true ∧
    node.id = nodeId ∧ Room input s step session node exceptionId

/-- What a start has been checked for. -/
structure StartChecked (input : ScheduleInput) (b : Board) (s : Pass) (step : RunStep)
    (placement : Placement) : Prop where
  unnamed : step.sessionId = []
  budget : (s.started : Int) < parallelBudget input b
  roomy : Roomy (placementRequest input s step) placement
  unleased : Unleased (placementRequest input s step) (freshKey input.run step placement.id)

/-- A resume is held, or there is room for it. -/
theorem resumeDecision_cases (input : ScheduleInput) (s : Pass) (step : RunStep) (session : FleetSession)
    (node : FleetNode) (placementId key : Text) :
    (∃ value, resumeDecision input s step session node placementId key = .hold value) ∨
      ∃ exceptionId, resumeDecision input s step session node placementId key =
          .resume session.id key node.id session.kind exceptionId ∧
        Room input s step session node exceptionId := by
  unfold resumeDecision
  split
  · rename_i hroom
    rw [remainingCapacity_pos] at hroom
    exact Or.inr ⟨none, rfl, Or.inl ⟨hroom, rfl⟩⟩
  · split
    · rename_i granted hgranted
      rw [Option.filter_eq_some_iff, decide_eq_true_eq] at hgranted
      exact Or.inr ⟨_, rfl, Or.inr ⟨hgranted.2, granted, hgranted.1, rfl⟩⟩
    · exact Or.inl ⟨_, rfl⟩

/-- A retry that is prompted or resumed has passed every check before that. -/
theorem workerDecision_cases {b : Board} {s : Pass} {step : RunStep} {session : FleetSession}
    {placement : Placement} {node : FleetNode} {placementId key : Text} {d : Decision}
    (h : workerDecision input b s step session placement node placementId key = d) :
    (∃ value, d = .hold value) ∨
      (session.state.terminal = true ∧ ∃ output, d = .fail output) ∨
      (occupantsOf input step session key = [] ∧ (s.started : Int) < parallelBudget input b ∧
        ((session.state = .idle ∧ d = .prompt session.id key ∧
            (needsLease input step = true → key ∈ s.writingInFlight → s.started = 0)) ∨
          (session.state.terminal = true ∧
            (needsLease input step = true → key ∉ s.writingInFlight) ∧
            d = resumeDecision input s step session node placementId key))) := by
  unfold workerDecision at h
  split at h
  · exact Or.inl ⟨_, h.symm⟩
  split at h
  · exact Or.inl ⟨_, h.symm⟩
  split at h
  · exact Or.inl ⟨_, h.symm⟩
  split at h
  · exact Or.inl ⟨_, h.symm⟩
  rename_i hvacant
  rw [not_not] at hvacant
  split at h
  · rename_i hidle
    split at h
    · exact Or.inl ⟨_, h.symm⟩
    rename_i hbudget
    split at h
    · exact Or.inl ⟨_, h.symm⟩
    rename_i hwriting
    refine Or.inr (Or.inr ⟨hvacant, Int.not_le.mp hbudget, Or.inl ⟨hidle, h.symm, ?_⟩⟩)
    intro hlease hkey
    -- The set was passed over, so nothing has been dispatched yet.
    have hcontains : s.writingInFlight.contains key = true := List.contains_iff_mem.mpr hkey
    rw [hlease, hcontains, Bool.true_and, Bool.true_and, Bool.not_eq_true', Bool.not_eq_false,
      Bool.and_eq_true, decide_eq_true_eq] at hwriting
    exact hwriting.2
  · split at h
    · exact Or.inl ⟨_, h.symm⟩
    rename_i hterminal
    have hover : session.state.terminal = true := by simpa using hterminal
    split at h
    · exact Or.inr (Or.inl ⟨hover, _, h.symm⟩)
    split at h
    · exact Or.inl ⟨_, h.symm⟩
    rename_i hbudget
    split at h
    · exact Or.inl ⟨_, h.symm⟩
    rename_i hwriting
    refine Or.inr (Or.inr ⟨hvacant, Int.not_le.mp hbudget, Or.inr ⟨hover, ?_, h.symm⟩⟩)
    intro hlease hkey
    rw [hlease, Bool.true_and, List.contains_iff_mem] at hwriting
    exact hwriting hkey

/-- Every decision for a retry: it is held, it fails, or its dispatch has been checked. -/
theorem retryDecision_cases {b : Board} {s : Pass} {step : RunStep} {d : Decision}
    (hnamed : step.sessionId ≠ []) (h : retryDecision input b s step = d) :
    (∃ value, d = .hold value) ∨ (FailChecked input step ∧ ∃ output, d = .fail output) ∨
      (∃ sessionId key, d = .prompt sessionId key ∧
        PromptChecked input b s step sessionId key) ∨
      ∃ sessionId key nodeId kind exceptionId,
        d = .resume sessionId key nodeId kind exceptionId ∧
          ResumeChecked input b s step sessionId key nodeId kind exceptionId := by
  unfold retryDecision at h
  split at h
  · rename_i hgone
    exact Or.inr (Or.inl ⟨Or.inl hgone, _, h.symm⟩)
  · rename_i session placement node hattached
    rcases workerDecision_cases h with
      hheld | ⟨hover, hfail⟩ | ⟨hvacant, hbudget, hdispatch⟩
    · exact Or.inl hheld
    · exact Or.inr (Or.inl ⟨Or.inr ⟨session, placement, node, hattached, hover⟩, hfail⟩)
    · have hretry : RetryChecked input b s step session placement node :=
        ⟨hnamed, hattached, hvacant, hbudget⟩
      rcases hdispatch with ⟨hidle, hprompt, hkey⟩ | ⟨hover, hkey, hresume⟩
      · exact Or.inr (Or.inr (Or.inl ⟨_, _, hprompt, rfl, session, placement, node, hretry, rfl,
          hidle, hkey⟩))
      · rcases resumeDecision_cases input s step session node
            (retryPlacementId input step) (stepKeyAt input step (retryPlacementId input step)) with
          ⟨value, hheld⟩ | ⟨exceptionId, hdecided, hroom⟩
        · exact Or.inl ⟨value, hresume.trans hheld⟩
        · exact Or.inr (Or.inr (Or.inr ⟨_, _, _, _, exceptionId, hresume.trans hdecided, rfl, hkey,
            session, placement, node, hretry, rfl, rfl, hover, rfl, hroom⟩))

/-- Every decision for a step without a session. -/
theorem freshDecision_cases (env : Environment) (input : ScheduleInput) (b : Board) (s : Pass)
    {step : RunStep} (hunnamed : step.sessionId = []) :
    (∃ value, freshDecision env input b s step = .hold value) ∨
      freshDecision env input b s step = .exhausted ∨
      ∃ placement, freshDecision env input b s step = .start placement ∧
        StartChecked input b s step placement := by
  unfold freshDecision
  split
  · exact Or.inr (Or.inl rfl)
  · rename_i hbudget
    split
    · exact Or.inl ⟨_, rfl⟩
    · rename_i chosen hchosen
      have hspec := choosePlacement_spec rfl hchosen
      exact Or.inr (Or.inr ⟨chosen, rfl, hunnamed, Int.not_le.mp hbudget, hspec.1, hspec.2⟩)

/-! ### One turn of each loop -/

/-- What a settlement of a running step has been checked for. -/
structure SettleChecked (input : ScheduleInput) (step : RunStep) (state : RunStepState) :
    Prop where
  outcome : state = .failed ∨ state = .succeeded
  online : ∀ session, sessionOf input step = some session → session.state ≠ .offline
  finished : state = .succeeded → ∃ session, sessionOf input step = some session ∧
    turnComplete input session = true ∧ (session.state = .idle ∨ session.state = .completed)

/-- A running step is left alone, its session is asked to stop, or it settles. -/
theorem settleRunning_cases {s s' : Pass} {step : RunStep}
    (h : settleRunning env input s step = s') :
    s' = s ∨ (∃ sessionId reason, s' = s.push (.stopSession sessionId reason)) ∨
      ∃ state output, s' = s.settle step state output ∧ SettleChecked input step state := by
  unfold settleRunning at h
  split at h
  · rename_i hgone
    refine Or.inr (Or.inr ⟨_, _, h.symm, Or.inl rfl, ?_, by nofun⟩)
    intro session hsession
    rw [hgone] at hsession
    cases hsession
  · rename_i session hsession
    -- The session a settlement is read from is the only one the step names.
    have honline (hstate : session.state ≠ .offline) :
        ∀ other, sessionOf input step = some other → other.state ≠ .offline := by
      intro other hother
      rw [hsession] at hother
      cases hother
      exact hstate
    split at h
    · exact Or.inl h.symm
    rename_i hoffline
    split at h
    · refine Or.inr (Or.inr ⟨_, _, h.symm, ?_, honline hoffline, ?_⟩)
      · split
        · exact Or.inr rfl
        · exact Or.inl rfl
      · intro hsucceeded
        split at hsucceeded
        · rename_i hcomplete
          rw [Bool.and_eq_true, decide_eq_true_eq] at hcomplete
          exact ⟨session, hsession, hcomplete.2, Or.inr hcomplete.1⟩
        · cases hsucceeded
    split at h
    · rename_i hcomplete
      rw [Bool.and_eq_true, decide_eq_true_eq] at hcomplete
      exact Or.inr (Or.inr ⟨_, _, h.symm, Or.inr rfl, honline hoffline,
        fun _ => ⟨session, hsession, hcomplete.2, Or.inl hcomplete.1⟩⟩)
    split at h
    · exact Or.inr (Or.inl ⟨_, _, h.symm⟩)
    · exact Or.inl h.symm

/-- The Node of a starting step has not been seen offline, and its dispatch is
    older than the deadline. -/
def Unanswered (env : Environment) (input : ScheduleInput) (step : RunStep) : Prop :=
  step.state = .starting ∧ nodeOnlineForStep input step ≠ some false ∧
    overdue env input step = true

/-- The pass in which a running step is looked at: as it was, or with the step
    advanced to running first. -/
def Running (s s' : Pass) (step : RunStep) : Prop :=
  (step.state = .running ∧ s' = s) ∨ (step.state = .starting ∧ s' = s.advance step)

/-- One turn of the settlement loop. -/
theorem settleStep_cases (env : Environment) (input : ScheduleInput) (s : Pass)
    (step : RunStep) :
    settleStep env input s step = s ∨
      (Unanswered env input step ∧
        ∃ output, settleStep env input s step = s.settle step .failed output) ∨
      ∃ s', Running s s' step ∧ (settleStep env input s step = s' ∨
        (∃ sessionId reason,
          settleStep env input s step = s'.push (.stopSession sessionId reason)) ∨
        ∃ state output, settleStep env input s step = s'.settle step state output ∧
          SettleChecked input step state) := by
  unfold settleStep
  split
  · rename_i hstarting
    split
    · exact Or.inr (Or.inr ⟨_, Or.inr ⟨hstarting, rfl⟩, settleRunning_cases rfl⟩)
    · unfold settleUnacknowledged
      split
      · exact Or.inl rfl
      · rename_i honline
        split
        · rename_i hoverdue
          exact Or.inr (Or.inl ⟨⟨hstarting, honline, hoverdue⟩, _, rfl⟩)
        · exact Or.inl rfl
  · rename_i hrunning
    exact Or.inr (Or.inr ⟨s, Or.inl ⟨hrunning, rfl⟩, settleRunning_cases rfl⟩)
  · exact Or.inl rfl

/-- One turn of the skip loop. -/
theorem skipStep_cases (states : Text → Option RunStepState) (s : Pass) (step : RunStep) :
    skipStep states s step = s ∨ (s.effectiveState step = .pending ∧
      ∃ key ∈ step.dependsOn, failedState (states key) = true ∧
        ∃ reason, skipStep states s step = s.skip step reason) := by
  unfold skipStep
  split
  · exact Or.inl rfl
  · rename_i hpending
    rw [not_not] at hpending
    split
    · exact Or.inl rfl
    · rename_i key hkey
      split
      · exact Or.inl rfl
      · have hfailed : failedState (states key) = true := by simpa using List.find?_some hkey
        exact Or.inr ⟨hpending, key, List.mem_of_find?_eq_some hkey, hfailed, _, rfl⟩

/-- A step that passed the gate has every dependency succeeded. -/
theorem gate_none {b : Board} {step : RunStep} (h : gate input b step = none) :
    ∀ key ∈ step.dependsOn, b.stateByKey key = some .succeeded := by
  intro key hkey
  unfold gate at h
  simp only [] at h
  split at h
  · cases h
  · split at h
    · cases h
    · rename_i hunmet
      rw [not_not, List.filter_eq_nil_iff] at hunmet
      simpa using hunmet key hkey

/-- What the dispatch loop keeps, where what is kept may speak of the steps
    that are still to be visited. -/
structure DispatchKeeps (env : Environment) (input : ScheduleInput) (b : Board)
    (I : List RunStep → Pass → Prop) : Prop where
  passed : ∀ step rest s, I (step :: rest) s → s.effectiveState step ≠ .pending → I rest s
  held : ∀ step rest s value, I (step :: rest) s → s.effectiveState step = .pending →
    I rest (s.hold step value)
  parked : ∀ rest s sessionId, I rest s → I rest (s.push (.stopSession sessionId parkReason))
  failed : ∀ step rest s output, I (step :: rest) s → s.effectiveState step = .pending →
    FailChecked input step → I rest (s.settle step .failed output)
  prompted : ∀ step rest s sessionId key, I (step :: rest) s →
    s.effectiveState step = .pending → gate input b step = none →
    PromptChecked input b s step sessionId key → I rest (s.prompt input step sessionId key)
  resumed : ∀ step rest s sessionId key nodeId kind exceptionId, I (step :: rest) s →
    s.effectiveState step = .pending → gate input b step = none →
    ResumeChecked input b s step sessionId key nodeId kind exceptionId →
    I rest (s.resume input step sessionId key nodeId kind exceptionId)
  started : ∀ step rest s placement, I (step :: rest) s →
    s.effectiveState step = .pending → gate input b step = none →
    StartChecked input b s step placement → I rest (s.start input step placement)

namespace DispatchKeeps

variable {b : Board} {I : List RunStep → Pass → Prop}

/-- Parking keeps what pushing a stop keeps, and touches no state. -/
theorem parkOccupants (hkeeps : DispatchKeeps env input b I) {rest : List RunStep} {s : Pass}
    (step : RunStep) (h : I rest s) :
    I rest (parkOccupants input s step) ∧
      (Orchestrator.parkOccupants input s step).settled = s.settled := by
  unfold Orchestrator.parkOccupants
  split
  · refine List.foldlRecOn _ _ (motive := fun s' => I rest s' ∧ s'.settled = s.settled) ⟨h, rfl⟩ ?_
    intro s' hs' occupant _
    unfold parkOccupant
    split
    · exact ⟨hkeeps.parked _ _ _ hs'.1, hs'.2⟩
    · exact hs'
  · exact ⟨h, rfl⟩

/-- One turn of the dispatch loop keeps it. -/
theorem step (hkeeps : DispatchKeeps env input b I) {step : RunStep} {rest : List RunStep}
    {s s' : Pass} (h : I (step :: rest) s) (hstep : dispatchStep env input b s step = some s') :
    I rest s' := by
  unfold dispatchStep at hstep
  split at hstep
  · rename_i hpassed
    cases hstep
    exact hkeeps.passed step rest s h hpassed
  rename_i hpending
  rw [not_not] at hpending
  split at hstep
  · cases hstep
    exact hkeeps.held step rest s _ h hpending
  rename_i hgate
  rcases hkeeps.parkOccupants step h with ⟨hparked, hsettled⟩
  have hpending' : (Orchestrator.parkOccupants input s step).effectiveState step = .pending := by
    unfold Pass.effectiveState
    rw [hsettled]
    exact hpending
  simp only [] at hstep
  split at hstep
  · -- A step that had a session is retried in it; the others are placed afresh.
    rename_i hnamed
    rcases retryDecision_cases hnamed rfl with ⟨value, hd⟩ | ⟨hchecked, output, hd⟩ |
        ⟨sessionId, key, hd, hchecked⟩ | ⟨sessionId, key, nodeId, kind, exceptionId, hd, hchecked⟩
    · rw [hd] at hstep
      cases hstep
      exact hkeeps.held _ _ _ _ hparked hpending'
    · rw [hd] at hstep
      cases hstep
      exact hkeeps.failed _ _ _ _ hparked hpending' hchecked
    · rw [hd] at hstep
      cases hstep
      exact hkeeps.prompted _ _ _ _ _ hparked hpending' hgate hchecked
    · rw [hd] at hstep
      cases hstep
      exact hkeeps.resumed _ _ _ _ _ _ _ _ hparked hpending' hgate hchecked
  · rename_i hunnamed
    rw [not_not] at hunnamed
    rcases freshDecision_cases env input b (Orchestrator.parkOccupants input s step) hunnamed
      with
      ⟨value, hd⟩ | hd | ⟨placement, hd, hchecked⟩
    · rw [hd] at hstep
      cases hstep
      exact hkeeps.held _ _ _ _ hparked hpending'
    · rw [hd] at hstep
      cases hstep
    · rw [hd] at hstep
      cases hstep
      exact hkeeps.started _ _ _ _ hparked hpending' hgate hchecked

/-- What one turn keeps, the dispatch loop keeps, wherever it is left. A loop
    that is not left for want of budget has visited every step. -/
theorem loop (hkeeps : DispatchKeeps env input b I) :
    ∀ (steps : List RunStep) (s : Pass), I steps s →
      ∃ rest, I rest (dispatchLoop env input b steps s).1 ∧
        ((dispatchLoop env input b steps s).2 = false → rest = []) := by
  intro steps
  induction steps with
  | nil =>
      intro s h
      exact ⟨[], h, fun _ => rfl⟩
  | cons step rest ih =>
      intro s h
      unfold dispatchLoop
      cases hstep : dispatchStep env input b s step with
      | none => exact ⟨step :: rest, (hkeeps.parkOccupants step h).1, nofun⟩
      | some s' => exact ih s' (hkeeps.step h hstep)

end DispatchKeeps

/-! ### Whole passes -/

/-- The step of an id. -/
def stepById (input : ScheduleInput) (id : Text) : Option RunStep :=
  input.steps.find? fun step => step.id = id

theorem stepById_self {step : RunStep} (hmem : step ∈ input.steps) :
    stepById input step.id = some step := by
  unfold stepById
  cases hfind : input.steps.find? (fun other => other.id = step.id) with
  | none =>
      rw [List.find?_eq_none] at hfind
      exact absurd (hfind step hmem) (by simp)
  | some other =>
      have hid : other.id = step.id := by simpa using List.find?_some hfind
      rw [List.inj_on_of_nodup_map input.steps_nodup (List.mem_of_find?_eq_some hfind) hmem hid]

theorem placementById_self {placement : Placement} (hmem : placement ∈ input.placements) :
    placementById input.placements placement.id = some placement := by
  unfold placementById
  cases hfind : input.placements.find? (fun other => other.id = placement.id) with
  | none =>
      rw [List.find?_eq_none] at hfind
      exact absurd (hfind placement hmem) (by simp)
  | some other =>
      have hid : other.id = placement.id := by simpa using List.find?_some hfind
      rw [List.inj_on_of_nodup_map input.placements_nodup (List.mem_of_find?_eq_some hfind) hmem
        hid]

/-- The step an action dispatches. -/
def ScheduleAction.dispatched : ScheduleAction → Option Text
  | .startStep stepId _ _ => some stepId
  | .resumeStep stepId _ _ => some stepId
  | .promptStep stepId _ _ => some stepId
  | _ => none

/-- Nothing has been dispatched. -/
def Undispatched (s : Pass) : Prop := ∀ action ∈ s.actions, action.dispatched = none

theorem Undispatched.push {s s' : Pass} {action : ScheduleAction} (h : Undispatched s)
    (haction : action.dispatched = none) (hactions : s'.actions = s.actions ++ [action]) :
    Undispatched s' := by
  intro other hother
  rw [hactions, List.mem_append, List.mem_singleton] at hother
  rcases hother with hother | rfl
  · exact h other hother
  · exact haction

/-- The overlay never says pending: what a pass settles is no longer waiting. -/
def Overlaid (s : Pass) : Prop := ∀ id, s.settled.get id ≠ some .pending

theorem Overlaid.set {s s' : Pass} {step : RunStep} {state : RunStepState} (h : Overlaid s)
    (hstate : state ≠ .pending) (hsettled : s'.settled = s.settled.set step.id state) :
    Overlaid s' := by
  intro id
  rw [hsettled, Table.get_set]
  split
  · rw [ne_eq, Option.some.injEq]
    exact hstate
  · exact h id

theorem Overlaid.pending {s : Pass} (h : Overlaid s) {step : RunStep}
    (hpending : s.effectiveState step = .pending) :
    s.settled.get step.id = none ∧ step.state = .pending := by
  unfold Pass.effectiveState at hpending
  cases hget : s.settled.get step.id with
  | none =>
      rw [hget] at hpending
      exact ⟨rfl, hpending⟩
  | some state =>
      rw [hget] at hpending
      exact absurd (by rw [hget]; exact congrArg some hpending) (h step.id)

theorem SettleChecked.ne_pending {step : RunStep} {state : RunStepState}
    (h : SettleChecked input step state) : state ≠ .pending := by
  rcases h.outcome with rfl | rfl
  · nofun
  · nofun

/-- What every settlement keeps, the settlement loop keeps. -/
theorem settledPass_keeps {P : Pass → Prop} (hempty : P (emptyPass input))
    (hpush : ∀ s sessionId reason, P s → P (s.push (.stopSession sessionId reason)))
    (hadvance : ∀ s step, P s → P (s.advance step))
    (hsettle : ∀ s step state output, P s → state ≠ .pending → P (s.settle step state output)) :
    P (settledPass env input) := by
  refine List.foldlRecOn _ _ (motive := P) hempty ?_
  intro s hs step _
  rcases settleStep_cases env input s step with h | ⟨_, output, h⟩ | ⟨s', hrunning, hstep⟩
  · rw [h]
    exact hs
  · rw [h]
    exact hsettle s step .failed output hs (by nofun)
  · have hs' : P s' := by
      rcases hrunning with ⟨_, rfl⟩ | ⟨_, rfl⟩
      · exact hs
      · exact hadvance s step hs
    rcases hstep with h | ⟨sessionId, reason, h⟩ | ⟨state, output, h, hchecked⟩
    · rw [h]
      exact hs'
    · rw [h]
      exact hpush s' sessionId reason hs'
    · rw [h]
      exact hsettle s' step state output hs' hchecked.ne_pending

/-- What every skip keeps, the skip loop keeps. -/
theorem skippedPass_keeps {P : Pass → Prop} (hsettled : P (settledPass env input))
    (hskip : ∀ s step reason, P s → P (s.skip step reason)) : P (skippedPass env input) := by
  refine List.foldlRecOn _ _ (motive := P) hsettled ?_
  intro s hs step _
  rcases skipStep_cases _ s step with h | ⟨_, key, _, _, reason, h⟩
  · rw [h]
    exact hs
  · rw [h]
    exact hskip s step reason hs

/-- The loops before the dispatch loop dispatch nothing. -/
theorem skippedPass_undispatched (env : Environment) (input : ScheduleInput) :
    Undispatched (skippedPass env input) :=
  skippedPass_keeps
    (settledPass_keeps (by nofun) (fun _ _ _ hs => hs.push rfl rfl) (fun _ _ hs => hs.push rfl rfl)
      (fun _ _ _ _ hs _ => hs.push rfl rfl))
    (fun _ _ _ hs => hs.push rfl rfl)

theorem settledPass_overlaid (env : Environment) (input : ScheduleInput) :
    Overlaid (settledPass env input) :=
  settledPass_keeps (by nofun) (fun _ _ _ hs => hs) (fun _ _ hs => hs.set (by nofun) rfl)
    (fun _ _ _ _ hs hstate => hs.set hstate rfl)

theorem skippedPass_overlaid (env : Environment) (input : ScheduleInput) :
    Overlaid (skippedPass env input) :=
  skippedPass_keeps (settledPass_overlaid env input) (fun _ _ _ hs => hs.set (by nofun) rfl)

/-- Explaining what the budget cut off changes no action and no state. -/
theorem explainedPass_eq (env : Environment) (input : ScheduleInput) :
    (explainedPass env input).actions = (dispatchedPass env input).1.actions ∧
      (explainedPass env input).settled = (dispatchedPass env input).1.settled := by
  unfold explainedPass
  simp only []
  split
  · refine List.foldlRecOn _ _ (motive := fun s : Pass =>
      s.actions = (dispatchedPass env input).1.actions ∧
        s.settled = (dispatchedPass env input).1.settled) ⟨rfl, rfl⟩ ?_
    intro s hs step _
    unfold holdCutOff
    split
    · exact hs
    · exact hs
  · exact ⟨rfl, rfl⟩

/-- An action about the run as a whole. -/
def Concluding (input : ScheduleInput) (s : Pass) (action : ScheduleAction) : Prop :=
  (∃ prompt, action = .deliverPrompt input.run.id prompt) ∨
    (∃ prompt, action = .wakeLead input.run.id prompt) ∨
    ((∃ state reason, action = .finishRun state reason) ∧
      ∀ step ∈ input.steps, (s.effectiveState step).terminal = true)

theorem conclude_cases (input : ScheduleInput) (s : Pass) :
    conclude input s = s ∨
      ∃ action, Concluding input s action ∧ conclude input s = s.push action := by
  generalize h : conclude input s = s'
  unfold conclude at h
  split at h
  · exact Or.inr ⟨_, Or.inl ⟨_, rfl⟩, h.symm⟩
  split at h
  · split at h
    · rename_i hdone
      rw [Bool.and_eq_true, List.all_eq_true] at hdone
      split at h
      · exact Or.inr ⟨_, Or.inr (Or.inr ⟨⟨_, _, rfl⟩, hdone.1⟩), h.symm⟩
      · exact Or.inr ⟨_, Or.inr (Or.inr ⟨⟨_, _, rfl⟩, hdone.1⟩), h.symm⟩
    · exact Or.inl h.symm
  split at h
  · exact Or.inr ⟨_, Or.inr (Or.inl ⟨_, rfl⟩), h.symm⟩
  · exact Or.inl h.symm

theorem holdEveryPending_actions (input : ScheduleInput) (value : StepHold) :
    (holdEveryPending input value).actions = [] := by
  unfold holdEveryPending
  refine List.foldlRecOn _ _ (motive := fun s : Pass => s.actions = []) rfl ?_
  intro s hs step _
  exact hs

/-- A pass does nothing, or its actions are those of the dispatch loop, perhaps
    with one about the run at the end. -/
theorem planNextActions_cases (env : Environment) (input : ScheduleInput) :
    (planNextActions env input).actions = [] ∨
      (planNextActions env input).actions = (dispatchedPass env input).1.actions ∨
      ∃ action, Concluding input (explainedPass env input) action ∧
        (planNextActions env input).actions = (dispatchedPass env input).1.actions ++ [action] := by
  unfold planNextActions
  split
  · exact Or.inl rfl
  · exact Or.inl (holdEveryPending_actions input _)
  · rw [← (explainedPass_eq env input).1]
    rcases conclude_cases input (explainedPass env input) with h | ⟨action, haction, h⟩
    · rw [h]
      exact Or.inr (Or.inl rfl)
    · rw [h]
      exact Or.inr (Or.inr ⟨action, haction, rfl⟩)

end Orchestrator

end CopilotFleet
