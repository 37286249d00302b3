import CopilotFleet.Orchestrator.Capacity

/-!
# Plans and the Step State Machine

The engine executes the actions of a plan in order and looks at no transition
table while it does. So the plan itself has to be lawful: every change of a
step state is a permitted transition at the state the earlier actions left, no
step is dispatched before its dependencies have succeeded, a step is dispatched
or brought to an end but not both, and a step succeeds only on a completed turn
of a session that has come to rest (`plan_lawful`). The run is finished only
once every step is.

The four parts of a pass work on an overlay of effective states, while the
engine works on the states themselves. The two differ in one place: a prompt
moves a step to `starting` and leaves the overlay at `pending`. `executed` is
that difference, and the invariant says that the states after the actions so
far are what `executed` reads off the overlay.

A step whose session is offline is unknown rather than lost, and a running one
is never settled on it. A starting one still fails at its deadline when its
Node is not known to be offline, and a retry fails when the placement or the
Node it is attached to is gone. `offline_settled` has a step of each kind.

## Main definitions

* `change`: The step an action changes, and the state it changes to.
* `execute`, `statesAfter`: The step states while a plan is executed.
* `Sound`: What an action of a plan satisfies.
* `Coherent`: The overlay reads as the executed states do.

## Theorems

* `Coherent.record`, `Coherent.prompt`, `Coherent.inert`: One action each.
* `settledPass_quiet`, `skippedPass_quiet`, `dispatching_keeps`: The loops, one turn at a time.
* `plan_lawful`: Plans respect the step state machine.
* `offline_settled`: Steps of offline sessions that do settle.
-/

namespace CopilotFleet

open Utf16

namespace Orchestrator

variable {env : Environment} {input : ScheduleInput}

/-! ### Executing a plan -/

/-- The step an action changes, and the state it changes to. A resumed step
    stays pending. -/
def change : ScheduleAction → Option (Text × RunStepState)
  | .startStep stepId _ _ => some (stepId, .starting)
  | .promptStep stepId _ _ => some (stepId, .starting)
  | .advanceStep stepId => some (stepId, .running)
  | .settleStep stepId state _ => some (stepId, state)
  | .skipStep stepId _ => some (stepId, .skipped)
  | _ => none

/-- The step an action settles or skips. -/
def ended : ScheduleAction → Option Text
  | .settleStep stepId _ _ => some stepId
  | .skipStep stepId _ => some stepId
  | _ => none

def execute (states : Table Text RunStepState) (action : ScheduleAction) :
    Table Text RunStepState :=
  match change action with
  | none => states
  | some (stepId, state) => states.set stepId state

/-- The step states of the snapshot. -/
def stepStates (input : ScheduleInput) : Table Text RunStepState where
  entries := input.steps.map fun step => (step.id, step.state)
  nodup := by
    rw [List.map_map]
    exact input.steps_nodup

def statesAfter (input : ScheduleInput) (actions : List ScheduleAction) :
    Table Text RunStepState :=
  Run.final execute (stepStates input) actions

/-- What an action of a plan satisfies, read against the actions before it. -/
structure Sound (env : Environment) (input : ScheduleInput) (before : List ScheduleAction)
    (action : ScheduleAction) : Prop where
  permitted : ∀ stepId new, change action = some (stepId, new) →
    ∃ old, (statesAfter input before).get stepId = some old ∧
      canTransitionRunStep old new = true
  ready : ∀ step ∈ input.steps, action.dispatched = some step.id →
    ∀ key ∈ step.dependsOn, ∃ dependency ∈ input.steps, dependency.stepKey = key ∧
      (statesAfter input before).get dependency.id = some .succeeded
  unended : ∀ stepId, action.dispatched = some stepId → ∀ other ∈ before, ended other ≠ some stepId
  undispatched : ∀ stepId, ended action = some stepId →
    ∀ other ∈ before, other.dispatched ≠ some stepId
  finished : ∀ stepId output, action = .settleStep stepId .succeeded output →
    ∃ step ∈ input.steps, step.id = stepId ∧ ∃ session, sessionOf input step = some session ∧
      turnComplete input session = true ∧ (session.state = .idle ∨ session.state = .completed)
  offline : ∀ stepId state output, action = .settleStep stepId state output →
    ∀ step ∈ input.steps, step.id = stepId → ∀ session, sessionOf input step = some session →
      session.state = .offline → state = .failed ∧
        (Unanswered env input step ∨ (step.state = .pending ∧ attachment input step = none))

theorem statesAfter_snoc (actions : List ScheduleAction) (action : ScheduleAction) :
    statesAfter input (actions ++ [action]) = execute (statesAfter input actions) action := by
  unfold statesAfter
  rw [Run.final_append]
  rfl

theorem step_eq_of_id {step other : RunStep} (hstep : step ∈ input.steps)
    (hother : other ∈ input.steps) (hid : step.id = other.id) : step = other :=
  List.inj_on_of_nodup_map input.steps_nodup hstep hother hid

theorem effectiveState_set {s s' : Pass} {step : RunStep} {new : RunStepState}
    (hsettled : s'.settled = s.settled.set step.id new) (other : RunStep) :
    s'.effectiveState other = if other.id = step.id then new else s.effectiveState other := by
  unfold Pass.effectiveState
  rw [hsettled, Table.get_set]
  split
  · rfl
  · rfl

theorem effectiveState_congr {s s' : Pass} (hsettled : s'.settled = s.settled) (other : RunStep) :
    s'.effectiveState other = s.effectiveState other := by
  unfold Pass.effectiveState
  rw [hsettled]

/-! ### The overlay and the executed states -/

def prompts (stepId : Text) : ScheduleAction → Bool
  | .promptStep prompted _ _ => prompted = stepId
  | _ => false

/-- The state a step is executed to, read off the overlay: a prompted step is
    starting, though the overlay leaves it pending. -/
def executed (s : Pass) (step : RunStep) : RunStepState :=
  if s.actions.any (prompts step.id) then .starting else s.effectiveState step

/-- The overlay reads as the executed states do, and every action is sound. -/
structure Coherent (env : Environment) (input : ScheduleInput) (s : Pass) : Prop where
  overlaid : Overlaid s
  states : ∀ step ∈ input.steps,
    (statesAfter input s.actions).get step.id = some (executed s step)
  prompted : ∀ step ∈ input.steps, s.actions.any (prompts step.id) = true →
    s.effectiveState step = .pending
  waiting : ∀ step ∈ input.steps, s.effectiveState step = .pending →
    ∀ action ∈ s.actions, ended action ≠ some step.id
  unfinished : ∀ state reason, .finishRun state reason ∉ s.actions
  sound : Run.Each (Sound env input) s.actions

/-- An action other than the end of the run leaves the run unfinished. -/
theorem Coherent.unfinished_snoc {s : Pass} {action : ScheduleAction} (h : Coherent env input s)
    (haction : ∀ state reason, action ≠ .finishRun state reason) (state : RunState)
    (reason : Text) : .finishRun state reason ∉ s.actions ++ [action] := by
  intro hmem
  rw [List.mem_append, List.mem_singleton] at hmem
  rcases hmem with hmem | hmem
  · exact h.unfinished state reason hmem
  · exact haction state reason hmem.symm

theorem prompts_of_change {action : ScheduleAction} (h : change action = none) (stepId : Text) :
    prompts stepId action = false := by
  cases action <;> first | rfl | cases h

theorem any_prompts_snoc (actions : List ScheduleAction) (action : ScheduleAction)
    (stepId : Text) :
    (actions ++ [action]).any (prompts stepId) =
      (actions.any (prompts stepId) || prompts stepId action) := by
  rw [List.any_append, List.any_cons, List.any_nil, Bool.or_false]

/-- An action that changes no step leaves the overlay coherent. -/
theorem Coherent.inert {s s' : Pass} {action : ScheduleAction} (h : Coherent env input s)
    (hchange : change action = none) (haction : ∀ state reason, action ≠ .finishRun state reason)
    (hactions : s'.actions = s.actions ++ [action])
    (hsettled : s'.settled = s.settled) (hsound : Sound env input s.actions action) :
    Coherent env input s' := by
  have hany : ∀ stepId, s'.actions.any (prompts stepId) = s.actions.any (prompts stepId) := by
    intro stepId
    rw [hactions, any_prompts_snoc, prompts_of_change hchange, Bool.or_false]
  have hended : ∀ stepId, ended action ≠ some stepId := by
    intro stepId
    cases action <;> simp [change, ended] at hchange ⊢
  refine ⟨?_, ?_, ?_, ?_, ?_, ?_⟩
  · intro id
    rw [hsettled]
    exact h.overlaid id
  · intro step hstep
    unfold executed
    rw [hactions, statesAfter_snoc, ← hactions, hany, effectiveState_congr hsettled]
    unfold execute
    rw [hchange]
    exact h.states step hstep
  · intro step hstep hprompted
    rw [hany] at hprompted
    rw [effectiveState_congr hsettled]
    exact h.prompted step hstep hprompted
  · intro step hstep hpending other hother
    rw [effectiveState_congr hsettled] at hpending
    rw [hactions, List.mem_append, List.mem_singleton] at hother
    rcases hother with hother | rfl
    · exact h.waiting step hstep hpending other hother
    · exact hended step.id
  · rw [hactions]
    exact h.unfinished_snoc haction
  · rw [hactions, Run.each_snoc]
    exact ⟨h.sound, hsound⟩

/-- An action that changes a step and enters the change in the overlay. -/
theorem Coherent.record {s s' : Pass} {action : ScheduleAction} {step : RunStep}
    {new : RunStepState} (h : Coherent env input s)
    (hunprompted : s.actions.any (prompts step.id) = false)
    (hchange : change action = some (step.id, new))
    (hnoprompt : ∀ stepId, prompts stepId action = false) (hnew : new ≠ .pending)
    (hactions : s'.actions = s.actions ++ [action])
    (hsettled : s'.settled = s.settled.set step.id new)
    (hsound : Sound env input s.actions action) : Coherent env input s' := by
  have hany : ∀ stepId, s'.actions.any (prompts stepId) = s.actions.any (prompts stepId) := by
    intro stepId
    rw [hactions, any_prompts_snoc, hnoprompt, Bool.or_false]
  refine ⟨h.overlaid.set hnew hsettled, ?_, ?_, ?_, ?_, ?_⟩
  · intro other hother
    unfold executed
    rw [hactions, statesAfter_snoc, ← hactions, hany, effectiveState_set hsettled]
    unfold execute
    rw [hchange]
    simp only [Table.get_set]
    by_cases hid : other.id = step.id
    · rw [if_pos hid, if_pos hid, hid, hunprompted]
      rfl
    · rw [if_neg hid, if_neg hid]
      exact h.states other hother
  · intro other hother hprompted
    rw [hany] at hprompted
    have hid : other.id ≠ step.id := by
      intro hid
      rw [hid, hunprompted] at hprompted
      cases hprompted
    rw [effectiveState_set hsettled, if_neg hid]
    exact h.prompted other hother hprompted
  · intro other hother hpending earlier hearlier
    rw [effectiveState_set hsettled] at hpending
    have hid : other.id ≠ step.id := by
      intro hid
      rw [if_pos hid] at hpending
      exact hnew hpending
    rw [if_neg hid] at hpending
    rw [hactions, List.mem_append, List.mem_singleton] at hearlier
    rcases hearlier with hearlier | rfl
    · exact h.waiting other hother hpending earlier hearlier
    · intro hended
      -- An action ends no other step than the one it changes.
      have hsame : change earlier = some (other.id, new) := by
        cases earlier <;> simp [change, ended] at hchange hended ⊢
        · exact ⟨hended, hchange.2⟩
        · exact ⟨hended, hchange.2⟩
      rw [hchange, Option.some.injEq, Prod.mk.injEq] at hsame
      exact hid hsame.1.symm
  · rw [hactions]
    refine h.unfinished_snoc ?_
    rintro state reason rfl
    cases hchange
  · rw [hactions, Run.each_snoc]
    exact ⟨h.sound, hsound⟩

/-- A prompt starts its step and leaves the overlay as it is. -/
theorem Coherent.prompt {s s' : Pass} {step : RunStep} {sessionId text : Text}
    (h : Coherent env input s) (hmem : step ∈ input.steps)
    (hpending : s.effectiveState step = .pending)
    (hactions : s'.actions = s.actions ++ [.promptStep step.id sessionId text])
    (hsettled : s'.settled = s.settled)
    (hsound : Sound env input s.actions (.promptStep step.id sessionId text)) :
    Coherent env input s' := by
  refine ⟨?_, ?_, ?_, ?_, ?_, ?_⟩
  · intro id
    rw [hsettled]
    exact h.overlaid id
  · intro other hother
    unfold executed
    rw [hactions, statesAfter_snoc, any_prompts_snoc, effectiveState_congr hsettled]
    simp only [execute, change, Table.get_set]
    by_cases hid : other.id = step.id
    · have hself : prompts other.id (.promptStep step.id sessionId text) = true :=
        decide_eq_true hid.symm
      rw [if_pos hid, hself, Bool.or_true, if_pos rfl]
    · have hother' : prompts other.id (.promptStep step.id sessionId text) = false :=
        decide_eq_false (Ne.symm hid)
      rw [if_neg hid, hother', Bool.or_false]
      exact h.states other hother
  · intro other hother hprompted
    rw [effectiveState_congr hsettled]
    by_cases hid : other.id = step.id
    · rw [step_eq_of_id hother hmem hid]
      exact hpending
    · rw [hactions, any_prompts_snoc] at hprompted
      simp only [prompts, decide_eq_false (Ne.symm hid), Bool.or_false] at hprompted
      exact h.prompted other hother hprompted
  · intro other hother hwaiting earlier hearlier
    rw [effectiveState_congr hsettled] at hwaiting
    rw [hactions, List.mem_append, List.mem_singleton] at hearlier
    rcases hearlier with hearlier | rfl
    · exact h.waiting other hother hwaiting earlier hearlier
    · nofun
  · rw [hactions]
    exact h.unfinished_snoc (by nofun)
  · rw [hactions, Run.each_snoc]
    exact ⟨h.sound, hsound⟩

/-- A change the overlay permits is a change the executed states permit. -/
theorem Coherent.permitted {s : Pass} {step : RunStep} {new : RunStepState}
    (h : Coherent env input s) (hmem : step ∈ input.steps)
    (hunprompted : s.actions.any (prompts step.id) = false)
    (hpermitted : canTransitionRunStep (s.effectiveState step) new = true) :
    ∃ old, (statesAfter input s.actions).get step.id = some old ∧
      canTransitionRunStep old new = true := by
  refine ⟨s.effectiveState step, ?_, hpermitted⟩
  rw [h.states step hmem]
  unfold executed
  rw [hunprompted]
  rfl

theorem Undispatched.unprompted {s : Pass} (h : Undispatched s) (stepId : Text) :
    s.actions.any (prompts stepId) = false := by
  rw [List.any_eq_false]
  intro action haction
  have hnone := h action haction
  cases action <;> simp [prompts, ScheduleAction.dispatched] at hnone ⊢

/-! ### One turn of each loop -/

theorem emptyPass_coherent (env : Environment) (input : ScheduleInput) :
    Coherent env input (emptyPass input) where
  overlaid := by nofun
  states := by
    intro step hstep
    have hentry : (step.id, step.state) ∈ (stepStates input).entries := List.mem_map_of_mem hstep
    exact (Table.mem_entries_iff _ _ _).mp hentry
  prompted := fun _ _ h => absurd h Bool.false_ne_true
  waiting := fun _ _ _ _ haction => absurd haction List.not_mem_nil
  unfinished := fun _ _ => List.not_mem_nil
  sound := Run.each_nil _

/-- An action that neither changes nor dispatches nor ends a step is sound. -/
theorem sound_of_quiet {before : List ScheduleAction} {action : ScheduleAction}
    (hchange : change action = none) (hdispatched : action.dispatched = none) :
    Sound env input before action := by
  have hended : ended action = none := by
    cases action <;> simp [change, ended] at hchange ⊢
  refine ⟨?_, ?_, ?_, ?_, ?_, ?_⟩
  · intro stepId new hnew
    rw [hchange] at hnew
    cases hnew
  · intro step _ hstep
    rw [hdispatched] at hstep
    cases hstep
  · intro stepId hstep
    rw [hdispatched] at hstep
    cases hstep
  · intro stepId hstep
    rw [hended] at hstep
    cases hstep
  · rintro stepId output rfl
    cases hchange
  · rintro stepId state output rfl
    cases hchange

/-- What the loops before the dispatch loop keep. -/
structure Quiet (env : Environment) (input : ScheduleInput) (s : Pass) : Prop where
  coherent : Coherent env input s
  undispatched : Undispatched s

/-- A change made before anything is dispatched. -/
theorem Quiet.record {s s' : Pass} {action : ScheduleAction} {step : RunStep}
    {new : RunStepState} (h : Quiet env input s) (hmem : step ∈ input.steps)
    (hchange : change action = some (step.id, new)) (hdispatched : action.dispatched = none)
    (hpermitted : canTransitionRunStep (s.effectiveState step) new = true)
    (hnew : new ≠ .pending) (hactions : s'.actions = s.actions ++ [action])
    (hsettled : s'.settled = s.settled.set step.id new)
    (hfinished : ∀ output, action = .settleStep step.id .succeeded output →
      ∃ session, sessionOf input step = some session ∧ turnComplete input session = true ∧
        (session.state = .idle ∨ session.state = .completed))
    (hoffline : ∀ state output, action = .settleStep step.id state output →
      ∀ session, sessionOf input step = some session → session.state = .offline →
        state = .failed ∧
          (Unanswered env input step ∨ (step.state = .pending ∧ attachment input step = none))) :
    Quiet env input s' := by
  have hunprompted := h.undispatched.unprompted step.id
  have hnoprompt : ∀ stepId, prompts stepId action = false := by
    intro stepId
    cases action <;> first | rfl | cases hdispatched
  -- A settlement settles the step it changes.
  have hself : ∀ stepId state output, action = .settleStep stepId state output →
      stepId = step.id := by
    rintro stepId state output rfl
    simp only [change, Option.some.injEq, Prod.mk.injEq] at hchange
    exact hchange.1
  refine ⟨h.coherent.record hunprompted hchange hnoprompt hnew hactions hsettled
    ⟨?_, ?_, ?_, ?_, ?_, ?_⟩, h.undispatched.push hdispatched hactions⟩
  · intro stepId state hstate
    rw [hchange, Option.some.injEq, Prod.mk.injEq] at hstate
    rcases hstate with ⟨rfl, rfl⟩
    exact h.coherent.permitted hmem hunprompted hpermitted
  · intro other _ hother
    rw [hdispatched] at hother
    cases hother
  · intro stepId hstep
    rw [hdispatched] at hstep
    cases hstep
  · intro stepId _ other hother
    rw [h.undispatched other hother]
    nofun
  · intro stepId output haction
    have hid := hself stepId .succeeded output haction
    subst hid
    exact ⟨step, hmem, rfl, hfinished output haction⟩
  · intro stepId state output haction other hother hid session hsession hstate
    have hid' := hself stepId state output haction
    subst hid'
    rw [step_eq_of_id hother hmem hid] at hsession ⊢
    exact hoffline state output haction session hsession hstate

theorem Quiet.stop {s : Pass} (h : Quiet env input s) (sessionId reason : Text) :
    Quiet env input (s.push (.stopSession sessionId reason)) :=
  ⟨h.coherent.inert rfl (by nofun) rfl rfl (sound_of_quiet rfl rfl), h.undispatched.push rfl rfl⟩

/-- A settlement of a step that is running on the overlay. -/
theorem Quiet.settle {s : Pass} {step : RunStep} {state : RunStepState} {output : Text}
    (h : Quiet env input s) (hmem : step ∈ input.steps)
    (hrunning : s.effectiveState step = .running) (hchecked : SettleChecked input step state) :
    Quiet env input (s.settle step state output) := by
  refine h.record hmem rfl rfl ?_ hchecked.ne_pending rfl rfl ?_ ?_
  · rw [hrunning]
    rcases hchecked.outcome with rfl | rfl
    · rfl
    · rfl
  · intro output' haction
    cases haction
    exact hchecked.finished rfl
  · intro state' output' haction session hsession hstate
    exact absurd hstate (hchecked.online session hsession)

/-- One turn of the settlement loop, at a step that has not been visited. -/
theorem settleStep_quiet {s : Pass} {step : RunStep} (h : Quiet env input s)
    (hmem : step ∈ input.steps) (hunvisited : s.effectiveState step = step.state) :
    Quiet env input (settleStep env input s step) := by
  rcases settleStep_cases env input s step with
    hstep | ⟨hunanswered, output, hstep⟩ | ⟨s', hrunning, hsettle⟩
  · rw [hstep]
    exact h
  · rw [hstep]
    refine h.record hmem rfl rfl ?_ (by nofun) rfl rfl (by nofun) ?_
    · rw [hunvisited, hunanswered.1]
      rfl
    · intro state output' haction session _ _
      cases haction
      exact ⟨rfl, Or.inl hunanswered⟩
  · have hs' : Quiet env input s' ∧ s'.effectiveState step = .running := by
      rcases hrunning with ⟨hstate, rfl⟩ | ⟨hstate, rfl⟩
      · exact ⟨h, hunvisited.trans hstate⟩
      · refine ⟨h.record hmem rfl rfl ?_ (by nofun) rfl rfl (by nofun) (by nofun), ?_⟩
        · rw [hunvisited, hstate]
          rfl
        · rw [effectiveState_set rfl, if_pos rfl]
    rcases hsettle with hstep | ⟨sessionId, reason, hstep⟩ | ⟨state, output, hstep, hchecked⟩
    · rw [hstep]
      exact hs'.1
    · rw [hstep]
      exact hs'.1.stop sessionId reason
    · rw [hstep]
      exact hs'.1.settle hmem hs'.2 hchecked

/-- The settlement of one step leaves the overlay of the others alone. -/
theorem settleStep_other (env : Environment) (input : ScheduleInput) (s : Pass)
    {step other : RunStep} (hid : other.id ≠ step.id) :
    (settleStep env input s step).effectiveState other = s.effectiveState other := by
  rcases settleStep_cases env input s step with hstep | ⟨_, output, hstep⟩ | ⟨s', hrunning, hsettle⟩
  · rw [hstep]
  · rw [hstep, effectiveState_set rfl, if_neg hid]
  · have hs' : s'.effectiveState other = s.effectiveState other := by
      rcases hrunning with ⟨_, rfl⟩ | ⟨_, rfl⟩
      · rfl
      · rw [effectiveState_set rfl, if_neg hid]
    rcases hsettle with hstep | ⟨sessionId, reason, hstep⟩ | ⟨state, output, hstep, _⟩
    · rw [hstep, hs']
    · rw [hstep]
      exact hs'
    · rw [hstep, effectiveState_set rfl, if_neg hid, hs']

theorem settledPass_quiet (env : Environment) (input : ScheduleInput) :
    Quiet env input (settledPass env input) := by
  -- While `rest` is to be visited, its steps read as the snapshot has them.
  have hloop := Run.foldl_visits (f := settleStep env input)
    (fun rest s => Quiet env input s ∧ (∀ step ∈ rest, step ∈ input.steps) ∧
      (rest.map RunStep.id).Nodup ∧ ∀ step ∈ rest, s.effectiveState step = step.state)
    (by
      rintro step rest s ⟨hquiet, hsub, hnodup, hunvisited⟩
      rw [List.map_cons, List.nodup_cons] at hnodup
      refine ⟨settleStep_quiet hquiet (hsub step List.mem_cons_self)
        (hunvisited step List.mem_cons_self), ?_, hnodup.2, ?_⟩
      · exact fun other hother => hsub other (List.mem_cons_of_mem _ hother)
      · intro other hother
        have hid : other.id ≠ step.id := by
          intro hid
          exact hnodup.1 (hid ▸ List.mem_map_of_mem hother)
        rw [settleStep_other env input s hid]
        exact hunvisited other (List.mem_cons_of_mem _ hother))
    input.steps (emptyPass input)
    ⟨⟨emptyPass_coherent env input, by nofun⟩, fun _ h => h, input.steps_nodup, fun _ _ => rfl⟩
  exact hloop.1

/-- What has succeeded in the settlements stays succeeded. -/
def Kept (input : ScheduleInput) (settled s : Pass) : Prop :=
  ∀ step ∈ input.steps, settled.effectiveState step = .succeeded →
    s.effectiveState step = .succeeded

theorem Kept.set {settled s s' : Pass} {step : RunStep} {new : RunStepState}
    (h : Kept input settled s) (hmem : step ∈ input.steps)
    (hpending : s.effectiveState step = .pending)
    (hsettled : s'.settled = s.settled.set step.id new) : Kept input settled s' := by
  intro other hother hdone
  have hsucceeded := h other hother hdone
  have hid : other.id ≠ step.id := by
    intro hid
    rw [step_eq_of_id hother hmem hid, hpending] at hsucceeded
    cases hsucceeded
  rw [effectiveState_set hsettled, if_neg hid]
  exact hsucceeded

theorem skippedPass_quiet (env : Environment) (input : ScheduleInput) :
    Quiet env input (skippedPass env input) ∧
      Kept input (settledPass env input) (skippedPass env input) := by
  refine List.foldlRecOn _ _
    (motive := fun s => Quiet env input s ∧ Kept input (settledPass env input) s)
    ⟨settledPass_quiet env input, fun _ _ h => h⟩ ?_
  rintro s ⟨hquiet, hkept⟩ step hmem
  rcases skipStep_cases _ s step with hstep | ⟨hpending, key, _, _, reason, hstep⟩
  · rw [hstep]
    exact ⟨hquiet, hkept⟩
  · rw [hstep]
    refine ⟨hquiet.record hmem rfl rfl ?_ (by nofun) rfl rfl (by nofun) (by nofun),
      hkept.set hmem hpending rfl⟩
    rw [hpending]
    rfl

/-- What the dispatch loop keeps while `rest` is still to be visited. -/
structure Dispatching (env : Environment) (input : ScheduleInput) (rest : List RunStep)
    (s : Pass) : Prop where
  coherent : Coherent env input s
  kept : Kept input (settledPass env input) s
  steps : ∀ step ∈ rest, step ∈ input.steps
  nodup : (rest.map RunStep.id).Nodup
  unvisited : ∀ step ∈ rest, ∀ action ∈ s.actions, action.dispatched ≠ some step.id

namespace Dispatching

variable {step : RunStep} {rest : List RunStep} {s : Pass}

theorem tail (h : Dispatching env input (step :: rest) s) : Dispatching env input rest s :=
  ⟨h.coherent, h.kept, fun other hother => h.steps other (List.mem_cons_of_mem _ hother),
    (List.nodup_cons.mp (List.map_cons ▸ h.nodup)).2,
    fun other hother => h.unvisited other (List.mem_cons_of_mem _ hother)⟩

theorem id_ne (h : Dispatching env input (step :: rest) s) {other : RunStep}
    (hother : other ∈ rest) : other.id ≠ step.id := by
  have hnodup := h.nodup
  rw [List.map_cons, List.nodup_cons] at hnodup
  intro hid
  exact hnodup.1 (hid ▸ List.mem_map_of_mem hother)

theorem unprompted (h : Dispatching env input (step :: rest) s) :
    s.actions.any (prompts step.id) = false := by
  rw [List.any_eq_false]
  intro action haction
  have hother := h.unvisited step List.mem_cons_self action haction
  cases action <;> simp [prompts, ScheduleAction.dispatched] at hother ⊢
  exact hother

/-- The dependencies of a step that passed the gate have succeeded, and they
    are still succeeded when it is dispatched. -/
theorem ready (h : Dispatching env input (step :: rest) s)
    (hgate : gate input (planBoard env input) step = none) :
    ∀ key ∈ step.dependsOn, ∃ dependency ∈ input.steps, dependency.stepKey = key ∧
      (statesAfter input s.actions).get dependency.id = some .succeeded := by
  intro key hkey
  have hstate : stateByKey input (settledPass env input) key = some .succeeded :=
    gate_none hgate key hkey
  unfold stateByKey at hstate
  rw [Option.map_eq_some_iff] at hstate
  rcases hstate with ⟨dependency, hfind, hdone⟩
  have hmem := List.mem_of_find?_eq_some hfind
  have hsucceeded := h.kept dependency hmem hdone
  refine ⟨dependency, hmem, by simpa using List.find?_some hfind, ?_⟩
  rw [h.coherent.states dependency hmem]
  unfold executed
  split
  · rename_i hprompted
    rw [h.coherent.prompted dependency hmem hprompted] at hsucceeded
    cases hsucceeded
  · rw [hsucceeded]

/-- A dispatch of the step that is being visited is sound. -/
theorem sound (h : Dispatching env input (step :: rest) s)
    (hpending : s.effectiveState step = .pending)
    (hgate : gate input (planBoard env input) step = none) {action : ScheduleAction}
    (hdispatched : action.dispatched = some step.id)
    (hchange : ∀ stepId new, change action = some (stepId, new) →
      stepId = step.id ∧ new = .starting) :
    Sound env input s.actions action := by
  have hmem : step ∈ input.steps := h.steps step List.mem_cons_self
  have hended : ended action = none := by
    cases action <;> first | rfl | cases hdispatched
  refine ⟨?_, ?_, ?_, ?_, ?_, ?_⟩
  · intro stepId new hnew
    rcases hchange stepId new hnew with ⟨rfl, rfl⟩
    refine h.coherent.permitted hmem h.unprompted ?_
    rw [hpending]
    rfl
  · intro other hother hsame
    rw [hdispatched, Option.some.injEq] at hsame
    rw [← step_eq_of_id hmem hother hsame]
    exact h.ready hgate
  · intro stepId hstep
    rw [hdispatched, Option.some.injEq] at hstep
    rw [← hstep]
    exact h.coherent.waiting step hmem hpending
  · intro stepId hstep
    rw [hended] at hstep
    cases hstep
  · rintro stepId output rfl
    cases hdispatched
  · rintro stepId state output rfl
    cases hdispatched

/-- After the step has been visited the others still have not been. -/
theorem visited (h : Dispatching env input (step :: rest) s) {s' : Pass}
    {action : ScheduleAction} (hactions : s'.actions = s.actions ++ [action])
    (haction : action.dispatched = none ∨ action.dispatched = some step.id) :
    ∀ other ∈ rest, ∀ earlier ∈ s'.actions, earlier.dispatched ≠ some other.id := by
  intro other hother earlier hearlier
  rw [hactions, List.mem_append, List.mem_singleton] at hearlier
  rcases hearlier with hearlier | rfl
  · exact h.tail.unvisited other hother earlier hearlier
  · rcases haction with hnone | hself
    · rw [hnone]
      nofun
    · rw [hself, ne_eq, Option.some.injEq]
      exact Ne.symm (h.id_ne hother)

end Dispatching

/-- What a failing retry with an offline session has been checked for. -/
theorem FailChecked.gone {step : RunStep} {session : FleetSession}
    (h : FailChecked input step) (hsession : sessionOf input step = some session)
    (hoffline : session.state = .offline) : attachment input step = none := by
  rcases h with hgone | ⟨attached, placement, node, hattached, hover⟩
  · exact hgone
  · have hfound := (attachment_spec hattached).1
    unfold sessionOf at hsession
    rw [Option.ite_none_right_eq_some, hfound, Option.some.injEq] at hsession
    rw [hsession.2, hoffline] at hover
    cases hover

/-- One turn of the dispatch loop keeps the plan lawful. -/
theorem dispatching_keeps (env : Environment) (input : ScheduleInput) :
    DispatchKeeps env input (planBoard env input) (Dispatching env input) where
  passed := fun step rest s h _ => h.tail
  held := fun step rest s value h _ =>
    ⟨⟨h.coherent.overlaid, h.coherent.states, h.coherent.prompted, h.coherent.waiting,
      h.coherent.unfinished, h.coherent.sound⟩, h.tail.kept, h.tail.steps, h.tail.nodup,
      h.tail.unvisited⟩
  parked := by
    intro rest s sessionId h
    refine ⟨h.coherent.inert rfl (by nofun) rfl rfl (sound_of_quiet rfl rfl), h.kept, h.steps,
      h.nodup, ?_⟩
    intro step hstep action haction
    rw [Pass.push, List.mem_append, List.mem_singleton] at haction
    rcases haction with haction | rfl
    · exact h.unvisited step hstep action haction
    · nofun
  failed := by
    intro step rest s output h hpending hchecked
    have hmem : step ∈ input.steps := h.steps step List.mem_cons_self
    refine ⟨h.coherent.record h.unprompted rfl (fun _ => rfl) (by nofun) rfl rfl
      ⟨?_, fun _ _ hdispatched => (nomatch hdispatched), by nofun, ?_, by nofun, ?_⟩,
      h.kept.set hmem hpending rfl, h.tail.steps, h.tail.nodup, h.visited rfl (Or.inl rfl)⟩
    · intro stepId new hchange
      cases hchange
      refine h.coherent.permitted hmem h.unprompted ?_
      rw [hpending]
      rfl
    · intro stepId hended other hother
      cases hended
      exact h.unvisited step List.mem_cons_self other hother
    · -- An offline session leaves the step nothing it is attached to.
      intro stepId state output' haction other hother hid session hsession hoffline
      cases haction
      rw [step_eq_of_id hother hmem hid] at hsession ⊢
      exact ⟨rfl, Or.inr ⟨(h.coherent.overlaid.pending hpending).2,
        hchecked.gone hsession hoffline⟩⟩
  prompted := by
    intro step rest s sessionId key h hpending hgate _
    have hmem : step ∈ input.steps := h.steps step List.mem_cons_self
    refine ⟨h.coherent.prompt hmem hpending rfl rfl (h.sound hpending hgate rfl ?_), h.kept,
      h.tail.steps, h.tail.nodup, h.visited rfl (Or.inr rfl)⟩
    intro stepId new hchange
    cases hchange
    exact ⟨rfl, rfl⟩
  resumed := by
    intro step rest s sessionId key nodeId kind exceptionId h hpending hgate _
    exact ⟨h.coherent.inert rfl (by nofun) rfl rfl (h.sound hpending hgate rfl (by nofun)), h.kept,
      h.tail.steps, h.tail.nodup, h.visited rfl (Or.inr rfl)⟩
  started := by
    intro step rest s placement h hpending hgate _
    have hmem : step ∈ input.steps := h.steps step List.mem_cons_self
    refine ⟨h.coherent.record h.unprompted rfl (fun _ => rfl) (by nofun) rfl rfl
      (h.sound hpending hgate rfl ?_), h.kept.set hmem hpending rfl, h.tail.steps, h.tail.nodup,
      h.visited rfl (Or.inr rfl)⟩
    intro stepId new hchange
    cases hchange
    exact ⟨rfl, rfl⟩

theorem dispatchedPass_coherent (env : Environment) (input : ScheduleInput) :
    Coherent env input (dispatchedPass env input).1 := by
  rcases skippedPass_quiet env input with ⟨hquiet, hkept⟩
  have hready : Dispatching env input input.steps (readyPass env input) := by
    refine ⟨⟨hquiet.coherent.overlaid, hquiet.coherent.states, hquiet.coherent.prompted,
      hquiet.coherent.waiting, hquiet.coherent.unfinished, hquiet.coherent.sound⟩, hkept,
      fun _ h => h, input.steps_nodup, ?_⟩
    intro step _ action haction
    rw [hquiet.undispatched action haction]
    nofun
  rcases (dispatching_keeps env input).loop input.steps (readyPass env input) hready with
    ⟨rest, hdispatching, _⟩
  exact hdispatching.coherent

/-- Plans respect the step state machine, wherever a pass ends. -/
theorem plan_lawful (env : Environment) (input : ScheduleInput) :
    Run.Each (Sound env input) (planNextActions env input).actions ∧
      ∀ state reason, .finishRun state reason ∈ (planNextActions env input).actions →
        ∀ step ∈ input.steps, ∃ last,
          (statesAfter input (planNextActions env input).actions).get step.id = some last ∧
            last.terminal = true := by
  have hcoherent := dispatchedPass_coherent env input
  rcases planNextActions_cases env input with h | h | ⟨action, haction, h⟩
  · rw [h]
    exact ⟨Run.each_nil _, by nofun⟩
  · rw [h]
    exact ⟨hcoherent.sound, fun state reason hfinish =>
      absurd hfinish (hcoherent.unfinished state reason)⟩
  · have hquiet : change action = none := by
      rcases haction with ⟨prompt, rfl⟩ | ⟨prompt, rfl⟩ | ⟨⟨state, reason, rfl⟩, _⟩
      · rfl
      · rfl
      · rfl
    rw [h, Run.each_snoc]
    refine ⟨⟨hcoherent.sound, sound_of_quiet hquiet haction.undispatched⟩, ?_⟩
    intro state reason hfinish step hstep
    rw [List.mem_append, List.mem_singleton] at hfinish
    rcases hfinish with hfinish | rfl
    · exact absurd hfinish (hcoherent.unfinished state reason)
    · rcases haction with ⟨prompt, hother⟩ | ⟨prompt, hother⟩ | ⟨_, hdone⟩
      · cases hother
      · cases hother
      · have hterminal := hdone step hstep
        rw [effectiveState_congr (explainedPass_eq env input).2] at hterminal
        refine ⟨_, ?_, hterminal⟩
        rw [statesAfter_snoc]
        -- A prompted step is pending on the overlay, so none was prompted.
        have hunprompted :
            (dispatchedPass env input).1.actions.any (prompts step.id) = false := by
          rw [Bool.eq_false_iff]
          intro hprompted
          rw [hcoherent.prompted step hstep hprompted] at hterminal
          cases hterminal
        have hstates := hcoherent.states step hstep
        unfold executed at hstates
        rw [hunprompted] at hstates
        exact hstates

namespace Sample

/-- A dispatch that nobody acknowledged, by a worker whose connection is gone
    while its Node is online. -/
def unanswered : ScheduleInput :=
  { snapshot .offline
      { step "one" .starting with
        sessionId := ofString "worker"
        placementId := ofString "first"
        dispatchedAt := ofString "1970-01-01T00:00:00.000Z" }
      (step "two" .succeeded) (by decide +kernel) (by decide +kernel) with
    nowMs := 120001 }

/-- A retry whose session is offline and whose placement was removed. -/
def detached : ScheduleInput :=
  snapshot .offline
    { step "one" .pending with sessionId := ofString "worker", placementId := ofString "third" }
    (step "two" .succeeded) (by decide +kernel) (by decide +kernel)

end Sample

/-- The step an action settles. -/
def settles : ScheduleAction → Option Text
  | .settleStep stepId _ _ => some stepId
  | _ => none

/-- No step whose session is offline is settled. -/
def OfflineUnsettled (input : ScheduleInput) (actions : List ScheduleAction) : Prop :=
  ∀ step ∈ input.steps,
    (sessionOf input step).any (fun session => session.state = .offline) = true →
      ∀ action ∈ actions, settles action ≠ some step.id

instance (actions : List ScheduleAction) : Decidable (OfflineUnsettled input actions) := by
  unfold OfflineUnsettled
  infer_instance

/-- A starting step and a retry that are settled while their session is offline. -/
theorem offline_settled :
    ¬OfflineUnsettled Sample.unanswered
        (planNextActions Sample.environment Sample.unanswered).actions ∧
      ¬OfflineUnsettled Sample.detached
        (planNextActions Sample.environment Sample.detached).actions := by
  constructor
  · decide +kernel
  · decide +kernel

end Orchestrator

end CopilotFleet
