import CopilotFleet.Orchestrator.StepStates

/-!
# Why a Step Waits

Beside its actions a pass leaves the reasons for what it did not do: a map from
steps to holds, which a person reads to learn why nothing is moving. A step that
is not dispatched and has no hold would be waiting for nobody knows what.

`waiting_explained` says that this does not happen in a run that is still going.
Every pending step is dispatched by one action, or brought to an end by one, or
it has a hold, and never two of these. The dispatch loop has many ways out of a
turn and each leaves one or the other; leaving the whole loop for want of budget
is the one way that leaves nothing, and the loop over what was cut off is there
for the steps it left.

Neither half holds without its hypothesis. A run that is over is passed by
without a word, and an entry that was in the map before the pass stays in it
beside whatever the pass decides (`waiting_unexplained`).

## Main definitions

* `concerning`: The actions that dispatch a step or end it.
* `Explained`: What has become of a pending step.
* `Open`, `Closed`: Whether a loop still has to answer for a step.
* `Answers`: What a pass has answered for, and what it still has to.

## Theorems

* `Answers.answer`, `Answers.same`: One step answered for, and none.
* `visiting_keeps`: One turn of the dispatch loop answers for its step.
* `explainedPass_answers`: What the budget cut off is held.
* `waiting_explained`: Every waiting step is explained.
* `waiting_unexplained`: A run that is over, and a map that was not empty.
-/

namespace CopilotFleet

open Utf16

namespace Orchestrator

variable {env : Environment} {input : ScheduleInput}

/-- Whether an action dispatches a step or ends it. -/
def concerns (stepId : Text) (action : ScheduleAction) : Bool :=
  action.dispatched = some stepId || ended action = some stepId

/-- The actions that dispatch a step or end it. -/
def concerning (stepId : Text) (actions : List ScheduleAction) : List ScheduleAction :=
  actions.filter (concerns stepId)

/-- An action fails a step or skips it. -/
def Ends (stepId : Text) (action : ScheduleAction) : Prop :=
  (∃ output, action = .settleStep stepId .failed output) ∨ ∃ reason, action = .skipStep stepId reason

/-- The reason a step is given for waiting. -/
def Pass.held (s : Pass) (stepId : Text) : Option StepHold :=
  s.holds.bind fun holds => holds.get stepId

/-- What has become of a pending step: one action dispatches it, or one ends it,
    or it is held. -/
def Explained (s : Pass) (stepId : Text) : Prop :=
  (∃ action, concerning stepId s.actions = [action] ∧ action.dispatched = some stepId ∧
      s.held stepId = none) ∨
    (∃ action, concerning stepId s.actions = [action] ∧ Ends stepId action ∧
      s.held stepId = none) ∨
    (concerning stepId s.actions = [] ∧ ∃ value, s.held stepId = some value)

/-! ### One step of a pass -/

/-- Nothing has been decided about the step. -/
structure Open (s : Pass) (step : RunStep) : Prop where
  unconcerned : concerning step.id s.actions = []
  unheld : s.held step.id = none
  pending : s.effectiveState step = .pending
  undispatched : step.id ∉ s.dispatched

/-- The loops see that something has been decided about the step. -/
def Closed (s : Pass) (step : RunStep) : Prop :=
  s.effectiveState step ≠ .pending ∨ step.id ∈ s.dispatched ∨ s.held step.id ≠ none

theorem Open.unclosed {s : Pass} {step : RunStep} (h : Open s step) : ¬Closed s step := by
  rintro (hseen | hdispatched | hheld)
  · exact hseen h.pending
  · exact h.undispatched hdispatched
  · exact hheld h.unheld

/-- What the loops see of a step is the same in both passes. -/
structure Same (s s' : Pass) (stepId : Text) : Prop where
  actions : concerning stepId s'.actions = concerning stepId s.actions
  held : s'.held stepId = s.held stepId
  settled : s'.settled.get stepId = s.settled.get stepId
  dispatched : stepId ∈ s'.dispatched ↔ stepId ∈ s.dispatched

theorem Same.effectiveState {s s' : Pass} {step : RunStep} (h : Same s s' step.id) :
    s'.effectiveState step = s.effectiveState step := by
  unfold Pass.effectiveState
  rw [h.settled]

theorem Same.opened {s s' : Pass} {step : RunStep} (h : Same s s' step.id) (hopen : Open s step) :
    Open s' step := by
  refine ⟨?_, ?_, ?_, ?_⟩
  · rw [h.actions]
    exact hopen.unconcerned
  · rw [h.held]
    exact hopen.unheld
  · rw [h.effectiveState]
    exact hopen.pending
  · rw [h.dispatched]
    exact hopen.undispatched

theorem Same.closed {s s' : Pass} {step : RunStep} (h : Same s s' step.id)
    (hclosed : Closed s step) : Closed s' step := by
  unfold Closed
  rw [h.effectiveState, h.dispatched, h.held]
  exact hclosed

theorem Same.explained {s s' : Pass} {stepId : Text} (h : Same s s' stepId)
    (hexplained : Explained s stepId) : Explained s' stepId := by
  unfold Explained
  rw [h.actions, h.held]
  exact hexplained

theorem concerning_snoc (stepId : Text) (actions : List ScheduleAction) (action : ScheduleAction) :
    concerning stepId (actions ++ [action]) =
      concerning stepId actions ++ if concerns stepId action then [action] else [] := by
  unfold concerning
  rw [List.filter_append, List.filter_singleton]
  cases concerns stepId action <;> rfl

/-- An action about something else leaves a step the same. -/
theorem Same.push {s s' : Pass} {action : ScheduleAction} {stepId : Text}
    (hactions : s'.actions = s.actions ++ [action]) (hconcerns : concerns stepId action = false)
    (hholds : s'.holds = s.holds) (hsettled : s'.settled.get stepId = s.settled.get stepId)
    (hdispatched : stepId ∈ s'.dispatched ↔ stepId ∈ s.dispatched) : Same s s' stepId := by
  refine ⟨?_, ?_, hsettled, hdispatched⟩
  · rw [hactions, concerning_snoc, hconcerns]
    exact List.append_nil _
  · unfold Pass.held
    rw [hholds]

theorem concerns_self {action : ScheduleAction} {stepId : Text}
    (h : action.dispatched = some stepId ∨ ended action = some stepId) :
    concerns stepId action = true := by
  unfold concerns
  rw [Bool.or_eq_true, decide_eq_true_eq, decide_eq_true_eq]
  exact h

/-- An action about one step is about no other. -/
theorem concerns_ne {action : ScheduleAction} {stepId other : Text}
    (hdispatched : action.dispatched = none ∨ action.dispatched = some stepId)
    (hended : ended action = none ∨ ended action = some stepId) (hid : other ≠ stepId) :
    concerns other action = false := by
  unfold concerns
  rcases hdispatched with hdispatched | hdispatched <;> rcases hended with hended | hended <;>
    simp [hdispatched, hended, Ne.symm hid]

theorem Pass.held_hold (s : Pass) (step : RunStep) (value : StepHold) (stepId : Text) :
    (s.hold step value).held stepId =
      if stepId = step.id then s.holds.map fun _ => value else s.held stepId := by
  unfold Pass.held Pass.hold
  cases s.holds with
  | none => split <;> rfl
  | some holds =>
      simp only [Option.map_some, Option.bind_some, Table.get_set]

/-- A hold for one step leaves the others the same. -/
theorem Same.hold {s : Pass} {step : RunStep} {value : StepHold} {stepId : Text}
    (hid : stepId ≠ step.id) : Same s (s.hold step value) stepId := by
  refine ⟨rfl, ?_, rfl, Iff.rfl⟩
  rw [Pass.held_hold, if_neg hid]

/-- The first action about a step that was open is the only one. -/
theorem Open.first {s s' : Pass} {step : RunStep} {action : ScheduleAction} (h : Open s step)
    (hactions : s'.actions = s.actions ++ [action]) (hconcerns : concerns step.id action = true)
    (hholds : s'.holds = s.holds) :
    concerning step.id s'.actions = [action] ∧ s'.held step.id = none := by
  constructor
  · rw [hactions, concerning_snoc, h.unconcerned, hconcerns]
    rfl
  · have hunheld := h.unheld
    unfold Pass.held at hunheld ⊢
    rw [hholds]
    exact hunheld

/-- A pass ends a step: it pushes an action and enters the change in the overlay. -/
structure Ended (s s' : Pass) (step : RunStep) (action : ScheduleAction) (new : RunStepState) :
    Prop where
  actions : s'.actions = s.actions ++ [action]
  settled : s'.settled = s.settled.set step.id new
  holds : s'.holds = s.holds
  dispatched : s'.dispatched = s.dispatched
  unpending : new ≠ .pending

namespace Ended

variable {s s' : Pass} {step : RunStep} {action : ScheduleAction} {new : RunStepState}

/-- A step that was ended is no longer pending on the overlay. -/
theorem seen (h : Ended s s' step action new) : s'.effectiveState step ≠ .pending := by
  rw [effectiveState_set h.settled, if_pos rfl]
  exact h.unpending

theorem same (h : Ended s s' step action new) (hends : Ends step.id action) {stepId : Text}
    (hid : stepId ≠ step.id) : Same s s' stepId := by
  refine Same.push h.actions ?_ h.holds ?_ ?_
  · rcases hends with ⟨output, rfl⟩ | ⟨reason, rfl⟩
    · exact concerns_ne (Or.inl rfl) (Or.inr rfl) hid
    · exact concerns_ne (Or.inl rfl) (Or.inr rfl) hid
  · rw [h.settled, Table.get_set_ne _ _ hid]
  · rw [h.dispatched]

end Ended

/-! ### What a pass has answered for -/

/-- Every pending step is explained, or it is open and still to be visited. Only
    pending steps are held. -/
structure Answers (input : ScheduleInput) (rest : List RunStep) (s : Pass) : Prop where
  mapped : s.holds.isSome = true
  overlaid : Overlaid s
  waiting : ∀ step ∈ input.steps, step.state = .pending →
    (step ∈ rest ∧ Open s step) ∨ (Explained s step.id ∧ Closed s step)
  held : ∀ stepId, s.held stepId ≠ none →
    ∃ step ∈ input.steps, step.id = stepId ∧ step.state = .pending

namespace Answers

variable {rest rest' : List RunStep} {s s' : Pass} {step : RunStep}

/-- Nothing was decided about a pending step, so there is nothing new to answer for. -/
theorem same (h : Answers input rest s) (hholds : s'.holds = s.holds) (hoverlaid : Overlaid s')
    (hsame : ∀ step ∈ input.steps, step.state = .pending → Same s s' step.id) :
    Answers input rest s' := by
  refine ⟨hholds ▸ h.mapped, hoverlaid, ?_, ?_⟩
  · intro other hother hpending
    have hcopy := hsame other hother hpending
    rcases h.waiting other hother hpending with ⟨hrest, hopen⟩ | ⟨hexplained, hclosed⟩
    · exact Or.inl ⟨hrest, hcopy.opened hopen⟩
    · exact Or.inr ⟨hcopy.explained hexplained, hcopy.closed hclosed⟩
  · intro stepId hheld
    unfold Pass.held at hheld
    rw [hholds] at hheld
    exact h.held stepId hheld

/-- One pending step is answered for and nothing was decided about the others. -/
theorem answer (h : Answers input rest s) (hstep : step ∈ input.steps)
    (hpending : step.state = .pending) (hmapped : s'.holds.isSome = true)
    (hoverlaid : Overlaid s') (hsame : ∀ stepId, stepId ≠ step.id → Same s s' stepId)
    (hexplained : Explained s' step.id) (hclosed : Closed s' step)
    (hrest : ∀ other ∈ rest, other.id ≠ step.id → other ∈ rest') : Answers input rest' s' := by
  refine ⟨hmapped, hoverlaid, ?_, ?_⟩
  · intro other hother hwaiting
    by_cases hid : other.id = step.id
    · have hself := step_eq_of_id hother hstep hid
      subst hself
      exact Or.inr ⟨hexplained, hclosed⟩
    · rcases h.waiting other hother hwaiting with ⟨hmem, hopen⟩ | ⟨hdone, hseen⟩
      · exact Or.inl ⟨hrest other hmem hid, (hsame other.id hid).opened hopen⟩
      · exact Or.inr ⟨(hsame other.id hid).explained hdone, (hsame other.id hid).closed hseen⟩
  · intro stepId hheld
    by_cases hid : stepId = step.id
    · exact ⟨step, hstep, hid.symm, hpending⟩
    · rw [(hsame stepId hid).held] at hheld
      exact h.held stepId hheld

/-- A pending step is answered for by a hold. -/
theorem hold (h : Answers input rest s) (hstep : step ∈ input.steps) (hopen : Open s step)
    (value : StepHold) (hrest : ∀ other ∈ rest, other.id ≠ step.id → other ∈ rest') :
    Answers input rest' (s.hold step value) := by
  rcases Option.isSome_iff_exists.mp h.mapped with ⟨holds, hholds⟩
  have hheld : (s.hold step value).held step.id = some value := by
    rw [Pass.held_hold, if_pos rfl, hholds]
    rfl
  refine h.answer hstep (h.overlaid.pending hopen.pending).2 ?_ h.overlaid
    (fun stepId hid => Same.hold hid) (Or.inr (Or.inr ⟨hopen.unconcerned, value, hheld⟩)) ?_ hrest
  · unfold Pass.hold
    rw [hholds]
    rfl
  · refine Or.inr (Or.inr ?_)
    rw [hheld]
    nofun

/-- A pending step is answered for by an action that ends it. -/
theorem ended (h : Answers input rest s) (hstep : step ∈ input.steps) (hopen : Open s step)
    {action : ScheduleAction} {new : RunStepState} (hends : Ends step.id action)
    (hended : Ended s s' step action new)
    (hrest : ∀ other ∈ rest, other.id ≠ step.id → other ∈ rest') : Answers input rest' s' := by
  have hconcerns : concerns step.id action = true := by
    rcases hends with ⟨output, rfl⟩ | ⟨reason, rfl⟩
    · exact concerns_self (Or.inr rfl)
    · exact concerns_self (Or.inr rfl)
  have hfirst := hopen.first hended.actions hconcerns hended.holds
  exact h.answer hstep (h.overlaid.pending hopen.pending).2 (hended.holds ▸ h.mapped)
    (h.overlaid.set hended.unpending hended.settled) (fun _ hid => hended.same hends hid)
    (Or.inr (Or.inl ⟨action, hfirst.1, hends, hfirst.2⟩)) (Or.inl hended.seen) hrest

end Answers

/-! ### The loops before the dispatch loop -/

/-- What the loops keep while `rest` is still to be visited: a pending step that
    is to be visited is open, or a loop passes it by. -/
structure Visiting (input : ScheduleInput) (rest : List RunStep) (s : Pass) : Prop where
  answers : Answers input rest s
  steps : ∀ step ∈ rest, step ∈ input.steps
  nodup : (rest.map RunStep.id).Nodup
  fresh : ∀ step ∈ rest, step.state = .pending → Open s step ∨ s.effectiveState step ≠ .pending

namespace Visiting

variable {rest : List RunStep} {s s' : Pass} {step : RunStep}

theorem same (h : Visiting input rest s) (hholds : s'.holds = s.holds) (hoverlaid : Overlaid s')
    (hsame : ∀ step ∈ input.steps, step.state = .pending → Same s s' step.id) :
    Visiting input rest s' := by
  refine ⟨h.answers.same hholds hoverlaid hsame, h.steps, h.nodup, ?_⟩
  intro other hother hpending
  have hcopy := hsame other (h.steps other hother) hpending
  rcases h.fresh other hother hpending with hopen | hseen
  · exact Or.inl (hcopy.opened hopen)
  · rw [← hcopy.effectiveState] at hseen
    exact Or.inr hseen

/-- A step that is pending on the overlay when it is visited is open. -/
theorem opened (h : Visiting input rest s) (hmem : step ∈ rest)
    (hpending : s.effectiveState step = .pending) : Open s step := by
  rcases h.fresh step hmem (h.answers.overlaid.pending hpending).2 with hopen | hseen
  · exact hopen
  · exact absurd hpending hseen

/-- Stopping a session decides about no step. -/
theorem stop (h : Visiting input rest s) (sessionId reason : Text) :
    Visiting input rest (s.push (.stopSession sessionId reason)) :=
  h.same rfl h.answers.overlaid fun _ _ _ => Same.push rfl rfl rfl rfl Iff.rfl

/-- A change of a step that was not pending in the snapshot. -/
theorem record {action : ScheduleAction} {new : RunStepState} (h : Visiting input rest s)
    (hstate : step.state ≠ .pending) (hmem : step ∈ input.steps)
    (hdispatched : action.dispatched = none) (hended : ended action = none ∨
      ended action = some step.id) (hnew : new ≠ .pending) (hholds : s'.holds = s.holds)
    (hactions : s'.actions = s.actions ++ [action])
    (hsettled : s'.settled = s.settled.set step.id new) (hsame : s'.dispatched = s.dispatched) :
    Visiting input rest s' := by
  refine h.same hholds (h.answers.overlaid.set hnew hsettled) ?_
  intro other hother hpending
  have hid : other.id ≠ step.id := by
    intro hid
    rw [step_eq_of_id hother hmem hid] at hpending
    exact hstate hpending
  refine Same.push hactions (concerns_ne (Or.inl hdispatched) hended hid) hholds ?_ ?_
  · rw [hsettled, Table.get_set_ne _ _ hid]
  · rw [hsame]

/-- One turn of the settlement loop decides about no pending step. -/
theorem settleStep (h : Visiting input rest s) (hmem : step ∈ input.steps) :
    Visiting input rest (settleStep env input s step) := by
  rcases settleStep_cases env input s step with
    hstep | ⟨hunanswered, output, hstep⟩ | ⟨s', hrunning, hsettle⟩
  · rw [hstep]
    exact h
  · rw [hstep]
    have hstate : step.state ≠ .pending := by
      rw [hunanswered.1]
      nofun
    exact h.record hstate hmem rfl (Or.inr rfl)
      (by nofun) rfl rfl rfl rfl
  · have hs' : Visiting input rest s' ∧ step.state ≠ .pending := by
      rcases hrunning with ⟨hstate, rfl⟩ | ⟨hstate, rfl⟩
      · rw [hstate]
        exact ⟨h, by nofun⟩
      · have hstate' : step.state ≠ .pending := by
          rw [hstate]
          nofun
        exact ⟨h.record hstate' hmem rfl (Or.inl rfl) (by nofun) rfl rfl rfl rfl, hstate'⟩
    rcases hsettle with hstep | ⟨sessionId, reason, hstep⟩ | ⟨state, output, hstep, hchecked⟩
    · rw [hstep]
      exact hs'.1
    · rw [hstep]
      exact hs'.1.stop sessionId reason
    · rw [hstep]
      exact hs'.1.record hs'.2 hmem rfl (Or.inr rfl) hchecked.ne_pending rfl rfl rfl rfl

/-- A skipped step is answered for, and the dispatch loop will pass it by. -/
theorem skip (h : Visiting input rest s) (hmem : step ∈ rest)
    (hpending : s.effectiveState step = .pending) (reason : Text) :
    Visiting input rest (s.skip step reason) := by
  have hstep := h.steps step hmem
  have hends : Ends step.id (.skipStep step.id reason) := Or.inr ⟨reason, rfl⟩
  have hended : Ended s (s.skip step reason) step (.skipStep step.id reason) .skipped :=
    ⟨rfl, rfl, rfl, rfl, by nofun⟩
  refine ⟨h.answers.ended hstep (h.opened hmem hpending) hends hended (fun _ hother _ => hother),
    h.steps, h.nodup, ?_⟩
  intro other hother hwaiting
  by_cases hid : other.id = step.id
  · rw [step_eq_of_id (h.steps other hother) hstep hid]
    exact Or.inr hended.seen
  · have hcopy := hended.same hends hid
    rcases h.fresh other hother hwaiting with hopen | hseen
    · exact Or.inl (hcopy.opened hopen)
    · rw [← hcopy.effectiveState] at hseen
      exact Or.inr hseen

/-- The visited step is answered for, and nothing was decided about the others. -/
theorem visited (h : Visiting input (step :: rest) s) (hanswers : Answers input rest s')
    (hsame : ∀ stepId, stepId ≠ step.id → Same s s' stepId) : Visiting input rest s' := by
  have hnodup := h.nodup
  rw [List.map_cons, List.nodup_cons] at hnodup
  refine ⟨hanswers, fun other hother => h.steps other (List.mem_cons_of_mem _ hother),
    hnodup.2, ?_⟩
  intro other hother hpending
  have hid : other.id ≠ step.id := by
    intro hid
    exact hnodup.1 (hid ▸ List.mem_map_of_mem hother)
  rcases h.fresh other (List.mem_cons_of_mem _ hother) hpending with hopen | hseen
  · exact Or.inl ((hsame other.id hid).opened hopen)
  · rw [← (hsame other.id hid).effectiveState] at hseen
    exact Or.inr hseen

end Visiting

/-- A pass that has decided nothing has every pending step to answer for. -/
theorem emptyPass_visiting (hholds : input.holds = some .empty) {rest : List RunStep}
    (hrest : rest.Sublist input.steps)
    (hpending : ∀ step ∈ input.steps, step.state = .pending → step ∈ rest) :
    Visiting input rest (emptyPass input) := by
  have hunheld : ∀ stepId, (emptyPass input).held stepId = none := by
    intro stepId
    unfold Pass.held emptyPass
    rw [hholds]
    rfl
  have hopen : ∀ step : RunStep, step.state = .pending → Open (emptyPass input) step := by
    intro step hstate
    exact ⟨rfl, hunheld step.id, hstate, by nofun⟩
  refine ⟨⟨?_, by nofun, ?_, ?_⟩, fun _ h => hrest.subset h,
    input.steps_nodup.sublist (hrest.map _), fun step _ hstate => Or.inl (hopen step hstate)⟩
  · unfold emptyPass
    rw [hholds]
    rfl
  · intro step hstep hstate
    exact Or.inl ⟨hpending step hstep hstate, hopen step hstate⟩
  · intro stepId hheld
    exact absurd (hunheld stepId) hheld

theorem settledPass_visiting (env : Environment) (hholds : input.holds = some .empty) :
    Visiting input input.steps (settledPass env input) := by
  refine List.foldlRecOn _ _ (motive := Visiting input input.steps)
    (emptyPass_visiting hholds (List.Sublist.refl _) fun _ hstep _ => hstep) ?_
  intro s hs step hstep
  exact hs.settleStep hstep

theorem skippedPass_visiting (env : Environment) (hholds : input.holds = some .empty) :
    Visiting input input.steps (skippedPass env input) := by
  refine List.foldlRecOn _ _ (motive := Visiting input input.steps)
    (settledPass_visiting env hholds) ?_
  intro s hs step hstep
  rcases skipStep_cases _ s step with hskip | ⟨hpending, _, _, _, reason, hskip⟩
  · rw [hskip]
    exact hs
  · rw [hskip]
    exact hs.skip hstep hpending reason

/-! ### The dispatch loop -/

theorem mem_tail {step other : RunStep} {rest : List RunStep} (hother : other ∈ step :: rest)
    (hid : other.id ≠ step.id) : other ∈ rest :=
  List.mem_of_ne_of_mem (fun heq => hid (heq ▸ rfl)) hother

/-- The dispatch of the visited step answers for it. -/
theorem Visiting.dispatch (action : ScheduleAction) {rest : List RunStep} {s s' : Pass}
    {step : RunStep} (h : Visiting input (step :: rest) s)
    (hpending : s.effectiveState step = .pending) (hdispatched : action.dispatched = some step.id)
    (hactions : s'.actions = s.actions ++ [action]) (hholds : s'.holds = s.holds)
    (hoverlaid : Overlaid s')
    (hsettled : ∀ stepId, stepId ≠ step.id → s'.settled.get stepId = s.settled.get stepId)
    (hmarked : s'.dispatched = s.dispatched ++ [step.id]) : Visiting input rest s' := by
  have hended : ended action = none := by
    cases action <;> first | rfl | cases hdispatched
  have hsame : ∀ stepId, stepId ≠ step.id → Same s s' stepId := by
    intro stepId hid
    refine Same.push hactions (concerns_ne (Or.inr hdispatched) (Or.inl hended) hid) hholds
      (hsettled stepId hid) ?_
    rw [hmarked, List.mem_append, List.mem_singleton]
    exact or_iff_left hid
  have hfirst := (h.opened List.mem_cons_self hpending).first hactions
    (concerns_self (Or.inl hdispatched)) hholds
  refine h.visited (h.answers.answer (h.steps step List.mem_cons_self)
    (h.answers.overlaid.pending hpending).2 (hholds ▸ h.answers.mapped) hoverlaid hsame
    (Or.inl ⟨action, hfirst.1, hdispatched, hfirst.2⟩) ?_ ?_) hsame
  · refine Or.inr (Or.inl ?_)
    rw [hmarked]
    exact List.mem_append_right _ (List.mem_singleton_self _)
  · intro other hother hid
    exact mem_tail hother hid

/-- One turn of the dispatch loop answers for its step. -/
theorem visiting_keeps (env : Environment) (input : ScheduleInput) :
    DispatchKeeps env input (planBoard env input) (Visiting input) where
  passed := by
    intro step rest s h hseen
    refine h.visited ⟨h.answers.mapped, h.answers.overlaid, ?_, h.answers.held⟩
      (fun _ _ => ⟨rfl, rfl, rfl, Iff.rfl⟩)
    intro other hother hpending
    rcases h.answers.waiting other hother hpending with ⟨hmem, hopen⟩ | hanswered
    · refine Or.inl ⟨List.mem_of_ne_of_mem ?_ hmem, hopen⟩
      rintro rfl
      exact hseen hopen.pending
    · exact Or.inr hanswered
  held := by
    intro step rest s value h hpending
    refine h.visited (h.answers.hold (h.steps step List.mem_cons_self)
      (h.opened List.mem_cons_self hpending) value ?_) (fun _ hid => Same.hold hid)
    intro other hother hid
    exact mem_tail hother hid
  parked := fun _ _ sessionId h => h.stop sessionId parkReason
  failed := by
    intro step rest s output h hpending _
    have hends : Ends step.id (.settleStep step.id .failed output) := Or.inl ⟨output, rfl⟩
    have hended : Ended s (s.settle step .failed output) step (.settleStep step.id .failed output)
        .failed := ⟨rfl, rfl, rfl, rfl, by nofun⟩
    refine h.visited (h.answers.ended (h.steps step List.mem_cons_self)
      (h.opened List.mem_cons_self hpending) hends hended ?_) (fun _ hid => hended.same hends hid)
    intro other hother hid
    exact mem_tail hother hid
  prompted := fun step _ _ sessionId _ h hpending _ _ =>
    Visiting.dispatch (.promptStep step.id sessionId step.prompt) h hpending rfl rfl rfl
      h.answers.overlaid (fun _ _ => rfl) rfl
  resumed := fun step _ _ sessionId _ _ _ exceptionId h hpending _ _ =>
    Visiting.dispatch (.resumeStep step.id sessionId exceptionId) h hpending rfl rfl rfl
      h.answers.overlaid (fun _ _ => rfl) rfl
  started := fun step _ _ placement h hpending _ _ =>
    Visiting.dispatch (.startStep step.id placement.id step.prompt) h hpending rfl rfl rfl
      (h.answers.overlaid.set (by nofun) rfl) (fun _ hid => Table.get_set_ne _ _ hid) rfl

/-- The budget cut a step off when nothing was decided about it. -/
theorem holdCutOff_cases (input : ScheduleInput) (b : Board) (s : Pass) (step : RunStep) :
    (Closed s step ∧ holdCutOff input b s step = s) ∨
      (¬Closed s step ∧ holdCutOff input b s step = s.hold step (budgetHold input b s)) := by
  have hunheld : (s.holds.all fun holds => (holds.get step.id).isNone) = true ↔
      s.held step.id = none := by
    unfold Pass.held
    cases s.holds with
    | none => exact iff_of_true rfl rfl
    | some holds => exact Option.isNone_iff_eq_none
  unfold holdCutOff Closed
  split
  · rename_i hcondition
    rw [Bool.and_eq_true, Bool.and_eq_true, decide_eq_true_eq, Bool.not_eq_true',
      ← Bool.not_eq_true, List.contains_iff_mem, hunheld] at hcondition
    refine Or.inr ⟨?_, rfl⟩
    rintro (hseen | hdispatched | hheld)
    · exact hseen hcondition.1.1
    · exact hcondition.1.2 hdispatched
    · exact hheld hcondition.2
  · rename_i hcondition
    refine Or.inl ⟨?_, rfl⟩
    rw [Bool.and_eq_true, Bool.and_eq_true, decide_eq_true_eq, Bool.not_eq_true',
      ← Bool.not_eq_true, List.contains_iff_mem, hunheld] at hcondition
    by_contra hunclosed
    rw [not_or, not_or, not_not, not_not] at hunclosed
    exact hcondition ⟨⟨hunclosed.1, hunclosed.2.1⟩, hunclosed.2.2⟩

/-- What the budget cut off is held, so every step has been answered for. -/
theorem explainedPass_answers (env : Environment) (hholds : input.holds = some .empty) :
    Answers input [] (explainedPass env input) := by
  have hready : Visiting input input.steps (readyPass env input) :=
    (skippedPass_visiting env hholds).same rfl (skippedPass_overlaid env input)
      fun _ _ _ => ⟨rfl, rfl, rfl, Iff.rfl⟩
  rcases (visiting_keeps env input).loop input.steps (readyPass env input) hready with
    ⟨rest, hvisiting, hwhole⟩
  unfold explainedPass
  simp only []
  split
  · -- Whatever the loop left open is among the steps, and those are gone over again.
    have hcut : Answers input input.steps (dispatchedPass env input).1 :=
      ⟨hvisiting.answers.mapped, hvisiting.answers.overlaid, fun step hstep hpending =>
        (hvisiting.answers.waiting step hstep hpending).imp_left fun h => ⟨hstep, h.2⟩,
        hvisiting.answers.held⟩
    refine (Run.foldl_visits (f := holdCutOff input (planBoard env input))
      (fun rest s => Answers input rest s ∧ ∀ step ∈ rest, step ∈ input.steps) ?_ input.steps _
      ⟨hcut, fun _ h => h⟩).1
    rintro step rest s ⟨hs, hsub⟩
    refine ⟨?_, fun other hother => hsub other (List.mem_cons_of_mem _ hother)⟩
    have hstep := hsub step List.mem_cons_self
    rcases holdCutOff_cases input (planBoard env input) s step with
      ⟨hclosed, hcut⟩ | ⟨hunclosed, hcut⟩
    · rw [hcut]
      refine ⟨hs.mapped, hs.overlaid, ?_, hs.held⟩
      intro other hother hpending
      rcases hs.waiting other hother hpending with ⟨hmem, hopen⟩ | hanswered
      · refine Or.inl ⟨List.mem_of_ne_of_mem ?_ hmem, hopen⟩
        rintro rfl
        exact hopen.unclosed hclosed
      · exact Or.inr hanswered
    · rw [hcut]
      have hpending : s.effectiveState step = .pending := by
        by_contra hseen
        exact hunclosed (Or.inl hseen)
      rcases hs.waiting step hstep (hs.overlaid.pending hpending).2 with ⟨_, hopen⟩ | ⟨_, hclosed⟩
      · exact hs.hold hstep hopen _ fun other hother hid => mem_tail hother hid
      · exact absurd hclosed hunclosed
  · rename_i hleft
    rw [hwhole (Bool.eq_false_iff.mpr hleft)] at hvisiting
    exact hvisiting.answers

/-! ### Whole passes -/

/-- An action about the run as a whole decides about no step. -/
theorem conclude_answers {s : Pass} (h : Answers input [] s) : Answers input [] (conclude input s) := by
  rcases conclude_cases input s with hnone | ⟨action, haction, hpush⟩
  · rw [hnone]
    exact h
  · rw [hpush]
    refine h.same rfl h.overlaid fun step _ _ => Same.push rfl ?_ rfl rfl Iff.rfl
    rcases haction with ⟨prompt, rfl⟩ | ⟨prompt, rfl⟩ | ⟨⟨state, reason, rfl⟩, _⟩
    · rfl
    · rfl
    · rfl

/-- A run that is not planned for has every pending step held for one reason. -/
theorem holdEveryPending_answers (env : Environment) (hholds : input.holds = some .empty)
    (value : StepHold) : Answers input [] (holdEveryPending input value) := by
  have hpending : ∀ step ∈ input.steps.filter (fun step => step.state = .pending),
      step.state = .pending := by
    intro step hstep
    simpa using (List.mem_filter.mp hstep).2
  have hempty : Visiting input (input.steps.filter fun step => step.state = .pending)
      (emptyPass input) := by
    refine emptyPass_visiting hholds List.filter_sublist ?_
    intro step hstep hstate
    exact List.mem_filter.mpr ⟨hstep, decide_eq_true hstate⟩
  -- Nothing is settled on the way, so each of them is pending when it is visited.
  have hloop := Run.foldl_visits (f := fun s step => s.hold step value)
    (fun rest s => Visiting input rest s ∧ s.settled = Table.empty ∧
      ∀ step ∈ rest, step.state = .pending)
    (by
      rintro step rest s ⟨hvisiting, hsettled, hstates⟩
      refine ⟨(visiting_keeps env input).held step rest s value hvisiting ?_, hsettled,
        fun other hother => hstates other (List.mem_cons_of_mem _ hother)⟩
      unfold Pass.effectiveState
      rw [hsettled]
      exact hstates step List.mem_cons_self)
    _ (emptyPass input) ⟨hempty, rfl, hpending⟩
  exact hloop.1.answers

theorem planNextActions_answers (env : Environment) (hholds : input.holds = some .empty)
    (hgoing : input.run.state.terminal = false) : Answers input [] (planNextActions env input) := by
  unfold planNextActions
  split
  · rename_i hidle
    unfold idleReason at hidle
    rw [hgoing, if_neg Bool.false_ne_true] at hidle
    split at hidle
    · cases hidle
    split at hidle
    · cases hidle
    split at hidle
    · cases hidle
    · cases hidle
  · exact holdEveryPending_answers env hholds _
  · exact conclude_answers (explainedPass_answers env hholds)

/-- Every waiting step of a run that is still going is explained. -/
theorem waiting_explained (env : Environment) (input : ScheduleInput)
    (hholds : input.holds = some .empty) (hgoing : input.run.state.terminal = false) :
    (∀ step ∈ input.steps, step.state = .pending →
        Explained (planNextActions env input) step.id) ∧
      (∀ stepId, ∀ action ∈ (planNextActions env input).actions,
        action.dispatched = some stepId → (planNextActions env input).held stepId = none) ∧
      ∀ stepId, (planNextActions env input).held stepId ≠ none →
        ∃ step ∈ input.steps, step.id = stepId ∧ step.state = .pending := by
  have hanswers := planNextActions_answers env hholds hgoing
  have hexplained : ∀ step ∈ input.steps, step.state = .pending →
      Explained (planNextActions env input) step.id := by
    intro step hstep hpending
    rcases hanswers.waiting step hstep hpending with ⟨hmem, _⟩ | ⟨h, _⟩
    · cases hmem
    · exact h
  refine ⟨hexplained, ?_, hanswers.held⟩
  intro stepId action haction hdispatched
  by_contra hheld
  rcases hanswers.held stepId hheld with ⟨step, hstep, rfl, hpending⟩
  rcases hexplained step hstep hpending with ⟨_, _, _, hnone⟩ | ⟨_, _, _, hnone⟩ | ⟨hempty, _⟩
  · exact hheld hnone
  · exact hheld hnone
  · have hmem : action ∈ concerning step.id (planNextActions env input).actions :=
      List.mem_filter.mpr ⟨haction, concerns_self (Or.inl hdispatched)⟩
    rw [hempty] at hmem
    cases hmem

namespace Sample

/-- Two steps that wait to write, and one checkout free of sessions for them. -/
def waiting : ScheduleInput :=
  { snapshot .stopped (step "one" .pending) (step "two" .pending) (by decide +kernel)
      (by decide +kernel) with
    sessions := []
    sessions_nodup := List.nodup_nil
    placements := [first]
    placements_nodup := List.nodup_singleton _
    holds := some .empty }

/-- The same run after it was cancelled. -/
def cancelled : ScheduleInput := { waiting with run := { run with state := .cancelled } }

/-- The same run, with what an earlier pass said of the first step. -/
def stale : ScheduleInput :=
  { waiting with
    holds := some (Table.empty.set (ofString "one")
      { code := .checkoutBusy, detail := ofString "busy" }) }

end Sample

/-- One of two writers is started in the only checkout and the other is held. -/
theorem waiting_explained_waiting :
    Explained (planNextActions Sample.environment Sample.waiting) (ofString "one") ∧
      Explained (planNextActions Sample.environment Sample.waiting) (ofString "two") :=
  ⟨(waiting_explained Sample.environment Sample.waiting rfl rfl).1 (Sample.step "one" .pending)
      List.mem_cons_self rfl,
    (waiting_explained Sample.environment Sample.waiting rfl rfl).1 (Sample.step "two" .pending)
      (List.mem_cons_of_mem _ List.mem_cons_self) rfl⟩

/-- In a run that is over nothing is said of a waiting step, and an entry that
    was in the map stays beside the action that starts the step. -/
theorem waiting_unexplained :
    ¬Explained (planNextActions Sample.environment Sample.cancelled) (ofString "one") ∧
      ¬Explained (planNextActions Sample.environment Sample.stale) (ofString "one") := by
  constructor
  · have hunheld : (planNextActions Sample.environment Sample.cancelled).held (ofString "one") = none := by
      decide +kernel
    have hempty : concerning (ofString "one")
        (planNextActions Sample.environment Sample.cancelled).actions = [] := by
      decide +kernel
    rintro (⟨_, hone, _⟩ | ⟨_, hone, _⟩ | ⟨_, value, hheld⟩)
    · rw [hempty] at hone
      cases hone
    · rw [hempty] at hone
      cases hone
    · rw [hunheld] at hheld
      cases hheld
  · have hheld : (planNextActions Sample.environment Sample.stale).held (ofString "one") ≠ none := by
      decide +kernel
    have hstarted : concerning (ofString "one")
        (planNextActions Sample.environment Sample.stale).actions ≠ [] := by
      decide +kernel
    rintro (⟨_, _, _, hnone⟩ | ⟨_, _, _, hnone⟩ | ⟨hempty, _⟩)
    · exact hheld hnone
    · exact hheld hnone
    · exact hstarted hempty

end Orchestrator

end CopilotFleet
