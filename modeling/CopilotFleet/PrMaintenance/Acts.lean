import CopilotFleet.PrMaintenance.Operations
import CopilotFleet.PrMaintenance.Settlements
import Mathlib.Logic.Relation

/-!
# What an Operation Does to a Registration

Nineteen operations change a registration, and most of them by the same few
acts: a hold is set or cleared, a batch is prepared, accepted or settled, an
effect is recorded, an observation is taken in. What is left over is
bookkeeping that nothing else goes by. Every operation is taken apart into such
acts here, once (`run_becomes`), so that a fact about every registration in every
run is proved act by act.

Who may clear a hold is part of the act. A person's Resume clears any; a
direction and a repair authorization clear a pause; the lead clears its own
pause; and a handback clears a takeover.

## Main definitions

* `Cause`: Which operation an act belongs to, where that decides what it may do.
* `Kept`: Bookkeeping.
* `Act`: One thing that happens to a registration.
* `Acts`: Several, one after the other.
* `Becomes`: What becomes of the registration of an id.

## Theorems

* `save_kept`: Saving is bookkeeping.
* `denied_of_admission`: What is allowed is denied by no registration it concerns.
* `run_becomes`: What an operation does to each registration is a sequence of acts.
-/

namespace CopilotFleet

open Utf16 Refusal Timestamps

namespace PrMaintenance

/-- Which operation an act belongs to. -/
inductive Cause where
  | resume
  | direction
  | authorization
  | observation (observation : Observation)
  | other
deriving DecidableEq

def OperatorAction.cause : OperatorAction → Cause
  | .resume => .resume
  | .direction .. => .direction
  | _ => .other

def LeadAction.cause : LeadAction → Cause
  | .direction .. => .direction
  | _ => .other

def Checkpoint.cause : Checkpoint → Cause
  | .observation seen => .observation seen
  | .fallback _ seen _ => .observation seen
  | _ => .other

/-- What an operation is to the registration of an id. -/
def Operation.cause (operation : Operation) (id : Text) : Cause :=
  match operation with
  | .operatorAction recordId _ action _ => if id = recordId then action.cause else .other
  | .set _ recordId _ action => if id = recordId then action.cause else .other
  | .authorizeProposal proposal .. =>
      if proposal.reauthorization.any fun reauthorization => reauthorization.recordId = id then
        .authorization
      else .other
  | .checkpoint _ recordId _ report _ => if id = recordId then report.cause else .other
  | .checkpointObservationReceipt _ recordId _ receipt =>
      if id = recordId then .observation receipt.observation else .other
  | _ => .other

/-- Nothing but bookkeeping is changed. -/
structure Kept (record next : Registration) : Prop where
  id : next.id = record.id
  generation : next.generation = record.generation
  authorization : next.authorization = record.authorization
  lifecycle : next.lifecycle = record.lifecycle
  hold : next.hold = record.hold
  ready : next.readyFingerprint = record.readyFingerprint
  decision : next.decision = record.decision
  workRequests : next.workRequests = record.workRequests
  incidents : next.incidents.map (·.resolvedAt) = record.incidents.map (·.resolvedAt)
  lastAttempt : next.lastAttempt = record.lastAttempt
  observation : next.observation = record.observation
  findings : next.findings = record.findings
  batches : next.batches = record.batches
  actions : next.actions = record.actions
  repairs : next.counters.repairBatches = record.counters.repairBatches
  answers : next.counters.answerBatches = record.counters.answerBatches
  mutations : next.counters.mutationAttempts = record.counters.mutationAttempts
  released : record.released = true → next.released = true

theorem Kept.refl (record : Registration) : Kept record record := by
  constructor <;> first | rfl | exact fun h => h

theorem Kept.trans {a b c : Registration} (hab : Kept a b) (hbc : Kept b c) : Kept a c where
  id := hbc.id.trans hab.id
  generation := hbc.generation.trans hab.generation
  authorization := hbc.authorization.trans hab.authorization
  lifecycle := hbc.lifecycle.trans hab.lifecycle
  hold := hbc.hold.trans hab.hold
  ready := hbc.ready.trans hab.ready
  decision := hbc.decision.trans hab.decision
  workRequests := hbc.workRequests.trans hab.workRequests
  incidents := hbc.incidents.trans hab.incidents
  lastAttempt := hbc.lastAttempt.trans hab.lastAttempt
  observation := hbc.observation.trans hab.observation
  findings := hbc.findings.trans hab.findings
  batches := hbc.batches.trans hab.batches
  actions := hbc.actions.trans hab.actions
  repairs := hbc.repairs.trans hab.repairs
  answers := hbc.answers.trans hab.answers
  mutations := hbc.mutations.trans hab.mutations
  released h := hbc.released (hab.released h)

variable {w : World} {record next changed : Registration}

theorem requestReview_kept (source : ReviewSource) («at» : Time) (actorId : Option Text)
    (record : Registration) : Kept record (requestReview w source «at» actorId record) := by
  unfold requestReview
  split
  · exact .refl record
  · constructor <;> first | rfl | exact fun h => h

theorem concludeReview_kept (outcome : ReviewOutcome) («at» : Time) (summary : Option Text)
    (record : Registration) : Kept record (concludeReview outcome «at» summary record) := by
  unfold concludeReview
  split
  · exact .refl record
  · split
    · constructor <;> first | rfl | exact fun h => h
    · exact .refl record

theorem archiveManualCommands_kept (h : archiveManualCommands w record = .ok next) :
    Kept record next := by
  unfold archiveManualCommands at h
  split at h
  · cases h
    exact .refl record
  · rcases bind_ok h with ⟨commands, _, h⟩
    cases h
    constructor <;> first | rfl | exact fun h => h

theorem write_kept (h : write w record = .ok next) : Kept record next := by
  unfold write at h
  rcases unless_ok h with ⟨_, h⟩
  rcases bind_ok h with ⟨archived, harchived, h⟩
  rcases unless_ok h with ⟨_, h⟩
  rcases unless_ok h with ⟨_, h⟩
  rcases unless_ok h with ⟨_, h⟩
  cases h
  refine Kept.trans ?_ (archiveManualCommands_kept harchived)
  constructor <;> first | rfl | exact fun h => h

theorem save_kept (h : save w record = .ok next) : Kept record next := by
  refine Kept.trans ?_ (write_kept h)
  constructor <;> first | rfl | exact fun h => h

/-- Fields of an incident that nothing goes by. -/
theorem setIncident_kept {incidentId : Text} {f : Incident → Incident}
    (hf : ∀ entry, (f entry).resolvedAt = entry.resolvedAt) (record : Registration) :
    Kept record (setIncident incidentId f record) := by
  constructor <;> first | rfl | exact fun h => h | skip
  exact First.map_setFirst (fun entry _ => hf entry) record.incidents

/-- Who may set a hold over what. -/
inductive Holds (record : Registration) : Cause → HoldKind → Actor → Prop where
  | stopped (cause : Cause) (actor : Actor) : Holds record cause .stopped actor
  | operator : Holds record .other .paused .operator
  | lead (cause : Cause) (h : ∀ hold, record.hold = some hold → hold.leadPause = true) :
      Holds record cause .paused .lead
  | manual (cause : Cause) (actor : Actor)
      (h : ∀ hold, record.hold = some hold → hold.kind = .manualControl) :
      Holds record cause .manualControl actor

/-- Who may clear a hold. -/
inductive Clears : Cause → Hold → Prop where
  | resume (hold : Hold) : Clears .resume hold
  | direction {hold : Hold} (h : hold.kind = .paused) : Clears .direction hold
  | authorization {hold : Hold} (h : hold.kind = .paused) : Clears .authorization hold
  | lead (cause : Cause) {hold : Hold} (h : hold.leadPause = true) : Clears cause hold
  | handback (cause : Cause) {hold : Hold} (h : hold.kind = .manualControl) : Clears cause hold

/-- A pending decision is answered. -/
def answerDecision (f : Decision → Decision) (record : Registration) : Registration :=
  { record with
    decision := record.decision.map f
    counters := { record.counters with dispatchesSinceDirection := 0 }
    findingAttempts := [] }

/-- What was asked for is withdrawn. -/
def withdraw (f : Decision → Decision) (reason : Text) («at» : Time) (record : Registration) :
    Registration :=
  { record with
    decision := record.decision.map f
    workRequests := record.workRequests.map (cancelRequest reason «at») }

/-- A batch is bound to a step. -/
def bindBatch (batchId stepId : Text) (attempt : Nat) (record : Registration) : Registration :=
  { record with
    batches := First.setFirst (fun entry => entry.id = batchId)
      (fun entry => { entry with
        state := .accepted
        stepId := some stepId
        attempt := some attempt }) record.batches }

/-- One thing that happens to a registration. -/
inductive Act (w : World) (cause : Cause) (record : Registration) : Registration → Prop where
  | keep {next : Registration} (h : Kept record next) : Act w cause record next
  | hold {kind : HoldKind} {origin : Origin} (reason : Text) («at» : Time)
      (h : Holds record cause kind origin.actor) :
      Act w cause record (setHold kind reason «at» origin record)
  | clear {hold : Hold} (actorId : Text) («at» : Time) (hhold : record.hold = some hold)
      (h : Clears cause hold) : Act w cause record (clearHold w actorId «at» record)
  /-- The pull request is not the one it was. -/
  | lose {observation : Observation} {error : Text} {found : Registration} (reason : Text)
      (h : incident w observation error .identity record = .ok found) :
      Act w cause record (setHold .identity reason w.now host found)
  | observe {observation : Observation} {error : Text} {alternate : Bool} {seen latest : Timestamp}
      {next : Registration}
      (hresolved : alternate = true → record.incidents.any Incident.unresolved = true)
      (hcause : alternate = false → cause = .observation observation)
      (h : observe w observation error alternate seen latest record = .ok next) :
      Act w cause record next
  /-- Evidence that comes too late is only the latest attempt. -/
  | late (observation : Observation) (seen latest : Timestamp) :
      Act w cause record
        { attempted observation seen latest record with readyFingerprint := none }
  | prepare {prepared : PreparedBatch} {workOrder : Option Text} {next : Registration}
      (h : prepareBatch w prepared workOrder record = .ok (some next)) : Act w cause record next
  | accept {batch : Batch} {batchId : Text} (stepId : Text) (attempt : Nat)
      (hbatch : record.batch batchId = some batch) (hstep : batch.stepId = none)
      (hstate : batch.state = .prepared) :
      Act w cause record (bindBatch batchId stepId attempt record)
  | settle {update : Settlement} {next : Registration}
      (h : settleBatch w false update record = .ok next) : Act w cause record next
  | effect {effect : Effect} {next : Registration}
      (h : PrMaintenance.effect w effect record = .ok next) : Act w cause record next
  | raise {decision : Decision} {next : Registration} (hpending : record.decisionPending = false)
      (h : raiseDecision w decision record = .ok next) : Act w cause record next
  | answer (f : Decision → Decision) (hf : ∀ decision, (f decision).state = .directed) :
      Act w cause record (answerDecision f record)
  | ready {fingerprint : Text} (h : readyFor w record fingerprint = true) :
      Act w cause record { record with readyFingerprint := some fingerprint }
  | ask (requests : List WorkRequest) :
      Act w cause record { record with workRequests := requests, readyFingerprint := none }
  | withdraw (f : Decision → Decision) (reason : Text) («at» : Time)
      (hf : ∀ decision, (f decision).state ≠ .pending) :
      Act w cause record (withdraw f reason «at» record)
  | takeOver : Act w cause record (takeOverBatches w record)
  | authorize (authorization : Authorization) (history : List Authorization) (evidence : Text)
      (hscope : record.authorization.scope.publicationAuthorized = false)
      (hsettled : unsettled record = false) :
      Act w cause record { record with
        authorization
        authorizationHistory := history
        eligibilityEvidence := evidence
        readyFingerprint := none }
  /-- A lead's pause is its successor's. -/
  | rename (f : Hold → Hold) (hkind : ∀ hold, (f hold).kind = hold.kind)
      (hactor : ∀ hold, (f hold).actor = hold.actor) :
      Act w cause record { record with hold := record.hold.map f }

/-- Several things, one after the other. -/
abbrev Acts (w : World) (cause : Cause) : Registration → Registration → Prop :=
  Relation.ReflTransGen (Act w cause)

variable {cause : Cause}

theorem Acts.one (h : Act w cause record next) : Acts w cause record next :=
  Relation.ReflTransGen.single h

theorem Acts.keep (h : Acts w cause record changed) (hkept : Kept changed next) :
    Acts w cause record next := h.tail (.keep hkept)

/-- What is saved is what was changed. -/
theorem acts_of_save {changed : Registration} {result : Option Registration}
    (h : some <$> save w changed = .ok result) (hacts : Acts w cause record changed) :
    ∀ next, result = some next → Acts w cause record next := by
  rcases map_ok h with ⟨saved, hsaved, rfl⟩
  intro next hnext
  cases hnext
  exact hacts.keep (save_kept hsaved)

/-! ### One operation after the other -/

theorem stop_acts {reason : Text} {result : Option Registration}
    (h : stop w reason record = .ok result) : ∀ next, result = some next → Acts w cause record next := by
  unfold stop at h
  split at h
  · cases h
    exact fun _ hnext => (nomatch hnext)
  · exact acts_of_save h (.one (.hold _ _ (.stopped cause _)))

theorem clearHold_acts {actorId : Text} {«at» : Time}
    (h : ∀ hold, record.hold = some hold → Clears cause hold) :
    Acts w cause record (clearHold w actorId «at» record) := by
  cases hhold : record.hold with
  | none =>
      have heq : clearHold w actorId «at» record = record := by
        unfold clearHold
        rw [hhold]
      rw [heq]
  | some hold => exact .one (.clear actorId «at» hhold (h hold hhold))

/-- A pause is cleared where there is one. -/
theorem clearPaused_acts {actorId : Text} {«at» : Time}
    (h : ∀ {hold : Hold}, hold.kind = .paused → Clears cause hold) :
    Acts w cause record
      (if record.hold.any fun hold => hold.kind = .paused then clearHold w actorId «at» record
      else record) := by
  split
  · rename_i hpaused
    refine clearHold_acts fun hold hhold => h ?_
    rw [hhold] at hpaused
    simpa using hpaused
  · exact .refl

theorem applyDirection_acts {decisionId direction actorId : Text} {version : Nat}
    (h : applyDirection w decisionId version direction actorId record = .ok next) :
    Acts w .direction record next := by
  unfold applyDirection at h
  rcases bind_ok h with ⟨_, _, h⟩
  rcases unless_ok h with ⟨_, h⟩
  cases h
  have hanswer : Acts w .direction record (answerDecision (fun decision => { decision with
      state := .directed
      operatorId := some actorId
      direction := some direction
      resolvedAt := some w.now }) record) := .one (.answer _ fun _ => rfl)
  exact Acts.keep (hanswer.trans (clearPaused_acts .direction)) (requestReview_kept _ _ _ _)

theorem concludeReview_withdrawn (f : Decision → Decision) (outcome : ReviewOutcome)
    (reason : Text) («at» : Time) (operatorId : Text) (record : Registration) :
    Kept (withdraw f reason «at» record)
      { concludeReview outcome «at» (some reason) { record with decision := record.decision.map f }
        with
        workRequests := (concludeReview outcome «at» (some reason)
          { record with decision := record.decision.map f }).workRequests.map
            (cancelRequest reason «at»)
        ownershipReleasedAt := some «at»
        retentionReleasedBy := some operatorId } := by
  unfold concludeReview
  cases hreview : record.review with
  | none => constructor <;> first | rfl | exact fun _ => rfl
  | some review =>
      by_cases hopen : review.opened = true
      · simp only [hopen, if_true]
        constructor <;> first | rfl | exact fun _ => rfl
      · simp only [hopen]
        constructor <;> first | rfl | exact fun _ => rfl

theorem release_acts {reason operatorId : Text} {decisionId : Option Text}
    {decisionVersion : Option Nat}
    (h : release w reason operatorId decisionId decisionVersion record = .ok next) :
    Acts w cause record next := by
  unfold release at h
  rcases unless_ok h with ⟨_, h⟩
  rcases when_ok h with ⟨_, h⟩
  cases h
  refine Acts.keep (.one (.withdraw (fun decision =>
      if decision.state = .pending then
        { decision with
          state := .withdrawn
          operatorId := some operatorId
          direction := some reason
          resolvedAt := some w.now }
      else decision) reason w.now ?_)) (concludeReview_withdrawn _ .held reason w.now operatorId record)
  intro decision
  by_cases hpending : decision.state = .pending
  · rw [if_pos hpending]
    exact nofun
  · rw [if_neg hpending]
    exact hpending

theorem operatorChange_acts {action : OperatorAction} {operatorId : Text}
    (h : operatorChange w action operatorId record = .ok next) :
    Acts w action.cause record next := by
  cases action with
  | pause reason =>
      cases h
      exact .one (.hold _ _ .operator)
  | release reason decisionId decisionVersion => exact release_acts h
  | resume =>
      rcases bind_ok (show _ >>= _ = _ from h) with ⟨_, _, h⟩
      rcases unless_ok h with ⟨_, h⟩
      cases h
      exact (clearHold_acts fun hold _ => .resume hold).keep (requestReview_kept _ _ _ _)
  | direction decisionId decisionVersion direction => exact applyDirection_acts h
  | work requestId direction =>
      rcases bind_ok (show _ >>= _ = _ from h) with ⟨_, _, h⟩
      rcases unless_ok h with ⟨_, h⟩
      cases h
      refine Acts.keep (.one (.ask (record.workRequests ++ [{
        id := requestId
        operatorId
        direction
        createdAt := w.now
        state := .pending }]))) ?_
      unfold requestReview
      split <;> (constructor <;> first | rfl | exact fun h => h)
  | review requestId =>
      rcases bind_ok (show _ >>= _ = _ from h) with ⟨_, _, h⟩
      cases h
      refine Acts.keep (.one (.ask record.workRequests)) ?_
      by_cases hopen : record.reviewOpen = true
      · simp only [hopen, if_true]
        constructor <;> first | rfl | exact fun h => h
      · simp only [hopen]
        constructor <;> first | rfl | exact fun h => h

theorem operatorAction_acts {expectedVersion : Nat} {action : OperatorAction} {operatorId : Text}
    {result : Option Registration}
    (h : operatorAction w expectedVersion action operatorId record = .ok result) :
    ∀ next, result = some next → Acts w action.cause record next := by
  unfold operatorAction at h
  rcases bind_ok h with ⟨known, _, h⟩
  by_cases hknown : known = true
  · rw [if_pos hknown] at h
    cases h
    exact fun _ hnext => (nomatch hnext)
  · rw [if_neg hknown] at h
    rcases unless_ok h with ⟨_, h⟩
    rcases unless_ok h with ⟨_, h⟩
    rcases bind_ok h with ⟨changed, hchanged, h⟩
    exact acts_of_save h (operatorChange_acts hchanged)

theorem set_acts {leadSessionId : Text} {expectedVersion : Nat} {action : LeadAction}
    {result : Option Registration}
    (h : set w leadSessionId expectedVersion action record = .ok result) :
    ∀ next, result = some next → Acts w action.cause record next := by
  unfold set at h
  by_cases hreviewing : action.isReview = true ∧ record.reviewOpen = true
  · rw [if_pos hreviewing] at h
    cases h
    exact fun _ hnext => (nomatch hnext)
  · rw [if_neg hreviewing] at h
    rcases unless_ok h with ⟨_, h⟩
    rcases unless_ok h with ⟨_, h⟩
    cases action with
    | pause reason =>
        rcases unless_ok h with ⟨hlead, h⟩
        refine acts_of_save h (.one (.hold _ _ (.lead _ ?_)))
        intro hold hhold
        rw [hhold] at hlead
        simpa using hlead
    -- A Lead clears a hold of its own only, and the resume asks for a review.
    | resume =>
        dsimp only at h
        cases hhold : record.hold with
        | none =>
            rw [hhold] at h
            cases h
            exact fun _ hnext => (nomatch hnext)
        | some hold =>
            rw [hhold] at h
            rcases unless_ok h with ⟨hlead, h⟩
            rcases bind_ok h with ⟨_, _, h⟩
            refine acts_of_save h ((clearHold_acts fun found hfound => .lead _ ?_).keep
              (requestReview_kept _ _ _ _))
            rw [hhold] at hfound
            cases hfound
            simpa using hlead
    | review =>
        rcases bind_ok h with ⟨_, _, h⟩
        exact acts_of_save h (.one (.keep (requestReview_kept _ _ _ _)))
    | direction decisionId decisionVersion direction userTurn =>
        rcases unless_ok h with ⟨_, h⟩
        cases decisionId with
        | none => cases h
        | some decisionId =>
            cases decisionVersion with
            | none => cases h
            | some decisionVersion =>
                cases direction with
                | none => cases h
                | some direction =>
                    rcases bind_ok h with ⟨directed, hdirected, h⟩
                    exact acts_of_save h (applyDirection_acts hdirected)

theorem holdForDecision_acts {expectedVersion : Nat} {decision : Decision}
    {result : Option Registration}
    (h : holdForDecision w expectedVersion decision record = .ok result) :
    ∀ next, result = some next → Acts w cause record next := by
  unfold holdForDecision at h
  cases hprior : record.decision.filter fun prior => prior.state = .pending with
  | some prior =>
      rw [hprior] at h
      dsimp only at h
      split at h
      · cases h
        exact fun _ hnext => (nomatch hnext)
      · cases h
  | none =>
      rw [hprior] at h
      rcases unless_ok h with ⟨_, h⟩
      rcases unless_ok h with ⟨_, h⟩
      rcases bind_ok h with ⟨raised, hraised, h⟩
      refine acts_of_save h (.one (.raise ?_ hraised))
      unfold Registration.decisionPending
      cases hdecision : record.decision with
      | none => rfl
      | some decision =>
          rw [hdecision, Option.filter_eq_none_iff] at hprior
          simpa using hprior decision rfl

/-! ### What the lead reports -/

theorem setAttempt_kept (incidentId resolutionId : Text) (f : Attempt → Attempt)
    (record : Registration) : Kept record (setAttempt incidentId resolutionId f record) :=
  setIncident_kept (by intro entry; rfl) record

theorem releaseTerminal_kept (record : Registration) :
    Kept record (releaseTerminal w record) := by
  unfold releaseTerminal
  split
  · constructor <;> first | rfl | skip
    intro hreleased
    unfold Registration.released at hreleased ⊢
    cases hat : record.ownershipReleasedAt with
    | none =>
        rw [hat] at hreleased
        cases hreleased
    | some «at» => rfl
  · exact .refl record

theorem reserveAlternate_kept {attempt : AlternateAttempt} {wakeId : Option Text}
    (h : reserveAlternate w attempt wakeId record = .ok (some next)) : Kept record next := by
  unfold reserveAlternate at h
  cases hfound : record.incidents.find? fun entry => entry.id = attempt.incidentId with
  | none =>
      rw [hfound] at h
      cases h
  | some found =>
      rw [hfound] at h
      dsimp only at h
      split at h
      · rcases unless_ok h with ⟨_, h⟩
        cases h
      · rcases unless_ok h with ⟨_, h⟩
        rcases unless_ok h with ⟨_, h⟩
        cases wakeId with
        | none => cases h
        | some wakeId =>
            rcases bind_ok h with ⟨_, _, h⟩
            cases h
            exact setIncident_kept (by intro entry; rfl) record

theorem alternateObservation_acts {incidentId resolutionId : Text} {observation : Observation}
    (h : alternateObservation w incidentId resolutionId observation record = .ok (some next)) :
    Acts w cause record next := by
  unfold alternateObservation at h
  cases hfound : record.incidents.find? fun entry => entry.id = incidentId with
  | none =>
      rw [hfound] at h
      cases h
  | some found =>
      rw [hfound] at h
      dsimp only at h
      split at h
      rotate_left
      · cases h
      split at h
      · rcases unless_ok h with ⟨_, h⟩
        cases h
      · split at h
        · cases h
          exact .one (.keep (setAttempt_kept _ _ _ record))
        · split at h
          · split at h
            · rcases bind_ok h with ⟨held, hheld, h⟩
              cases h
              exact Acts.keep (.one (.lose _ hheld)) (setAttempt_kept _ _ _ _)
            · cases h
              exact .one (.keep (setAttempt_kept _ _ _ record))
          · split at h
            · cases h
              exact .one (.keep (setAttempt_kept _ _ _ record))
            · rcases bind_ok h with ⟨lasts, _, h⟩
              split at h
              · cases h
                exact .one (.keep (setAttempt_kept _ _ _ record))
              · split at h
                · cases h
                  exact .one (.keep (setAttempt_kept _ _ _ record))
                · rename_i hrecovers
                  rcases bind_ok h with ⟨seen, hseen, h⟩
                  cases h
                  -- The helper's read answers an incident that is still open.
                  have halternate : true = false → cause = .observation observation := nofun
                  refine Acts.keep (.one (.observe (fun _ => ?_) halternate hseen))
                    (setAttempt_kept _ _ _ _)
                  have hunresolved : found.unresolved = true := by
                    by_contra hnot
                    exact hrecovers (.inl (Bool.eq_false_iff.mpr hnot))
                  exact List.any_eq_true.mpr
                    ⟨found, List.mem_of_find?_eq_some hfound, hunresolved⟩

/-- The helper's own read needs no incident to answer. -/
theorem observe_acts {observation : Observation} {error : Text} {seen latest : Timestamp}
    (h : observe w observation error false seen latest record = .ok next) :
    Acts w (.observation observation) record next := by
  have hresolved : false = true → record.incidents.any Incident.unresolved = true := nofun
  exact .one (.observe hresolved (fun _ => rfl) h)

theorem checkpointChange_acts {leadSessionId : Text} {report : Checkpoint} {wakeId : Option Text}
    {result : Option Registration}
    (h : checkpointChange w leadSessionId report wakeId record = .ok result) :
    ∀ next, result = some next → Acts w report.cause record next := by
  intro next hnext
  subst hnext
  cases report with
  | observation observation =>
      rcases map_ok h with ⟨seen, hseen, heq⟩
      cases heq
      exact observe_acts hseen
  | fallback error observation incomplete =>
      unfold checkpointChange at h
      dsimp only at h
      split at h
      · cases h
      · rcases map_ok h with ⟨seen, hseen, heq⟩
        cases heq
        exact observe_acts hseen
  | alternateAttempt attempt => exact .one (.keep (reserveAlternate_kept h))
  | alternateObservation incidentId resolutionId observation => exact alternateObservation_acts h
  | prepareBatch batch workOrder => exact .one (.prepare h)
  | batch update =>
      rcases map_ok h with ⟨settled, hsettled, heq⟩
      cases heq
      exact .one (.settle hsettled)
  | action effect =>
      rcases map_ok h with ⟨acted, hacted, heq⟩
      cases heq
      exact .one (.effect hacted)
  | reconcile evidence immediateCheck =>
      have hreconciled : Kept record
          { record with lastReconciliationEvidence := some evidence } := by
        constructor <;> first | rfl | exact fun h => h
      cases h
      split
      · exact .one (.keep (hreconciled.trans (requestReview_kept _ _ _ _)))
      · exact .one (.keep hreconciled)
  | ready fingerprint =>
      unfold checkpointChange at h
      dsimp only at h
      by_cases hready : readyFor w record fingerprint = true
      · rw [if_neg (by rw [hready]; exact nofun)] at h
        cases h
        exact .one (.ready hready)
      · rw [if_pos (Bool.eq_false_iff.mpr hready)] at h
        cases h
  | reviewDone summary =>
      unfold checkpointChange at h
      dsimp only at h
      split at h
      · cases h
      · cases h
        refine .one (.keep (Kept.trans ?_ (concludeReview_kept _ _ _ _)))
        split
        · exact .refl record
        · exact requestReview_kept _ _ _ _

theorem checkpoint_acts {leadSessionId : Text} {expectedVersion : Nat} {report : Checkpoint}
    {wakeId : Option Text} {result : Option Registration}
    (h : checkpoint w leadSessionId expectedVersion report wakeId record = .ok result) :
    ∀ next, result = some next → Acts w report.cause record next := by
  unfold checkpoint at h
  rcases unless_ok h with ⟨_, h⟩
  rcases unless_ok h with ⟨_, h⟩
  rcases bind_ok h with ⟨change, hchange, h⟩
  cases change with
  | none =>
      cases h
      exact fun _ hnext => (nomatch hnext)
  | some changed =>
      refine acts_of_save h ((checkpointChange_acts hchange changed rfl).keep ?_)
      split
      · exact releaseTerminal_kept changed
      · exact .refl changed

theorem checkpointObservationReceipt_acts {store : Store} {leadSessionId : Text}
    {expectedVersion : Nat} {receipt : ObservationReceipt} {result : Option Registration}
    (h : checkpointObservationReceipt w store leadSessionId expectedVersion receipt record =
      .ok result) :
    ∀ next, result = some next → Acts w (.observation receipt.observation) record next := by
  unfold checkpointObservationReceipt at h
  by_cases hrecorded : receipt.recorded = true
  · rw [if_pos hrecorded] at h
    cases h
    exact fun _ hnext => (nomatch hnext)
  · rw [if_neg hrecorded] at h
    rcases unless_ok h with ⟨_, h⟩
    rcases unless_ok h with ⟨_, h⟩
    split at h
    · rcases bind_ok h with ⟨seen, hseen, h⟩
      refine acts_of_save h (Acts.keep
        (observe_acts hseen) ?_)
      refine (@releaseTerminal_kept w seen).trans ?_
      split
      · constructor <;> first | rfl | exact fun h => h
      · exact .refl _
    · exact acts_of_save h (.one (.late _ _ _))

/-! ### Dispatch -/

theorem mem_retained {store : Store} : record ∈ store.retained ↔
    store.records.get record.id = some record ∧ record.released = false := by
  unfold Store.retained
  rw [List.mem_filter, Table.mem_values_iff, Bool.not_eq_true']
  constructor
  · rintro ⟨⟨id, hget⟩, hretained⟩
    rw [store.keyed id record hget]
    exact ⟨hget, hretained⟩
  · rintro ⟨hget, hretained⟩
    exact ⟨⟨record.id, hget⟩, hretained⟩

/-- What is allowed is denied by no registration it concerns. -/
theorem denied_of_admission {store : Store} {input : Admission}
    (h : admission w store input = none) :
    ∀ record ∈ store.retained, concerns w input record = true → denied w input record = none := by
  unfold admission at h
  dsimp only at h
  split at h
  · cases h
  · rw [Option.or_eq_none_iff, List.findSome?_eq_none_iff] at h
    intro record hmem hconcerns
    exact h.1 record (List.mem_filter.mpr ⟨hmem, hconcerns⟩)

/-- What is allowed names a registration that is retained, if it names any. -/
theorem retained_of_admission {store : Store} {input : Admission} {recordId : Text}
    (hid : input.recordId = some recordId) (h : admission w store input = none) :
    ∃ record ∈ store.retained, concerns w input record = true ∧ record.id = recordId := by
  unfold admission at h
  dsimp only at h
  split at h
  · cases h
  · rename_i hknown
    rw [hid, Option.any_some, Bool.not_eq_true, Bool.not_eq_false', List.any_eq_true] at hknown
    rcases hknown with ⟨record, hmem, heq⟩
    rw [List.mem_filter] at hmem
    exact ⟨record, hmem.1, hmem.2, by simpa using heq⟩

theorem prepared_of_denied {input : Admission} {batch : Batch}
    (hdispatch : input.action = .dispatch) (h : deniedBatch input record batch = none) :
    batch.state = .prepared := by
  unfold deniedBatch at h
  rcases unless_none h with ⟨_, h⟩
  rcases unless_none h with ⟨_, h⟩
  rcases unless_none h with ⟨_, h⟩
  rcases unless_none h with ⟨hstate, _⟩
  by_contra hne
  exact hstate ⟨hdispatch, hne⟩

theorem batch_of_deniedWrite {input : Admission} {batchId : Text} {batch : Batch}
    (hbatchId : input.batchId = some batchId) (hbatch : record.batch batchId = some batch)
    (h : deniedWrite w input record = none) :
    deniedState w record = none ∧ deniedBatch input record batch = none := by
  unfold deniedWrite at h
  rw [Option.or_eq_none_iff] at h
  rcases h with ⟨hstate, h⟩
  rcases unless_none h with ⟨_, h⟩
  rcases unless_none h with ⟨_, h⟩
  rcases unless_none h with ⟨_, h⟩
  rw [hbatchId] at h
  dsimp only at h
  rw [hbatch] at h
  exact ⟨hstate, (Option.or_eq_none_iff.mp h).1⟩

/-- A write that is not denied is judged as one. -/
theorem deniedWrite_of_denied {input : Admission} (hwrites : input.action.writes = true)
    (h : denied w input record = none) : deniedWrite w input record = none := by
  unfold denied at h
  cases haction : input.action <;> rw [haction] at h hwrites <;>
    first
      | exact (unless_none (unless_none h).2).2
      | cases hwrites

/-- A dispatch that is allowed is one of a prepared batch. -/
theorem prepared_of_admission {store : Store} {input : Admission} {batchId : Text} {batch : Batch}
    (hrecord : store.records.get record.id = some record)
    (hdispatch : input.action = .dispatch) (hid : input.recordId = some record.id)
    (hbatchId : input.batchId = some batchId) (hbatch : record.batch batchId = some batch)
    (h : admission w store input = none) : batch.state = .prepared := by
  rcases retained_of_admission hid h with ⟨found, hmem, hconcerns, hsame⟩
  have hfound : found = record := by
    have hget := (mem_retained.mp hmem).1
    rw [hsame, hrecord] at hget
    exact (Option.some.inj hget).symm
  subst hfound
  have hwrites : input.action.writes = true := by rw [hdispatch]; rfl
  have hwrite := deniedWrite_of_denied hwrites (denied_of_admission h found hmem hconcerns)
  exact prepared_of_denied hdispatch (batch_of_deniedWrite hbatchId hbatch hwrite).2

theorem acceptBatch_acts {store : Store} {leadSessionId batchId stepId prompt : Text}
    {generation attempt : Nat} {result : Option Registration}
    (hrecord : store.records.get record.id = some record)
    (h : acceptBatch w store leadSessionId generation batchId stepId attempt prompt record =
      .ok result) :
    ∀ next, result = some next → Acts w cause record next := by
  unfold acceptBatch at h
  cases hbatch : record.batch batchId with
  | none =>
      rw [hbatch] at h
      cases h
  | some batch =>
      rw [hbatch] at h
      rcases unless_ok h with ⟨_, h⟩
      rcases unless_ok h with ⟨_, h⟩
      by_cases hstep : batch.stepId.isSome = true
      · rw [if_pos hstep] at h
        split at h
        · cases h
          exact fun _ hnext => (nomatch hnext)
        · cases h
      · rw [if_neg hstep] at h
        rcases bind_ok h with ⟨_, hadmitted, h⟩
        have hstate : batch.state = .prepared := by
          unfold assertAdmission at hadmitted
          split at hadmitted
          · cases hadmitted
          · rename_i hnone
            exact prepared_of_admission hrecord rfl rfl rfl hbatch hnone
        split at h
        · rcases unless_ok h with ⟨_, h⟩
          refine acts_of_save h (Acts.keep (.one (.accept stepId attempt hbatch
            (by simpa using hstep) hstate)) (Kept.trans (concludeReview_kept .working w.now
              (some batch.scope) (bindBatch batchId stepId attempt record)) ?_))
          constructor <;> first | rfl | exact fun h => h
        · cases h

/-! ### Manual control -/

theorem holdManual_acts {command : SupervisorCommand} :
    Acts w cause record (holdManual w command record) := by
  unfold holdManual
  split
  · rename_i hmanual
    refine .one (.hold _ _ (.manual cause _ fun hold hhold => ?_))
    rw [hhold] at hmanual
    simpa using hmanual
  · exact .refl

theorem beginManualControl_acts {store : Store} {command : SupervisorCommand} {eventSeqFrom : Nat}
    {result : Option Registration}
    (h : beginManualControl w store command eventSeqFrom record = .ok result) :
    ∀ next, result = some next → Acts w cause record next := by
  unfold beginManualControl at h
  rcases unless_ok h with ⟨_, h⟩
  rcases bind_ok h with ⟨_, _, h⟩
  rcases unless_ok h with ⟨_, h⟩
  have hacts : Acts w cause record (holdManual w command (takeOverBatches w record)) :=
    (Acts.one .takeOver).trans holdManual_acts
  dsimp only at h
  by_cases hturn : command.handback = some .afterTurn
  · simp only [if_pos hturn] at h
    rcases unless_ok h with ⟨_, h⟩
    rcases unless_ok h with ⟨_, h⟩
    rcases unless_ok h with ⟨_, h⟩
    rcases bind_ok h with ⟨receipt, _, h⟩
    refine acts_of_save h (hacts.keep ?_)
    constructor <;> first | rfl | exact fun h => h
  · simp only [if_neg hturn] at h
    rcases unless_ok h with ⟨_, h⟩
    rcases bind_ok h with ⟨receipt, _, h⟩
    refine acts_of_save h (hacts.keep ?_)
    constructor <;> first | rfl | exact fun h => h

theorem reconcileHandback_acts {result : Option Registration}
    (h : reconcileHandback w record = .ok result) :
    ∀ next, result = some next → Acts w cause record next := by
  unfold reconcileHandback at h
  by_cases hmanual : (record.hold.all fun hold => hold.kind ≠ .manualControl) = true
  · rw [if_pos hmanual] at h
    cases h
    exact fun _ hnext => (nomatch hnext)
  · rw [if_neg hmanual] at h
    dsimp only at h
    split at h
    · split at h
      · cases h
        exact fun _ hnext => (nomatch hnext)
      · split at h
        · cases h
          exact fun _ hnext => (nomatch hnext)
        · refine acts_of_save h ((clearHold_acts fun hold hhold => .handback _ ?_).keep
            (requestReview_kept _ _ _ _))
          rw [hhold] at hmanual
          simpa using hmanual
    · cases h
      exact fun _ hnext => (nomatch hnext)

theorem recordManualReceipt_acts {commandId : Text} {state : ManualState}
    {result : Option Registration} (h : recordManualReceipt w commandId state record = .ok result) :
    ∀ next, result = some next → Acts w cause record next := by
  unfold recordManualReceipt at h
  split at h
  · cases h
    exact fun _ hnext => (nomatch hnext)
  · split at h
    · refine acts_of_save h (.one (.keep ?_))
      constructor <;> first | rfl | exact fun h => h
    · cases h
      exact fun _ hnext => (nomatch hnext)

/-! ### Leads and ticks -/

theorem transfer_acts {leadSessionId : Text} {result : Option Registration}
    (h : transfer w leadSessionId record = .ok result) :
    ∀ next, result = some next → Acts w cause record next := by
  unfold transfer at h
  split at h
  · cases h
    exact fun _ hnext => (nomatch hnext)
  · refine acts_of_save h (Acts.keep (.one (.rename (fun hold =>
      if hold.actor = .lead ∧ hold.actorId = record.leadSessionId then
        { hold with actorId := leadSessionId }
      else hold) ?_ ?_)) ?_)
    · intro hold
      split <;> rfl
    · intro hold
      split <;> rfl
    · constructor <;> first | rfl | exact fun h => h

theorem openDueReview_acts {«at» : Time} {result : Option Registration}
    (h : openDueReview w «at» record = .ok result) :
    ∀ next, result = some next → Acts w cause record next := by
  unfold openDueReview at h
  split at h
  · exact acts_of_save h (.one (.keep (requestReview_kept _ _ _ _)))
  · cases h
    exact fun _ hnext => (nomatch hnext)

theorem markReviewWake_acts {reviewId key : Text} {«at» : Time} {result : Option Registration}
    (h : markReviewWake w reviewId key «at» record = .ok result) :
    ∀ next, result = some next → Acts w cause record next := by
  unfold markReviewWake at h
  split at h
  · cases h
    exact fun _ hnext => (nomatch hnext)
  · split at h
    · cases h
      exact fun _ hnext => (nomatch hnext)
    · refine acts_of_save h (.one (.keep ?_))
      constructor <;> first | rfl | exact fun h => h

theorem abandonReview_acts {reviewId summary : Text} {result : Option Registration}
    (h : abandonReview w reviewId summary record = .ok result) :
    ∀ next, result = some next → Acts w cause record next := by
  unfold abandonReview at h
  split at h
  · exact acts_of_save h (.one (.keep (concludeReview_kept _ _ _ _)))
  · cases h
    exact fun _ hnext => (nomatch hnext)

theorem markRecoveryWake_acts {incidentId : Text} {«at» : Time} {result : Option Registration}
    (h : markRecoveryWake w incidentId «at» record = .ok result) :
    ∀ next, result = some next → Acts w cause record next := by
  unfold markRecoveryWake at h
  split at h
  · cases h
    exact fun _ hnext => (nomatch hnext)
  · split at h
    · cases h
      exact fun _ hnext => (nomatch hnext)
    · have hmarked : Kept record (setIncident incidentId (fun entry => { entry with
          wakeQueuedAt := some «at» }) record) := setIncident_kept (by intro entry; rfl) record
      refine acts_of_save h (.one (.keep (hmarked.trans ?_)))
      constructor <;> first | rfl | exact fun h => h

/-! ### Authorization -/

theorem archiveAuthorization_ok (h : archiveAuthorization record = .ok next) :
    ∃ history, next = { record with authorizationHistory := history } := by
  unfold archiveAuthorization at h
  split at h
  · cases h
  · cases h
    exact ⟨_, rfl⟩

theorem reauthorize_acts {proposal : Proposal} {reauthorization : Reauthorization}
    {operatorId : Text} {result : Option Registration}
    (h : reauthorize w proposal reauthorization operatorId record = .ok result) :
    ∀ next, result = some next → Acts w .authorization record next := by
  unfold reauthorize at h
  rcases unless_ok h with ⟨_, h⟩
  rcases unless_ok h with ⟨_, h⟩
  rcases unless_ok h with ⟨_, h⟩
  rcases bind_ok h with ⟨_, hallowed, h⟩
  rcases bind_ok h with ⟨archived, harchived, h⟩
  rcases archiveAuthorization_ok harchived with ⟨history, rfl⟩
  unfold assertReauthorization at hallowed
  rcases unless_ok hallowed with ⟨hscope, hallowed⟩
  rcases unless_ok hallowed with ⟨hsettled, _⟩
  have hauthorized : Acts w .authorization record { record with
      authorization := newAuthorization w operatorId proposal.registration
        (some (proposal.id, proposal.version))
      authorizationHistory := history
      eligibilityEvidence := proposal.registration.eligibilityEvidence
      readyFingerprint := none } := by
    refine .one (.authorize _ _ _ ?_ ?_)
    · by_contra hpublishes
      exact hscope (.inr (.inr (.inl (Bool.not_eq_false _ ▸ hpublishes))))
    · by_contra hunsettled
      exact hsettled (.inl (Bool.not_eq_false _ ▸ hunsettled))
  exact acts_of_save h
    (Acts.keep (hauthorized.trans (clearPaused_acts .authorization)) (requestReview_kept _ _ _ _))

/-! ### The registry -/

/-- A registration that an operator enables. -/
def Enabled (w : World) (record : Registration) : Prop :=
  ∃ input operatorId sourceProposal generation task worker,
    record = enabled w operatorId task worker
      (newRegistration w input operatorId sourceProposal generation task worker)

/-- What becomes of the registration of an id. -/
inductive Becomes (w : World) (cause : Cause) : Option Registration → Option Registration → Prop where
  | absent : Becomes w cause none none
  | acts {record next : Registration} (h : Acts w cause record next) :
      Becomes w cause (some record) (some next)
  | enabled {record next : Registration} (hnew : Enabled w record)
      (h : Acts w cause record next) : Becomes w cause none (some next)

theorem Becomes.refl (found : Option Registration) : Becomes w cause found found := by
  cases found with
  | none => exact .absent
  | some record => exact .acts .refl

theorem Becomes.trans {a b c : Option Registration} (hab : Becomes w cause a b)
    (hbc : Becomes w cause b c) : Becomes w cause a c := by
  cases hab with
  | absent => exact hbc
  | acts hacts =>
      cases hbc with
      | acts hrest => exact .acts (hacts.trans hrest)
  | enabled hnew hacts =>
      cases hbc with
      | acts hrest => exact .enabled hnew (hacts.trans hrest)

/-- A prepared batch is added, and what it may use is reserved. -/
theorem prepareBatch_ok {prepared : PreparedBatch} {workOrder : Option Text}
    (h : prepareBatch w prepared workOrder record = .ok (some next)) :
    record.batch prepared.id = none ∧ admitBatch w record prepared = .ok () ∧
      next = { record with
        counters := { record.counters with
          repairBatches := record.counters.repairBatches +
            if prepared.kind = .repair then 1 else 0
          answerBatches := record.counters.answerBatches +
            if prepared.kind = .answer then 1 else 0
          mutationAttempts := record.counters.mutationAttempts + prepared.reservedMutations }
        batches := record.batches ++ [newBatch record prepared workOrder] } := by
  unfold prepareBatch at h
  rcases unless_ok h with ⟨_, h⟩
  split at h
  · rcases unless_ok h with ⟨_, h⟩
    cases h
  · rename_i hnone
    rcases bind_ok h with ⟨_, hadmitted, h⟩
    cases h
    exact ⟨hnone, hadmitted, rfl⟩

/-- What an action of the lead comes to: nothing, or an effect that is settled
    further, or a new one. -/
theorem effect_ok {action : Effect} (h : PrMaintenance.effect w action record = .ok next) :
    validateEffects [action] = .ok () ∧ (next = record ∨
      (∃ prior, (record.actions.find? fun entry => entry.key = action.key) = some prior ∧
        preserveEffects [prior] [action] = .ok () ∧
        next = { record with
          counters := { record.counters with
            mutationAttempts := record.counters.mutationAttempts -
              if unsettledEffect prior ∧ unsettledEffect action = false then
                (prior.attempts : Int) - action.usedAttempts.getD prior.attempts
              else 0 }
          actions := First.setFirst (fun entry => entry.key = action.key)
            (fun prior => prior.assign action) record.actions }) ∨
      ((record.actions.find? fun entry => entry.key = action.key) = none ∧
        admitEffect w record action = .ok () ∧
        next = { record with
          counters := { record.counters with
            mutationAttempts := record.counters.mutationAttempts + action.attempts }
          actions := record.actions ++ [action] })) := by
  unfold PrMaintenance.effect at h
  rcases bind_ok h with ⟨_, hvalid, h⟩
  refine ⟨hvalid, ?_⟩
  split at h
  · rename_i prior hprior
    rcases bind_ok h with ⟨_, hpreserved, h⟩
    split at h
    · cases h
      exact .inl rfl
    · cases h
      exact .inr (.inl ⟨prior, hprior, hpreserved, rfl⟩)
  · rename_i hnone
    rcases bind_ok h with ⟨_, hadmitted, h⟩
    cases h
    exact .inr (.inr ⟨hnone, hadmitted, rfl⟩)

theorem clearHold_frame (actorId : Text) («at» : Time) (record : Registration) :
    (clearHold w actorId «at» record).id = record.id ∧
      (clearHold w actorId «at» record).generation = record.generation := by
  unfold clearHold
  split <;> exact ⟨rfl, rfl⟩

/-- Whatever happens to a registration, it is the same registration. -/
theorem Act.id_eq (h : Act w cause record next) : next.id = record.id := by
  cases h with
  | keep hkept => exact hkept.id
  | hold reason «at» _ =>
      rcases setHold_ok _ reason «at» _ record with ⟨review, workRequests, hset⟩
      rw [hset]
      rfl
  | clear actorId «at» _ _ => exact (clearHold_frame actorId «at» record).1
  | lose reason hfound =>
      rcases incident_ok hfound with ⟨cursor, incidents, _, rfl⟩
      exact (setHold_seen (.inr rfl) reason w.now host _).id
  | observe _ _ hseen => exact (observe_seen hseen).id
  | late observation seen latest => rfl
  | prepare hprepared =>
      rw [(prepareBatch_ok hprepared).2.2]
  | accept stepId attempt _ _ _ => rfl
  | settle hsettled => exact (settleBatch_steady hsettled).id
  | effect hacted =>
      rcases (effect_ok hacted).2 with rfl | ⟨_, _, _, rfl⟩ | ⟨_, _, rfl⟩ <;> rfl
  | raise _ hraised => exact (raiseDecision_steady hraised).id
  | answer f _ => rfl
  | ready _ => rfl
  | ask requests => rfl
  | withdraw f reason «at» _ => rfl
  | takeOver => rfl
  | authorize authorization history evidence _ _ => rfl
  | rename f _ _ => rfl

theorem Acts.id_eq (h : Acts w cause record next) : next.id = record.id := by
  induction h with
  | refl => rfl
  | tail _ hact ih => exact hact.id_eq.trans ih

theorem get_put (store : Store) (record : Registration) (id : Text) :
    (store.put record).records.get id =
      if id = record.id then some record else store.records.get id :=
  Table.get_set _ _ _ _

/-- One registration is changed, and the others are as they were. -/
theorem update_becomes (causes : Text → Cause) {recordId : Text} {store after : Store}
    {change : Registration → Except Refusal (Option Registration)}
    (h : update recordId change store = .ok after)
    (hacts : ∀ record result, store.records.get recordId = some record →
      change record = .ok result → ∀ next, result = some next →
        Acts w (causes recordId) record next) (id : Text) :
    Becomes w (causes id) (store.records.get id) (after.records.get id) := by
  unfold update at h
  cases hget : store.records.get recordId with
  | none =>
      rw [hget] at h
      cases h
  | some record =>
      rw [hget] at h
      rcases bind_ok h with ⟨changed, hchanged, h⟩
      cases changed with
      | none =>
          cases h
          exact .refl _
      | some next =>
          cases h
          have hacts := hacts record _ hget hchanged next rfl
          have hid : next.id = recordId := hacts.id_eq.trans (store.keyed recordId record hget)
          rw [get_put, hid]
          by_cases hsame : id = recordId
          · rw [if_pos hsame, hsame, hget]
            exact .acts hacts
          · rw [if_neg hsame]
            exact .refl _

theorem updateOwned_becomes (causes : Text → Cause) {leadSessionId recordId : Text}
    {store after : Store} {change : Registration → Except Refusal (Option Registration)}
    (h : updateOwned leadSessionId recordId change store = .ok after)
    (hacts : ∀ record result, store.records.get recordId = some record →
      change record = .ok result → ∀ next, result = some next →
        Acts w (causes recordId) record next) (id : Text) :
    Becomes w (causes id) (store.records.get id) (after.records.get id) := by
  refine update_becomes causes h ?_ id
  intro record result hget hchange next hnext
  split at hchange
  · cases hchange
  · exact hacts record result hget hchange next hnext

/-- Every registration of some is changed, whatever cause that is to it. -/
theorem updateAll_becomes {select : Registration → Bool} {store after : Store}
    {change : Registration → Except Refusal (Option Registration)}
    (h : updateAll select change store = .ok after)
    (hacts : ∀ record result, change record = .ok result → ∀ next, result = some next →
      Acts w cause record next) (id : Text) :
    Becomes w cause (store.records.get id) (after.records.get id) := by
  unfold updateAll at h
  refine foldlM_invariant (fun reached =>
    Becomes w cause (store.records.get id) (reached.records.get id)) ?_ (.refl _) h
  intro reached recordId _ next hreached hturn
  have hturn := update_becomes (fun _ => cause) hturn
    (fun record result _ hchange => hacts record result hchange) id
  exact hreached.trans hturn

theorem enable_becomes (causes : Text → Cause) {input : EnableInput} {operatorId : Text}
    {sourceProposal : Option (Text × Nat)} {store after : Store}
    (h : enable w input operatorId sourceProposal store = .ok after) (id : Text) :
    Becomes w (causes id) (store.records.get id) (after.records.get id) := by
  unfold enable at h
  rcases bind_ok h with ⟨⟨task, worker⟩, _, h⟩
  dsimp only at h
  split at h
  · split at h
    · cases h
      exact .refl _
    · cases h
  · rcases unless_ok h with ⟨_, h⟩
    rcases unless_ok h with ⟨_, h⟩
    rcases unless_ok h with ⟨_, h⟩
    unfold insert at h
    rcases bind_ok h with ⟨record, hrecord, h⟩
    rcases unless_ok h with ⟨hnew, h⟩
    rcases unless_ok h with ⟨_, h⟩
    cases h
    rw [get_put]
    by_cases hid : id = record.id
    · have hnone : store.records.get record.id = none := by simpa using hnew
      rw [if_pos hid, hid, hnone]
      exact .enabled ⟨_, _, _, _, _, _, rfl⟩ (.one (.keep (write_kept hrecord)))
    · rw [if_neg hid]
      exact .refl _

/-- What an operation does to each registration is a sequence of acts. -/
theorem run_becomes {operation : Operation} {store after : Store}
    (h : run w operation store = .ok after) (id : Text) :
    Becomes w (operation.cause id) (store.records.get id) (after.records.get id) := by
  cases operation with
  | enable input operatorId =>
      exact enable_becomes ((Operation.enable input operatorId).cause) h id
  | authorizeProposal proposal proposalId expectedVersion operatorId =>
      have h : authorizeProposal w proposal proposalId expectedVersion operatorId store =
        .ok after := h
      unfold authorizeProposal at h
      rcases unless_ok h with ⟨_, h⟩
      rcases unless_ok h with ⟨_, h⟩
      split at h
      · rcases unless_ok h with ⟨_, h⟩
        split at h
        · rename_i reauthorization hreauthorization
          refine update_becomes ((Operation.authorizeProposal proposal proposalId
            expectedVersion operatorId).cause) h ?_ id
          intro record result _ hchange next hnext
          -- A proposal of what is registered already is authorized anew, which is an act of its
          -- own.
          have hcause : (Operation.authorizeProposal proposal proposalId expectedVersion
              operatorId).cause reauthorization.recordId = .authorization := by
            unfold Operation.cause
            simp [hreauthorization]
          rw [hcause]
          exact reauthorize_acts hchange next hnext
        · exact enable_becomes ((Operation.authorizeProposal proposal proposalId
            expectedVersion operatorId).cause) h id
      · cases h
  -- What concerns a session or a task is done to every registration.
  | stopForSession sessionId reason => exact updateAll_becomes h (fun _ _ => stop_acts) id
  | stopForTask taskId reason => exact updateAll_becomes h (fun _ _ => stop_acts) id
  | transferTask taskId leadSessionId => exact updateAll_becomes h (fun _ _ => transfer_acts) id
  -- What a person or the lead does concerns one registration.
  | operatorAction recordId expectedVersion action operatorId =>
      refine update_becomes ((Operation.operatorAction recordId expectedVersion action
        operatorId).cause) h ?_ id
      intro record result _ hchange next hnext
      show Acts w (if recordId = recordId then action.cause else .other) record next
      rw [if_pos rfl]
      exact operatorAction_acts hchange next hnext
  | set leadSessionId recordId expectedVersion action =>
      refine updateOwned_becomes ((Operation.set leadSessionId recordId expectedVersion
        action).cause) h ?_ id
      intro record result _ hchange next hnext
      show Acts w (if recordId = recordId then action.cause else .other) record next
      rw [if_pos rfl]
      exact set_acts hchange next hnext
  | holdForDecision leadSessionId recordId expectedVersion decision =>
      exact updateOwned_becomes (fun _ => .other) h
        (fun _ _ _ => holdForDecision_acts) id
  | acceptBatch leadSessionId recordId generation batchId stepId attempt prompt =>
      refine updateOwned_becomes (fun _ => .other) h ?_ id
      intro record result hget hchange next hnext
      have hid := store.keyed recordId record hget
      exact acceptBatch_acts (hid.symm ▸ hget) hchange next hnext
  | checkpoint leadSessionId recordId expectedVersion report wakeId =>
      refine updateOwned_becomes (Operation.checkpoint leadSessionId recordId expectedVersion
        report wakeId).cause h ?_ id
      intro record result _ hchange next hnext
      show Acts w (if recordId = recordId then report.cause else .other) record next
      rw [if_pos rfl]
      exact checkpoint_acts hchange next hnext
  | checkpointObservationReceipt leadSessionId recordId expectedVersion receipt =>
      refine updateOwned_becomes (Operation.checkpointObservationReceipt leadSessionId recordId
        expectedVersion receipt).cause h ?_ id
      intro record result _ hchange next hnext
      show Acts w (if recordId = recordId then .observation receipt.observation else .other)
        record next
      rw [if_pos rfl]
      exact checkpointObservationReceipt_acts hchange next hnext
  | beginManualControl sessionId command eventSeqFrom =>
      exact updateAll_becomes h (fun _ _ => beginManualControl_acts) id
  | reconcileHandbacks => exact updateAll_becomes h (fun _ _ => reconcileHandback_acts) id
  | recordManualReceipt sessionId commandId state =>
      exact updateAll_becomes h (fun _ _ => recordManualReceipt_acts) id
  | openDueReviews «at» => exact updateAll_becomes h (fun _ _ => openDueReview_acts) id
  | takeDue leadSessionId «at» => exact updateAll_becomes h (fun _ _ => openDueReview_acts) id
  | markReviewWake recordId reviewId key «at» =>
      exact update_becomes (fun _ => .other) h (fun _ _ _ => markReviewWake_acts) id
  | abandonReview recordId reviewId summary =>
      exact update_becomes (fun _ => .other) h (fun _ _ _ => abandonReview_acts) id
  | markRecoveryWake recordId incidentId «at» =>
      exact update_becomes (fun _ => .other) h (fun _ _ _ => markRecoveryWake_acts) id

/-- The same of a step, which a refusal makes none. -/
theorem step_becomes (store : Store) (call : World × Operation) (id : Text) :
    Becomes call.1 (call.2.cause id) (store.records.get id)
      ((step store call).records.get id) := by
  unfold step
  cases hrun : run call.1 call.2 store with
  | error _ => exact .refl _
  | ok next => exact run_becomes hrun id

/-! ### A Host on which the operations can be run -/

def quietWorker : Session where
  id := ofString "worker"
  isLead := false
  runId := some (ofString "task")
  state := .idle
  stopRequested := false
  hasAgentSession := true
  placementId := ofString "place"
  checkoutKey := some (ofString "checkout")
  bindingGeneration := 1

def quietTask : Run where
  id := ofString "task"
  leadSessionId := ofString "lead"
  state := .running

/-- A quiet Host: the worker is idle, and nothing is against its use. -/
def quiet : World where
  now := 1000
  uuid id := id ++ ofString "-review"
  recordId := ofString "record"
  authorizationId := ofString "authorization"
  iso _ := []
  session _ := some quietWorker
  run _ := some quietTask
  step _ := none
  steps _ := []
  ownedWorker _ _ := .ok (quietTask, quietWorker)
  binding _ := none
  permissionPending _ := false
  manualPending _ := false
  manualCommand _ _ := none
  manualAmbiguous _ _ := false
  saveManual _ command := .ok command
  dispatchAttempt _ := none
  transitionIntent _ := false
  routineCheckAt «at» := «at» + 1000
  chargeWake _ _ _ _ := .ok ()
  wakeLasts _ _ := .ok true
  parses _ := true
  fits _ := true

def quietIdentity : Identity where
  host := ofString "github.com"
  repositoryId := ofString "R1"
  repository := ofString "owner/repository"
  prNumber := 7
  headRepositoryId := ofString "R1"
  headRepository := ofString "owner/repository"
  headRef := ofString "refs/heads/topic"
  baseRepositoryId := ofString "R1"
  baseRepository := ofString "owner/repository"
  baseRef := ofString "refs/heads/main"

def quietHead : Text := ofString "e83c5163316f89bfbde7d9ab23ca2e25604af290"

def quietInput : EnableInput where
  taskId := ofString "task"
  workerSessionId := ofString "worker"
  identity := quietIdentity
  scope := {
    baseline := ofString "Repairs only"
    verification := ofString "Tests pass"
    publicationAuthorized := true }
  headSha := quietHead
  eligibilityEvidence := ofString "eligible"
  authorized := rfl

def quietSource : Source where
  id := ofString "comment"
  revision := ofString "1"
  groupKey := ofString "comment"
  evidence := ofString "Please fix this."

theorem quiet_whole (_ : true = true) : (some quietIdentity).isSome ∧
    (some (ofString "snapshot")).isSome ∧ (some quietHead).isSome ∧ (some PrState.opened).isSome ∧
    (some (ofString "fingerprint")).isSome ∧ (none : Option Failure) = none ∧
    (none : Option HelperError) = none :=
  ⟨rfl, rfl, rfl, rfl, rfl, rfl, rfl⟩

def quietObservation : Observation where
  attemptedAt := toISOString 1000
  complete := true
  identity := some quietIdentity
  snapshotId := some (ofString "snapshot")
  headSha := some quietHead
  state := some .opened
  fingerprint := some (ofString "fingerprint")
  mergeability := .mergeable
  sources := [quietSource]
  evidence := ofString "read"
  whole := quiet_whole

def quietBatch : PreparedBatch where
  id := ofString "batch"
  kind := .repair
  sources := [quietSource]
  headSha := quietHead
  prompt := ofString "Fix it."
  scope := ofString "Repairs only"
  reservedMutations := 1
  sources_ne := nofun

end PrMaintenance

end CopilotFleet
