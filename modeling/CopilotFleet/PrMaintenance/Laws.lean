import CopilotFleet.PrMaintenance.Acts

/-!
# Laws of Every Act

Some facts about a registration hold of whatever happens to it, and most of
what happens changes nothing that they speak of. What does is a report that is
written down, a hold that cancels what was prepared, and a few acts of their
own. A relation that is reflexive and transitive and holds of the first two and
of everything quiet (`Law`) therefore holds of settlements, decisions, holds
and observations, in whatever order they call each other.

## Main definitions

* `Quiet`: Neither batches, actions, counters nor findings are changed.
* `Law`: A relation that the parts of every act respect.

## Theorems

* `Law.settleBatch`, `Law.raiseDecision`, `Law.setHold`, `Law.observe`: So does what they
  are put together to.
* `Law.act`: So does every act, if those with a change of their own do.
-/

namespace CopilotFleet

open Utf16 Refusal Timestamps

namespace PrMaintenance

/-- Nothing is changed of the work, and readiness at most dropped. -/
structure Quiet (record next : Registration) : Prop where
  authorization : next.authorization = record.authorization
  batches : next.batches = record.batches
  actions : next.actions = record.actions
  repairs : next.counters.repairBatches = record.counters.repairBatches
  answers : next.counters.answerBatches = record.counters.answerBatches
  mutations : next.counters.mutationAttempts = record.counters.mutationAttempts
  findings : next.findings = record.findings
  ready : next.readyFingerprint = record.readyFingerprint ∨ next.readyFingerprint = none

variable {w : World} {cause : Cause} {record next : Registration}

theorem Kept.quiet (h : Kept record next) : Quiet record next where
  authorization := h.authorization
  batches := h.batches
  actions := h.actions
  repairs := h.repairs
  answers := h.answers
  mutations := h.mutations
  findings := h.findings
  ready := .inl h.ready

/-- A relation that the parts of every act respect. -/
structure Law (w : World) (R : Registration → Registration → Prop) : Prop where
  refl : ∀ record, R record record
  trans : ∀ {a b c}, R a b → R b c → R a c
  quiet : ∀ {record next}, Quiet record next → R record next
  record : ∀ {record unsent batch update}, record.batch update.batchId = some batch →
    batch.outstanding = true → R record (recordSettlement w unsent batch update record)
  cancel : ∀ reason «at» record, R record (cancelUndispatched reason «at» record)

variable {R : Registration → Registration → Prop}

/-! ### Settlements, decisions and holds -/

theorem Law.concludeReview (law : Law w R) (outcome : ReviewOutcome) («at» : Time)
    (summary : Option Text) (record : Registration) :
    R record (concludeReview outcome «at» summary record) :=
  law.quiet (concludeReview_kept outcome «at» summary record).quiet

theorem Law.settleWith (law : Law w R)
    {raise : Decision → Registration → Except Refusal Registration}
    (hraise : ∀ decision record next, raise decision record = .ok next → R record next)
    {supersedeUnsent : Bool} {update : Settlement}
    (h : settleWith w raise supersedeUnsent update record = .ok next) : R record next := by
  rcases settleWith_ok h with ⟨batch, hbatch, _, _, hsettled | hsettled⟩
  · rw [hsettled.2.2.2]
    exact law.refl record
  · rcases hsettled with ⟨hout, _, _, _, _, _, hconcluded⟩
    rcases concludeSettlement_ok hconcluded with
      ⟨asked, looped, forgot, hasked, hforgot, hlooped, hnext⟩
    have hasked : R record asked := by
      have hrecorded : R record (recordSettlement w
          (provenUnsent w supersedeUnsent record batch update) batch update record) :=
        law.record hbatch hout
      rcases hasked with heq | ⟨_, decision, hraised⟩
      · rw [heq]
        exact hrecorded
      · exact law.trans hrecorded (hraise _ _ _ hraised)
    have hforgot : R asked forgot := by
      rw [hforgot]
      unfold forgetAttempt
      split
      · exact law.quiet ⟨rfl, rfl, rfl, rfl, rfl, rfl, rfl, .inr rfl⟩
      · exact law.quiet ⟨rfl, rfl, rfl, rfl, rfl, rfl, rfl, .inl rfl⟩
    have hlooped : R forgot looped := by
      rcases hlooped with heq | ⟨_, _, decision, hraised⟩
      · rw [heq]
        exact law.refl forgot
      · exact hraise _ _ _ hraised
    have hreviewed : R looped next := by
      rw [hnext]
      unfold reviewResult
      split
      · exact law.quiet (requestReview_kept _ _ _ looped).quiet
      · exact law.refl looped
    exact law.trans (law.trans hasked (law.trans hforgot hlooped)) hreviewed

theorem Law.raiseDecision (law : Law w R) {decision : Decision}
    (h : raiseDecision w decision record = .ok next) : R record next := by
  have hasked : R record { record with
      decisionHistory := record.decisionHistory ++ record.decision.toList
      decision := some { decision with
        state := .pending
        operatorId := none
        direction := none
        resolvedAt := none }
      readyFingerprint := none } :=
    law.quiet ⟨rfl, rfl, rfl, rfl, rfl, rfl, rfl, .inr rfl⟩
  refine forBatches_keeps (R record) ?_ (law.trans hasked (law.concludeReview _ _ _ _)) h
  intro batch changed next _ hchanged hturn
  split at hturn
  · refine law.trans hchanged (law.settleWith (fun _ record _ h => ?_) hturn)
    cases h
    exact law.refl record
  · cases hturn
    exact hchanged

theorem Law.settleBatch (law : Law w R) {supersedeUnsent : Bool} {update : Settlement}
    (h : settleBatch w supersedeUnsent update record = .ok next) : R record next :=
  law.settleWith (fun _ _ _ => law.raiseDecision) h

theorem Law.setHold (law : Law w R) (kind : HoldKind) (reason : Text) («at» : Time)
    (origin : Origin) (record : Registration) :
    R record (setHold kind reason «at» origin record) := by
  rcases setHold_ok kind reason «at» origin record with ⟨review, workRequests, hset⟩
  rw [hset]
  refine law.trans (law.quiet ?_) (law.cancel reason «at» _)
  exact ⟨rfl, rfl, rfl, rfl, rfl, rfl, rfl, .inr rfl⟩

/-! ### Observations -/

theorem Law.incident (law : Law w R) {observation : Observation} {error : Text}
    {kind : IncidentKind} (h : incident w observation error kind record = .ok next) :
    R record next := by
  rcases incident_ok h with ⟨cursor, incidents, _, rfl⟩
  exact law.quiet ⟨rfl, rfl, rfl, rfl, rfl, rfl, rfl, .inl rfl⟩

theorem Law.observeIncomplete (law : Law w R) {observation : Observation} {error : Text}
    (h : observeIncomplete w observation error record = .ok next) : R record next := by
  unfold PrMaintenance.observeIncomplete at h
  rcases bind_ok h with ⟨found, hfound, h⟩
  have hcounted : ∀ counted : Bool, R record { found with
      counters :=
        if counted then
          { found.counters with
            consecutiveFailures := found.counters.consecutiveFailures + 1
            totalFailures := found.counters.totalFailures + 1 }
        else found.counters
      readyFingerprint := none } := by
    intro counted
    refine law.trans (law.incident hfound) (law.quiet ?_)
    cases counted <;> exact ⟨rfl, rfl, rfl, rfl, rfl, rfl, rfl, .inr rfl⟩
  dsimp only at h
  split at h
  · cases h
    exact law.trans (hcounted _) (law.setHold _ _ _ _ _)
  · cases h
    exact law.trans (hcounted _) (law.concludeReview _ _ _ _)

theorem Law.supersede (law : Law w R) {observation : Observation}
    (h : supersede w observation record = .ok next) : R record next := by
  unfold PrMaintenance.supersede at h
  refine forBatches_keeps (R record) ?_ (law.refl record) h
  intro batch changed next _ hchanged hturn
  split at hturn
  · exact law.trans hchanged (law.settleBatch hturn)
  · cases hturn
    exact hchanged

theorem Law.recordTerminal (law : Law w R) (lifecycle : Lifecycle) (state : PrState) (seen : Time)
    (record : Registration) : R record (recordTerminal lifecycle state seen record) := by
  have hended : R record { record with lifecycle } :=
    law.quiet ⟨rfl, rfl, rfl, rfl, rfl, rfl, rfl, .inl rfl⟩
  refine law.trans (law.trans hended (law.trans (law.concludeReview .terminal seen
    (some (ofString "PR " ++ state.text)) _) (law.cancel (ofString "PR " ++ state.text) seen _))) ?_
  exact law.quiet ⟨rfl, rfl, rfl, rfl, rfl, rfl, rfl, .inl rfl⟩

theorem resolveEffects_quiet (observation : Observation) (record : Registration) :
    Quiet record (resolveEffects w observation record) := by
  unfold resolveEffects
  dsimp only
  split <;> exact ⟨rfl, rfl, rfl, rfl, rfl, rfl, rfl, .inl rfl⟩

theorem resolveCapabilities_quiet (observation : Observation) (alternate : Bool) (seen : Timestamp)
    (record : Registration) :
    Quiet record (resolveCapabilities w observation alternate seen record) := by
  unfold resolveCapabilities
  split <;> exact ⟨rfl, rfl, rfl, rfl, rfl, rfl, rfl, .inl rfl⟩

theorem dropReadiness_quiet (observation : Observation) (record : Registration) :
    Quiet record (dropReadiness observation record) := by
  unfold dropReadiness
  split
  · exact ⟨rfl, rfl, rfl, rfl, rfl, rfl, rfl, .inl rfl⟩
  · exact ⟨rfl, rfl, rfl, rfl, rfl, rfl, rfl, .inr rfl⟩

theorem Law.concludeObservation (law : Law w R) (observation : Observation) (alternate : Bool)
    (seen : Timestamp) (record : Registration) :
    R record (concludeObservation w observation alternate seen record) := by
  unfold PrMaintenance.concludeObservation
  dsimp only
  have hresolved : R record
      (if alternate then record else resolveEffects w observation record) := by
    split
    · exact law.refl record
    · exact law.quiet (resolveEffects_quiet observation record)
  generalize (if alternate then record else resolveEffects w observation record) = resolved
    at hresolved
  have hall := law.trans hresolved (law.trans
    (law.quiet (resolveCapabilities_quiet (w := w) observation alternate seen resolved))
    (law.quiet (dropReadiness_quiet observation _)))
  split
  · exact hall
  · split
    · exact law.trans hall (law.recordTerminal _ _ _ _)
    · exact law.trans hall (law.recordTerminal _ _ _ _)
    · exact hall

theorem Law.observe (law : Law w R) {observation : Observation} {error : Text} {alternate : Bool}
    {seen latest : Timestamp} (h : observe w observation error alternate seen latest record = .ok next) :
    R record next := by
  have hattempted : R record
      (scheduled w observation seen latest (attempted observation seen latest record)) :=
    law.quiet ⟨rfl, rfl, rfl, rfl, rfl, rfl, rfl, .inl rfl⟩
  cases observe_read h with
  | waiting => exact law.quiet ⟨rfl, rfl, rfl, rfl, rfl, rfl, rfl, .inr rfl⟩
  | identity hfound =>
      exact law.trans (law.trans hattempted (law.incident hfound)) (law.setHold _ _ _ _ _)
  | effects _ hfound =>
      exact law.trans (law.trans hattempted (law.incident hfound)) (law.concludeReview _ _ _ _)
  | incomplete _ hincomplete => exact law.trans hattempted (law.observeIncomplete hincomplete)
  | complete _ hsuperseded =>
      have hobserved : R record (observed observation seen
          (scheduled w observation seen latest (attempted observation seen latest record))) :=
        law.quiet ⟨rfl, rfl, rfl, rfl, rfl, rfl, rfl, .inl rfl⟩
      exact law.trans (law.trans hobserved (law.supersede hsuperseded))
        (law.concludeObservation _ _ _ _)

/-! ### Every act -/

theorem clearHold_quiet (actorId : Text) («at» : Time) (record : Registration) :
    Quiet record (clearHold w actorId «at» record) := by
  unfold clearHold
  split <;> exact ⟨rfl, rfl, rfl, rfl, rfl, rfl, rfl, .inl rfl⟩

/-- An act with a change of its own to the work of a registration. -/
inductive Act.Own (w : World) (record : Registration) : Registration → Prop where
  | prepare {prepared : PreparedBatch} {workOrder : Option Text} {next : Registration}
      (h : prepareBatch w prepared workOrder record = .ok (some next)) : Act.Own w record next
  | accept {batch : Batch} {batchId : Text} (stepId : Text) (attempt : Nat)
      (hbatch : record.batch batchId = some batch) (hstep : batch.stepId = none)
      (hstate : batch.state = .prepared) :
      Act.Own w record (bindBatch batchId stepId attempt record)
  | effect {effect : Effect} {next : Registration}
      (h : PrMaintenance.effect w effect record = .ok next) : Act.Own w record next
  | ready {fingerprint : Text} (h : readyFor w record fingerprint = true) :
      Act.Own w record { record with readyFingerprint := some fingerprint }
  | takeOver : Act.Own w record (takeOverBatches w record)
  | authorize (authorization : Authorization) (history : List Authorization) (evidence : Text)
      (hscope : record.authorization.scope.publicationAuthorized = false)
      (hsettled : unsettled record = false) :
      Act.Own w record { record with
        authorization
        authorizationHistory := history
        eligibilityEvidence := evidence
        readyFingerprint := none }

theorem Law.act (law : Law w R) (hown : Act.Own w record next → R record next)
    (h : Act w cause record next) : R record next := by
  cases h with
  | keep hkept => exact law.quiet hkept.quiet
  | hold reason «at» _ => exact law.setHold _ _ _ _ _
  | clear actorId «at» _ _ => exact law.quiet (clearHold_quiet _ _ _)
  | lose reason hfound => exact law.trans (law.incident hfound) (law.setHold _ _ _ _ _)
  | observe _ _ hseen => exact law.observe hseen
  | late observation seen latest =>
      exact law.quiet ⟨rfl, rfl, rfl, rfl, rfl, rfl, rfl, .inr rfl⟩
  | prepare hprepared => exact hown (.prepare hprepared)
  | accept stepId attempt hbatch hstep hstate =>
      exact hown (.accept stepId attempt hbatch hstep hstate)
  | settle hsettled => exact law.settleBatch hsettled
  | effect hacted => exact hown (.effect hacted)
  | raise _ hraised => exact law.raiseDecision hraised
  | answer f _ => exact law.quiet ⟨rfl, rfl, rfl, rfl, rfl, rfl, rfl, .inl rfl⟩
  | ready hready => exact hown (.ready hready)
  | ask requests => exact law.quiet ⟨rfl, rfl, rfl, rfl, rfl, rfl, rfl, .inr rfl⟩
  | withdraw f reason «at» _ => exact law.quiet ⟨rfl, rfl, rfl, rfl, rfl, rfl, rfl, .inl rfl⟩
  | takeOver => exact hown .takeOver
  | authorize authorization history evidence hscope hsettled =>
      exact hown (.authorize authorization history evidence hscope hsettled)
  | rename f _ _ => exact law.quiet ⟨rfl, rfl, rfl, rfl, rfl, rfl, rfl, .inl rfl⟩

end PrMaintenance

end CopilotFleet
