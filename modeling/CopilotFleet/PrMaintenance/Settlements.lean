import CopilotFleet.Lib.Refusal
import CopilotFleet.PrMaintenance.Observations

/-!
# What a Settlement Leaves Alone

A report on a batch changes the batch, what is remembered of its findings, and
what was asked for; and it may raise a decision, which cancels whatever was
prepared. It changes nothing of what stops a registration or lets it go on. A
settlement, a decision and an observation share most of what they do, so what
they leave alone is stated once for each of them.

## Main definitions

* `Steady`: What neither a settlement nor a decision changes.
* `Seen`: What an observation does not change.

## Theorems

* `settleWith_steady`: A settlement is steady if the decision it raises is.
* `raiseDecision_steady`: A decision is steady.
* `observe_seen`: An observation at most holds a registration, for a reason of its own.
-/

namespace CopilotFleet

open Utf16 Refusal Timestamps

namespace PrMaintenance

/-- What a settlement leaves alone. Readiness it may drop. -/
structure Steady (record next : Registration) : Prop where
  id : next.id = record.id
  generation : next.generation = record.generation
  authorization : next.authorization = record.authorization
  lifecycle : next.lifecycle = record.lifecycle
  hold : next.hold = record.hold
  incidents : next.incidents = record.incidents
  observation : next.observation = record.observation
  actions : next.actions = record.actions
  released : next.ownershipReleasedAt = record.ownershipReleasedAt
  ready : next.readyFingerprint = none ∨
    (next.readyFingerprint = record.readyFingerprint ∧ next.lastAttempt = record.lastAttempt)

theorem Steady.refl (record : Registration) : Steady record record := by
  constructor <;> first | rfl | exact .inr ⟨rfl, rfl⟩

theorem Steady.trans {a b c : Registration} (hab : Steady a b) (hbc : Steady b c) :
    Steady a c where
  id := hbc.id.trans hab.id
  generation := hbc.generation.trans hab.generation
  authorization := hbc.authorization.trans hab.authorization
  lifecycle := hbc.lifecycle.trans hab.lifecycle
  hold := hbc.hold.trans hab.hold
  incidents := hbc.incidents.trans hab.incidents
  observation := hbc.observation.trans hab.observation
  actions := hbc.actions.trans hab.actions
  released := hbc.released.trans hab.released
  ready := by
    rcases hbc.ready with hnone | ⟨hready, hattempt⟩
    · exact .inl hnone
    · rcases hab.ready with hnone | ⟨hready', hattempt'⟩
      · exact .inl (hready.trans hnone)
      · exact .inr ⟨hready.trans hready', hattempt.trans hattempt'⟩

variable {w : World} {record next : Registration}

theorem requestReview_steady (source : ReviewSource) («at» : Time) (actorId : Option Text)
    (record : Registration) : Steady record (requestReview w source «at» actorId record) := by
  unfold requestReview
  split
  · exact .refl record
  · constructor <;> first | rfl | exact .inr ⟨rfl, rfl⟩

theorem concludeReview_steady (outcome : ReviewOutcome) («at» : Time) (summary : Option Text)
    (record : Registration) : Steady record (concludeReview outcome «at» summary record) := by
  unfold concludeReview
  split
  · exact .refl record
  · split
    · constructor <;> first | rfl | exact .inr ⟨rfl, rfl⟩
    · exact .refl record

/-! ### Settlements and decisions -/

theorem forgetAttempt_steady (newPublication : Bool) (record : Registration) :
    Steady record (forgetAttempt newPublication record) := by
  unfold forgetAttempt
  split
  · constructor <;> first | rfl | exact .inl rfl
  · exact .refl record

theorem reviewResult_steady (final : Bool) (batch : Batch) (record : Registration) :
    Steady record (reviewResult w final batch record) := by
  unfold reviewResult
  split
  · exact requestReview_steady _ _ _ record
  · exact .refl record

section Raise

variable {raise : Decision → Registration → Except Refusal Registration}

/-- What follows from a report: a decision over its findings, and one over a loop. -/
theorem concludeSettlement_ok {unsent : Bool} {batch : Batch} {update : Settlement}
    (h : concludeSettlement w raise unsent batch update record = .ok next) :
    ∃ asked looped forgot,
      (asked = recordSettlement w unsent batch update record ∨
        ((recordSettlement w unsent batch update record).decisionPending = false ∧
          ∃ decision, raise decision (recordSettlement w unsent batch update record) =
            .ok asked)) ∧
      forgot = forgetAttempt (publishedBy record update && !batch.published)
        { asked with findingAttempts := (countAttempts batch update asked).1 } ∧
      (looped = forgot ∨ (forgot.decisionPending = false ∧ forgot.lifecycle = .active ∧
        ∃ decision, raise decision forgot = .ok looped)) ∧
      next = reviewResult w update.final
        (reportedBatch w unsent (publishedBy record update) update batch) looped := by
  unfold concludeSettlement at h
  rcases maybe_ok h with ⟨asked, hasked, h⟩
  have hdone : asked = recordSettlement w unsent batch update record ∨
      ((recordSettlement w unsent batch update record).decisionPending = false ∧
        ∃ decision, raise decision (recordSettlement w unsent batch update record) =
          .ok asked) := by
    rcases hasked with heq | ⟨hpending, hraised⟩
    · exact .inl heq
    · exact .inr ⟨hpending.2, _, hraised⟩
  dsimp only at h
  cases hcount : (countAttempts batch update asked).2 with
  | none =>
      rw [hcount] at h
      cases h
      exact ⟨asked, _, _, hdone, rfl, .inl rfl, rfl⟩
  | some reason =>
      rw [hcount] at h
      rcases maybe_ok h with ⟨looped, hlooped, h⟩
      cases h
      refine ⟨asked, looped, _, hdone, rfl, ?_, rfl⟩
      rcases hlooped with heq | ⟨hactive, hraised⟩
      · exact .inl heq
      · exact .inr ⟨hactive.1, hactive.2, _, hraised⟩

theorem concludeSettlement_steady
    (hraise : ∀ decision record next, raise decision record = .ok next → Steady record next)
    {unsent : Bool} {batch : Batch} {update : Settlement}
    (h : concludeSettlement w raise unsent batch update record = .ok next) :
    Steady record next := by
  rcases concludeSettlement_ok h with ⟨asked, looped, forgot, hasked, hforgot, hlooped, hnext⟩
  have hrecorded : Steady record (recordSettlement w unsent batch update record) := by
    constructor <;> first | rfl | exact .inr ⟨rfl, rfl⟩
  have hasked : Steady (recordSettlement w unsent batch update record) asked := by
    rcases hasked with heq | ⟨_, decision, hraised⟩
    · rw [heq]
      exact .refl _
    · exact hraise _ _ _ hraised
  have hforgot : Steady asked forgot := by
    rw [hforgot]
    refine Steady.trans ?_ (forgetAttempt_steady _ _)
    constructor <;> first | rfl | exact .inr ⟨rfl, rfl⟩
  have hlooped : Steady forgot looped := by
    rcases hlooped with heq | ⟨_, _, decision, hraised⟩
    · rw [heq]
      exact .refl _
    · exact hraise _ _ _ hraised
  rw [hnext]
  exact ((hrecorded.trans hasked).trans (hforgot.trans hlooped)).trans (reviewResult_steady _ _ _)

/-- A report that is not the one recorded before passed every check on it. -/
theorem settleWith_ok {supersedeUnsent : Bool} {update : Settlement}
    (h : settleWith w raise supersedeUnsent update record = .ok next) :
    ∃ batch, record.batch update.batchId = some batch ∧ update.generation = record.generation ∧
      batch.generation = update.generation ∧
      ((batch.outstanding = false ∧ batch.findings = update.findings ∧
          batch.effects = update.effects ∧ next = record) ∨
        (batch.outstanding = true ∧
          checkReceipts w (provenUnsent w supersedeUnsent record batch update) record batch
            update = .ok () ∧
          checkFindings batch (batch.headSha :: update.findings.filterMap (·.publishedCommit)) []
            update.findings = .ok () ∧
          validateEffects update.effects = .ok () ∧
          preserveEffects batch.effects update.effects = .ok () ∧
          checkOutcome batch update = .ok () ∧
          concludeSettlement w raise (provenUnsent w supersedeUnsent record batch update) batch
            update record = .ok next)) := by
  unfold settleWith at h
  cases hbatch : record.batch update.batchId with
  | none =>
      rw [hbatch] at h
      cases h
  | some batch =>
      rw [hbatch] at h
      rcases unless_ok h with ⟨hgeneration, h⟩
      rw [not_or, not_not, not_not] at hgeneration
      refine ⟨batch, rfl, hgeneration.1, hgeneration.2, ?_⟩
      by_cases hout : batch.outstanding = false
      · rw [if_pos hout] at h
        split at h
        · rename_i hsame
          cases h
          exact .inl ⟨hout, hsame.2.1, hsame.2.2, rfl⟩
        · cases h
      · rw [if_neg hout] at h
        rcases bind_ok h with ⟨_, hreceipts, h⟩
        rcases bind_ok h with ⟨_, hfindings, h⟩
        rcases bind_ok h with ⟨_, heffects, h⟩
        rcases bind_ok h with ⟨_, hpreserved, h⟩
        rcases bind_ok h with ⟨_, houtcome, h⟩
        exact .inr ⟨Bool.not_eq_false _ ▸ hout, hreceipts, hfindings, heffects, hpreserved,
          houtcome, h⟩

theorem settleWith_steady
    (hraise : ∀ decision record next, raise decision record = .ok next → Steady record next)
    {supersedeUnsent : Bool} {update : Settlement}
    (h : settleWith w raise supersedeUnsent update record = .ok next) : Steady record next := by
  rcases settleWith_ok h with ⟨batch, _, _, _, hsettled | hsettled⟩
  · rw [hsettled.2.2.2]
    exact .refl record
  · exact concludeSettlement_steady hraise hsettled.2.2.2.2.2.2

end Raise

/-- What each turn of the loop keeps, the loop keeps. -/
theorem forBatches_keeps {f : Batch → Registration → Except Refusal Registration}
    (P : Registration → Prop) (hstep : ∀ batch record next, batch ∈ record.batches → P record →
      f batch record = .ok next → P next)
    (hrecord : P record) (h : forBatches f record = .ok next) : P next := by
  unfold forBatches at h
  refine foldlM_invariant P ?_ hrecord h
  intro record index _ next hP hturn
  cases hbatch : record.batches[index]? with
  | none =>
      rw [hbatch] at hturn
      cases hturn
      exact hP
  | some batch =>
      rw [hbatch] at hturn
      exact hstep batch record next (List.mem_of_getElem? hbatch) hP hturn

theorem raiseDecision_steady {decision : Decision}
    (h : raiseDecision w decision record = .ok next) : Steady record next := by
  have hasked : Steady record { record with
      decisionHistory := record.decisionHistory ++ record.decision.toList
      decision := some { decision with
        state := .pending
        operatorId := none
        direction := none
        resolvedAt := none }
      readyFingerprint := none } := by
    constructor <;> first | rfl | exact .inl rfl
  refine forBatches_keeps (Steady record) ?_ (hasked.trans (concludeReview_steady _ _ _ _)) h
  intro batch changed next _ hchanged hturn
  split at hturn
  · refine hchanged.trans (settleWith_steady (fun _ record _ h => ?_) hturn)
    cases h
    exact .refl record
  · cases hturn
    exact hchanged

theorem settleBatch_steady {supersedeUnsent : Bool} {update : Settlement}
    (h : settleBatch w supersedeUnsent update record = .ok next) : Steady record next :=
  settleWith_steady (fun _ _ _ => raiseDecision_steady) h

/-! ### Observations -/

/-- An incident is of what went wrong, and nothing else is changed. -/
theorem incident_ok {observation : Observation} {error : Text} {kind : IncidentKind}
    (h : incident w observation error kind record = .ok next) :
    ∃ cursor incidents, incidents.any Incident.unresolved = true ∧
      next = { record with lastError := some error, incidentCursor := cursor, incidents } := by
  unfold incident at h
  dsimp only at h
  split at h
  · rename_i hknown
    cases h
    refine ⟨_, _, ?_, rfl⟩
    rcases List.any_eq_true.mp hknown with ⟨entry, hmem, hentry⟩
    cases hfind : record.incidents.find? fun entry => entry.kind = kind && entry.unresolved with
    | none => exact absurd hentry (List.find?_eq_none.mp hfind entry hmem)
    | some found =>
        have hfound := List.find?_some hfind
        rw [Bool.and_eq_true] at hfound
        rcases First.setFirst_split hfind fun entry => { entry with
          lastError := error
          lastObservationKey := { observation, error := some error }
          updatedAt := w.now } with ⟨before, after, _, _, hset⟩
        rw [hset, List.any_append, List.any_cons]
        simp only [Bool.or_eq_true]
        exact .inr (.inl hfound.2)
  · rcases bind_ok h with ⟨room, _, h⟩
    cases h
    refine ⟨_, _, ?_, rfl⟩
    rw [List.any_append]
    simp [Incident.unresolved]

/-- What a read of the provider comes to. -/
inductive Read (w : World) (observation : Observation) (error : Text) (alternate : Bool)
    (seen latest : Timestamp) (record : Registration) : Registration → Prop where
  | waiting : Read w observation error alternate seen latest record
      { attempted observation seen latest record with readyFingerprint := none }
  | identity {found : Registration} (h : incident w observation error .identity
      (scheduled w observation seen latest (attempted observation seen latest record)) = .ok found) :
      Read w observation error alternate seen latest record
        (setHold .identity (identityChanged error) w.now host found)
  | effects {found : Registration} (hcode : HelperError.is observation.helperError ambiguousEffect)
      (h : incident w observation error .effects
        (scheduled w observation seen latest (attempted observation seen latest record)) =
          .ok found) :
      Read w observation error alternate seen latest record
        (concludeReview .failed w.now (some error) found)
  | incomplete {next : Registration} (hcomplete : observation.complete = false)
      (h : observeIncomplete w observation error
        (scheduled w observation seen latest (attempted observation seen latest record)) =
          .ok next) :
      Read w observation error alternate seen latest record next
  | complete {superseded : Registration} (hcomplete : observation.complete = true)
      (h : supersede w observation (observed observation seen
        (scheduled w observation seen latest (attempted observation seen latest record))) =
          .ok superseded) :
      Read w observation error alternate seen latest record
        (concludeObservation w observation alternate seen superseded)

theorem observe_read {observation : Observation} {error : Text} {alternate : Bool}
    {seen latest : Timestamp} (h : observe w observation error alternate seen latest record = .ok next) :
    Read w observation error alternate seen latest record next := by
  unfold observe at h
  rcases unless_ok h with ⟨_, h⟩
  rcases unless_ok h with ⟨_, h⟩
  dsimp only at h
  split at h
  · cases h
    exact .waiting
  · split at h
    · rcases bind_ok h with ⟨found, hfound, h⟩
      cases h
      exact .identity hfound
    · split at h
      · rename_i hcode
        rcases bind_ok h with ⟨found, hfound, h⟩
        cases h
        exact .effects hcode hfound
      · split at h
        · rename_i hcomplete
          exact .incomplete hcomplete h
        · rename_i hcomplete
          rcases bind_ok h with ⟨superseded, hsuperseded, h⟩
          cases h
          exact .complete (by simpa using hcomplete) hsuperseded

/-- What an observation leaves alone. A hold it sets is its own. -/
structure Seen (record next : Registration) : Prop where
  id : next.id = record.id
  generation : next.generation = record.generation
  authorization : next.authorization = record.authorization
  actions : next.actions = record.actions
  released : next.ownershipReleasedAt = record.ownershipReleasedAt
  hold : next.hold = record.hold ∨
    ∃ hold, next.hold = some hold ∧ (hold.kind = .access ∨ hold.kind = .identity)

theorem Steady.seen (h : Steady record next) : Seen record next where
  id := h.id
  generation := h.generation
  authorization := h.authorization
  actions := h.actions
  released := h.released
  hold := .inl h.hold

theorem Seen.refl (record : Registration) : Seen record record := (Steady.refl record).seen

theorem Seen.after {a b c : Registration} (hbc : Seen b c) (hab : Seen a b)
    (hhold : b.hold = a.hold) : Seen a c where
  id := hbc.id.trans hab.id
  generation := hbc.generation.trans hab.generation
  authorization := hbc.authorization.trans hab.authorization
  actions := hbc.actions.trans hab.actions
  released := hbc.released.trans hab.released
  hold := hhold ▸ hbc.hold

/-- A review concluded is a review. -/
theorem concludeReview_ok (outcome : ReviewOutcome) («at» : Time) (summary : Option Text)
    (record : Registration) :
    ∃ review, concludeReview outcome «at» summary record = { record with review } := by
  unfold concludeReview
  split
  · exact ⟨record.review, rfl⟩
  · split
    · exact ⟨_, rfl⟩
    · exact ⟨record.review, rfl⟩

/-- What a hold changes. -/
theorem setHold_ok (kind : HoldKind) (reason : Text) («at» : Time) (origin : Origin)
    (record : Registration) : ∃ review workRequests,
      setHold kind reason «at» origin record = cancelUndispatched reason «at» { record with
        holdHistory := record.holdHistory ++ record.hold.toList
        hold := some { origin with kind, reason, «at» := «at» }
        readyFingerprint := none
        review
        workRequests } := by
  rcases concludeReview_ok .held «at» (some reason) { record with
    holdHistory := record.holdHistory ++ record.hold.toList
    hold := some { origin with kind, reason, «at» := «at» }
    readyFingerprint := none } with ⟨review, hreview⟩
  unfold setHold
  dsimp only
  rw [hreview]
  split
  · exact ⟨review, _, rfl⟩
  · exact ⟨review, record.workRequests, rfl⟩

/-- A hold over what an observation found. -/
theorem setHold_seen {kind : HoldKind} (hkind : kind = .access ∨ kind = .identity) (reason : Text)
    («at» : Time) (origin : Origin) (record : Registration) :
    Seen record (setHold kind reason «at» origin record) := by
  rcases setHold_ok kind reason «at» origin record with ⟨review, workRequests, hset⟩
  rw [hset]
  constructor <;> first | rfl | exact .inr ⟨_, rfl, hkind⟩

theorem incident_seen {observation : Observation} {error : Text} {kind : IncidentKind}
    (h : incident w observation error kind record = .ok next) :
    Seen record next ∧ next.hold = record.hold := by
  rcases incident_ok h with ⟨cursor, incidents, _, rfl⟩
  exact ⟨by constructor <;> first | rfl | exact .inl rfl, rfl⟩

theorem observeIncomplete_seen {observation : Observation} {error : Text}
    (h : observeIncomplete w observation error record = .ok next) : Seen record next := by
  unfold observeIncomplete at h
  rcases bind_ok h with ⟨found, hfound, h⟩
  rcases incident_seen hfound with ⟨hseen, hhold⟩
  have hcounted : ∀ counters : Counters,
      Seen record { found with counters, readyFingerprint := none } := by
    intro counters
    refine Seen.after ?_ hseen hhold
    constructor <;> first | rfl | exact .inl rfl
  split at h
  · cases h
    exact (setHold_seen (.inl rfl) _ _ _ _).after (hcounted _) hhold
  · cases h
    exact (concludeReview_steady _ _ _ _).seen.after (hcounted _) hhold

theorem supersede_steady {observation : Observation}
    (h : supersede w observation record = .ok next) : Steady record next := by
  unfold supersede at h
  refine forBatches_keeps (Steady record) ?_ (.refl record) h
  intro batch changed next _ hchanged hturn
  split at hturn
  · exact hchanged.trans (settleBatch_steady hturn)
  · cases hturn
    exact hchanged

theorem resolveEffects_seen (observation : Observation) (record : Registration) :
    Seen record (resolveEffects w observation record) ∧
      (resolveEffects w observation record).hold = record.hold := by
  unfold resolveEffects
  dsimp only
  split
  · exact ⟨by constructor <;> first | rfl | exact .inl rfl, rfl⟩
  · exact ⟨by constructor <;> first | rfl | exact .inl rfl, rfl⟩

theorem resolveCapabilities_seen (observation : Observation) (alternate : Bool) (seen : Timestamp)
    (record : Registration) :
    Seen record (resolveCapabilities w observation alternate seen record) ∧
      (resolveCapabilities w observation alternate seen record).hold = record.hold := by
  unfold resolveCapabilities
  split
  · exact ⟨by constructor <;> first | rfl | exact .inl rfl, rfl⟩
  · exact ⟨.refl record, rfl⟩

theorem dropReadiness_seen (observation : Observation) (record : Registration) :
    Seen record (dropReadiness observation record) ∧
      (dropReadiness observation record).hold = record.hold := by
  unfold dropReadiness
  split
  · exact ⟨.refl record, rfl⟩
  · exact ⟨by constructor <;> first | rfl | exact .inl rfl, rfl⟩

theorem recordTerminal_seen (lifecycle : Lifecycle) (state : PrState) (seen : Time)
    (record : Registration) : Seen record (recordTerminal lifecycle state seen record) := by
  rcases concludeReview_ok .terminal seen (some (ofString "PR " ++ state.text))
    { record with lifecycle } with ⟨review, hreview⟩
  unfold recordTerminal
  dsimp only
  rw [hreview]
  constructor <;> first | rfl | exact .inl rfl

theorem concludeObservation_seen (observation : Observation) (alternate : Bool)
    (seen : Timestamp)
    (record : Registration) :
    Seen record (concludeObservation w observation alternate seen record) := by
  unfold concludeObservation
  dsimp only
  have hresolved : Seen record
        (if alternate then record else resolveEffects w observation record) ∧
      (if alternate then record else resolveEffects w observation record).hold = record.hold := by
    split
    · exact ⟨.refl record, rfl⟩
    · exact resolveEffects_seen observation record
  generalize (if alternate then record else resolveEffects w observation record) = resolved
    at hresolved
  rcases hresolved with ⟨hresolved, hhold⟩
  rcases resolveCapabilities_seen (w := w) observation alternate seen resolved with
    ⟨hcapable, hcapableHold⟩
  rcases dropReadiness_seen observation
    (resolveCapabilities w observation alternate seen resolved) with ⟨hdropped, hdroppedHold⟩
  have hall : Seen record (dropReadiness observation
      (resolveCapabilities w observation alternate seen resolved)) :=
    hdropped.after (hcapable.after hresolved hhold) (hcapableHold.trans hhold)
  have hallHold := hdroppedHold.trans (hcapableHold.trans hhold)
  split
  · exact hall
  · split
    · exact (recordTerminal_seen _ _ _ _).after hall hallHold
    · exact (recordTerminal_seen _ _ _ _).after hall hallHold
    · exact hall

theorem observe_seen {observation : Observation} {error : Text} {alternate : Bool}
    {seen latest : Timestamp} (h : observe w observation error alternate seen latest record = .ok next) :
    Seen record next := by
  have hattempted : Seen record
      (scheduled w observation seen latest (attempted observation seen latest record)) := by
    constructor <;> first | rfl | exact .inl rfl
  cases observe_read h with
  | waiting => constructor <;> first | rfl | exact .inl rfl
  | identity hfound =>
      rcases incident_seen hfound with ⟨hincident, hhold⟩
      exact (setHold_seen (.inr rfl) _ _ _ _).after (hincident.after hattempted rfl) hhold
  | effects _ hfound =>
      rcases incident_seen hfound with ⟨hincident, hhold⟩
      exact (concludeReview_steady _ _ _ _).seen.after (hincident.after hattempted rfl) hhold
  | incomplete _ hincomplete => exact (observeIncomplete_seen hincomplete).after hattempted rfl
  | complete _ hsuperseded =>
      have hsteady := supersede_steady hsuperseded
      have hobserved : Seen record (observed observation seen
          (scheduled w observation seen latest (attempted observation seen latest record))) := by
        constructor <;> first | rfl | exact .inl rfl
      exact (concludeObservation_seen observation alternate seen _).after
        (hsteady.seen.after hobserved rfl) hsteady.hold

end PrMaintenance

end CopilotFleet
