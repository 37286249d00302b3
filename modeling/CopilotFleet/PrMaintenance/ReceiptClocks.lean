import CopilotFleet.PrMaintenance.Wakes
import CopilotFleet.Lib.Run
import Mathlib.Tactic.Linarith

/-!
# When an Observation Was Made

A helper on a Node reads the provider and says when it did so, in its Node's
time. The Host asks which of two reads came later, and whether a read came too
late, in its own time. It knows the Node's clock from one sample only, which
was taken while the Host waited for the command to be prepared: the offset it
goes by (`hostClockOffsetMs`) takes the sample for the moment at which the Host
began to wait, so it may be off by as long as the Host waited, and in one
direction only. The Node's clock may have drifted since, in both.

`receiptTimes` therefore makes two moments of a read, one that it did not start
before and one that it did not start after, and meets them with what the Host
saw itself. An attempt is only followed by a read that did not start before the
latest moment of the one before.

## Main definitions

* `CommandRecords`: What the Host keeps of a command that is gone by.
* `clockEvidence`: What it makes of them, or why it does not go by them.
* `ReadMoments`: When a read was really made, and what the Node's clock showed.
* `ReceiptCall.Honest`: What is assumed of a Node and of the Host's own moments.
* `ReceiptCall.Sound`: The moments are right, and nothing newer is replaced.

## Theorems

* `receiptTimes_hold`: The read started between the two moments.
* `checkpoint_dated`: A receipt that is taken is the last attempt, with its moments, and what is
  promoted did not start before the attempt it follows.
* `receipts_in_order`: In every sequence of receipts, moments are right and nothing newer is
  replaced.
-/

namespace CopilotFleet

open Utf16 Refusal Timestamps

namespace PrMaintenance

/-! ### The clock of a command -/

/-- What the Host measured of a preparation. -/
structure PreparationClock where
  hostTime : Time
  acceptedAt : Option Time
  elapsedMs : Option Rat

/-- What the helper was allowed when its command was prepared. -/
structure ObservationBudget where
  deadlineAt : Time
  requests : Nat
deriving DecidableEq

/-- What of a command's descriptor its clock is in. -/
structure DescriptorBody where
  hostTime : Time
  preparedAt : Time
  hostClockOffsetMs : Int
  clockUncertaintyMs : Int
  observationBudget : Option ObservationBudget
deriving DecidableEq

/-- A descriptor, and its digest as what it is the digest of. -/
structure Descriptor extends DescriptorBody where
  digest : DescriptorBody

/-- What the Node said last of a command. -/
structure CommandReceipt where
  digest : DescriptorBody
  attemptId : Text
  startedAt : Option Time
  settledAt : Option Time

/-- What the Host keeps of a command. The receipt is the stored one, if it parses. -/
structure CommandRecords where
  createdAt : Time
  approvedAt : Option Time
  settledAt : Option Time
  descriptor : Option Descriptor
  preparationClock : Option PreparationClock
  receipt : Option CommandReceipt

/-- The command's clock is accounted for: the sample is of this preparation, the Host did
    not wait too long for it, and what ran is what was approved. -/
def clockProven (claim : ObservationClaim) (attemptId : Text) (approvedAt acceptedAt : Time)
    (descriptor : Descriptor) (proof : PreparationClock) (receipt : CommandReceipt) : Bool :=
  receipt.settledAt.isSome &&
    (proof.elapsedMs.any fun elapsed =>
      0 ≤ elapsed && elapsed ≤ (CommandLimits.clockUncertaintyMs : Rat)) &&
    proof.hostTime = descriptor.hostTime &&
    descriptor.clockUncertaintyMs = CommandLimits.clockUncertaintyMs &&
    descriptor.preparedAt + descriptor.hostClockOffsetMs = proof.hostTime &&
    proof.hostTime ≤ acceptedAt &&
    acceptedAt - proof.hostTime ≤ CommandLimits.clockUncertaintyMs &&
    acceptedAt ≤ approvedAt &&
    descriptor.observationBudget = some ⟨claim.deadlineAt, claim.requests⟩ &&
    descriptor.toDescriptorBody = descriptor.digest &&
    receipt.digest = descriptor.digest && receipt.attemptId = attemptId

/-- What the Host goes by of a command. -/
def clockEvidence (claim : ObservationClaim) (attemptId : Text) (records : CommandRecords) :
    Except WakeRefusal Evidence := do
  let some approvedAt := records.approvedAt | throw .receiptIncomplete
  let some proof := records.preparationClock | throw .receiptIncomplete
  let some acceptedAt := proof.acceptedAt | throw .receiptIncomplete
  let some descriptor := records.descriptor | throw .receiptIncomplete
  let some settledAt := records.settledAt | throw .receiptIncomplete
  let some receipt := records.receipt | throw .receiptClock
  let some receiptSettledAt := receipt.settledAt | throw .receiptClock
  if clockProven claim attemptId approvedAt acceptedAt descriptor proof receipt = false then
    throw .receiptClock
  return {
    createdAt := records.createdAt
    approvedAt
    acceptedAt
    settledAt
    preparedAt := descriptor.preparedAt
    startedAt := receipt.startedAt
    receiptSettledAt
    hostClockOffsetMs := descriptor.hostClockOffsetMs }

/-! ### What a read changes of the last attempt -/

/-- Nothing is changed of the last attempt's moments, nor of what was promoted last. -/
structure Aside (record next : Registration) : Prop where
  attemptedAt : next.lastAttemptAt = record.lastAttemptAt
  latestAt : next.lastAttemptLatestAt = record.lastAttemptLatestAt
  observation : next.observation = record.observation
  hostAt : next.observationHostAt = record.observationHostAt
  successAt : next.lastSuccessAt = record.lastSuccessAt

variable {w : World} {record next : Registration}

theorem Aside.refl (record : Registration) : Aside record record := ⟨rfl, rfl, rfl, rfl, rfl⟩

theorem Aside.trans {a b c : Registration} (hab : Aside a b) (hbc : Aside b c) : Aside a c where
  attemptedAt := hbc.attemptedAt.trans hab.attemptedAt
  latestAt := hbc.latestAt.trans hab.latestAt
  observation := hbc.observation.trans hab.observation
  hostAt := hbc.hostAt.trans hab.hostAt
  successAt := hbc.successAt.trans hab.successAt

theorem Aside.after {a b c : Registration} (hbc : Aside b c) (hab : Aside a b) : Aside a c :=
  hab.trans hbc

theorem requestReview_aside (source : ReviewSource) («at» : Time) (actorId : Option Text)
    (record : Registration) : Aside record (requestReview w source «at» actorId record) := by
  unfold requestReview
  split <;> exact ⟨rfl, rfl, rfl, rfl, rfl⟩

theorem concludeReview_aside (outcome : ReviewOutcome) («at» : Time) (summary : Option Text)
    (record : Registration) : Aside record (concludeReview outcome «at» summary record) := by
  unfold concludeReview
  split
  · exact .refl record
  · split <;> exact ⟨rfl, rfl, rfl, rfl, rfl⟩

theorem setHold_aside (kind : HoldKind) (reason : Text) («at» : Time) (origin : Origin)
    (record : Registration) : Aside record (setHold kind reason «at» origin record) := by
  rcases setHold_ok kind reason «at» origin record with ⟨review, workRequests, hset⟩
  rw [hset]
  exact ⟨rfl, rfl, rfl, rfl, rfl⟩

theorem incident_aside {observation : Observation} {error : Text} {kind : IncidentKind}
    (h : incident w observation error kind record = .ok next) : Aside record next := by
  rcases incident_ok h with ⟨cursor, incidents, _, rfl⟩
  exact ⟨rfl, rfl, rfl, rfl, rfl⟩

theorem observeIncomplete_aside {observation : Observation} {error : Text}
    (h : observeIncomplete w observation error record = .ok next) : Aside record next := by
  unfold observeIncomplete at h
  rcases bind_ok h with ⟨found, hfound, h⟩
  have hfound := incident_aside hfound
  dsimp only at h
  split at h
  · cases h
    exact hfound.trans ((setHold_aside _ _ _ _ _).after ⟨rfl, rfl, rfl, rfl, rfl⟩)
  · cases h
    exact hfound.trans ((concludeReview_aside _ _ _ _).after ⟨rfl, rfl, rfl, rfl, rfl⟩)

theorem settleWith_aside {raise : Decision → Registration → Except Refusal Registration}
    (hraise : ∀ decision record next, raise decision record = .ok next → Aside record next)
    {supersedeUnsent : Bool} {update : Settlement}
    (h : settleWith w raise supersedeUnsent update record = .ok next) : Aside record next := by
  rcases settleWith_ok h with ⟨batch, _, _, _, hsettled | hsettled⟩
  · rw [hsettled.2.2.2]
    exact .refl record
  · rcases hsettled with ⟨_, _, _, _, _, _, hconcluded⟩
    rcases concludeSettlement_ok hconcluded with
      ⟨asked, looped, forgot, hasked, hforgot, hlooped, hnext⟩
    have hasked : Aside record asked := by
      rcases hasked with heq | ⟨_, decision, hraised⟩
      · rw [heq]
        exact ⟨rfl, rfl, rfl, rfl, rfl⟩
      · exact (hraise _ _ _ hraised).after ⟨rfl, rfl, rfl, rfl, rfl⟩
    have hforgot : Aside asked forgot := by
      rw [hforgot]
      unfold forgetAttempt
      split <;> exact ⟨rfl, rfl, rfl, rfl, rfl⟩
    have hlooped : Aside forgot looped := by
      rcases hlooped with heq | ⟨_, _, decision, hraised⟩
      · rw [heq]
        exact .refl forgot
      · exact hraise _ _ _ hraised
    have hreviewed : Aside looped next := by
      rw [hnext]
      unfold reviewResult
      split
      · exact requestReview_aside _ _ _ looped
      · exact .refl looped
    exact hasked.trans (hforgot.trans (hlooped.trans hreviewed))

theorem raiseDecision_aside {decision : Decision}
    (h : raiseDecision w decision record = .ok next) : Aside record next := by
  have hasked : Aside record { record with
      decisionHistory := record.decisionHistory ++ record.decision.toList
      decision := some { decision with
        state := .pending
        operatorId := none
        direction := none
        resolvedAt := none }
      readyFingerprint := none } := ⟨rfl, rfl, rfl, rfl, rfl⟩
  refine forBatches_keeps (Aside record) ?_ (hasked.trans (concludeReview_aside _ _ _ _)) h
  intro batch changed next _ hchanged hturn
  split at hturn
  · refine hchanged.trans (settleWith_aside (fun _ record _ h => ?_) hturn)
    cases h
    exact .refl record
  · cases hturn
    exact hchanged

theorem supersede_aside {observation : Observation}
    (h : supersede w observation record = .ok next) : Aside record next := by
  refine forBatches_keeps (Aside record) ?_ (.refl record) h
  intro batch changed next _ hchanged hturn
  split at hturn
  · exact hchanged.trans (settleWith_aside (fun _ _ _ => raiseDecision_aside) hturn)
  · cases hturn
    exact hchanged

theorem recordTerminal_aside (lifecycle : Lifecycle) (state : PrState) (seen : Time)
    (record : Registration) : Aside record (recordTerminal lifecycle state seen record) := by
  have hconcluded := concludeReview_aside .terminal seen (some (ofString "PR " ++ state.text))
    { record with lifecycle }
  exact ⟨hconcluded.attemptedAt, hconcluded.latestAt, hconcluded.observation, hconcluded.hostAt,
    hconcluded.successAt⟩

theorem concludeObservation_aside (observation : Observation) (alternate : Bool)
    (seen : Timestamp)
    (record : Registration) :
    Aside record (concludeObservation w observation alternate seen record) := by
  unfold concludeObservation
  dsimp only
  have hresolved : Aside record
      (if alternate then record else resolveEffects w observation record) := by
    unfold resolveEffects
    split
    · exact .refl record
    · dsimp only
      split <;> exact ⟨rfl, rfl, rfl, rfl, rfl⟩
  generalize (if alternate then record else resolveEffects w observation record) = resolved
    at hresolved
  have hall : Aside record
      (dropReadiness observation (resolveCapabilities w observation alternate seen resolved)) := by
    have hcapable : Aside resolved
        (resolveCapabilities w observation alternate seen resolved) := by
      unfold resolveCapabilities
      split <;> exact ⟨rfl, rfl, rfl, rfl, rfl⟩
    refine hresolved.trans (hcapable.trans ?_)
    unfold dropReadiness
    split <;> exact ⟨rfl, rfl, rfl, rfl, rfl⟩
  split
  · exact hall
  · split
    · exact hall.trans (recordTerminal_aside _ _ _ _)
    · exact hall.trans (recordTerminal_aside _ _ _ _)
    · exact hall

/-- What was promoted last: the observation, and when it was made and taken. -/
def Registration.promotion (record : Registration) :
    Option Observation × Option Timestamp × Option Timestamp :=
  (record.observation, record.observationHostAt, record.lastSuccessAt)

/-- The moment that a read must not start before, if it is to follow the last attempt. -/
def Registration.attemptLatest (record : Registration) : Option Timestamp :=
  record.lastAttemptLatestAt.or record.lastAttemptAt

theorem Aside.promotion (h : Aside record next) : next.promotion = record.promotion := by
  unfold Registration.promotion
  rw [h.observation, h.hostAt, h.successAt]

theorem Aside.attemptLatest (h : Aside record next) :
    next.attemptLatest = record.attemptLatest := by
  unfold Registration.attemptLatest
  rw [h.attemptedAt, h.latestAt]

/-- The read is the last attempt, with its moments. -/
structure Attempted (seen latest : Timestamp) (record : Registration) : Prop where
  seen : record.lastAttemptAt = some seen
  latest : record.attemptLatest = some latest

theorem attempted_attempted (observation : Observation) (seen latest : Timestamp)
    (record : Registration) : Attempted seen latest (attempted observation seen latest record) := by
  refine ⟨rfl, ?_⟩
  unfold Registration.attemptLatest attempted
  by_cases hsame : latest = seen
  · simp [hsame]
  · simp [hsame]

theorem Attempted.aside {seen latest : Timestamp} (h : Attempted seen latest record)
    (haside : Aside record next) : Attempted seen latest next :=
  ⟨haside.attemptedAt.trans h.seen, haside.attemptLatest.trans h.latest⟩

/-- An observation is the last attempt, and it did not start before the one it follows. -/
theorem observe_attempted {observation : Observation} {error : Text} {alternate : Bool}
    {seen latest : Timestamp}
    (h : observe w observation error alternate seen latest record = .ok next) :
    Attempted seen latest next ∧ ∀ last, record.attemptLatest = some last → ¬seen < last := by
  constructor
  · have hscheduled : Attempted seen latest
        (scheduled w observation seen latest (attempted observation seen latest record)) :=
      (attempted_attempted observation seen latest record).aside ⟨rfl, rfl, rfl, rfl, rfl⟩
    cases observe_read h with
    | waiting =>
        exact (attempted_attempted observation seen latest record).aside ⟨rfl, rfl, rfl, rfl, rfl⟩
    | identity hfound =>
        exact (hscheduled.aside (incident_aside hfound)).aside (setHold_aside _ _ _ _ _)
    | effects _ hfound =>
        exact (hscheduled.aside (incident_aside hfound)).aside (concludeReview_aside _ _ _ _)
    | incomplete _ hincomplete => exact hscheduled.aside (observeIncomplete_aside hincomplete)
    | complete _ hsuperseded =>
        have hobserved : Attempted seen latest (observed observation seen
            (scheduled w observation seen latest (attempted observation seen latest record))) :=
          ⟨hscheduled.seen, hscheduled.latest⟩
        exact (hobserved.aside (supersede_aside hsuperseded)).aside
          (concludeObservation_aside _ _ _ _)
  · intro last hlast
    unfold observe at h
    rcases unless_ok h with ⟨_, h⟩
    rcases unless_ok h with ⟨hearlier, _⟩
    unfold Registration.attemptLatest at hlast
    rw [hlast] at hearlier
    simpa using hearlier

theorem write_aside (h : write w record = .ok next) : Aside record next := by
  unfold write at h
  rcases unless_ok h with ⟨_, h⟩
  rcases bind_ok h with ⟨archived, harchived, h⟩
  rcases unless_ok h with ⟨_, h⟩
  rcases unless_ok h with ⟨_, h⟩
  rcases unless_ok h with ⟨_, h⟩
  have haside : Aside record archived := by
    unfold archiveManualCommands at harchived
    split at harchived
    · cases harchived
      exact ⟨rfl, rfl, rfl, rfl, rfl⟩
    · rcases bind_ok harchived with ⟨commands, _, harchived⟩
      cases harchived
      exact ⟨rfl, rfl, rfl, rfl, rfl⟩
  cases h
  exact haside.trans ⟨rfl, rfl, rfl, rfl, rfl⟩

theorem save_aside (h : save w record = .ok next) : Aside record next :=
  (write_aside h).after ⟨rfl, rfl, rfl, rfl, rfl⟩

/-- A receipt that is taken is the last attempt, with its moments. What it promotes was
    read no earlier than the attempt it follows. -/
theorem checkpoint_dated {store : Store} {leadSessionId : Text} {expectedVersion : Nat}
    {receipt : ObservationReceipt} (hnew : receipt.recorded = false) {result : Option Registration}
    (h : checkpointObservationReceipt w store leadSessionId expectedVersion receipt record =
      .ok result) :
    ∃ next, result = some next ∧
      Attempted receipt.hostAttemptedAt receipt.hostLatestAt next ∧
      (next.promotion ≠ record.promotion →
        receipt.late = false ∧
          ∀ last, record.attemptLatest = some last → ¬receipt.hostAttemptedAt < last) := by
  unfold checkpointObservationReceipt at h
  rw [hnew, if_neg Bool.false_ne_true] at h
  rcases unless_ok h with ⟨_, h⟩
  rcases unless_ok h with ⟨_, h⟩
  split at h
  · rename_i htaken
    rcases bind_ok h with ⟨seen, hseen, h⟩
    rcases map_ok h with ⟨saved, hsaved, rfl⟩
    rcases observe_attempted hseen with ⟨hattempted, hfollows⟩
    refine ⟨saved, rfl, ?_, fun _ => ⟨htaken.1, hfollows⟩⟩
    refine Attempted.aside ?_ (save_aside hsaved)
    have hreleased : Aside seen (releaseTerminal w seen) := by
      unfold releaseTerminal
      split <;> exact ⟨rfl, rfl, rfl, rfl, rfl⟩
    split
    · exact (hattempted.aside hreleased).aside ⟨rfl, rfl, rfl, rfl, rfl⟩
    · exact hattempted.aside hreleased
  · rcases map_ok h with ⟨saved, hsaved, rfl⟩
    have haside := save_aside hsaved
    refine ⟨saved, rfl, ?_, fun hpromoted => absurd ?_ hpromoted⟩
    · have hattempted : Attempted receipt.hostAttemptedAt receipt.hostLatestAt
          { attempted receipt.observation receipt.hostAttemptedAt receipt.hostLatestAt record with
            readyFingerprint := none } :=
        (attempted_attempted receipt.observation _ _ record).aside ⟨rfl, rfl, rfl, rfl, rfl⟩
      exact hattempted.aside haside
    · exact haside.promotion

/-! ### When a read was really made -/

/-- When a read was really made, in the Host's time, and what the Node's clock showed. -/
structure ReadMoments where
  /-- What the Node's clock shows at a moment. -/
  nodeWall : Time → Time
  /-- The sample that the preparation was answered with. -/
  preparedAt : Time
  startedAt : Time
  finishedAt : Time

/-- From the preparation to the end of the read, the Node's clock is no further from this
    offset than it may drift. -/
def ReadMoments.Steady (read : ReadMoments) (offset : Int) : Prop :=
  ∀ moment, read.preparedAt ≤ moment → moment ≤ read.finishedAt →
    moment + offset - CommandLimits.clockDriftMs ≤ read.nodeWall moment ∧
      read.nodeWall moment ≤ moment + offset + CommandLimits.clockDriftMs

/-- How far the Node's clock was ahead when the sample was taken. -/
def ReadMoments.offset (read : ReadMoments) : Int := read.nodeWall read.preparedAt - read.preparedAt

/-- What is assumed of a command that made a read, and of the reservation it was for. The
    Host's moments are in the order of what they are the moments of, and a command starts
    only when it is approved. -/
structure Honest (claim : ObservationClaim) (evidence : Evidence) (hostTime : Time)
    (observation : Observation) (now : Time) (read : ReadMoments) : Prop where
  prepared : evidence.preparedAt = read.nodeWall read.preparedAt
  sampled : hostTime ≤ read.preparedAt ∧ read.preparedAt ≤ evidence.acceptedAt
  reserved : claim.claimedAt ≤ evidence.createdAt
  created : evidence.createdAt ≤ evidence.approvedAt
  approved : evidence.approvedAt ≤ read.startedAt
  ordered : read.startedAt ≤ read.finishedAt
  settled : read.startedAt ≤ evidence.settledAt
  past : read.startedAt ≤ now
  attempted : observation.attemptedAt.instant = read.nodeWall read.startedAt
  /-- The helper measures how long it took by the Node's clock, and rounds up. -/
  finished : read.nodeWall read.finishedAt ≤ observation.attemptedAt.instant + observation.elapsedMs

/-- What the Host goes by, and when it began to wait for the preparation. -/
theorem clockEvidence_ok {claim : ObservationClaim} {attemptId : Text} {records : CommandRecords}
    {evidence : Evidence} (h : clockEvidence claim attemptId records = .ok evidence) :
    ∃ proof, records.preparationClock = some proof ∧
      evidence.preparedAt + evidence.hostClockOffsetMs = proof.hostTime ∧
      evidence.acceptedAt - proof.hostTime ≤ CommandLimits.clockUncertaintyMs ∧
      evidence.acceptedAt ≤ evidence.approvedAt := by
  unfold clockEvidence at h
  -- Any record that is missing refuses the evidence.
  cases happroved : records.approvedAt with
  | none =>
      rw [happroved] at h
      cases h
  | some approvedAt =>
  cases hproof : records.preparationClock with
  | none =>
      rw [happroved, hproof] at h
      cases h
  | some proof =>
  cases haccepted : proof.acceptedAt with
  | none =>
      simp only [happroved, hproof, haccepted] at h
      cases h
  | some acceptedAt =>
  cases hdescriptor : records.descriptor with
  | none =>
      simp only [happroved, hproof, haccepted, hdescriptor] at h
      cases h
  | some descriptor =>
  cases hsettled : records.settledAt with
  | none =>
      simp only [happroved, hproof, haccepted, hdescriptor, hsettled] at h
      cases h
  | some settledAt =>
  cases hreceipt : records.receipt with
  | none =>
      simp only [happroved, hproof, haccepted, hdescriptor, hsettled, hreceipt] at h
      cases h
  | some receipt =>
  cases hended : receipt.settledAt with
  | none =>
      simp only [happroved, hproof, haccepted, hdescriptor, hsettled, hreceipt, hended] at h
      cases h
  | some receiptSettledAt =>
      simp only [happroved, hproof, haccepted, hdescriptor, hsettled, hreceipt, hended] at h
      rcases unless_ok h with ⟨hproven, h⟩
      cases h
      unfold clockProven at hproven
      simp only [Bool.not_eq_false, Bool.and_eq_true, decide_eq_true_eq] at hproven
      refine ⟨proof, rfl, ?_, ?_, ?_⟩ <;> tauto

section Times

variable {claim : ObservationClaim} {evidence : Evidence} {observation : Observation}

/-- What moments are made of a read that is taken. -/
theorem receiptTimes_ok {w : Turn} {seen latest : Time} {late : Bool}
    (h : receiptTimes w claim evidence observation = .ok (seen, latest, late)) :
    seen = max (max (observation.attemptedAt.instant + evidence.hostClockOffsetMs -
        CommandLimits.clockDriftMs) claim.claimedAt) (max evidence.createdAt evidence.approvedAt) ∧
      latest = min (min (observation.attemptedAt.instant + evidence.hostClockOffsetMs +
        (CommandLimits.clockUncertaintyMs + CommandLimits.clockDriftMs)) evidence.settledAt)
          w.now ∧
      late = decide (claim.deadlineAt < observation.attemptedAt.instant + evidence.hostClockOffsetMs +
        observation.elapsedMs +
          (CommandLimits.clockUncertaintyMs + CommandLimits.clockDriftMs)) ∧
      ¬(observation.complete = true ∧ late = true) := by
  unfold receiptTimes at h
  dsimp only at h
  split at h
  · cases h
  · rename_i hallowed
    cases h
    refine ⟨rfl, rfl, rfl, fun hlate => hallowed ?_⟩
    simp only [hlate, and_self, or_true]

/-- A moment from the preparation to the end of the read is, by the Node's clock and the
    Host's offset, no later than it seems but for the drift, and no earlier than it seems but
    for the drift and the wait. -/
theorem ReadMoments.Steady.between {read : ReadMoments} (hsteady : read.Steady read.offset)
    {hostTime moment : Int} (hsent : hostTime ≤ read.preparedAt)
    (hwaited : read.preparedAt - hostTime ≤ CommandLimits.clockUncertaintyMs)
    (hfrom : read.preparedAt ≤ moment) (hto : moment ≤ read.finishedAt) :
    read.nodeWall moment + (hostTime - read.nodeWall read.preparedAt) -
        CommandLimits.clockDriftMs ≤ moment ∧
      moment ≤ read.nodeWall moment + (hostTime - read.nodeWall read.preparedAt) +
        (CommandLimits.clockUncertaintyMs + CommandLimits.clockDriftMs) := by
  rcases hsteady moment hfrom hto with ⟨hlow, hhigh⟩
  unfold ReadMoments.offset at hlow hhigh
  constructor <;> linarith

/-- The read started between the two moments, and what is complete did not finish after the
    deadline of its reservation. -/
theorem receiptTimes_hold {w : Turn} {attemptId : Text} {records : CommandRecords}
    {proof : PreparationClock} {read : ReadMoments} {seen latest : Time} {late : Bool}
    (hevidence : clockEvidence claim attemptId records = .ok evidence)
    (hproof : records.preparationClock = some proof)
    (hhonest : Honest claim evidence proof.hostTime observation w.now read)
    (hsteady : read.Steady read.offset)
    (h : receiptTimes w claim evidence observation = .ok (seen, latest, late)) :
    seen ≤ read.startedAt ∧ read.startedAt ≤ latest ∧
      (observation.complete = true → read.finishedAt ≤ claim.deadlineAt) := by
  rcases clockEvidence_ok hevidence with ⟨found, hfound, hoffset, hwaited, haccepted⟩
  rw [hproof] at hfound
  cases hfound
  rcases receiptTimes_ok h with ⟨hseen, hlatest, hlate, hcomplete⟩
  have hshift : evidence.hostClockOffsetMs = proof.hostTime - read.nodeWall read.preparedAt := by
    rw [← hhonest.prepared, ← hoffset, add_sub_cancel_left]
  have hwait : read.preparedAt - proof.hostTime ≤ CommandLimits.clockUncertaintyMs :=
    le_trans (sub_le_sub_right hhonest.sampled.2 _) hwaited
  have hafter : read.preparedAt ≤ read.startedAt :=
    le_trans hhonest.sampled.2 (le_trans haccepted hhonest.approved)
  rcases hsteady.between hhonest.sampled.1 hwait hafter hhonest.ordered with ⟨hlow, hhigh⟩
  rw [← hhonest.attempted, ← hshift] at hlow hhigh
  refine ⟨?_, ?_, fun hdone => ?_⟩
  · rw [hseen]
    refine max_le (max_le hlow ?_) (max_le ?_ hhonest.approved)
    · exact le_trans hhonest.reserved (le_trans hhonest.created hhonest.approved)
    · exact le_trans hhonest.created hhonest.approved
  · rw [hlatest]
    exact le_min (le_min hhigh hhonest.settled) hhonest.past
  · have hnot : late = false := by simpa [hdone] using hcomplete
    rw [hnot] at hlate
    have hwithin := not_lt.mp (of_decide_eq_false hlate.symm)
    have hend := (hsteady.between hhonest.sampled.1 hwait (le_trans hafter hhonest.ordered)
      le_rfl).2
    rw [← hshift] at hend
    have hfinished := hhonest.finished
    refine le_trans ?_ hwithin
    linarith

end Times

/-! ### Sequences of receipts -/

/-- A receipt for one registration, with what the Host keeps of its command and when its
    read was really made. -/
structure ReceiptCall where
  turn : Turn
  leadSessionId : Text
  expectedVersion : Nat
  executionId : Text
  observation : Observation
  records : CommandRecords
  /-- What is gone by is what the records prove, whatever else is looked at. -/
  evidence_clock : ∀ execution claim record observation evidence,
    turn.evidence execution claim record observation = .ok evidence →
      clockEvidence claim execution.attemptId records = .ok evidence
  read : ReadMoments

/-- The registry, and the read that the registration's last attempt was. -/
structure Receipts where
  registry : Registry
  lastRead : Option ReadMoments := none

/-- The reservation that a command was for. -/
def ReceiptCall.claim (call : ReceiptCall) (s : Receipts) : Option ObservationClaim :=
  (call.turn.execution call.executionId).bind fun execution =>
    (observationExecution call.turn execution s.registry.store s.registry.wakes).toOption.map
      (·.claim)

/-- What the receipt comes to. -/
def ReceiptCall.taken (recordId : Text) (call : ReceiptCall) (s : Receipts) :
    Option (WakeKey × Store × Wakes) :=
  (acceptReceipt call.turn call.leadSessionId recordId call.expectedVersion call.executionId
    call.observation s.registry.store s.registry.wakes).toOption.join

/-- The registry after a receipt. A receipt that is taken is the last attempt. -/
def Receipts.step (recordId : Text) (s : Receipts) (call : ReceiptCall) : Receipts where
  registry := WakeCall.step s.registry (call.turn, .checkpointObservationReceipt
    call.leadSessionId recordId call.expectedVersion call.executionId call.observation)
  lastRead := if (call.taken recordId s).isSome then some call.read else s.lastRead

/-- What is assumed of a receipt, with what its Node's clock keeps to. -/
def ReceiptCall.Honest (steady : ReadMoments → Prop) (s : Receipts) (call : ReceiptCall) : Prop :=
  steady call.read ∧ ∀ claim attemptId evidence proof, call.claim s = some claim →
    clockEvidence claim attemptId call.records = .ok evidence →
      call.records.preparationClock = some proof →
        PrMaintenance.Honest claim evidence proof.hostTime call.observation call.turn.now call.read

/-- The moments of a receipt that is taken are right, and what it promotes started no earlier
    than the last attempt and, where it is complete, finished in time. -/
def ReceiptCall.Sound (recordId : Text) (s : Receipts) (call : ReceiptCall) : Prop :=
  (call.taken recordId s).isSome = true → ∃ record next claim seen latest,
    s.registry.store.records.get recordId = some record ∧
    (s.step recordId call).registry.store.records.get recordId = some next ∧
    call.claim s = some claim ∧
    next.lastAttemptAt = some (toISOString seen) ∧
    next.attemptLatest = some (toISOString latest) ∧
    seen ≤ call.read.startedAt ∧ call.read.startedAt ≤ latest ∧
    (next.promotion ≠ record.promotion →
      (∀ last, s.lastRead = some last → last.startedAt ≤ call.read.startedAt) ∧
      (call.observation.complete = true → call.read.finishedAt ≤ claim.deadlineAt))

/-- The last attempt's read started no later than the registration says. -/
def Receipts.Dated (recordId : Text) (s : Receipts) : Prop :=
  ∀ record last, s.registry.store.records.get recordId = some record → s.lastRead = some last →
    ∃ latest, record.attemptLatest = some latest ∧ last.startedAt ≤ latest.instant

/-- A receipt that is taken is the receipt of a reservation, in the time that its command's
    records prove. -/
theorem acceptReceipt_taken {w : Turn} {store : Store} {wakes : Wakes}
    {leadSessionId recordId : Text} {expectedVersion : Nat} {executionId : Text}
    {observation : Observation} {key : WakeKey} {next : Store} {after : Wakes}
    (h : acceptReceipt w leadSessionId recordId expectedVersion executionId observation store
      wakes = .ok (some (key, next, after))) :
    ∃ execution reserved evidence seen latest late,
      w.execution executionId = some execution ∧
      observationExecution w execution store wakes = .ok reserved ∧
      w.evidence execution reserved.claim reserved.record observation = .ok evidence ∧
      receiptTimes w reserved.claim evidence observation = .ok (seen, latest, late) ∧
      run w.toWorld (.checkpointObservationReceipt leadSessionId recordId expectedVersion {
        observation
        recorded := false
        hostAttemptedAt := toISOString seen
        hostLatestAt := toISOString latest
        late }) store = .ok next := by
  unfold acceptReceipt at h
  cases hexecution : w.execution executionId with
  | none =>
      rw [hexecution] at h
      cases h
  | some execution =>
      rw [hexecution] at h
      rcases unless_ok h with ⟨_, h⟩
      rcases bind_ok h with ⟨reserved, hreserved, h⟩
      rcases unless_ok h with ⟨_, h⟩
      rcases bind_ok h with ⟨evidence, hevidence, h⟩
      rcases bind_ok h with ⟨⟨seen, latest, late⟩, htimes, h⟩
      cases hreceipt : reserved.claim.receipt with
      | some accepted =>
          rw [hreceipt] at h
          rcases unless_ok h with ⟨_, h⟩
          cases h
      | none =>
          rw [hreceipt] at h
          rcases bind_ok h with ⟨saved, hsaved, h⟩
          rcases bind_ok h with ⟨written, _, h⟩
          cases h
          exact ⟨execution, reserved, evidence, seen, latest, late, rfl, hreserved, hevidence,
            htimes, fromRegistry_ok hsaved⟩

/-- What a receipt changes of its registration. -/
theorem run_receipt {w : World} {store after : Store} {leadSessionId recordId : Text}
    {expectedVersion : Nat} {receipt : ObservationReceipt} (hnew : receipt.recorded = false)
    (h : run w (.checkpointObservationReceipt leadSessionId recordId expectedVersion receipt)
      store = .ok after) :
    ∃ record next, store.records.get recordId = some record ∧
      after.records.get recordId = some next ∧
      Attempted receipt.hostAttemptedAt receipt.hostLatestAt next ∧
      (next.promotion ≠ record.promotion → receipt.late = false ∧
        ∀ last, record.attemptLatest = some last → ¬receipt.hostAttemptedAt < last) := by
  have h : updateOwned leadSessionId recordId (checkpointObservationReceipt w store leadSessionId
    expectedVersion receipt) store = .ok after := h
  unfold updateOwned update at h
  cases hget : store.records.get recordId with
  | none =>
      rw [hget] at h
      cases h
  | some record =>
      rw [hget] at h
      rcases bind_ok h with ⟨result, hchange, h⟩
      dsimp only at hchange
      split at hchange
      · cases hchange
      · have hacts := checkpointObservationReceipt_acts hchange
        rcases checkpoint_dated hnew hchange with ⟨next, rfl, hattempted, hpromoted⟩
        cases h
        refine ⟨record, next, rfl, ?_, hattempted, hpromoted⟩
        have hid : next.id = recordId :=
          (hacts next rfl).id_eq.trans (store.keyed recordId record hget)
        rw [get_put, if_pos hid.symm]

/-- What was taken, as the receipt of a command. -/
theorem ReceiptCall.taken_ok {recordId : Text} {call : ReceiptCall} {s : Receipts}
    (h : (call.taken recordId s).isSome = true) :
    ∃ key store wakes,
      acceptReceipt call.turn call.leadSessionId recordId call.expectedVersion call.executionId
        call.observation s.registry.store s.registry.wakes = .ok (some (key, store, wakes)) ∧
      (s.step recordId call).registry.store = store ∧
      (s.step recordId call).lastRead = some call.read := by
  have htaken := h
  unfold ReceiptCall.taken at h
  cases haccepted : acceptReceipt call.turn call.leadSessionId recordId call.expectedVersion
      call.executionId call.observation s.registry.store s.registry.wakes with
  | error refusal =>
      rw [haccepted] at h
      cases h
  | ok found =>
      cases found with
      | none =>
          rw [haccepted] at h
          cases h
      | some found =>
          rcases found with ⟨key, store, wakes⟩
          refine ⟨key, store, wakes, rfl, ?_, if_pos htaken⟩
          show (WakeCall.step s.registry (call.turn, .checkpointObservationReceipt _ _ _ _ _)).store
            = store
          have hdone : perform call.turn (.checkpointObservationReceipt call.leadSessionId recordId
              call.expectedVersion call.executionId call.observation) s.registry =
                .ok ⟨store, wakes, s.registry.log ++
                  [(key, .accepted recordId call.observation)]⟩ := by
            show (acceptReceipt _ _ _ _ _ _ _ _ >>= _) = _
            rw [haccepted]
            rfl
          unfold WakeCall.step
          simp only [hdone]

/-- A receipt that is not taken leaves everything as it was. -/
theorem Receipts.step_of_untaken {recordId : Text} {call : ReceiptCall} {s : Receipts}
    (h : (call.taken recordId s).isSome = false) : s.step recordId call = s := by
  have hregistry : WakeCall.step s.registry (call.turn, .checkpointObservationReceipt
      call.leadSessionId recordId call.expectedVersion call.executionId call.observation) =
        s.registry := by
    unfold ReceiptCall.taken at h
    unfold WakeCall.step perform
    dsimp only
    cases haccepted : acceptReceipt call.turn call.leadSessionId recordId call.expectedVersion
        call.executionId call.observation s.registry.store s.registry.wakes with
    | error refusal => rfl
    | ok found =>
        cases found with
        | none => rfl
        | some found =>
            rw [haccepted] at h
            cases h
  unfold Receipts.step
  rw [hregistry, h]
  rfl

/-- One receipt: its moments are right, and it replaces nothing that was read later. -/
theorem ReceiptCall.sound {recordId : Text} {call : ReceiptCall} {s : Receipts}
    (hs : s.Dated recordId) (hhonest : call.Honest (fun read => read.Steady read.offset) s) :
    call.Sound recordId s := by
  intro htaken
  rcases call.taken_ok htaken with ⟨key, store, wakes, haccepted, hstore, _⟩
  rcases acceptReceipt_taken haccepted with ⟨execution, reserved, evidence, seen, latest, late,
    hexecution, hreserved, hevidence, htimes, hrun⟩
  have hclaim : call.claim s = some reserved.claim := by
    unfold ReceiptCall.claim
    rw [hexecution, Option.bind_some, hreserved]
    rfl
  have hclock := call.evidence_clock _ _ _ _ _ hevidence
  rcases clockEvidence_ok hclock with ⟨proof, hproof, _⟩
  rcases receiptTimes_hold hclock hproof
    (hhonest.2 _ _ _ _ hclaim hclock hproof) hhonest.1 htimes with ⟨hseen, hlatest, hdeadline⟩
  rcases run_receipt rfl hrun with ⟨record, next, hget, hnext, hattempted, hpromoted⟩
  refine ⟨record, next, reserved.claim, seen, latest, hget, ?_, hclaim, hattempted.seen,
    hattempted.latest, hseen, hlatest, fun hchanged => ⟨fun last hlast => ?_, hdeadline⟩⟩
  · rw [hstore]
    exact hnext
  · -- The last attempt's read started by its latest moment, and this one not before it.
    rcases hs record last hget hlast with ⟨earlier, hearlier, hstarted⟩
    have hearlier := instant_le_of_not_lt ((hpromoted hchanged).2 earlier hearlier)
    exact le_trans hstarted (le_trans hearlier hseen)

theorem Receipts.step_dated {recordId : Text} {call : ReceiptCall} {s : Receipts}
    (hs : s.Dated recordId) (hhonest : call.Honest (fun read => read.Steady read.offset) s) :
    (s.step recordId call).Dated recordId := by
  by_cases htaken : (call.taken recordId s).isSome = true
  · rcases call.sound hs hhonest htaken with ⟨_, next, _, _, latest, _, hget, _, _, hattempt, _,
      hlatest, _⟩
    rcases call.taken_ok htaken with ⟨_, _, _, _, _, hread⟩
    intro record last hrecord hlast
    rw [hget] at hrecord
    rw [hread] at hlast
    cases hrecord
    cases hlast
    refine ⟨toISOString latest, hattempt, ?_⟩
    rw [instant_toISOString]
    exact hlatest
  · rw [s.step_of_untaken (Bool.eq_false_iff.mpr htaken)]
    exact hs

/-- In every sequence of receipts for a registration, the moments of each that is taken are
    right, and what is promoted started no earlier than the last attempt and, where it is
    complete, finished in time; if no Node's clock drifts further than is allowed from where
    it was when it was sampled. -/
theorem receipts_in_order (recordId : Text) (calls : List ReceiptCall) (s : Receipts)
    (hs : s.Dated recordId)
    (hhonest : Run.Admits (Receipts.step recordId)
      (fun s call => call.Honest (fun read => read.Steady read.offset) s) s calls) :
    Run.Admits (Receipts.step recordId) (fun s call => call.Sound recordId s) s calls := by
  induction calls generalizing s with
  | nil => trivial
  | cons call rest ih =>
      exact ⟨call.sound hs hhonest.1, ih _ (Receipts.step_dated hs hhonest.1) hhonest.2⟩

/-! ### A helper's read -/

/-- A lead's turn, in which an observation was reserved for a helper's command. -/
def helperKey (turn : Text) : WakeKey := ⟨ofString "lead", turn⟩

def first : Text := ofString "first"

def second : Text := ofString "second"

def helperExecution (turn : Text) : Execution where
  id := turn
  attemptId := ofString "attempt"
  leadSessionId := ofString "lead"
  taskId := none
  maintenanceObservation := some ⟨ofString "record", 1, turn⟩

/-- What the Host keeps of a command that read at a moment, where the Node's clock shows this. -/
def helperRecords (nodeWall : Time → Time) (moment : Time) : CommandRecords :=
  let body : DescriptorBody := {
    hostTime := 4000
    preparedAt := nodeWall 4000
    hostClockOffsetMs := 4000 - nodeWall 4000
    clockUncertaintyMs := CommandLimits.clockUncertaintyMs
    observationBudget := some ⟨301000, 10⟩ }
  { createdAt := 3000
    approvedAt := some 5000
    settledAt := some (moment + 3000)
    descriptor := some { body with digest := body }
    preparationClock := some ⟨4000, some 4100, some 100⟩
    receipt := some {
      digest := body
      attemptId := ofString "attempt"
      startedAt := some (nodeWall (moment - 500))
      settledAt := some (nodeWall (moment + 2000)) } }

/-- The Host at some time in a turn, with what it keeps of its command. -/
def helperTurn (nodeWall : Time → Time) (turn : Text) (moment now : Time) : Turn :=
  { quiet with
    now
    turn := fun _ => some turn
    execution := fun id => some (helperExecution id)
    evidence := fun execution claim _ _ =>
      clockEvidence claim execution.attemptId (helperRecords nodeWall moment)
    collate := fun _ _ => true }

/-- The registration is visited in a turn, and an observation reserved and bound. -/
def helperVisit (nodeWall : Time → Time) (turn : Text) (moment : Time) : List (Turn × WakeCall) :=
  [(helperTurn nodeWall turn moment 1000, .beginWake (helperKey turn) 1000),
    (helperTurn nodeWall turn moment 1000, .takeDue (helperKey turn) 1000),
    (helperTurn nodeWall turn moment 2000,
      .reserveObservation (helperKey turn) (ofString "record") 10),
    (helperTurn nodeWall turn moment 3000, .bindObservationExecution (helperExecution turn))]

/-- Two turns have each reserved an observation. -/
def helperReserved (nodeWall : Time → Time) : Receipts where
  registry := Run.final WakeCall.step { store := {} }
    ((helperTurn nodeWall first 6000 1000,
        .operation (.enable quietInput (ofString "operator")) rfl) ::
      (helperVisit nodeWall first 6000 ++ helperVisit nodeWall second 12000))

/-- The pull request is read at a moment, in half a second. -/
def helperCall (nodeWall : Time → Time) (turn : Text) (moment : Time) (expectedVersion : Nat) :
    ReceiptCall where
  turn := helperTurn nodeWall turn moment (moment + 3000)
  leadSessionId := ofString "lead"
  expectedVersion
  executionId := turn
  observation := {
    attemptedAt := toISOString (nodeWall moment)
    complete := true
    elapsedMs := 500
    identity := some quietIdentity
    snapshotId := some (ofString "snapshot")
    headSha := some quietHead
    state := some .opened
    fingerprint := some (ofString "fingerprint")
    mergeability := .mergeable
    evidence := ofString "read"
    whole := quiet_whole }
  records := helperRecords nodeWall moment
  evidence_clock := fun _ _ _ _ _ h => h
  read := ⟨nodeWall, 4000, moment, moment + 500⟩

/-- The Node's clock is five seconds behind, and stays so. -/
def behind (moment : Time) : Time := moment - 5000

/-- The Node's clock is a second behind when it is sampled, and then a second ahead. -/
def leaping (moment : Time) : Time := if moment ≤ 4000 then moment - 1000 else moment + 1000

/-- The helper's receipt is what an honest Node gives, if its reservation was made by then. -/
theorem helperCall_honest {nodeWall : Time → Time} {turn : Text} {moment : Time} {version : Nat}
    (hafter : 6000 ≤ moment) (hspan : nodeWall (moment + 500) ≤ nodeWall moment + 500)
    {steady : ReadMoments → Prop} (hsteady : steady (helperCall nodeWall turn moment version).read)
    {s : Receipts}
    (hclaim : ((helperCall nodeWall turn moment version).claim s).all
      (fun claim => claim.claimedAt ≤ 3000) = true) :
    (helperCall nodeWall turn moment version).Honest steady s := by
  refine ⟨hsteady, fun claim attemptId evidence proof hget hclock hproof => ?_⟩
  rw [hget, Option.all_some, decide_eq_true_eq] at hclaim
  have hclock : clockEvidence claim attemptId (helperRecords nodeWall moment) = .ok evidence :=
    hclock
  unfold clockEvidence helperRecords at hclock
  simp only [] at hclock
  rcases unless_ok hclock with ⟨_, hclock⟩
  cases hclock
  cases hproof
  have hread : (helperCall nodeWall turn moment version).observation.attemptedAt.instant =
    nodeWall moment := instant_toISOString _
  refine ⟨rfl, ⟨le_rfl, show (4000 : Int) ≤ 4100 by decide⟩, hclaim,
    show (3000 : Int) ≤ 5000 by decide, ?_, ?_, ?_, ?_, hread, ?_⟩
  · exact le_trans (show (5000 : Int) ≤ 6000 by decide) hafter
  · exact le_add_of_nonneg_right (by decide)
  · exact le_add_of_nonneg_right (by decide)
  · exact le_add_of_nonneg_right (by decide)
  · rw [hread]
    exact hspan

/-- The helper's receipts, where the Node's clock is behind but does not drift. -/
def behindCalls : List ReceiptCall :=
  [helperCall behind first 6000 1, helperCall behind second 12000 2]

theorem behind_steady (turn : Text) (moment : Time) (version : Nat) :
    (helperCall behind turn moment version).read.Steady
      (helperCall behind turn moment version).read.offset := by
  intro now _ _
  simp only [ReadMoments.offset, helperCall, behind, CommandLimits.clockDriftMs]
  constructor <;> linarith

/-- Both are taken, and what the second promotes was read after the first. -/
theorem receipts_in_order_behind :
    Run.Admits (Receipts.step (ofString "record"))
        (fun s call => call.Sound (ofString "record") s) (helperReserved behind) behindCalls ∧
      Run.Admits (Receipts.step (ofString "record"))
        (fun s call => (call.taken (ofString "record") s).isSome = true) (helperReserved behind)
        behindCalls := by
  refine ⟨receipts_in_order (ofString "record") behindCalls (helperReserved behind)
    (fun _ _ _ hlast => nomatch hlast) ⟨?_, ?_, trivial⟩, ?_, ?_, trivial⟩
  · exact helperCall_honest (by decide) (by decide) (behind_steady _ _ _) (by decide +kernel)
  · exact helperCall_honest (by decide) (by decide) (behind_steady _ _ _) (by decide +kernel)
  · decide +kernel
  · decide +kernel

/-- A clock that keeps within the drift of some offset may have drifted twice as far since it
    was sampled, and then a read seems to have started later than it did. -/
theorem not_in_order_of_constant : ¬∀ (recordId : Text) (calls : List ReceiptCall) (s : Receipts),
    s.Dated recordId →
      Run.Admits (Receipts.step recordId)
        (fun s call => call.Honest (fun read => ∃ offset, read.Steady offset) s) s calls →
      Run.Admits (Receipts.step recordId) (fun s call => call.Sound recordId s) s calls := by
  intro h
  have hsteady : ∃ offset, (helperCall leaping first 6000 1).read.Steady offset := by
    refine ⟨0, fun moment _ _ => ?_⟩
    simp only [helperCall, leaping, CommandLimits.clockDriftMs]
    split <;> constructor <;> linarith
  have hsound := (h (ofString "record") [helperCall leaping first 6000 1] (helperReserved leaping)
    (fun _ _ _ hlast => nomatch hlast)
    ⟨helperCall_honest (by decide) (by decide) hsteady (by decide +kernel), trivial⟩).1
  rcases hsound (by decide +kernel) with ⟨_, next, _, seen, _, _, hget, _, hseen, _, hstarted, _⟩
  have hlater : (((helperReserved leaping).step (ofString "record")
      (helperCall leaping first 6000 1)).registry.store.records.get (ofString "record")).all
        (fun record => record.lastAttemptAt.map (·.instant) = some 7000) = true := by
    decide +kernel
  rw [hget, Option.all_some, decide_eq_true_eq, hseen, Option.map_some, instant_toISOString]
    at hlater
  cases hlater
  exact absurd hstarted (by decide)

end PrMaintenance

end CopilotFleet
