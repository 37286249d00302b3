import CopilotFleet.PrMaintenance.Laws

/-!
# What Host Readiness Rests On

A registration is ready once a checkpoint has checked some twenty conditions on
it, and it stays so until something drops the fingerprint that says so. Nearly
everything that could undo one of the conditions drops it. Two things do not:
an observation that reports an ambiguous effect is an incident and returns
early, and a complete one with the fingerprint of the last is taken to show the
same, although it may show a merged pull request, or a source that no finding
answers. A backup is a third: a registration that it holds back already, or
that was released, is taken over as it is, ready or not.

Where no such observation comes upon a ready registration, and no backup has one
that the ready checkpoint would not have accepted, readiness is never stale
(`neverStale_of_reliable`).

## Main definitions

* `importBackup`: The registry, replaced by the registrations of a backup.
* `Warranted`: Everything that readiness rests on.
* `NeverStale`: Whatever is ready is warranted.
* `misleads`: An observation that leaves a ready registration ready and undoes a condition.
* `acceptable`: What the ready checkpoint would have accepted when it was observed.
* `Call.Reliable`: No such observation, and no such backup.

## Theorems

* `Act.grounded`: What any act but an observation leaves of readiness.
* `observe_grounded`: What an observation that does not mislead leaves of it.
* `neverStale_of_reliable`: In every run of reliable calls, whatever is ready is warranted.
* `not_neverStale`: Not in every run.
-/

namespace CopilotFleet

open Utf16 Refusal Timestamps

namespace PrMaintenance

/-! ### Backups -/

def restoredReason : Text :=
  ofString "Restored from a portable backup; Resume to continue on this Host."

/-- It has a hold that a restore keeps. -/
def Registration.heldBack (record : Registration) : Bool :=
  record.hold.any fun hold => hold.kind ≠ .manualControl

section Restore

variable (w : World)

/-- Whoever ran an accepted batch is not known on this Host. -/
def orphanBatch (batch : Batch) : Batch :=
  if batch.state = .accepted then
    { batch with
      state := .uncertain
      cancellationRequestedAt := batch.cancellationRequestedAt.or (some w.now) }
  else batch

/-- Restored authority must be confirmed on this Host: it is held for one Resume. -/
def confirmRestored (record : Registration) : Registration :=
  if record.released then record
  else
    let record := { record with review := none }
    let record :=
      if record.heldBack then record else setHold .paused restoredReason w.now host record
    { record with batches := record.batches.map (orphanBatch w) }

/-- The registrations of a backup, in place of whatever there was. -/
def importBackup (registrations : List Registration) : Except Refusal Store :=
  registrations.foldlM (fun store record => insert w (confirmRestored w record) store) {}

end Restore

/-- A call of the registry, or a restore of the whole catalog. -/
inductive Call where
  | call (w : World) (operation : Operation)
  | restore (w : World) (registrations : List Registration)

/-- The registry after either, which a refusal leaves as it was. -/
def Call.step (store : Store) : Call → Store
  | .call w operation => PrMaintenance.step store (w, operation)
  | .restore w registrations =>
      match importBackup w registrations with
      | .ok next => next
      | .error _ => store

/-! ### What readiness rests on -/

/-- The observation shows a pull request that can be merged, at this fingerprint. -/
def Observation.shows (observation : Observation) (fingerprint : Text) : Bool :=
  observation.fingerprint = some fingerprint && observation.state = some .opened &&
    observation.mergeability = .mergeable && observation.draft ≠ some true &&
    observation.checksComplete && observation.passed && observation.reviewsComplete &&
    observation.approved

/-- Every source of the observation has a finding that answers it at its head. -/
def answersAll (observation : Observation) (findings : List Finding) : Bool :=
  observation.sources.all fun source => findings.any (Finding.answers observation source)

/-- The last attempt saw what the observation shows. -/
structure Agrees (observation attempt : Observation) : Prop where
  complete : attempt.complete = true
  headSha : attempt.headSha = observation.headSha
  snapshotId : attempt.snapshotId = observation.snapshotId

/-- Everything that readiness at a fingerprint rests on. -/
structure Warranted (record : Registration) (fingerprint : Text) : Prop where
  lifecycle : record.lifecycle = .active
  hold : record.hold = none
  decision : record.decisionPending = false
  work : record.workPending = false
  incidents : record.incidents.any Incident.unresolved = false
  seen : ∃ observation attempt, record.observation = some observation ∧
    record.lastAttempt = some attempt ∧ Agrees observation attempt ∧
    observation.shows fingerprint = true ∧ answersAll observation record.findings = true

/-- Whatever is ready is warranted. -/
def NeverStale (store : Store) : Prop :=
  ∀ id record fingerprint, store.records.get id = some record →
    record.readyFingerprint = some fingerprint → Warranted record fingerprint

/-- No two findings are about one revision of one source. -/
def Distinct (findings : List Finding) : Prop :=
  findings.Pairwise fun a b => a.about b.source = false

/-- No batch is outstanding. -/
def Settled (record : Registration) : Prop :=
  ∀ batch ∈ record.batches, batch.outstanding = false

/-- Readiness has its grounds, and keeps them. -/
structure Grounded (record : Registration) : Prop where
  distinct : Distinct record.findings
  ready : ∀ fingerprint, record.readyFingerprint = some fingerprint →
    Warranted record fingerprint ∧ Settled record

variable {w : World} {cause : Cause} {record next : Registration}

theorem Warranted.congr {fingerprint : Text} (h : Warranted record fingerprint)
    (hlifecycle : next.lifecycle = record.lifecycle) (hhold : next.hold = record.hold)
    (hdecision : next.decisionPending = record.decisionPending)
    (hwork : next.workPending = record.workPending)
    (hincidents : next.incidents.any Incident.unresolved = record.incidents.any Incident.unresolved)
    (hobservation : next.observation = record.observation)
    (hattempt : next.lastAttempt = record.lastAttempt)
    (hfindings : next.findings = record.findings) : Warranted next fingerprint where
  lifecycle := hlifecycle.trans h.lifecycle
  hold := hhold.trans h.hold
  decision := hdecision.trans h.decision
  work := hwork.trans h.work
  incidents := hincidents.trans h.incidents
  seen := by
    rw [hobservation, hattempt, hfindings]
    exact h.seen

/-- The check of readiness is a check of its grounds. -/
theorem warranted_of_readyFor {fingerprint : Text} (h : readyFor w record fingerprint = true) :
    Warranted record fingerprint ∧ Settled record := by
  unfold readyFor at h
  simp only [Bool.and_eq_true, Bool.not_eq_true', decide_eq_true_eq, Option.any_eq_true,
    Option.isNone_iff_eq_none] at h
  rcases h with ⟨⟨⟨⟨⟨⟨⟨⟨_, hlifecycle⟩, hdecision⟩, hhold⟩, hwork⟩, hsettled⟩, hcurrent⟩,
    hincidents⟩, observation, hobservation, hshows⟩
  rcases hshows with ⟨⟨⟨⟨⟨⟨⟨⟨hdraft, hopen⟩, hfingerprint⟩, hmerge⟩, hchecks⟩, hpassed⟩, hreviews⟩,
    happroved⟩, hsources⟩
  refine ⟨⟨hlifecycle, hhold, hdecision, hwork, hincidents, ?_⟩, outstanding_of_settled hsettled⟩
  unfold current at hcurrent
  rw [hobservation] at hcurrent
  cases hattempt : record.lastAttempt with
  | none =>
      rw [hattempt] at hcurrent
      cases hcurrent
  | some attempt =>
      rw [hattempt] at hcurrent
      simp only [Bool.and_eq_true, decide_eq_true_eq] at hcurrent
      rcases hcurrent with ⟨⟨⟨⟨⟨_, hcomplete⟩, _⟩, hhead⟩, hsnapshot⟩, _⟩
      refine ⟨observation, attempt, hobservation, rfl, ⟨hcomplete, hhead, hsnapshot⟩, ?_, hsources⟩
      unfold Observation.shows
      simp [hdraft, hopen, hfingerprint, hmerge, hchecks, hpassed, hreviews, happroved]

/-! ### One finding for one revision -/

theorem Finding.about_iff {finding : Finding} {source : Source} :
    finding.about source = true ↔
      finding.source.id = source.id ∧ finding.source.revision = source.revision := by
  unfold Finding.about
  simp

/-- A finding takes the place of the one about the same. -/
theorem Distinct.put {findings : List Finding} (h : Distinct findings) (finding : Finding)
    {source : Source} (habout : finding.about source = true) :
    Distinct (First.put (fun entry => entry.about source) finding findings) := by
  have habout := Finding.about_iff.mp habout
  have hsame : ∀ entry : Finding, entry.about finding.source = entry.about source := by
    intro entry
    unfold Finding.about
    rw [habout.1, habout.2]
  rcases @First.put_split _ (fun entry => Finding.about entry source) finding findings with
    ⟨hnone, hput⟩ | ⟨old, before, after, hsplit, hold, hno, hput⟩
  · rw [hput]
    refine List.pairwise_append.mpr ⟨h, List.pairwise_singleton _ _, ?_⟩
    intro entry hentry new hnew
    rw [List.mem_singleton.mp hnew, hsame]
    exact Bool.eq_false_iff.mpr (List.find?_eq_none.mp hnone entry hentry)
  · rw [hput]
    rw [hsplit] at h
    rcases List.pairwise_append.mp h with ⟨hbefore, hrest, hacross⟩
    rcases List.pairwise_cons.mp hrest with ⟨hafter, hpairs⟩
    have hold := Finding.about_iff.mp hold
    refine List.pairwise_append.mpr ⟨hbefore, List.pairwise_cons.mpr ⟨?_, hpairs⟩, ?_⟩
    · intro entry hentry
      have hne := hafter entry hentry
      unfold Finding.about at hne ⊢
      rw [habout.1, habout.2, ← hold.1, ← hold.2]
      exact hne
    · intro entry hentry new hnew
      rcases List.mem_cons.mp hnew with rfl | hnew
      · rw [hsame]
        exact hno entry hentry
      · exact hacross entry hentry new (List.mem_cons_of_mem _ hnew)

/-- Two findings about one revision of one source are one. -/
theorem Distinct.unique {findings : List Finding} (h : Distinct findings) {a b : Finding}
    (ha : a ∈ findings) (hb : b ∈ findings) {source : Source} (habout : a.about source = true)
    (hbabout : b.about source = true) : a = b := by
  have hpair : ∀ a b : Finding, a.about b.source = false → a.about source = true →
      b.about source = true → a = b := by
    intro a b hne ha hb
    have ha := Finding.about_iff.mp ha
    have hb := Finding.about_iff.mp hb
    have hsame : a.about b.source = true :=
      Finding.about_iff.mpr ⟨ha.1.trans hb.1.symm, ha.2.trans hb.2.symm⟩
    rw [hne] at hsame
    cases hsame
  refine List.Pairwise.forall_of_forall_of_flip (R := fun a b : Finding =>
    a.about source = true → b.about source = true → a = b) ?_ ?_ ?_ ha hb habout hbabout
  · exact fun _ _ _ _ => rfl
  · exact h.imp fun hne => hpair _ _ hne
  · exact h.imp fun hne hb ha => (hpair _ _ hne ha hb).symm

theorem distinct_law : Law w fun record next => Distinct record.findings → Distinct next.findings where
  refl _ h := h
  trans hab hbc h := hbc (hab h)
  quiet hquiet h := hquiet.findings ▸ h
  record := by
    intro record unsent batch update _ _ h
    refine List.foldlRecOn update.findings _ h ?_
    intro findings hfindings finding _
    exact hfindings.put _ (Finding.about_iff.mpr ⟨rfl, rfl⟩)
  cancel _ _ _ h := h

theorem Act.distinct (hact : Act w cause record next) (h : Distinct record.findings) :
    Distinct next.findings := by
  refine distinct_law.act (fun hown h => ?_) hact h
  cases hown with
  | prepare hprepared =>
      rw [(prepareBatch_ok hprepared).2.2]
      exact h
  | accept stepId attempt _ _ _ => exact h
  | effect hacted =>
      rcases (effect_ok hacted).2 with rfl | ⟨_, _, _, rfl⟩ | ⟨_, _, rfl⟩ <;> exact h
  | ready _ => exact h
  | takeOver => exact h
  | authorize _ _ _ _ _ => exact h

/-! ### Readiness is only ever dropped -/

/-- Readiness stands or is dropped. -/
def Drops (record next : Registration) : Prop :=
  next.readyFingerprint = record.readyFingerprint ∨ next.readyFingerprint = none

theorem Drops.none (h : Drops record next) (hnone : record.readyFingerprint = none) :
    next.readyFingerprint = none := by
  rcases h with heq | heq
  · exact heq.trans hnone
  · exact heq

theorem Drops.some {fingerprint : Text} (h : Drops record next)
    (hready : next.readyFingerprint = some fingerprint) :
    record.readyFingerprint = some fingerprint := by
  rcases h with heq | heq
  · exact heq ▸ hready
  · rw [heq] at hready
    cases hready

theorem drops_law : Law w Drops where
  refl _ := .inl rfl
  trans hab hbc := by
    rcases hbc with heq | heq
    · exact hab.imp heq.trans heq.trans
    · exact .inr heq
  quiet hquiet := hquiet.ready
  record _ _ := .inl rfl
  cancel _ _ _ := .inl rfl

theorem setHold_unready (kind : HoldKind) (reason : Text) («at» : Time) (origin : Origin)
    (record : Registration) :
    (setHold kind reason «at» origin record).readyFingerprint = none := by
  rcases setHold_ok kind reason «at» origin record with ⟨review, workRequests, hset⟩
  rw [hset]
  rfl

theorem raiseDecision_unready {decision : Decision}
    (h : raiseDecision w decision record = .ok next) : next.readyFingerprint = none := by
  rcases concludeReview_ok .decision w.now (some decision.proposal) { record with
    decisionHistory := record.decisionHistory ++ record.decision.toList
    decision := some { decision with
      state := .pending
      operatorId := none
      direction := none
      resolvedAt := none }
    readyFingerprint := none } with ⟨review, hreview⟩
  unfold raiseDecision at h
  rw [hreview] at h
  refine forBatches_keeps (fun changed => changed.readyFingerprint = none) ?_ ?_ h
  · intro batch changed next _ hchanged hturn
    split at hturn
    · refine (drops_law.settleWith (fun _ record _ h => ?_) hturn).none hchanged
      cases h
      exact .inl rfl
    · cases hturn
      exact hchanged
  · rfl

/-! ### Acts -/

theorem not_outstanding_of_settled (h : Settled record) {batchId : Text} {batch : Batch}
    (hbatch : record.batch batchId = some batch) : batch.outstanding = false :=
  h batch (List.mem_of_find?_eq_some hbatch)

/-- What was sent nowhere is outstanding. -/
theorem outstanding_of_neverDispatched {batch : Batch}
    (h : neverDispatched w record batch = true) : batch.outstanding = true := by
  unfold neverDispatched at h
  simp only [Bool.or_eq_true, Bool.and_eq_true, decide_eq_true_eq] at h
  unfold Batch.outstanding
  rcases h with hprepared | ⟨⟨haccepted, _⟩, _⟩
  · rw [hprepared]
    rfl
  · rw [haccepted]
    rfl

/-- A settled batch is not settled again. -/
theorem settleBatch_settled (hsettled : Settled record) {supersedeUnsent : Bool}
    {update : Settlement} (h : settleBatch w supersedeUnsent update record = .ok next) :
    next = record := by
  rcases settleWith_ok h with ⟨batch, hbatch, _, _, hend | hrun⟩
  · exact hend.2.2.2
  · have hout := not_outstanding_of_settled hsettled hbatch
    rw [hrun.1] at hout
    cases hout

/-- What there is to work on in a warranted registration is done. -/
theorem addressed_of_warranted {fingerprint : Text} (h : Warranted record fingerprint)
    (hdistinct : Distinct record.findings) {observation : Observation}
    (hobservation : record.observation = some observation) {source : Source}
    (hsource : source ∈ sources record) :
    ∃ finding, (record.findings.find? fun finding => finding.about source) = some finding ∧
      Finding.answers observation source finding = true := by
  have hwork : workSources record = [] := by
    have hpending := h.work
    unfold Registration.workPending at hpending
    unfold workSources
    rw [List.map_eq_nil_iff, List.filter_eq_nil_iff]
    exact List.any_eq_false.mp hpending
  unfold sources at hsource
  rw [hwork, List.append_nil, hobservation] at hsource
  have hsource : source ∈ observation.sources := (List.mem_filter.mp hsource).1
  rcases h.seen with ⟨seen, _, hseen, _, _, _, hanswers⟩
  rw [hobservation] at hseen
  cases hseen
  unfold answersAll at hanswers
  rcases List.any_eq_true.mp (List.all_eq_true.mp hanswers source hsource) with
    ⟨finding, hfinding, hanswer⟩
  have habout : finding.about source = true := by
    unfold Finding.answers at hanswer
    simp only [Bool.and_eq_true] at hanswer
    exact hanswer.1.1
  cases hfind : record.findings.find? fun finding => finding.about source with
  | none => exact absurd habout (List.find?_eq_none.mp hfind finding hfinding)
  | some first =>
      -- No two findings are about the source, so the first is the one that answers.
      have hfirst := List.find?_some hfind
      have heq := hdistinct.unique (List.mem_of_find?_eq_some hfind) hfinding hfirst habout
      rw [← heq] at hanswer
      exact ⟨first, rfl, hanswer⟩

/-- Nothing is prepared for what is ready. -/
theorem not_prepared_of_warranted {fingerprint : Text} (h : Warranted record fingerprint)
    (hdistinct : Distinct record.findings) {prepared : PreparedBatch} {workOrder : Option Text} :
    prepareBatch w prepared workOrder record ≠ .ok (some next) := by
  intro hprepared
  have hadmitted := (prepareBatch_ok hprepared).2.1
  rcases h.seen with ⟨observation, _, hobservation, _⟩
  unfold admitBatch at hadmitted
  rw [h.hold, hobservation] at hadmitted
  rcases unless_ok hadmitted with ⟨_, hadmitted⟩
  rcases unless_ok hadmitted with ⟨_, hadmitted⟩
  cases hbinding : w.binding record with
  | some reason =>
      rw [hbinding] at hadmitted
      cases hadmitted
  | none =>
    rw [hbinding] at hadmitted
    rcases unless_ok hadmitted with ⟨_, hadmitted⟩
    rcases unless_ok hadmitted with ⟨hcurrent, hadmitted⟩
    rcases unless_ok hadmitted with ⟨_, hadmitted⟩
    rcases unless_ok hadmitted with ⟨_, hchecked⟩
    simp only [not_or, not_not] at hcurrent
    cases hsources : prepared.sources with
    | nil => exact prepared.sources_ne hsources
    | cons source rest =>
        rw [hsources] at hchecked
        unfold checkSources at hchecked
        rcases unless_ok hchecked with ⟨_, hchecked⟩
        rcases unless_ok hchecked with ⟨hmem, hchecked⟩
        rcases unless_ok hchecked with ⟨hnot, _⟩
        simp only [not_not, List.contains_iff_mem] at hmem
        rcases addressed_of_warranted h hdistinct hobservation hmem with ⟨finding, hfind, hanswer⟩
        unfold Finding.answers at hanswer
        simp only [Bool.and_eq_true, decide_eq_true_eq] at hanswer
        rw [hfind, Option.any_some, hcurrent.2.2, hanswer.1.2, hanswer.2] at hnot
        simp at hnot

theorem unresolved_of_map {before after : List Incident}
    (h : after.map (·.resolvedAt) = before.map (·.resolvedAt)) :
    after.any Incident.unresolved = before.any Incident.unresolved := by
  have hmap : ∀ incidents : List Incident,
      incidents.any Incident.unresolved = (incidents.map (·.resolvedAt)).any Option.isNone := by
    intro incidents
    rw [List.any_map]
    rfl
  rw [hmap, hmap, h]

theorem Kept.warranted {fingerprint : Text} (hkept : Kept record next)
    (h : Warranted record fingerprint) : Warranted next fingerprint := by
  refine h.congr hkept.lifecycle hkept.hold ?_ ?_ (unresolved_of_map hkept.incidents)
    hkept.observation hkept.lastAttempt hkept.findings
  · unfold Registration.decisionPending
    rw [hkept.decision]
  · unfold Registration.workPending
    rw [hkept.workRequests]

theorem Kept.grounded (hkept : Kept record next) (h : Grounded record) : Grounded next where
  distinct := hkept.findings ▸ h.distinct
  ready fingerprint hready := by
    rcases h.ready fingerprint (hkept.ready ▸ hready) with ⟨hwarranted, hsettled⟩
    exact ⟨hkept.warranted hwarranted, by unfold Settled; rw [hkept.batches]; exact hsettled⟩

/-- Where readiness is dropped, there is nothing to warrant. -/
theorem Grounded.of_unready (hdistinct : Distinct next.findings)
    (hready : next.readyFingerprint = none) : Grounded next where
  distinct := hdistinct
  ready fingerprint hsome := by
    rw [hready] at hsome
    cases hsome

theorem takeOverBatches_settled (hsettled : Settled record) :
    (takeOverBatches w record).batches = record.batches := by
  have hsame : ∀ batch ∈ record.batches, takeOver w record batch = batch := by
    intro batch hbatch
    have hnot : takenOver w record batch = false := by
      unfold takenOver
      rw [Bool.and_eq_false_iff]
      refine .inl (Bool.eq_false_iff.mpr fun hnever => ?_)
      have hout := outstanding_of_neverDispatched hnever
      rw [hsettled batch hbatch] at hout
      cases hout
    unfold takeOver
    rw [hnot]
    rfl
  exact (List.map_congr_left hsame).trans (List.map_id _)

/-- What any act but an observation of the helper's leaves of readiness. -/
theorem Act.grounded (hcause : ∀ observation, cause ≠ .observation observation)
    (hact : Act w cause record next) (h : Grounded record) : Grounded next := by
  have hdistinct := hact.distinct h.distinct
  cases hact with
  | keep hkept => exact hkept.grounded h
  | hold reason «at» _ => exact .of_unready hdistinct (setHold_unready _ _ _ _ _)
  | clear actorId «at» hhold _ =>
      refine ⟨hdistinct, fun fingerprint hready => ?_⟩
      -- What is ready has no hold to clear.
      have hready := Drops.some (clearHold_quiet actorId «at» record).ready hready
      have hnone := (h.ready fingerprint hready).1.hold
      rw [hhold] at hnone
      cases hnone
  | lose reason _ => exact .of_unready hdistinct (setHold_unready _ _ _ _ _)
  | @observe observation error alternate seen latest next hresolved hread hseen =>
      refine ⟨hdistinct, fun fingerprint hready => ?_⟩
      cases alternate with
      | false => exact absurd (hread rfl) (hcause observation)
      | true =>
          -- Evidence by other means answers an incident, and there is none.
          have hready := (drops_law.observe hseen).some hready
          have hnone := (h.ready fingerprint hready).1.incidents
          rw [hresolved rfl] at hnone
          cases hnone
  | late observation seen latest => exact .of_unready hdistinct rfl
  | prepare hprepared =>
      refine ⟨hdistinct, fun fingerprint hready => ?_⟩
      have hsame : next.readyFingerprint = record.readyFingerprint := by
        rw [(prepareBatch_ok hprepared).2.2]
      exact absurd hprepared
        (not_prepared_of_warranted (h.ready fingerprint (hsame ▸ hready)).1 h.distinct)
  | accept stepId attempt hbatch _ hstate =>
      refine ⟨hdistinct, fun fingerprint hready => ?_⟩
      have hout := not_outstanding_of_settled (h.ready fingerprint hready).2 hbatch
      unfold Batch.outstanding at hout
      rw [hstate] at hout
      cases hout
  | settle hsettled =>
      refine ⟨hdistinct, fun fingerprint hready => ?_⟩
      have hready := (drops_law.settleBatch hsettled).some hready
      rw [settleBatch_settled (h.ready fingerprint hready).2 hsettled]
      exact h.ready fingerprint hready
  | effect hacted =>
      refine ⟨hdistinct, fun fingerprint hready => ?_⟩
      rcases (effect_ok hacted).2 with rfl | ⟨_, _, _, rfl⟩ | ⟨_, _, rfl⟩
      · exact h.ready fingerprint hready
      · rcases h.ready fingerprint hready with ⟨hwarranted, hsettled⟩
        exact ⟨hwarranted.congr rfl rfl rfl rfl rfl rfl rfl rfl, hsettled⟩
      · rcases h.ready fingerprint hready with ⟨hwarranted, hsettled⟩
        exact ⟨hwarranted.congr rfl rfl rfl rfl rfl rfl rfl rfl, hsettled⟩
  | raise _ hraised => exact .of_unready hdistinct (raiseDecision_unready hraised)
  | answer f hf =>
      refine ⟨hdistinct, fun fingerprint hready => ?_⟩
      rcases h.ready fingerprint hready with ⟨hwarranted, hsettled⟩
      refine ⟨hwarranted.congr rfl rfl (Eq.trans ?_ hwarranted.decision.symm) rfl rfl rfl rfl rfl,
        hsettled⟩
      unfold Registration.decisionPending answerDecision
      cases record.decision with
      | none => rfl
      | some decision => simp [hf]
  | ready hready =>
      refine ⟨hdistinct, fun fingerprint hsome => ?_⟩
      cases hsome
      rcases warranted_of_readyFor hready with ⟨hwarranted, hsettled⟩
      exact ⟨hwarranted.congr rfl rfl rfl rfl rfl rfl rfl rfl, hsettled⟩
  | ask requests => exact .of_unready hdistinct rfl
  | withdraw f reason «at» hf =>
      refine ⟨hdistinct, fun fingerprint hready => ?_⟩
      rcases h.ready fingerprint hready with ⟨hwarranted, hsettled⟩
      refine ⟨hwarranted.congr rfl rfl (Eq.trans ?_ hwarranted.decision.symm)
        (Eq.trans ?_ hwarranted.work.symm) rfl rfl rfl rfl, hsettled⟩
      · unfold Registration.decisionPending PrMaintenance.withdraw
        cases record.decision with
        | none => rfl
        | some decision => simp [hf]
      · unfold Registration.workPending PrMaintenance.withdraw
        rw [List.any_eq_false]
        intro request hrequest
        rcases List.mem_map.mp hrequest with ⟨old, _, rfl⟩
        unfold cancelRequest
        by_cases hpending : old.state = .pending
        · simp [hpending]
        · simp [hpending]
  | takeOver =>
      refine ⟨hdistinct, fun fingerprint hready => ?_⟩
      rcases h.ready fingerprint hready with ⟨hwarranted, hsettled⟩
      refine ⟨hwarranted.congr rfl rfl rfl rfl rfl rfl rfl rfl, ?_⟩
      unfold Settled
      rw [takeOverBatches_settled hsettled]
      exact hsettled
  | authorize _ _ _ _ _ => exact .of_unready hdistinct rfl
  | rename f _ _ =>
      refine ⟨hdistinct, fun fingerprint hready => ?_⟩
      rcases h.ready fingerprint hready with ⟨hwarranted, hsettled⟩
      refine ⟨hwarranted.congr rfl ?_ rfl rfl rfl rfl rfl rfl, hsettled⟩
      show record.hold.map f = record.hold
      rw [hwarranted.hold]
      rfl

theorem Acts.grounded (hcause : ∀ observation, cause ≠ .observation observation)
    (hacts : Acts w cause record next) (h : Grounded record) : Grounded next := by
  induction hacts with
  | refl => exact h
  | tail _ hact ih => exact hact.grounded hcause ih

/-! ### Observations -/

/-- An observation, with when the Host read it. -/
structure Reading where
  observation : Observation
  hostAttemptedAt : Timestamp
  hostLatestAt : Timestamp

/-- The observation is neither stale nor older than the last, no permission is
    waited for, and the pull request is still the one it was. -/
def observable (w : World) (record : Registration) (reading : Reading) : Bool :=
  observationFresh w.now reading.hostAttemptedAt &&
    !((record.lastAttemptLatestAt.or record.lastAttemptAt).any fun latest =>
      reading.hostAttemptedAt < latest) &&
    !w.permissionPending
      (attempted reading.observation reading.hostAttemptedAt reading.hostLatestAt record) &&
    !HelperError.is reading.observation.helperError scopeChanged &&
    !(reading.observation.identity.any fun identity => !sameIdentity identity record.identity)

/-- The observation reports an ambiguous effect, or it is complete and would let
    readiness stand, but is not open or shows a source that nothing answers. -/
def misleads (w : World) (record : Registration) (fingerprint : Text) (reading : Reading) : Bool :=
  observable w record reading &&
    (HelperError.is reading.observation.helperError ambiguousEffect ||
      (reading.observation.complete && reading.observation.keepsReady (some fingerprint) &&
        !(reading.observation.state = some .opened &&
          answersAll reading.observation record.findings)))

/-- Nothing prepared is superseded where nothing is outstanding. -/
theorem supersede_settled {observation : Observation} (hsettled : Settled record)
    (h : supersede w observation record = .ok next) : next = record := by
  unfold supersede at h
  refine forBatches_keeps (fun changed => changed = record) ?_ rfl h
  intro batch changed next hbatch hchanged hturn
  subst hchanged
  split at hturn
  · rename_i hnever
    have hout := outstanding_of_neverDispatched hnever.1
    rw [hsettled batch hbatch] at hout
    cases hout
  · cases hturn
    rfl

theorem resolved_of_map {incidents : List Incident} (f : Incident → Incident)
    (hf : ∀ entry, entry.unresolved = false → (f entry).unresolved = false)
    (h : incidents.any Incident.unresolved = false) :
    (incidents.map f).any Incident.unresolved = false := by
  rw [List.any_eq_false] at h ⊢
  intro entry hentry
  rcases List.mem_map.mp hentry with ⟨old, hold, rfl⟩
  exact Bool.eq_false_iff.mp (hf old (Bool.eq_false_iff.mpr (h old hold)))

/-- What an observation resolves, and nothing else of what readiness rests on. -/
structure Resolves (record next : Registration) : Prop where
  lifecycle : next.lifecycle = record.lifecycle
  hold : next.hold = record.hold
  decision : next.decision = record.decision
  workRequests : next.workRequests = record.workRequests
  batches : next.batches = record.batches
  observation : next.observation = record.observation
  lastAttempt : next.lastAttempt = record.lastAttempt
  findings : next.findings = record.findings
  ready : next.readyFingerprint = record.readyFingerprint
  incidents : record.incidents.any Incident.unresolved = false →
    next.incidents.any Incident.unresolved = false

theorem resolveEffects_resolves (observation : Observation) (record : Registration) :
    Resolves record (resolveEffects w observation record) := by
  unfold resolveEffects
  dsimp only
  split
  · exact ⟨rfl, rfl, rfl, rfl, rfl, rfl, rfl, rfl, rfl, fun h => h⟩
  · refine ⟨rfl, rfl, rfl, rfl, rfl, rfl, rfl, rfl, rfl, resolved_of_map _ ?_⟩
    intro entry hentry
    split
    · rfl
    · exact hentry

theorem resolveCapabilities_resolves (observation : Observation) (alternate : Bool) (seen : Timestamp)
    (record : Registration) :
    Resolves record (resolveCapabilities w observation alternate seen record) := by
  unfold resolveCapabilities
  split
  · refine ⟨rfl, rfl, rfl, rfl, rfl, rfl, rfl, rfl, rfl, resolved_of_map _ ?_⟩
    intro entry hentry
    split
    · rfl
    · exact hentry
  · exact ⟨rfl, rfl, rfl, rfl, rfl, rfl, rfl, rfl, rfl, fun h => h⟩

theorem Resolves.warranted {fingerprint : Text} (hresolves : Resolves record next)
    (h : Warranted record fingerprint) : Warranted next fingerprint := by
  refine h.congr hresolves.lifecycle hresolves.hold ?_ ?_
    ((hresolves.incidents h.incidents).trans h.incidents.symm) hresolves.observation
    hresolves.lastAttempt hresolves.findings
  · unfold Registration.decisionPending
    rw [hresolves.decision]
  · unfold Registration.workPending
    rw [hresolves.workRequests]

/-- An open observation that lets readiness stand is new grounds for it. -/
theorem observed_warranted {fingerprint : Text} (h : Warranted record fingerprint)
    {observation : Observation} {seen latest : Timestamp} (hcomplete : observation.complete = true)
    (hkeeps : observation.keepsReady (some fingerprint) = true)
    (hopen : observation.state = some .opened)
    (hanswers : answersAll observation record.findings = true) :
    Warranted (observed observation seen
      (scheduled w observation seen latest (attempted observation seen latest record)))
      fingerprint where
  lifecycle := h.lifecycle
  hold := h.hold
  decision := h.decision
  work := h.work
  incidents := h.incidents
  seen := by
    refine ⟨observation, observation, rfl, rfl, ⟨hcomplete, rfl, rfl⟩, ?_, hanswers⟩
    unfold Observation.keepsReady at hkeeps
    unfold Observation.shows
    simp only [Bool.and_eq_true, decide_eq_true_eq] at hkeeps ⊢
    rcases hkeeps with ⟨⟨⟨⟨⟨⟨hfingerprint, hdraft⟩, hmerge⟩, hchecks⟩, hreviews⟩, hpassed⟩,
      happroved⟩
    exact ⟨⟨⟨⟨⟨⟨⟨hfingerprint.symm, hopen⟩, hmerge⟩, hdraft⟩, hchecks⟩, hpassed⟩, hreviews⟩,
      happroved⟩

theorem observeIncomplete_unready {observation : Observation} {error : Text}
    (h : observeIncomplete w observation error record = .ok next) :
    next.readyFingerprint = none := by
  unfold observeIncomplete at h
  rcases bind_ok h with ⟨found, _, h⟩
  dsimp only at h
  split at h
  · cases h
    exact setHold_unready _ _ _ _ _
  · cases h
    exact Drops.none (drops_law.concludeReview (w := w) _ _ _ _) rfl

/-- An observation after which a registration is ready was one to go by. -/
theorem observable_of_ready {observation : Observation} {error fingerprint : Text}
    {alternate : Bool} {seen latest : Timestamp}
    (h : observe w observation error alternate seen latest record = .ok next)
    (hready : next.readyFingerprint = some fingerprint) :
    observable w record ⟨observation, seen, latest⟩ = true := by
  unfold observe at h
  rcases unless_ok h with ⟨hfresh, h⟩
  rcases unless_ok h with ⟨hnewer, h⟩
  dsimp only at h
  split at h
  · cases h
    cases hready
  · rename_i hpermission
    split at h
    · rcases bind_ok h with ⟨found, _, h⟩
      cases h
      rw [setHold_unready] at hready
      cases hready
    · rename_i hchanged
      have hchanged : ¬(HelperError.is observation.helperError scopeChanged = true ∨
        (observation.identity.any fun identity =>
          !sameIdentity identity record.identity) = true) := hchanged
      rw [not_or] at hchanged
      unfold observable
      simp only [Bool.not_eq_true, Bool.not_eq_false] at hfresh hnewer hpermission hchanged
      simp [hfresh, hnewer, hpermission, hchanged]

/-- A complete observation that does not mislead: readiness stands where it is warranted. -/
theorem concludeObservation_warranted {fingerprint : Text} {observation : Observation}
    {seen latest : Timestamp} (hwarranted : Warranted record fingerprint) (hsettled : Settled record)
    (hcomplete : observation.complete = true)
    (hcareful : observation.keepsReady (some fingerprint) = true →
      observation.state = some .opened ∧ answersAll observation record.findings = true)
    (hbefore : record.readyFingerprint = some fingerprint)
    (hready : (concludeObservation w observation false seen (observed observation seen
      (scheduled w observation seen latest (attempted observation seen latest record)))
        ).readyFingerprint = some fingerprint) :
    Warranted (concludeObservation w observation false seen (observed observation seen
      (scheduled w observation seen latest (attempted observation seen latest record))))
        fingerprint ∧
      Settled (concludeObservation w observation false seen (observed observation seen
        (scheduled w observation seen latest (attempted observation seen latest record)))) := by
  generalize hseen : observed observation seen
    (scheduled w observation seen latest (attempted observation seen latest record)) = taken
  have htaken : taken.readyFingerprint = some fingerprint := by
    rw [← hseen]
    exact hbefore
  have htakenSettled : Settled taken := by
    rw [← hseen]
    exact hsettled
  rw [hseen] at hready
  have heffects := @resolveEffects_resolves w observation taken
  have hcapabilities := @resolveCapabilities_resolves w observation false seen
    (resolveEffects w observation taken)
  -- Where the observation is not of the fingerprint, readiness is dropped on the way.
  have hkeeps : observation.keepsReady (some fingerprint) = true := by
    by_contra hnot
    have hdropped : (dropReadiness observation (resolveCapabilities w observation false seen
        (resolveEffects w observation taken))).readyFingerprint = none := by
      unfold dropReadiness
      rw [hcapabilities.ready, heffects.ready, htaken, if_neg hnot]
    have hnone : (concludeObservation w observation false seen taken).readyFingerprint = none := by
      unfold concludeObservation
      simp only [Bool.false_eq_true, if_false]
      split
      · exact (drops_law.recordTerminal (w := w) _ _ _ _).none hdropped
      · exact (drops_law.recordTerminal (w := w) _ _ _ _).none hdropped
      · exact hdropped
    rw [hnone] at hready
    cases hready
  rcases hcareful hkeeps with ⟨hopen, hanswers⟩
  -- What is open and whole goes through without a terminal state.
  have hconcluded : concludeObservation w observation false seen taken =
      resolveCapabilities w observation false seen (resolveEffects w observation taken) := by
    unfold concludeObservation dropReadiness
    rw [hopen]
    simp [hcapabilities.ready, heffects.ready, htaken, hkeeps]
  rw [hconcluded]
  have hobserved : Warranted taken fingerprint := by
    rw [← hseen]
    exact observed_warranted hwarranted hcomplete hkeeps hopen hanswers
  refine ⟨hcapabilities.warranted (heffects.warranted hobserved), ?_⟩
  unfold Settled
  rw [hcapabilities.batches, heffects.batches]
  exact htakenSettled

/-- What an observation that does not mislead leaves of readiness. -/
theorem observe_grounded {observation : Observation} {error : Text} {seen latest : Timestamp}
    (h : Grounded record)
    (hcareful : ∀ fingerprint, record.readyFingerprint = some fingerprint →
      misleads w record fingerprint ⟨observation, seen, latest⟩ = false)
    (hread : observe w observation error false seen latest record = .ok next) :
    Grounded next := by
  refine ⟨distinct_law.observe hread h.distinct, fun fingerprint hready => ?_⟩
  have hbefore := (drops_law.observe hread).some hready
  have hcareful := hcareful fingerprint hbefore
  rcases h.ready fingerprint hbefore with ⟨hwarranted, hsettled⟩
  unfold misleads at hcareful
  rw [observable_of_ready hread hready, Bool.true_and, Bool.or_eq_false_iff] at hcareful
  cases observe_read hread with
  | waiting => cases hready
  | identity _ =>
      rw [setHold_unready] at hready
      cases hready
  | effects hcode _ =>
      rw [hcode] at hcareful
      cases hcareful.1
  | incomplete _ hincomplete =>
      rw [observeIncomplete_unready hincomplete] at hready
      cases hready
  | @complete superseded hcomplete hsuperseded =>
      have hsame : superseded = observed observation seen
          (scheduled w observation seen latest (attempted observation seen latest record)) :=
        supersede_settled (fun batch hbatch => hsettled batch hbatch) hsuperseded
      rw [hsame] at hready ⊢
      refine concludeObservation_warranted hwarranted hsettled hcomplete ?_ hbefore hready
      intro hkeeps
      have hshown := hcareful.2
      rw [hcomplete, hkeeps] at hshown
      simpa using hshown

/-! ### Every run -/

/-- The observation a report has a registration take in. One that was taken in
    before changes nothing. -/
def Checkpoint.reading (record : Registration) : Checkpoint → Option Observation
  | .observation seen => some seen
  | .fallback error seen _ =>
      if record.incidents.any fun entry =>
          entry.lastObservationKey = { observation := seen, error := some error } then none
      else some seen
  | _ => none

/-- A receipt that is in time, and whose observation is taken in. -/
def receiptTaken (w : World) (store : Store) (leadSessionId : Text) (receipt : ObservationReceipt)
    (record : Registration) : Bool :=
  !receipt.recorded && !receipt.late &&
    !HelperError.is receipt.observation.helperError clockUnverified &&
    (admission w store {
      action := .discover
      recordId := some record.id
      leadSessionId := some leadSessionId }).isNone &&
    !executionInFlight w record && observationFresh w.now receipt.hostAttemptedAt

/-- The lead's own call on this version of its registration. -/
def calls (leadSessionId recordId : Text) (expectedVersion : Nat) (record : Registration) : Bool :=
  record.id = recordId && record.leadSessionId = leadSessionId &&
    record.version = expectedVersion && !record.released

/-- What an operation has a registration take in. -/
def Operation.reading (w : World) (store : Store) (record : Registration) :
    Operation → Option Reading
  | .checkpoint leadSessionId recordId expectedVersion report _ =>
      if calls leadSessionId recordId expectedVersion record then
        (report.reading record).map fun seen => ⟨seen, seen.attemptedAt, seen.attemptedAt⟩
      else none
  | .checkpointObservationReceipt leadSessionId recordId expectedVersion receipt =>
      if calls leadSessionId recordId expectedVersion record &&
          receiptTaken w store leadSessionId receipt record then
        some ⟨receipt.observation, receipt.hostAttemptedAt, receipt.hostLatestAt⟩
      else none
  | _ => none

/-- When the observation that a registration goes by was read. -/
def Registration.readAt (record : Registration) : Time :=
  (record.observation.map fun observation =>
    (record.observationHostAt.getD observation.attemptedAt).instant).getD 0

/-- The ready checkpoint would have accepted the registration as it is when its observation
    was read. -/
def acceptable (w : World) (record : Registration) (fingerprint : Text) : Bool :=
  readyFor { w with now := record.readAt } record fingerprint

/-- No ready registration takes in an observation that misleads. A ready registration of a
    backup that is taken over as it is, released or held back, is one that the ready
    checkpoint would have accepted. -/
def Call.Reliable (store : Store) : Call → Prop
  | .call w operation => ∀ id record fingerprint reading,
      store.records.get id = some record → record.readyFingerprint = some fingerprint →
        operation.reading w store record = some reading →
          misleads w record fingerprint reading = false
  | .restore w registrations => ∀ record ∈ registrations, Distinct record.findings ∧
      (record.released = true ∨ record.heldBack = true → ∀ fingerprint,
        record.readyFingerprint = some fingerprint → acceptable w record fingerprint = true)

/-- A report of the lead leaves the grounds, where the observation in it does not mislead. -/
theorem checkpoint_grounded {store : Store} {leadSessionId : Text} {expectedVersion : Nat} {report : Checkpoint}
    {wakeId : Option Text} {result : Option Registration} (h : Grounded record)
    (hlead : record.leadSessionId = leadSessionId)
    (hcareful : ∀ fingerprint reading, record.readyFingerprint = some fingerprint →
      (Operation.checkpoint leadSessionId record.id expectedVersion report wakeId).reading w store
        record = some reading → misleads w record fingerprint reading = false)
    (hcheckpoint : checkpoint w leadSessionId expectedVersion report wakeId record = .ok result) :
    ∀ next, result = some next → Grounded next := by
  by_cases hcause : ∀ observation, report.cause ≠ .observation observation
  · intro next hnext
    exact (checkpoint_acts hcheckpoint next hnext).grounded hcause h
  unfold checkpoint at hcheckpoint
  rcases unless_ok hcheckpoint with ⟨hversion, hcheckpoint⟩
  rcases unless_ok hcheckpoint with ⟨hreleased, hcheckpoint⟩
  -- The checks before the change are those of `calls`, so the reading is this one.
  have hcalls : calls leadSessionId record.id expectedVersion record = true := by
    unfold calls
    simp only [not_not, Bool.not_eq_true] at hversion hreleased
    simp [hlead, hversion, hreleased]
  rcases bind_ok hcheckpoint with ⟨change, hchange, hcheckpoint⟩
  have hseen : ∀ seen error, report.reading record = some seen →
      (∃ after, observe w seen error false seen.attemptedAt seen.attemptedAt record = .ok after ∧
        change = some after) → ∀ changed, change = some changed → Grounded changed := by
    rintro seen error hreading ⟨after, hobserved, hafter⟩ changed hchanged
    rw [hchanged] at hafter
    cases hafter
    refine observe_grounded h (fun fingerprint hready => ?_) hobserved
    refine hcareful fingerprint _ hready ?_
    show (if calls leadSessionId record.id expectedVersion record then
      (report.reading record).map fun seen => Reading.mk seen seen.attemptedAt seen.attemptedAt
      else none) = _
    rw [if_pos hcalls, hreading]
    rfl
  have hchanged : ∀ changed, change = some changed → Grounded changed := by
    cases report with
    | observation seen =>
        rcases map_ok hchange with ⟨after, hobserved, hafter⟩
        exact hseen seen _ rfl ⟨after, hobserved, hafter.symm⟩
    | fallback error seen incomplete =>
        unfold checkpointChange at hchange
        dsimp only at hchange
        -- A fallback that is known already is not taken in a second time.
        by_cases hknown : (record.incidents.any fun entry =>
            entry.lastObservationKey = { observation := seen, error := some error }) = true
        · rw [if_pos hknown] at hchange
          cases hchange
          exact fun _ hnext => (nomatch hnext)
        · rw [if_neg hknown] at hchange
          rcases map_ok hchange with ⟨after, hobserved, hafter⟩
          refine hseen seen error ?_ ⟨after, hobserved, hafter.symm⟩
          exact if_neg hknown
    | _ => exact absurd (fun _ => nofun) hcause
  cases change with
  | none =>
      cases hcheckpoint
      exact fun _ hnext => (nomatch hnext)
  | some changed =>
      rcases map_ok hcheckpoint with ⟨saved, hsaved, rfl⟩
      intro next hnext
      cases hnext
      refine (save_kept hsaved).grounded ?_
      split
      · exact (releaseTerminal_kept changed).grounded (hchanged changed rfl)
      · exact hchanged changed rfl

/-- The same of a receipt: it is taken in, or readiness is dropped. -/
theorem checkpointObservationReceipt_grounded {store : Store} {leadSessionId : Text}
    {expectedVersion : Nat} {receipt : ObservationReceipt} {result : Option Registration}
    (h : Grounded record) (hlead : record.leadSessionId = leadSessionId)
    (hget : store.records.get record.id = some record)
    (hcareful : ∀ fingerprint reading, record.readyFingerprint = some fingerprint →
      (Operation.checkpointObservationReceipt leadSessionId record.id expectedVersion
        receipt).reading w store record = some reading →
        misleads w record fingerprint reading = false)
    (hreceipt : checkpointObservationReceipt w store leadSessionId expectedVersion receipt record =
      .ok result) : ∀ next, result = some next → Grounded next := by
  unfold checkpointObservationReceipt at hreceipt
  by_cases hrecorded : receipt.recorded = true
  · rw [if_pos hrecorded] at hreceipt
    cases hreceipt
    exact fun _ hnext => (nomatch hnext)
  · rw [if_neg hrecorded] at hreceipt
    rcases unless_ok hreceipt with ⟨hversion, hreceipt⟩
    rcases unless_ok hreceipt with ⟨_, hreceipt⟩
    split at hreceipt
    · rename_i htaken
      rcases bind_ok hreceipt with ⟨seen, hseen, hreceipt⟩
      rcases map_ok hreceipt with ⟨saved, hsaved, rfl⟩
      have hseen : Grounded seen := by
        refine observe_grounded h (fun fingerprint hready => ?_) hseen
        refine hcareful fingerprint _ hready ?_
        -- Only a registration that is retained is admitted.
        have hretained : record.released = false := by
          rcases retained_of_admission rfl htaken.2.2.1 with ⟨other, hmem, _, hid⟩
          have hother := mem_retained.mp hmem
          rw [hid, hget] at hother
          cases hother.1
          exact hother.2
        have hcalls : calls leadSessionId record.id expectedVersion record = true := by
          unfold calls
          simp only [not_not] at hversion
          simp [hlead, hversion, hretained]
        have htaken : receiptTaken w store leadSessionId receipt record = true := by
          unfold receiptTaken
          simp [hrecorded, htaken]
        show (if calls leadSessionId record.id expectedVersion record &&
            receiptTaken w store leadSessionId receipt record then
          some (Reading.mk receipt.observation receipt.hostAttemptedAt receipt.hostLatestAt)
          else none) = _
        rw [hcalls, htaken]
        rfl
      intro next hnext
      cases hnext
      refine (save_kept hsaved).grounded ?_
      have hreleased := (releaseTerminal_kept (w := w) seen).grounded hseen
      split
      · have hkept : Kept (releaseTerminal w seen)
            { releaseTerminal w seen with nextCheckAt := w.now } := by
          constructor <;> first | rfl | exact fun h => h
        exact hkept.grounded hreleased
      · exact hreleased
    · rcases map_ok hreceipt with ⟨saved, hsaved, rfl⟩
      intro next hnext
      cases hnext
      exact (save_kept hsaved).grounded (.of_unready h.distinct rfl)

/-- Every registration of the registry has the grounds for its readiness. -/
def Store.Grounded (store : Store) : Prop :=
  ∀ id record, store.records.get id = some record → PrMaintenance.Grounded record

theorem Store.Grounded.put {store : Store} (h : store.Grounded)
    (hrecord : PrMaintenance.Grounded record) : (store.put record).Grounded := by
  intro id found hfound
  rw [get_put] at hfound
  split at hfound
  · cases hfound
    exact hrecord
  · exact h id found hfound

theorem updateOwned_grounded {leadSessionId recordId : Text} {store after : Store}
    {change : Registration → Except Refusal (Option Registration)} (h : store.Grounded)
    (hupdate : updateOwned leadSessionId recordId change store = .ok after)
    (hchange : ∀ record result, store.records.get recordId = some record →
      record.leadSessionId = leadSessionId → change record = .ok result →
        ∀ next, result = some next → PrMaintenance.Grounded next) : after.Grounded := by
  unfold updateOwned update at hupdate
  cases hget : store.records.get recordId with
  | none =>
      rw [hget] at hupdate
      cases hupdate
  | some record =>
      rw [hget] at hupdate
      rcases bind_ok hupdate with ⟨changed, hchanged, hupdate⟩
      dsimp only at hchanged
      split at hchanged
      · cases hchanged
      · rename_i hlead
        cases changed with
        | none =>
            cases hupdate
            exact h
        | some next =>
            cases hupdate
            exact h.put (hchange record _ hget (not_not.mp hlead) hchanged next rfl)

theorem Enabled.grounded (h : Enabled w record) : Grounded record := by
  rcases h with ⟨input, operatorId, sourceProposal, generation, task, worker, rfl⟩
  have hnew : Grounded (newRegistration w input operatorId sourceProposal generation task worker) :=
    .of_unready .nil rfl
  unfold enabled
  split
  · exact .of_unready (distinct_law.setHold (w := w) _ _ _ _ _ .nil) (setHold_unready _ _ _ _ _)
  · split
    · exact .of_unready (distinct_law.setHold (w := w) _ _ _ _ _ .nil) (setHold_unready _ _ _ _ _)
    · exact (requestReview_kept _ _ _ _).grounded hnew

theorem Becomes.grounded {found after : Option Registration}
    (hcause : ∀ observation, cause ≠ .observation observation)
    (hfound : ∀ record, found = some record → Grounded record)
    (h : Becomes w cause found after) : ∀ record, after = some record → Grounded record := by
  intro record hrecord
  cases h with
  | absent => cases hrecord
  | acts hacts =>
      cases hrecord
      exact hacts.grounded hcause (hfound _ rfl)
  | enabled hnew hacts =>
      cases hrecord
      exact hacts.grounded hcause hnew.grounded

theorem OperatorAction.not_observation (action : OperatorAction) (observation : Observation) :
    action.cause ≠ .observation observation := by
  cases action <;> nofun

theorem LeadAction.not_observation (action : LeadAction) (observation : Observation) :
    action.cause ≠ .observation observation := by
  cases action <;> nofun

/-- What any call but an observation leaves of readiness. -/
theorem step_grounded_of_cause {store : Store} {call : World × Operation} (h : store.Grounded)
    (hcause : ∀ id observation, call.2.cause id ≠ .observation observation) :
    (PrMaintenance.step store call).Grounded := by
  intro id record hget
  exact (step_becomes store call id).grounded (hcause id) (h id) record hget

theorem step_grounded {store : Store} {operation : Operation} (h : store.Grounded)
    (hreliable : (Call.call w operation).Reliable store) :
    (PrMaintenance.step store (w, operation)).Grounded := by
  cases operation with
  | checkpoint leadSessionId recordId expectedVersion report wakeId =>
      unfold step
      split
      · rename_i after hrun
        refine updateOwned_grounded h hrun ?_
        intro record result hget hlead hchange
        have hid := store.keyed recordId record hget
        subst hid
        exact checkpoint_grounded (h _ record hget) hlead
          (fun fingerprint reading => hreliable _ record fingerprint reading hget) hchange
      · exact h
  | checkpointObservationReceipt leadSessionId recordId expectedVersion receipt =>
      unfold step
      split
      · rename_i after hrun
        refine updateOwned_grounded h hrun ?_
        intro record result hget hlead hchange
        have hid := store.keyed recordId record hget
        subst hid
        exact checkpointObservationReceipt_grounded (h _ record hget) hlead hget
          (fun fingerprint reading => hreliable _ record fingerprint reading hget) hchange
      · exact h
  -- The other operations take in no observation.
  | operatorAction recordId expectedVersion action operatorId =>
      refine step_grounded_of_cause h fun id observation => ?_
      show (if id = recordId then action.cause else .other) ≠ _
      split
      · exact action.not_observation observation
      · nofun
  | set leadSessionId recordId expectedVersion action =>
      refine step_grounded_of_cause h fun id observation => ?_
      show (if id = recordId then action.cause else .other) ≠ _
      split
      · exact action.not_observation observation
      · nofun
  | authorizeProposal proposal proposalId expectedVersion operatorId =>
      refine step_grounded_of_cause h fun id observation => ?_
      show (if _ then Cause.authorization else Cause.other) ≠ _
      split <;> nofun
  | _ => exact step_grounded_of_cause h fun _ _ => nofun

/-! ### Restores -/

/-- What is written released is settled. -/
theorem write_settled (h : write w record = .ok next) (hreleased : next.released = true) :
    Settled next := by
  unfold write at h
  rcases unless_ok h with ⟨_, h⟩
  rcases bind_ok h with ⟨archived, _, h⟩
  rcases unless_ok h with ⟨_, h⟩
  rcases unless_ok h with ⟨hsettled, h⟩
  rcases unless_ok h with ⟨_, h⟩
  cases h
  refine outstanding_of_settled ?_
  rw [not_and_or, not_or, Bool.not_eq_true, Bool.not_eq_true] at hsettled
  rcases hsettled with hnot | hsettled
  · rw [hreleased] at hnot
    cases hnot
  · exact hsettled.1

theorem confirmRestored_unready (hretained : record.released = false)
    (hheld : record.heldBack = true → record.readyFingerprint = none) :
    (confirmRestored w record).readyFingerprint = none := by
  unfold confirmRestored
  rw [if_neg (by rw [hretained]; nofun)]
  dsimp only
  split
  · rename_i hback
    exact hheld hback
  · exact setHold_unready _ _ _ _ _

theorem confirmRestored_distinct (h : Distinct record.findings) :
    Distinct (confirmRestored w record).findings := by
  unfold confirmRestored
  split
  · exact h
  · dsimp only
    split
    · exact h
    · exact distinct_law.setHold (w := w) _ _ _ _ _ h

theorem restored_grounded (hdistinct : Distinct record.findings)
    (hready : record.released = true ∨ record.heldBack = true → ∀ fingerprint,
      record.readyFingerprint = some fingerprint → acceptable w record fingerprint = true)
    (h : write w (confirmRestored w record) = .ok next) : Grounded next := by
  have hkept := write_kept h
  have hnext : Distinct next.findings := by
    rw [hkept.findings]
    exact confirmRestored_distinct hdistinct
  by_cases hreleased : record.released = true
  · have hsame : confirmRestored w record = record := if_pos hreleased
    rw [hsame] at hkept
    refine ⟨hnext, fun fingerprint hsome => ?_⟩
    have hwarranted :=
      (warranted_of_readyFor (hready (.inl hreleased) fingerprint (hkept.ready ▸ hsome))).1
    exact ⟨hkept.warranted hwarranted, write_settled h (hkept.released hreleased)⟩
  · refine .of_unready hnext (hkept.ready.trans ?_)
    refine confirmRestored_unready (Bool.eq_false_iff.mpr hreleased) fun hheld => ?_
    cases hsome : record.readyFingerprint with
    | none => rfl
    | some fingerprint =>
        -- A hold that is kept denies readiness.
        have hnone := (warranted_of_readyFor (hready (.inr hheld) fingerprint hsome)).1.hold
        unfold Registration.heldBack at hheld
        rw [hnone] at hheld
        cases hheld

theorem importBackup_grounded {registrations : List Registration} {after : Store}
    (hrecords : ∀ record ∈ registrations, Distinct record.findings ∧
      (record.released = true ∨ record.heldBack = true → ∀ fingerprint,
        record.readyFingerprint = some fingerprint → acceptable w record fingerprint = true))
    (h : importBackup w registrations = .ok after) : after.Grounded := by
  unfold importBackup at h
  refine foldlM_invariant Store.Grounded ?_ ?_ h
  · intro store record hmem next hstore hturn
    unfold insert at hturn
    rcases bind_ok hturn with ⟨written, hwritten, hturn⟩
    rcases unless_ok hturn with ⟨_, hturn⟩
    rcases unless_ok hturn with ⟨_, hturn⟩
    cases hturn
    rcases hrecords record hmem with ⟨hdistinct, hready⟩
    exact hstore.put (restored_grounded hdistinct hready hwritten)
  · intro id record hget
    cases hget

theorem Call.step_grounded {store : Store} {call : Call} (h : store.Grounded)
    (hreliable : call.Reliable store) : (call.step store).Grounded := by
  cases call with
  | call w operation => exact PrMaintenance.step_grounded h hreliable
  | restore w registrations =>
      show (match importBackup w registrations with
        | .ok next => next
        | .error _ => store).Grounded
      cases hrestored : importBackup w registrations with
      | ok after => exact importBackup_grounded hreliable hrestored
      | error _ => exact h

/-- Nothing is left to do, and everything passed. -/
def cleanObservation : Observation where
  attemptedAt := toISOString 1000
  complete := true
  checksComplete := true
  reviewsComplete := true
  identity := some quietIdentity
  snapshotId := some (ofString "snapshot")
  headSha := some quietHead
  state := some .opened
  fingerprint := some (ofString "fingerprint")
  mergeability := .mergeable
  evidence := ofString "read"
  whole := quiet_whole

def ambiguousObservation : Observation where
  attemptedAt := toISOString 1000
  complete := false
  helperError := some { code := some { isString := true, text := ambiguousEffect } }
  evidence := ofString "A reply may have been sent."
  whole := nofun

/-- A clean pull request is found ready, and then an effect turns out ambiguous. -/
def ambiguousReady : List Call :=
  [.call quiet (.enable quietInput (ofString "operator")),
    .call quiet (.checkpoint (ofString "lead") (ofString "record") 1
      (.observation cleanObservation) none),
    .call quiet (.checkpoint (ofString "lead") (ofString "record") 2
      (.ready (ofString "fingerprint")) none),
    .call quiet (.checkpoint (ofString "lead") (ofString "record") 3
      (.observation ambiguousObservation) none)]

theorem reliable_of_unready {store : Store} {operation : Operation}
    (h : store.records.values.all (fun record => record.readyFingerprint.isNone) = true) :
    (Call.call w operation).Reliable store := by
  intro id record fingerprint reading hget hready
  have hnone := List.all_eq_true.mp h record ((Table.mem_values_iff _ _).mpr ⟨id, hget⟩)
  rw [hready] at hnone
  cases hnone

/-- The pull request is found ready and released. -/
def readyReleased : List Call :=
  ambiguousReady.take 3 ++ [.call quiet (.operatorAction (ofString "record") 3
    (.release (ofString "The task is done.") none none) (ofString "operator"))]

/-- What a backup has of it. -/
def readyBackup : List Registration := (Run.final Call.step {} readyReleased).records.values

theorem readyBackup_reliable (store : Store) : (Call.restore quiet readyBackup).Reliable store := by
  have hall : readyBackup.all (fun record => record.findings = [] &&
      record.readyFingerprint.all (acceptable quiet record)) = true := by
    decide +kernel
  intro record hrecord
  have hfound := List.all_eq_true.mp hall record hrecord
  rw [Bool.and_eq_true, decide_eq_true_eq] at hfound
  refine ⟨hfound.1 ▸ List.Pairwise.nil, fun _ fingerprint hready => ?_⟩
  rw [hready, Option.all_some] at hfound
  exact hfound.2

end PrMaintenance

end CopilotFleet
