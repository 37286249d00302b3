import CopilotFleet.PrMaintenance.Accounts

/-!
# What Is Recorded of a Source

The lead reports on a batch as often as it likes until the batch ends. Each
report replaces the findings and the effects of the batch, and each is
compared with the one before. Effects are compared from the old list to the
new, so none is left out, and what is known of one stays known. Findings are
compared from the new list to the old. A report that does not end the batch
may leave a source out, and what was recorded of that source is gone.

So what is recorded of the sources lasts exactly where no report that is
accepted leaves one out of which anything was recorded (`evidence_lasts_iff`).

## Main definitions

* `Grows`: Nothing that is recorded of a source is taken back.
* `Report`, `report`: One report on a batch, and the registration after it.
* `Lasts`: What a batch shows of every source lasts, in it and in the registration.
* `Lists`: The report leaves out no source of which anything was recorded.

## Theorems

* `report_told`: What a report does to the findings of its batch.
* `evidence_lasts_iff`: Evidence lasts exactly where every report lists it again.
* `evidence_lost`: Not in every run.
-/

namespace CopilotFleet

open Utf16 Refusal Tally Timestamps

namespace PrMaintenance

/-! ### Recorded findings -/

/-- The finding of a source, in a list of findings. -/
def findingOf (findings : List Finding) (source : Source) : Option Finding :=
  findings.find? fun finding => finding.about source

/-- Nothing recorded is taken back: the commit that was published, the
    responses that were given and the stage that was reached. -/
structure Grows (old new : Option Finding) : Prop where
  commit : ∀ commit, old.bind (·.publishedCommit) = some commit →
    new.bind (·.publishedCommit) = some commit
  responses : ∀ response ∈ (old.map (·.responseIds)).getD [],
    response ∈ (new.map (·.responseIds)).getD []
  stage : (old.map (·.stage.index)).getD 0 ≤ (new.map (·.stage.index)).getD 0

theorem Grows.refl (finding : Option Finding) : Grows finding finding :=
  ⟨fun _ h => h, fun _ h => h, le_rfl⟩

theorem Grows.trans {a b c : Option Finding} (hab : Grows a b) (hbc : Grows b c) : Grows a c :=
  ⟨fun commit h => hbc.commit commit (hab.commit commit h),
    fun response h => hbc.responses response (hab.responses response h),
    hab.stage.trans hbc.stage⟩

theorem Grows.of_none (finding : Option Finding) : Grows none finding :=
  ⟨fun _ h => (nomatch h), fun _ h => (nomatch h), Nat.zero_le _⟩

/-- Something was recorded: a commit, a response, or a stage that was reached. -/
def Finding.marked (finding : Finding) : Bool :=
  finding.publishedCommit.isSome || finding.responseIds ≠ [] || finding.stage.index ≠ 0

/-- A finding may go exactly where nothing was recorded in it. -/
theorem grows_none_iff (finding : Finding) :
    Grows (some finding) none ↔ finding.marked = false := by
  unfold Finding.marked
  simp only [Bool.or_eq_false_iff, decide_eq_false_iff_not, not_not]
  constructor
  · intro h
    refine ⟨⟨?_, ?_⟩, ?_⟩
    · cases hcommit : finding.publishedCommit with
      | none => rfl
      | some commit => cases h.commit commit hcommit
    · exact List.eq_nil_iff_forall_not_mem.mpr fun response hresponse =>
        (nomatch h.responses response hresponse)
    · exact Nat.le_zero.mp h.stage
  · rintro ⟨⟨hcommit, hresponses⟩, hstage⟩
    refine ⟨fun commit h => ?_, fun response h => ?_, ?_⟩
    · have h : finding.publishedCommit = some commit := h
      rw [h] at hcommit
      cases hcommit
    · have h : response ∈ finding.responseIds := h
      rw [hresponses] at h
      cases h
    · exact Nat.le_of_eq hstage

/-- What is remembered of a finding is what it recorded. -/
theorem grows_disposition (published : Bool) (batch : Batch) (finding : Finding) :
    Grows (some finding) (some (disposition published batch finding)) :=
  ⟨fun _ h => h, fun _ h => h, le_rfl⟩

/-! ### The findings of a report -/

theorem about_iff {finding : Finding} {source : Source} : finding.about source = true ↔
    finding.source.id = source.id ∧ finding.source.revision = source.revision := by
  unfold Finding.about
  rw [Bool.and_eq_true, decide_eq_true_eq, decide_eq_true_eq]

theorem about_of_findingOf {findings : List Finding} {source : Source} {finding : Finding}
    (h : findingOf findings source = some finding) : finding.about source = true := by
  unfold findingOf at h
  have habout := List.find?_some h
  exact habout

theorem key_of_about {finding : Finding} {source : Source} (h : finding.about source = true) :
    finding.source.key = source.key := by
  rcases about_iff.mp h with ⟨hid, hrevision⟩
  unfold Source.key
  rw [hid, hrevision]

theorem about_congr {a b : Source} (hid : a.id = b.id) (hrevision : a.revision = b.revision) :
    (fun finding : Finding => finding.about a) = fun finding => finding.about b := by
  unfold Finding.about
  rw [hid, hrevision]

/-- What a checked list of findings is: one for a source, each no less than what
    was recorded of it. -/
theorem checkFindings_ok {batch : Batch} {heads seen : List Text} {findings : List Finding}
    (h : checkFindings batch heads seen findings = .ok ()) :
    (findings.map (·.source.key)).Nodup ∧
      (∀ finding ∈ findings, finding.source.key ∉ seen) ∧
      ∀ finding ∈ findings, ∀ old, findingOf batch.findings finding.source = some old →
        Grows (some old) (some finding) := by
  induction findings generalizing seen with
  | nil => exact ⟨List.nodup_nil, fun _ hmem => (nomatch hmem), fun _ hmem => (nomatch hmem)⟩
  | cons finding rest ih =>
      unfold checkFindings at h
      rcases unless_ok h with ⟨_, h⟩
      rcases unless_ok h with ⟨hunseen, h⟩
      rcases unless_ok h with ⟨_, h⟩
      -- The last of the four checks compares with what the batch shows.
      rcases unless_ok h with ⟨hkept, h⟩
      rcases ih h with ⟨hnodup, hnot, hgrows⟩
      have hfresh : finding.source.key ∉ seen := by
        intro hmem
        exact hunseen (.inl (List.contains_iff_mem.mpr hmem))
      refine ⟨?_, ?_, ?_⟩
      · rw [List.map_cons, List.nodup_cons]
        refine ⟨?_, hnodup⟩
        intro hmem
        rcases List.mem_map.mp hmem with ⟨other, hother, hkey⟩
        exact hnot other hother (hkey ▸ List.mem_cons_self)
      · intro other hother
        rcases List.mem_cons.mp hother with rfl | hother
        · exact hfresh
        · exact fun hmem => hnot other hother (List.mem_cons_of_mem _ hmem)
      · intro other hother old hold
        rcases List.mem_cons.mp hother with rfl | hother
        · unfold findingOf at hold
          rw [hold, Option.any_some] at hkept
          simp only [Bool.or_eq_true, Bool.and_eq_true, List.any_eq_true, decide_eq_true_eq,
            Bool.not_eq_true', not_or, not_and, not_exists, not_lt] at hkept
          rcases hkept with ⟨⟨hcommit, hresponses⟩, hstage⟩
          refine ⟨fun commit hsome => ?_, fun response hresponse => ?_, hstage⟩
          · have hsome : old.publishedCommit = some commit := hsome
            have hsame := hcommit (by rw [hsome]; rfl)
            rw [hsome] at hsame
            exact (not_not.mp hsame).symm
          · have hcontains := hresponses response hresponse
            rw [Bool.not_eq_false] at hcontains
            exact List.contains_iff_mem.mp hcontains
        · exact hgrows other hother old hold

/-- What is remembered after a report: of what it lists, what it says, and of
    the rest what was remembered before. -/
theorem findingOf_foldl {f : Finding → Finding} (hf : ∀ finding, (f finding).source = finding.source)
    {findings : List Finding} (hnodup : (findings.map (·.source.key)).Nodup)
    (known : List Finding) (source : Source) :
    findingOf (findings.foldl (fun known finding =>
      First.put (fun entry => entry.about finding.source) (f finding) known) known) source =
        ((findingOf findings source).map f).or (findingOf known source) := by
  induction findings generalizing known with
  | nil => rfl
  | cons finding rest ih =>
      rw [List.map_cons, List.nodup_cons] at hnodup
      rw [List.foldl_cons, ih hnodup.2]
      by_cases habout : finding.about source = true
      · -- No later finding is about this source.
        have hrest : findingOf rest source = none := by
          unfold findingOf
          rw [List.find?_eq_none]
          intro other hother hsame
          refine hnodup.1 (List.mem_map.mpr ⟨other, hother, ?_⟩)
          rw [key_of_about hsame, key_of_about habout]
        have hfound : findingOf (finding :: rest) source = some finding := by
          unfold findingOf
          rw [List.find?_cons, habout]
        rw [hrest, hfound]
        unfold findingOf
        have hself : (First.put (fun entry => entry.about finding.source) (f finding) known).find?
            (fun entry => entry.about source) = some (f finding) := by
          rcases about_iff.mp habout with ⟨hid, hrevision⟩
          rw [← about_congr hid hrevision]
          refine First.put_find_self ?_ known
          rw [about_iff, hf]
          exact ⟨rfl, rfl⟩
        rw [hself]
        rfl
      · have habout := Bool.eq_false_iff.mpr habout
        have hfound : findingOf (finding :: rest) source = findingOf rest source := by
          unfold findingOf
          rw [List.find?_cons, habout]
        rw [hfound]
        congr 1
        unfold findingOf
        refine First.put_find_ne ?_ ?_
        · rw [← habout]
          unfold Finding.about
          rw [hf]
        · intro entry _ hentry
          rcases about_iff.mp hentry with ⟨hid, hrevision⟩
          rw [← habout]
          unfold Finding.about
          rw [hid, hrevision]

/-! ### Reports on one batch -/

/-- One report on a batch, as a lead checkpoints it. -/
structure Report where
  w : World
  leadSessionId : Text
  expectedVersion : Nat
  wakeId : Option Text
  update : Settlement

/-- The registration after a report, which a refusal leaves as it was. -/
def report (record : Registration) (call : Report) : Registration :=
  match checkpoint call.w call.leadSessionId call.expectedVersion (.batch call.update) call.wakeId
      record with
  | .ok (some next) => next
  | _ => record

def Report.accepted (record : Registration) (call : Report) : Bool :=
  (checkpoint call.w call.leadSessionId call.expectedVersion (.batch call.update) call.wakeId
    record).toOption.isSome

/-- The findings a batch shows. -/
def reported (batchId : Text) (record : Registration) : List Finding :=
  ((record.batch batchId).map (·.findings)).getD []

/-- The effects a batch shows. -/
def reportedEffects (batchId : Text) (record : Registration) : List Effect :=
  ((record.batch batchId).map (·.effects)).getD []

/-- What a batch shows of every source lasts: it is shown later, by the batch
    and by what is remembered of its findings. -/
structure Lasts (batchId : Text) (record later : Registration) : Prop where
  reported : ∀ source, Grows (findingOf (reported batchId record) source)
    (findingOf (PrMaintenance.reported batchId later) source)
  remembered : ∀ source, Grows (findingOf (PrMaintenance.reported batchId record) source)
    (findingOf later.findings source)

/-- The report, if it is accepted, leaves out no source of which the batch shows
    a commit, a response or a stage that was reached. -/
def Lists (batchId : Text) (record : Registration) (call : Report) : Prop :=
  call.accepted record = true → ∀ source finding,
    findingOf (reported batchId record) source = some finding → finding.marked = true →
      (findingOf call.update.findings source).isSome = true

/-- An effect whose outcome was known, told again: the same effect. -/
def Effect.Same (old effect : Effect) : Prop :=
  effect.key = old.key ∧ effect.kind = old.kind ∧ effect.state = old.state ∧
    effect.headSha = old.headSha ∧ effect.recipient = old.recipient ∧ effect.actor = old.actor ∧
    effect.actionIdentity = old.actionIdentity ∧ effect.attempts = old.attempts ∧
    (old.providerId.isSome = true → effect.providerId = old.providerId)

/-- Every effect whose outcome a batch shows as known is shown so later. -/
def EffectsLast (batchId : Text) (record later : Registration) : Prop :=
  ∀ old ∈ reportedEffects batchId record, unsettledEffect old = false →
    ∃ effect ∈ reportedEffects batchId later, old.Same effect

variable {w : World} {record next : Registration} {batchId : Text}

/-- With no batch prepared, a decision settles nothing. -/
theorem raiseDecision_idle {decision : Decision}
    (hidle : ∀ batch ∈ record.batches, batch.state ≠ .prepared)
    (h : raiseDecision w decision record = .ok next) :
    next.batches = record.batches ∧ next.findings = record.findings := by
  unfold raiseDecision at h
  rcases concludeReview_ok .decision w.now (some decision.proposal) { record with
    decisionHistory := record.decisionHistory ++ record.decision.toList
    decision := some { decision with
      state := .pending
      operatorId := none
      direction := none
      resolvedAt := none }
    readyFingerprint := none } with ⟨review, hreview⟩
  rw [hreview] at h
  refine forBatches_keeps (fun changed => changed.batches = record.batches ∧
    changed.findings = record.findings) ?_ ?_ h
  · intro batch changed next hmem hchanged hturn
    rw [if_neg (hidle batch (hchanged.1 ▸ hmem))] at hturn
    cases hturn
    exact hchanged
  · exact ⟨rfl, rfl⟩

/-- In a sound registration the batch that is reported on is the only one at
    work, so nothing is prepared once the report is written down. -/
theorem recordSettlement_idle {unsent : Bool} {batch : Batch} {update : Settlement}
    (hsound : Sound record) (hbatch : record.batch update.batchId = some batch)
    (hout : batch.outstanding = true) :
    ∀ entry ∈ (recordSettlement w unsent batch update record).batches,
      entry.state ≠ .prepared := by
  rcases First.setFirst_split hbatch
    (reportedBatch w unsent (publishedBy record update) update) with
    ⟨before, after, hsplit, _, hset⟩
  have hsingle := hsound.single
  rw [hsplit, List.countP_append, List.countP_cons, if_pos hout] at hsingle
  have hbefore : before.countP Batch.outstanding = 0 := by omega
  have hafter : after.countP Batch.outstanding = 0 := by omega
  rw [List.countP_eq_zero] at hbefore hafter
  intro entry hmem hprepared
  have hmem : entry ∈ First.setFirst (fun entry => entry.id = update.batchId)
      (reportedBatch w unsent (publishedBy record update) update) record.batches := hmem
  rw [hset] at hmem
  rcases List.mem_append.mp hmem with hmem | hmem
  · exact hbefore entry hmem (Batch.outstanding_of hprepared)
  · rcases List.mem_cons.mp hmem with rfl | hmem
    · exact update.sent.1 hprepared
    · exact hafter entry hmem (Batch.outstanding_of hprepared)

/-- What a settlement leaves on record, in a sound registration. -/
theorem settleBatch_records {update : Settlement} (hsound : Sound record)
    (h : settleBatch w false update record = .ok next) :
    ∃ batch, record.batch update.batchId = some batch ∧
      ((batch.findings = update.findings ∧ batch.effects = update.effects ∧ next = record) ∨
        (checkFindings batch (batch.headSha :: update.findings.filterMap (·.publishedCommit)) []
            update.findings = .ok () ∧
          preserveEffects batch.effects update.effects = .ok () ∧
          ∃ unsent,
            next.batches = (recordSettlement w unsent batch update record).batches ∧
            next.findings = (recordSettlement w unsent batch update record).findings)) := by
  rcases settleWith_ok h with ⟨batch, hbatch, _, _, hsettled | hsettled⟩
  · exact ⟨batch, hbatch, .inl hsettled.2⟩
  · rcases hsettled with ⟨hout, _, hfindings, _, heffects, _, hconcluded⟩
    refine ⟨batch, hbatch, .inr ⟨hfindings, heffects,
      provenUnsent w false record batch update, ?_⟩⟩
    have hidle : ∀ entry ∈ (recordSettlement w (provenUnsent w false record batch update) batch
        update record).batches, entry.state ≠ .prepared :=
      recordSettlement_idle hsound hbatch hout
    rcases concludeSettlement_ok hconcluded with
      ⟨asked, looped, forgot, hasked, hforgot, hlooped, hnext⟩
    have hasked : asked.batches = (recordSettlement w
          (provenUnsent w false record batch update) batch update record).batches ∧
        asked.findings = (recordSettlement w
          (provenUnsent w false record batch update) batch update record).findings := by
      rcases hasked with heq | ⟨_, decision, hraised⟩
      · rw [heq]
        exact ⟨rfl, rfl⟩
      · exact raiseDecision_idle hidle hraised
    have hforgot : forgot.batches = asked.batches ∧ forgot.findings = asked.findings := by
      rw [hforgot]
      unfold forgetAttempt
      split <;> exact ⟨rfl, rfl⟩
    have hlooped : looped.batches = asked.batches ∧ looped.findings = asked.findings := by
      rcases hlooped with heq | ⟨_, _, decision, hraised⟩
      · rw [heq]
        exact hforgot
      · have hraised := raiseDecision_idle (by rw [hforgot.1, hasked.1]; exact hidle) hraised
        exact ⟨hraised.1.trans hforgot.1, hraised.2.trans hforgot.2⟩
    have hreviewed : next.batches = looped.batches ∧ next.findings = looped.findings := by
      rw [hnext]
      unfold reviewResult requestReview
      split
      · split <;> exact ⟨rfl, rfl⟩
      · exact ⟨rfl, rfl⟩
    exact ⟨hreviewed.1.trans (hlooped.1.trans hasked.1),
      hreviewed.2.trans (hlooped.2.trans hasked.2)⟩

/-! ### What a report does -/

theorem report_of_refused {call : Report} (h : call.accepted record = false) :
    report record call = record := by
  unfold Report.accepted at h
  unfold report
  cases hchecked : checkpoint call.w call.leadSessionId call.expectedVersion (.batch call.update)
      call.wakeId record with
  | error _ => rfl
  | ok result =>
      rw [hchecked] at h
      cases h

theorem report_fair (record : Registration) (call : Report) : Fair record (report record call) := by
  unfold report
  split
  · rename_i next hchecked
    exact (checkpoint_acts hchecked next rfl).fair
  · exact .refl record

/-- A report that is accepted settles the batch, and saves. -/
theorem settled_of_accepted {call : Report} (h : call.accepted record = true) :
    ∃ settled, settleBatch call.w false call.update record = .ok settled ∧
      Kept settled (report record call) := by
  unfold Report.accepted at h
  unfold report
  cases hchecked : checkpoint call.w call.leadSessionId call.expectedVersion (.batch call.update)
      call.wakeId record with
  | error _ =>
      rw [hchecked] at h
      cases h
  | ok result =>
      unfold checkpoint at hchecked
      rcases unless_ok hchecked with ⟨_, hchecked⟩
      rcases unless_ok hchecked with ⟨_, hchecked⟩
      rcases bind_ok hchecked with ⟨change, hchange, hchecked⟩
      rcases map_ok hchange with ⟨settled, hsettled, rfl⟩
      rcases map_ok hchecked with ⟨next, hsaved, rfl⟩
      exact ⟨settled, hsettled, (releaseTerminal_kept settled).trans (save_kept hsaved)⟩

/-- A report is refused, or told a second time, or it takes the place of what
    the batch showed before. -/
inductive Told (batchId : Text) (record : Registration) (call : Report) (batch : Batch) : Prop where
  | refused (h : call.accepted record = false) (hsame : report record call = record)
  | again (hfindings : batch.findings = call.update.findings)
      (hbatches : (report record call).batches = record.batches)
      (hremembered : (report record call).findings = record.findings)
  | recorded (published : Bool) (haccepted : call.accepted record = true)
      (hchecked : checkFindings batch
        (batch.headSha :: call.update.findings.filterMap (·.publishedCommit)) []
          call.update.findings = .ok ())
      (heffects : preserveEffects batch.effects call.update.effects = .ok ())
      (hbatch : ∃ later, (report record call).batch batchId = some later ∧
        later.findings = call.update.findings ∧ later.effects = call.update.effects)
      (hremembered : (report record call).findings =
        call.update.findings.foldl (fun findings finding =>
          First.put (fun entry => entry.about finding.source)
            (disposition published batch finding) findings) record.findings)

theorem report_told {call : Report} {batch : Batch} (hsound : Sound record)
    (hbatch : record.batch batchId = some batch) (hone : call.update.batchId = batchId) :
    Told batchId record call batch := by
  by_cases haccepted : call.accepted record = true
  · rcases settled_of_accepted haccepted with ⟨settled, hsettled, hkept⟩
    rcases settleBatch_records hsound hsettled with ⟨found, hfound, hcases⟩
    rw [hone, hbatch] at hfound
    cases hfound
    rcases hcases with ⟨hfindings, _, heq⟩ | ⟨hchecked, heffects, unsent, hbatches, hfindings⟩
    · rw [heq] at hkept
      exact .again hfindings hkept.batches hkept.findings
    · refine .recorded (publishedBy record call.update) haccepted hchecked heffects ?_
        (hkept.findings.trans hfindings)
      refine ⟨reportedBatch call.w unsent (publishedBy record call.update) call.update batch,
        ?_, rfl, rfl⟩
      unfold Registration.batch
      rw [hkept.batches, hbatches, ← hone]
      refine First.setFirst_find (hone ▸ hbatch) ?_
      have hid : batch.id = batchId := by simpa using List.find?_some hbatch
      rw [(reportedBatch_frame unsent (publishedBy record call.update) call.update batch).1, hid,
        hone]
      exact decide_eq_true rfl
  · exact .refused (Bool.eq_false_iff.mpr haccepted)
      (report_of_refused (Bool.eq_false_iff.mpr haccepted))

theorem reported_of_batch {batch : Batch} (h : record.batch batchId = some batch) :
    reported batchId record = batch.findings := by
  unfold reported
  rw [h]
  rfl

theorem reportedEffects_of_batch {batch : Batch} (h : record.batch batchId = some batch) :
    reportedEffects batchId record = batch.effects := by
  unfold reportedEffects
  rw [h]
  rfl

/-- A finding that is listed is no less than what the batch showed. -/
theorem grows_of_listed {batch : Batch} {heads : List Text} {findings : List Finding}
    (hchecked : checkFindings batch heads [] findings = .ok ()) {source : Source}
    {finding : Finding} (h : findingOf findings source = some finding) :
    Grows (findingOf batch.findings source) (some finding) := by
  cases hold : findingOf batch.findings source with
  | none => exact .of_none _
  | some old =>
      refine (checkFindings_ok hchecked).2.2 finding (List.mem_of_find?_eq_some h) old ?_
      rcases about_iff.mp (about_of_findingOf h) with ⟨hid, hrevision⟩
      rw [← hold]
      unfold findingOf
      rw [about_congr hid hrevision]

/-! ### Runs of reports -/

/-- A sound registration with the batch, where what the batch shows is remembered. -/
structure Reporting (batchId : Text) (record : Registration) : Prop where
  sound : Sound record
  batch : ∃ batch, record.batch batchId = some batch
  remembered : ∀ source, Grows (findingOf (reported batchId record) source)
    (findingOf record.findings source)

theorem Reporting.lasts (h : Reporting batchId record) : Lasts batchId record record :=
  ⟨fun _ => .refl _, h.remembered⟩

theorem Lasts.trans {a b c : Registration} (hab : Lasts batchId a b) (hbc : Lasts batchId b c) :
    Lasts batchId a c :=
  ⟨fun source => (hab.reported source).trans (hbc.reported source),
    fun source => (hab.reported source).trans (hbc.remembered source)⟩

/-- One report that leaves nothing out. -/
theorem Reporting.report {call : Report} (h : Reporting batchId record)
    (hone : call.update.batchId = batchId) (hlists : Lists batchId record call) :
    Reporting batchId (report record call) ∧ Lasts batchId record (report record call) := by
  rcases h.batch with ⟨batch, hbatch⟩
  have hsound := (report_fair record call h.sound).1
  cases report_told h.sound hbatch hone with
  | refused _ hsame =>
      rw [hsame]
      exact ⟨h, h.lasts⟩
  | again hfindings hbatches hremembered =>
      -- The same report again changes neither the findings nor the batch.
      have hsame : (PrMaintenance.report record call).batch batchId = some batch := by
        unfold Registration.batch
        rw [hbatches]
        exact hbatch
      have hreported : reported batchId (PrMaintenance.report record call) =
          reported batchId record := by
        rw [reported_of_batch hsame, reported_of_batch hbatch]
      refine ⟨⟨hsound, ⟨batch, hsame⟩, ?_⟩, ?_, ?_⟩
      · rw [hreported, hremembered]
        exact h.remembered
      · rw [hreported]
        exact fun _ => .refl _
      · rw [hremembered]
        exact h.remembered
  | recorded published haccepted hchecked heffects hlater hremembered =>
      rcases hlater with ⟨later, hlater, hfindings, _⟩
      have hreported : reported batchId (PrMaintenance.report record call) =
          call.update.findings := (reported_of_batch hlater).trans hfindings
      have hfound := fun source => findingOf_foldl
        (f := disposition published batch) (fun _ => rfl) (checkFindings_ok hchecked).1
        record.findings source
      have hreports : ∀ source, Grows (findingOf (reported batchId record) source)
          (findingOf call.update.findings source) := by
        intro source
        rw [reported_of_batch hbatch]
        cases hlisted : findingOf call.update.findings source with
        | some finding => exact grows_of_listed hchecked hlisted
        | none =>
            cases hold : findingOf batch.findings source with
            | none => exact .refl _
            | some old =>
                rw [grows_none_iff]
                -- A source the report leaves out showed no mark before: `Lists` would name it.
                by_contra hmarked
                have hsome := hlists haccepted source old
                  (by rw [reported_of_batch hbatch, hold]) (Bool.not_eq_false _ ▸ hmarked)
                rw [hlisted] at hsome
                cases hsome
      have hnow : ∀ source, Grows (findingOf call.update.findings source)
          (findingOf (PrMaintenance.report record call).findings source) := by
        intro source
        rw [hremembered, hfound]
        cases findingOf call.update.findings source with
        | none => exact .of_none _
        | some finding => exact grows_disposition published batch finding
      refine ⟨⟨hsound, ⟨later, hlater⟩, ?_⟩, ?_, ?_⟩
      · rw [hreported]
        exact hnow
      · rw [hreported]
        exact hreports
      · exact fun source => (hreports source).trans (hnow source)

/-- Where what is shown lasts over a report, the report left nothing out. -/
theorem Lasts.lists {call : Report} (hsound : Sound record) {batch : Batch}
    (hbatch : record.batch batchId = some batch) (hone : call.update.batchId = batchId)
    (h : Lasts batchId record (report record call)) : Lists batchId record call := by
  intro haccepted source finding hfinding hmarked
  cases report_told hsound hbatch hone with
  | refused hrefused _ =>
      rw [haccepted] at hrefused
      cases hrefused
  | again hfindings _ _ =>
      rw [reported_of_batch hbatch, hfindings] at hfinding
      rw [hfinding]
      rfl
  | recorded published _ _ _ hlater _ =>
      rcases hlater with ⟨later, hlater, hfindings, _⟩
      have hgrows := h.reported source
      rw [hfinding, reported_of_batch hlater, hfindings] at hgrows
      cases hlisted : findingOf call.update.findings source with
      | some _ => rfl
      | none =>
          rw [hlisted, grows_none_iff, hmarked] at hgrows
          cases hgrows

/-- Reports that leave nothing out, one after the other. -/
theorem reports_last {reports : List Report} (h : Reporting batchId record)
    (hone : ∀ call ∈ reports, call.update.batchId = batchId)
    (hlists : Run.Admits report (Lists batchId) record reports) :
    Reporting batchId (Run.final report record reports) ∧
      Lasts batchId record (Run.final report record reports) := by
  induction reports generalizing record with
  | nil => exact ⟨h, h.lasts⟩
  | cons call rest ih =>
      rcases h.report (hone call List.mem_cons_self) hlists.1 with ⟨hnext, hlasts⟩
      rcases ih hnext (fun other hother => hone other (List.mem_cons_of_mem _ hother)) hlists.2 with
        ⟨hfinal, hrest⟩
      exact ⟨hfinal, hlasts.trans hrest⟩

/-- What lasts wherever one looks, lasts over every report. -/
theorem lists_of_last {reports : List Report} (hsound : Sound record)
    (hbatch : ∃ batch, record.batch batchId = some batch)
    (hone : ∀ call ∈ reports, call.update.batchId = batchId)
    (h : ∀ before between after, reports = before ++ between ++ after →
      Lasts batchId (Run.final report record before)
        (Run.final report record (before ++ between))) :
    Run.Admits report (Lists batchId) record reports := by
  induction reports generalizing record with
  | nil => trivial
  | cons call rest ih =>
      rcases hbatch with ⟨batch, hbatch⟩
      rcases report_fair record call hsound with ⟨hnext, hfollows⟩
      rcases hfollows batchId batch hbatch with ⟨later, hlater, _⟩
      refine ⟨?_, ih hnext ⟨later, hlater⟩
        (fun other hother => hone other (List.mem_cons_of_mem _ hother)) ?_⟩
      · exact (h [] [call] rest rfl).lists hsound hbatch (hone call List.mem_cons_self)
      · intro before between after hsplit
        have hlasts := h (call :: before) between after (by rw [hsplit]; rfl)
        exact hlasts

/-! ### Effects -/

theorem Effect.Same.trans {a b c : Effect} (hab : a.Same b) (hbc : b.Same c) : a.Same c := by
  rcases hab with ⟨hkey, hkind, hstate, hhead, hrecipient, hactor, haction, hattempts, hprovider⟩
  rcases hbc with ⟨hkey', hkind', hstate', hhead', hrecipient', hactor', haction', hattempts',
    hprovider'⟩
  refine ⟨hkey'.trans hkey, hkind'.trans hkind, hstate'.trans hstate, hhead'.trans hhead,
    hrecipient'.trans hrecipient, hactor'.trans hactor, haction'.trans haction,
    hattempts'.trans hattempts, fun h => ?_⟩
  have hb := hprovider h
  exact (hprovider' (hb.symm ▸ h)).trans hb

theorem EffectsLast.refl (batchId : Text) (record : Registration) :
    EffectsLast batchId record record :=
  fun old hmem _ => ⟨old, hmem, rfl, rfl, rfl, rfl, rfl, rfl, rfl, rfl, fun _ => rfl⟩

theorem EffectsLast.trans {a b c : Registration} (hab : EffectsLast batchId a b)
    (hbc : EffectsLast batchId b c) : EffectsLast batchId a c := by
  intro old hmem hsettled
  rcases hab old hmem hsettled with ⟨effect, heffect, hsame⟩
  have hstill : unsettledEffect effect = false := by
    unfold unsettledEffect at hsettled ⊢
    rw [hsame.2.2.1]
    exact hsettled
  rcases hbc effect heffect hstill with ⟨later, hlater, hsame'⟩
  exact ⟨later, hlater, hsame.trans hsame'⟩

/-- An effect whose outcome is known is told again as it was. -/
theorem same_of_preserved {old effect : Effect} (hkey : effect.key = old.key)
    (h : old.preserved effect = true) (hsettled : unsettledEffect old = false) :
    old.Same effect := by
  unfold Effect.preserved at h
  simp only [Bool.and_eq_true, Bool.or_eq_true, decide_eq_true_eq] at h
  rcases h with ⟨⟨⟨⟨⟨⟨⟨⟨⟨hkind, hhead⟩, hrecipient⟩, hactor⟩, haction⟩, hattempts⟩, _⟩, hprovider⟩,
    hknown⟩, hnotPerformed⟩
  refine ⟨hkey, hkind.symm, ?_, hhead.symm, hrecipient.symm, hactor.symm, haction.symm,
    hattempts.symm, fun h => ?_⟩
  · unfold unsettledEffect at hsettled
    cases hstate : old.state with
    | reserved => simp [hstate] at hsettled
    | uncertain => simp [hstate] at hsettled
    | known => exact hknown.resolve_left (not_not.mpr hstate)
    | notPerformed => exact hnotPerformed.resolve_left (not_not.mpr hstate)
  · rcases hprovider with hnone | hsame
    · rw [hnone] at h
      cases h
    · exact hsame.symm

theorem report_effects {call : Report} (hsound : Sound record) {batch : Batch}
    (hbatch : record.batch batchId = some batch) (hone : call.update.batchId = batchId) :
    EffectsLast batchId record (report record call) := by
  cases report_told hsound hbatch hone with
  | refused _ hsame =>
      rw [hsame]
      exact .refl batchId record
  | again _ hbatches _ =>
      intro old hmem hsettled
      refine ⟨old, ?_, rfl, rfl, rfl, rfl, rfl, rfl, rfl, rfl, fun _ => rfl⟩
      unfold reportedEffects Registration.batch at hmem ⊢
      rw [hbatches]
      exact hmem
  | recorded _ _ _ heffects hlater _ =>
      rcases hlater with ⟨later, hlater, _, hreported⟩
      intro old hmem hsettled
      rw [reportedEffects_of_batch hbatch] at hmem
      rw [reportedEffects_of_batch hlater, hreported]
      have hone := forM_ok heffects old hmem
      cases hfind : call.update.effects.find? fun effect => effect.key = old.key with
      | none =>
          rw [hfind] at hone
          cases hone
      | some effect =>
          rw [hfind] at hone
          dsimp only at hone
          split at hone
          · rename_i hpreserved
            have hkey : effect.key = old.key := by simpa using List.find?_some hfind
            exact ⟨effect, List.mem_of_find?_eq_some hfind,
              same_of_preserved hkey hpreserved hsettled⟩
          · cases hone

theorem reports_effects {reports : List Report} (hsound : Sound record)
    (hbatch : ∃ batch, record.batch batchId = some batch)
    (hone : ∀ call ∈ reports, call.update.batchId = batchId) :
    EffectsLast batchId record (Run.final report record reports) ∧
      Sound (Run.final report record reports) ∧
      ∃ batch, (Run.final report record reports).batch batchId = some batch := by
  induction reports generalizing record with
  | nil => exact ⟨.refl batchId record, hsound, hbatch⟩
  | cons call rest ih =>
      rcases hbatch with ⟨batch, hbatch⟩
      rcases report_fair record call hsound with ⟨hnext, hfollows⟩
      rcases hfollows batchId batch hbatch with ⟨later, hlater, _⟩
      rcases ih hnext ⟨later, hlater⟩ (fun other hother =>
        hone other (List.mem_cons_of_mem _ hother)) with ⟨hrest, hfinal⟩
      exact ⟨(report_effects hsound hbatch (hone call List.mem_cons_self)).trans hrest, hfinal⟩

/-! ### Every sequence of reports on a batch -/

/-- Over the reports on a batch, from the first: what is recorded of its sources
    lasts exactly where no report that is accepted leaves out a source of which
    something was recorded. What is known of an effect lasts anyway. -/
theorem evidence_lasts_iff (calls : List (World × Operation)) {id : Text} {batch : Batch}
    (hrecord : (reached calls).records.get id = some record)
    (hbatch : record.batch batchId = some batch) (hnew : batch.findings = [])
    (reports : List Report) (hone : ∀ call ∈ reports, call.update.batchId = batchId) :
    ((∀ before between after, reports = before ++ between ++ after →
        Lasts batchId (Run.final report record before)
          (Run.final report record (before ++ between))) ↔
      Run.Admits report (Lists batchId) record reports) ∧
    ∀ before between after, reports = before ++ between ++ after →
      EffectsLast batchId (Run.final report record before)
        (Run.final report record (before ++ between)) := by
  have hsound := reached_sound calls id record hrecord
  have hreporting : Reporting batchId record := by
    refine ⟨hsound, ⟨batch, hbatch⟩, fun source => ?_⟩
    rw [reported_of_batch hbatch, hnew]
    exact .of_none _
  have hof : ∀ {before between after : List Report}, reports = before ++ between ++ after →
      (∀ call ∈ before, call.update.batchId = batchId) ∧
        ∀ call ∈ between, call.update.batchId = batchId := by
    intro before between after hsplit
    constructor
    · intro call hmem
      exact hone call (by rw [hsplit]; exact List.mem_append_left _ (List.mem_append_left _ hmem))
    · intro call hmem
      exact hone call (by rw [hsplit]; exact List.mem_append_left _ (List.mem_append_right _ hmem))
  refine ⟨⟨fun h => lists_of_last hsound ⟨batch, hbatch⟩ hone h, fun h => ?_⟩, ?_⟩
  · intro before between after hsplit
    rcases hof hsplit with ⟨hbefore, hbetween⟩
    rw [hsplit, Run.admits_append, Run.admits_append] at h
    rcases reports_last hreporting hbefore h.1.1 with ⟨hmiddle, _⟩
    rw [Run.final_append]
    exact (reports_last hmiddle hbetween h.1.2).2
  · intro before between after hsplit
    rcases hof hsplit with ⟨hbefore, hbetween⟩
    rcases reports_effects hsound ⟨batch, hbatch⟩ hbefore with ⟨_, hmiddle, hstill⟩
    rw [Run.final_append]
    exact (reports_effects hmiddle hstill hbetween).1

/-! ### Evidence that is lost -/

theorem reconciling_sent :
    BatchState.reconciling ≠ .prepared ∧ BatchState.reconciling ≠ .accepted := by
  decide

/-- What the lead tells while it reconciles. -/
def reconcilingReport (expectedVersion : Nat) (findings : List Finding) : Report where
  w := running
  leadSessionId := ofString "lead"
  expectedVersion := expectedVersion
  wakeId := none
  update := {
    batchId := ofString "batch"
    generation := 1
    state := .reconciling
    findings := findings
    effects := []
    executionSettled := false
    evidence := ofString "looking"
    published := true
    sent := reconciling_sent }

def publishedFinding : Finding where
  source := quietSource
  outcome := .incomplete
  stage := .published
  publishedCommit := some (ofString "83baae61804e65cc73a7201a7252750c76066a30")

def forgottenFinding : Finding where
  source := quietSource
  outcome := .incomplete
  stage := .inspected

/-- A commit is told of, the source is left out, and it is told of without. -/
def forgetful : List Report :=
  [reconcilingReport 4 [publishedFinding], reconcilingReport 5 [],
    reconcilingReport 6 [forgottenFinding]]

/-- A push, reserved and then known. -/
def pushed (state : EffectState) : Effect where
  key := ofString "push"
  kind := .push
  state := state
  headSha := quietHead
  actor := ofString "worker"
  actionIdentity := ofString "push"
  providerId := if state = .known then some (ofString "1") else none
  evidence := if state = .known then some (ofString "pushed") else none

/-- A commit and a push are told of, and both again with more known of them. -/
def attentive : List Report :=
  [{ reconcilingReport 4 [publishedFinding] with
      update := { (reconcilingReport 4 [publishedFinding]).update with
        effects := [pushed .reserved] } },
    { reconcilingReport 5 [publishedFinding] with
      update := { (reconcilingReport 5 [publishedFinding]).update with
        findings := [{ publishedFinding with stage := .replied, responseIds := [ofString "r"] }]
        effects := [pushed .known] } }]

/-- A report that lists the source of every finding that is shown leaves none out. -/
theorem lists_of_sources {call : Report}
    (h : ∀ finding ∈ reported batchId record, ∃ again ∈ call.update.findings,
      again.source = finding.source) : Lists batchId record call := by
  intro _ source finding hfind _
  rcases h finding (List.mem_of_find?_eq_some hfind) with ⟨again, hmem, hsource⟩
  have habout : finding.about source = true := by
    simpa using List.find?_some hfind
  unfold findingOf
  rw [List.find?_isSome]
  refine ⟨again, hmem, ?_⟩
  unfold Finding.about at habout ⊢
  rw [hsource]
  exact habout

theorem evidence_lasts_attentive : ∃ record batch,
    (reached acceptedOnce).records.get (ofString "record") = some record ∧
      record.batch (ofString "batch") = some batch ∧
      (reported (ofString "batch") (Run.final report record attentive)).map (·.stage) =
        [.replied] ∧
      (reportedEffects (ofString "batch") (Run.final report record attentive)).map (·.state) =
        [.known] ∧
      Lasts (ofString "batch") (Run.final report record (attentive.take 1))
        (Run.final report record attentive) ∧
      EffectsLast (ofString "batch") (Run.final report record (attentive.take 1))
        (Run.final report record attentive) := by
  have hfound : ((reached acceptedOnce).records.get (ofString "record")).any (fun record =>
      ((record.batch (ofString "batch")).any fun batch => batch.findings = []) &&
        ((reported (ofString "batch") (Run.final report record (attentive.take 1))).all
          fun finding => finding.source = quietSource) &&
        ((reported (ofString "batch") (Run.final report record attentive)).map (·.stage) =
          [.replied]) &&
        ((reportedEffects (ofString "batch") (Run.final report record attentive)).map (·.state) =
          [.known])) = true := by
    decide +kernel
  rw [Option.any_eq_true] at hfound
  rcases hfound with ⟨record, hrecord, hfacts⟩
  simp only [Bool.and_eq_true, decide_eq_true_eq] at hfacts
  rcases hfacts with ⟨⟨⟨hbatch, hsources⟩, hstage⟩, hstate⟩
  rw [Option.any_eq_true] at hbatch
  rcases hbatch with ⟨batch, hbatch, hnew⟩
  have hone : ∀ call ∈ attentive, call.update.batchId = ofString "batch" := by
    intro call hmem
    simp only [attentive, List.mem_cons, List.not_mem_nil, or_false] at hmem
    rcases hmem with rfl | rfl <;> rfl
  -- Before the first report nothing is shown; the second names the source again.
  have hlists : Run.Admits report (Lists (ofString "batch")) record attentive := by
    refine ⟨lists_of_sources fun finding hfinding => ?_, lists_of_sources fun finding hfinding => ?_,
      trivial⟩
    · rw [reported_of_batch hbatch, of_decide_eq_true hnew] at hfinding
      cases hfinding
    · refine ⟨_, List.mem_singleton.mpr rfl, ?_⟩
      exact (of_decide_eq_true (List.all_eq_true.mp hsources finding hfinding)).symm
  have hspec := evidence_lasts_iff acceptedOnce hrecord hbatch (of_decide_eq_true hnew) attentive
    hone
  exact ⟨record, batch, hrecord, hbatch, hstage, hstate,
    hspec.1.mpr hlists (attentive.take 1) (attentive.drop 1) [] rfl,
    hspec.2 (attentive.take 1) (attentive.drop 1) [] rfl⟩

/-- A commit that was told of is not shown any more two reports later. -/
theorem evidence_lost : ¬ ∀ calls id record batchId batch reports,
    (reached calls).records.get id = some record → record.batch batchId = some batch →
      batch.findings = [] → (∀ call ∈ reports, call.update.batchId = batchId) →
        ∀ before between after, reports = before ++ between ++ after →
          Lasts batchId (Run.final report record before)
            (Run.final report record (before ++ between)) := by
  intro h
  have hfound : ((reached acceptedOnce).records.get (ofString "record")).any (fun record =>
      ((record.batch (ofString "batch")).any fun batch => batch.findings = []) &&
        ((findingOf (reported (ofString "batch") (Run.final report record (forgetful.take 1)))
          quietSource).bind (·.publishedCommit)) = publishedFinding.publishedCommit &&
        ((findingOf (reported (ofString "batch") (Run.final report record forgetful))
          quietSource).bind (·.publishedCommit)) = none) = true := by
    decide +kernel
  rw [Option.any_eq_true] at hfound
  rcases hfound with ⟨record, hrecord, hfacts⟩
  rw [Bool.and_eq_true, Bool.and_eq_true, Option.any_eq_true] at hfacts
  rcases hfacts with ⟨⟨⟨batch, hbatch, hnew⟩, hshown⟩, hgone⟩
  have hone : ∀ call ∈ forgetful, call.update.batchId = ofString "batch" := by
    intro call hmem
    simp only [forgetful, List.mem_cons, List.not_mem_nil, or_false] at hmem
    rcases hmem with rfl | rfl | rfl <;> rfl
  have hlasts := h acceptedOnce _ record _ batch forgetful hrecord hbatch (of_decide_eq_true hnew)
    hone (forgetful.take 1) (forgetful.drop 1) [] rfl
  have hstill := (hlasts.reported quietSource).commit _ (of_decide_eq_true hshown)
  have hgone := of_decide_eq_true hgone
  exact nomatch hstill.symm.trans hgone

end PrMaintenance

end CopilotFleet
