import CopilotFleet.PrmSkill.Engine

/-!
# Reporting a Batch Again

A worker that cannot confirm what it did to the PR says so, and the batch waits
as uncertain until it is reported a second time with what is actually there.
The second report is a correction of the first, and most of what a job keeps of
a batch follows that reading: the effects of the batch, the dispositions of its
findings, its state and its report are each replaced.

Two counters are not. The mutation attempts of both reports are added up, and
each report counts every repair group of the order once more. A correction
therefore counts once exactly where there was nothing to count twice
(`reported_once_iff`): the first report had no attempts and the order asked for
no repair.

## Main definitions

* `SameAccount`: Two jobs keep the same of a batch, times aside.

## Theorems

* `reportBatch_eq`: What a report that is accepted comes to.
* `applyReport_batch`: The batch after a report.
* `sameAccount_iff`: A correction beside the report it corrects.
* `reported_once_iff`: When correcting a report counts once.
* `reported_twice`: A repair that is counted twice.
-/

namespace CopilotFleet

namespace PrmSkill

open Utf16

variable {platform : Platform} {choice : Choice} {batchId : Text}

/-! ### What a job keeps of a batch -/

def RecordedEffect.untimed (effect : RecordedEffect) : RecordedEffect :=
  { effect with recordedAt := 0 }

def Disposition.untimed (disposition : Disposition) : Disposition :=
  { disposition with recordedAt := 0 }

/-- Two jobs keep the same of a batch, times aside. -/
structure SameAccount (batchId : Text) (order : WorkOrder) (job other : Job) : Prop where
  attempts : job.budgets.mutationAttempts.used = other.budgets.mutationAttempts.used
  groups : job.groupBatchCounts = other.groupBatchCounts
  effects : (job.effects.filter fun effect => effect.batchId = batchId).map
      RecordedEffect.untimed =
    (other.effects.filter fun effect => effect.batchId = batchId).map RecordedEffect.untimed
  dispositions : ∀ finding ∈ order.findings,
    (job.dispositions.get finding.sourceId).map Disposition.untimed =
      (other.dispositions.get finding.sourceId).map Disposition.untimed
  state : (job.batch batchId).map (·.state) = (other.batch batchId).map (·.state)
  report : (job.batch batchId).map (·.report) = (other.batch batchId).map (·.report)

/-! ### One report -/

/-- What every hold keeps, the holds of a report do. -/
theorem holdReport_keeps {P : Job → Prop}
    (hadd : ∀ job kind reason sourceIds, P job → P (addHold choice kind reason sourceIds job))
    (order : WorkOrder) (report : WorkReport) (findings : List ReportedFinding) {job : Job}
    (h : P job) : P (holdReport choice order report findings job) := by
  have hunless : ∀ {p : Prop} {_ : Decidable p} {kind : HoldKind} {reason : Text}
      {sourceIds : List Text} {job : Job}, P job →
        P (if p then job else addHold choice kind reason sourceIds job) := by
    intro p _ kind reason sourceIds job hjob
    split
    · exact hjob
    · exact hadd job kind reason sourceIds hjob
  have hwhen : ∀ {p : Prop} {_ : Decidable p} {kind : HoldKind} {reason : Text}
      {sourceIds : List Text} {job : Job}, P job →
        P (if p then addHold choice kind reason sourceIds job else job) := by
    intro p _ kind reason sourceIds job hjob
    split
    · exact hadd job kind reason sourceIds hjob
    · exact hjob
  unfold holdReport
  exact hunless (hunless (hwhen (hunless h)))

theorem holdReport_same (choice : Choice) (order : WorkOrder) (report : WorkReport)
    (findings : List ReportedFinding) (job : Job) :
    (holdReport choice order report findings job).budgets = job.budgets ∧
      (holdReport choice order report findings job).groupBatchCounts = job.groupBatchCounts ∧
      (holdReport choice order report findings job).effects = job.effects ∧
      (holdReport choice order report findings job).dispositions = job.dispositions ∧
      (holdReport choice order report findings job).batches = job.batches :=
  holdReport_keeps (P := fun held => held.budgets = job.budgets ∧
      held.groupBatchCounts = job.groupBatchCounts ∧ held.effects = job.effects ∧
      held.dispositions = job.dispositions ∧ held.batches = job.batches)
    (fun _ _ _ _ h => h) order report findings ⟨rfl, rfl, rfl, rfl, rfl⟩

/-- The findings a report settles, with what it left out. -/
def settledFindings (order : WorkOrder) (report : WorkReport) : List ReportedFinding :=
  report.findings ++ unreported order report.findings

/-- The batch a report leaves. -/
def reported (choice : Choice) (report : WorkReport) (order : WorkOrder) (batch : Batch) :
    Batch :=
  { batch with
    state := reportedState report.effects (settledFindings order report)
    report := some { report with findings := settledFindings order report }
    settledAt :=
      if reportedState report.effects (settledFindings order report) = .uncertain then
        batch.settledAt
      else some choice.now }

/-- The groups of an order that ask for a repair. -/
def repairGroups (order : WorkOrder) : List Text :=
  ((order.findings.filter fun finding => finding.task = .repair).map (·.groupKey)).eraseDups

def countGroup (counts : Table Text Nat) (groupKey : Text) : Table Text Nat :=
  counts.set groupKey ((counts.get groupKey).getD 0 + 1)

/-- What a report leaves of each part of the account. -/
theorem applyReport_account (platform : Platform) (choice : Choice) (batch : Batch)
    (report : WorkReport) (job : Job) :
    (applyReport platform choice batch report job).budgets.mutationAttempts.used =
        job.budgets.mutationAttempts.used + report.mutationAttempts ∧
      (applyReport platform choice batch report job).groupBatchCounts =
        (repairGroups batch.workOrder).foldl countGroup job.groupBatchCounts ∧
      (applyReport platform choice batch report job).effects =
        ((job.effects.filter fun effect => effect.batchId ≠ batch.batchId) ++
          recordEffects platform choice batch.batchId report.effects).rtake effectsKept ∧
      (applyReport platform choice batch report job).dispositions =
        (settledFindings batch.workOrder report).foldl (fun dispositions finding =>
          dispositions.set finding.sourceId
            (findingDisposition choice batch.batchId finding)) job.dispositions ∧
      (applyReport platform choice batch report job).batches =
        setBatch batch.batchId (reported choice report batch.workOrder) job.batches := by
  have hheld := fun job' => holdReport_same choice batch.workOrder report
    (report.findings ++ unreported batch.workOrder report.findings) job'
  unfold applyReport
  refine ⟨?_, ?_, ?_, ?_, ?_⟩
  · dsimp only
    rw [(hheld _).1]
    rfl
  · dsimp only
    rw [(hheld _).2.1]
    rfl
  · dsimp only
    rw [(hheld _).2.2.1]
  · dsimp only
    rw [(hheld _).2.2.2.1]
    rfl
  · dsimp only
    rw [(hheld _).2.2.2.2]
    rfl

/-! ### The batch after a report -/

theorem find?_setBatch {f : Batch → Batch} (hf : ∀ batch, (f batch).batchId = batch.batchId)
    (batches : List Batch) :
    (setBatch batchId f batches).find? (fun batch => batch.batchId = batchId) =
      (batches.find? fun batch => batch.batchId = batchId).map f := by
  induction batches with
  | nil => rfl
  | cons batch rest ih =>
      unfold setBatch
      by_cases hid : batch.batchId = batchId
      · rw [if_pos hid, List.find?_cons, List.find?_cons, hf, decide_eq_true hid]
        rfl
      · rw [if_neg hid, List.find?_cons, List.find?_cons, decide_eq_false hid]
        exact ih

variable {batch : Batch} {job : Job}

theorem batchId_of_batch (h : job.batch batchId = some batch) : batch.batchId = batchId := by
  simpa using List.find?_some h

theorem any_of_batch (h : job.batch batchId = some batch) :
    (job.batches.any fun batch => batch.batchId = batchId) = true :=
  List.any_eq_true.mpr ⟨batch, List.mem_of_find?_eq_some h, by simpa using batchId_of_batch h⟩

/-- The batch after a report. -/
theorem applyReport_batch (platform : Platform) (choice : Choice)
    (h : job.batch batchId = some batch) (report : WorkReport) :
    (applyReport platform choice batch report job).batch batchId =
      some (reported choice report batch.workOrder batch) := by
  have hbatches := (applyReport_account platform choice batch report job).2.2.2.2
  have hkept : ∀ other : Batch,
      (reported choice report batch.workOrder other).batchId = other.batchId := fun _ => rfl
  unfold Job.batch at h ⊢
  rw [hbatches, batchId_of_batch h, find?_setBatch hkept, h]
  rfl

/-- What a report that is accepted comes to. -/
theorem reportBatch_eq (platform : Platform) (choice : Choice) {store : Store} {jobId : Text}
    {report : WorkReport}
    (hjob : batchJob store batchId = some (jobId, job)) (hbatch : job.batch batchId = some batch)
    (hstate : batch.state = .accepted ∨ batch.state = .uncertain)
    (hvalid : workReportProblems batch.workOrder report = []) :
    reportBatch platform choice batchId report store =
      .ok { store with
        jobs := store.jobs.set jobId (applyReport platform choice batch report job) } := by
  have hopen : ¬(batch.state ≠ .accepted ∧ batch.state ≠ .uncertain) := by
    rintro ⟨haccepted, huncertain⟩
    rcases hstate with hstate | hstate
    · exact haccepted hstate
    · exact huncertain hstate
  unfold reportBatch
  simp only [hjob, hbatch, if_neg hopen, hvalid]
  rfl

/-- After a report the batch is still found in its job. -/
theorem batchJob_set {store : Store} {jobId : Text} {job' : Job} {batch' : Batch}
    (hjob : batchJob store batchId = some (jobId, job))
    (hbatch : job'.batch batchId = some batch') :
    batchJob { store with jobs := store.jobs.set jobId job' } batchId = some (jobId, job') :=
  Table.find?_set hjob (any_of_batch hbatch)

/-! ### A report and its correction -/

theorem foldl_countGroup (groupKey : Text) :
    ∀ (groups : List Text) (counts : Table Text Nat),
      ((groups.foldl countGroup counts).get groupKey).getD 0 =
        (counts.get groupKey).getD 0 + groups.count groupKey := by
  intro groups
  induction groups with
  | nil =>
      intro counts
      rfl
  | cons other rest ih =>
      intro counts
      rw [List.foldl_cons, ih, List.count_cons]
      unfold countGroup
      by_cases hkey : groupKey = other
      · subst hkey
        rw [Table.get_set_self, beq_self_eq_true, if_pos rfl, Option.getD_some]
        omega
      · rw [Table.get_set_ne _ _ hkey, if_neg (by simpa using Ne.symm hkey)]
        rfl

/-- An order without repairs has no repair group. -/
theorem repairGroups_eq_nil_iff (order : WorkOrder) :
    repairGroups order = [] ↔ ∀ finding ∈ order.findings, finding.task ≠ .repair := by
  unfold repairGroups
  constructor
  · intro hnil finding hfinding hrepair
    have hmem : finding.groupKey ∈ ((order.findings.filter fun finding =>
        finding.task = .repair).map (·.groupKey)).eraseDups := by
      rw [List.mem_eraseDups]
      exact List.mem_map_of_mem (List.mem_filter.mpr ⟨hfinding, decide_eq_true hrepair⟩)
    rw [hnil] at hmem
    cases hmem
  · intro hnone
    have hempty : order.findings.filter (fun finding => finding.task = .repair) = [] := by
      rw [List.filter_eq_nil_iff]
      intro finding hfinding
      simpa using hnone finding hfinding
    rw [hempty]
    rfl

/-- What is left of a batch's effects does not depend on what stood before them. -/
theorem filter_rtake {α : Type} {p : α → Bool} {before own : List α} (n : Nat)
    (hbefore : ∀ x ∈ before, p x = false) (hown : ∀ x ∈ own, p x = true) :
    ((before ++ own).rtake n).filter p = own.rtake n := by
  unfold List.rtake
  have hrest : (before ++ own).length - n - before.length = own.length - n := by
    rw [List.length_append]
    omega
  rw [List.drop_append, List.filter_append, hrest]
  rw [List.filter_eq_nil_iff.mpr, List.filter_eq_self.mpr, List.nil_append]
  · intro x hx
    exact hown x (List.mem_of_mem_drop hx)
  · intro x hx
    rw [hbefore x (List.mem_of_mem_drop hx)]
    nofun

/-- The effects of the batch after a report. -/
theorem applyReport_effects (h : job.batch batchId = some batch) (report : WorkReport) :
    (applyReport platform choice batch report job).effects.filter
        (fun effect => effect.batchId = batchId) =
      (recordEffects platform choice batchId report.effects).rtake effectsKept := by
  have heffects := (applyReport_account platform choice batch report job).2.2.1
  rw [heffects, batchId_of_batch h]
  refine filter_rtake effectsKept ?_ ?_
  · intro effect heffect
    have hother := (List.mem_filter.mp heffect).2
    simpa using hother
  · intro effect heffect
    unfold recordEffects at heffect
    rw [List.mem_mapIdx] at heffect
    rcases heffect with ⟨index, hindex, rfl⟩
    exact decide_eq_true rfl

theorem recordEffects_untimed (first again : Choice) (effects : List ReportedEffect) :
    (recordEffects platform first batchId effects).map RecordedEffect.untimed =
      (recordEffects platform again batchId effects).map RecordedEffect.untimed := by
  unfold recordEffects
  refine List.ext_getElem (by simp) ?_
  intro index hleft hright
  rw [List.getElem_map, List.getElem_map, List.getElem_mapIdx, List.getElem_mapIdx]
  rfl

/-- Every finding of the order is settled by a report, whether it names it or not. -/
theorem exists_settledFinding {order : WorkOrder} {finding : OrderedFinding}
    (hfinding : finding ∈ order.findings) (report : WorkReport) :
    ∃ settled ∈ settledFindings order report, settled.sourceId = finding.sourceId := by
  unfold settledFindings
  by_cases hreported : report.findings.any (fun other => other.sourceId = finding.sourceId) = true
  · rw [List.any_eq_true] at hreported
    rcases hreported with ⟨other, hother, hid⟩
    exact ⟨other, List.mem_append_left _ hother, by simpa using hid⟩
  · refine ⟨_, List.mem_append_right _ (List.mem_map_of_mem (List.mem_filter.mpr ⟨hfinding, ?_⟩)),
      rfl⟩
    rw [Bool.not_eq_true', ← Bool.not_eq_true]
    exact hreported

/-- The disposition of an ordered finding after a report is the report's own. -/
theorem applyReport_disposition (platform : Platform) {order : WorkOrder} (report : WorkReport)
    {finding : OrderedFinding} (hfinding : finding ∈ order.findings) :
    ∃ settled, ∀ (choice : Choice) (batch : Batch) (job : Job), batch.workOrder = order →
      (applyReport platform choice batch report job).dispositions.get finding.sourceId =
        some (findingDisposition choice batch.batchId settled) := by
  rcases exists_settledFinding hfinding report with ⟨named, hnamed, hid⟩
  have hmem : named ∈ (settledFindings order report).filter
      fun settled => settled.sourceId = finding.sourceId :=
    List.mem_filter.mpr ⟨hnamed, decide_eq_true hid⟩
  cases hlast : ((settledFindings order report).filter
      fun settled => settled.sourceId = finding.sourceId).getLast? with
  | none =>
      rw [List.getLast?_eq_none_iff] at hlast
      rw [hlast] at hmem
      cases hmem
  | some settled =>
      refine ⟨settled, ?_⟩
      rintro choice batch job rfl
      rw [(applyReport_account platform choice batch report job).2.2.2.1, Table.get_foldl_set,
        hlast]
      rfl

/-- A correction keeps the same account as the corrected report alone, exactly
    where the first report had nothing to count. -/
theorem sameAccount_iff (platform : Platform) (first again alone : Choice)
    (h : job.batch batchId = some batch) (uncertain settled : WorkReport) :
    SameAccount batchId batch.workOrder
        (applyReport platform again (reported first uncertain batch.workOrder batch) settled
          (applyReport platform first batch uncertain job))
        (applyReport platform alone batch settled job) ↔
      uncertain.mutationAttempts = 0 ∧
        ∀ finding ∈ batch.workOrder.findings, finding.task ≠ .repair := by
  have hfirst := applyReport_account platform first batch uncertain job
  have hagain := applyReport_account platform again (reported first uncertain batch.workOrder batch)
    settled (applyReport platform first batch uncertain job)
  have halone := applyReport_account platform alone batch settled job
  have hbatch := applyReport_batch platform first h uncertain
  rw [← repairGroups_eq_nil_iff]
  constructor
  · intro hsame
    constructor
    · have hattempts := hsame.attempts
      rw [hagain.1, hfirst.1, halone.1] at hattempts
      omega
    · have hgroups := hsame.groups
      rw [hagain.2.1, hfirst.2.1, halone.2.1] at hgroups
      -- Every group would be counted once more than by the one report.
      rw [List.eq_nil_iff_forall_not_mem]
      intro groupKey hmem
      have hcount : 0 < (repairGroups batch.workOrder).count groupKey := List.count_pos_iff.mpr hmem
      have hkey := congrArg (fun counts => (counts.get groupKey).getD 0) hgroups
      have horder : (reported first uncertain batch.workOrder batch).workOrder = batch.workOrder :=
        rfl
      simp only [horder, foldl_countGroup] at hkey
      omega
  · rintro ⟨hattempts, hgroups⟩
    refine ⟨?_, ?_, ?_, ?_, ?_, ?_⟩
    · rw [hagain.1, hfirst.1, halone.1, hattempts, Nat.add_zero]
    · have horder : (reported first uncertain batch.workOrder batch).workOrder = batch.workOrder :=
        rfl
      rw [hagain.2.1, hfirst.2.1, halone.2.1, horder, hgroups]
      rfl
    · rw [applyReport_effects hbatch, applyReport_effects h]
      unfold List.rtake
      rw [List.map_drop, List.map_drop, recordEffects_untimed again alone]
      unfold recordEffects
      rw [List.length_mapIdx, List.length_mapIdx]
    · intro finding hfinding
      rcases applyReport_disposition platform settled hfinding with ⟨last, hlast⟩
      rw [hlast again (reported first uncertain batch.workOrder batch) _ rfl,
        hlast alone batch job rfl]
      rfl
    · rw [applyReport_batch platform again hbatch, applyReport_batch platform alone h]
      rfl
    · rw [applyReport_batch platform again hbatch, applyReport_batch platform alone h]
      rfl

/-- Correcting an uncertain report counts once, exactly where the corrected
    report had no attempts and its order asked for no repair. -/
theorem reported_once_iff (platform : Platform) (first again alone : Choice) {store : Store}
    {jobId : Text} (hjob : batchJob store batchId = some (jobId, job))
    (hbatch : job.batch batchId = some batch) (haccepted : batch.state = .accepted)
    {uncertain settled : WorkReport}
    (huncertain : ∃ effect ∈ uncertain.effects, effect.state = .uncertain)
    (hvalid : workReportProblems batch.workOrder uncertain = [])
    (hvalid' : workReportProblems batch.workOrder settled = []) :
    ∃ twice once corrected reportedOnce,
      (reportBatch platform first batchId uncertain store >>=
        reportBatch platform again batchId settled) = .ok twice ∧
      reportBatch platform alone batchId settled store = .ok once ∧
      twice.jobs.get jobId = some corrected ∧ once.jobs.get jobId = some reportedOnce ∧
      (SameAccount batchId batch.workOrder corrected reportedOnce ↔
        uncertain.mutationAttempts = 0 ∧
          ∀ finding ∈ batch.workOrder.findings, finding.task ≠ .repair) := by
  have hwaits : (reported first uncertain batch.workOrder batch).state = .uncertain := by
    rcases huncertain with ⟨effect, heffect, hstate⟩
    have hany : (uncertain.effects.any fun effect => effect.state = .uncertain) = true :=
      List.any_eq_true.mpr ⟨effect, heffect, decide_eq_true hstate⟩
    unfold reported reportedState
    rw [if_pos hany]
  have hreported := applyReport_batch platform first hbatch uncertain
  have honce := reportBatch_eq platform alone hjob hbatch (Or.inl haccepted) hvalid'
  have hfirst := reportBatch_eq platform first hjob hbatch (Or.inl haccepted) hvalid
  have hagain := reportBatch_eq platform again (batchJob_set hjob hreported) hreported
    (Or.inr hwaits) hvalid'
  have htwice := congrArg (fun store => store >>= reportBatch platform again batchId settled) hfirst
  exact ⟨_, _, _, _, htwice.trans hagain, honce, Table.get_set_self _ _ _,
    Table.get_set_self _ _ _, sameAccount_iff platform first again alone hbatch uncertain settled⟩

namespace Sample

/-- A platform that recognises no URL and keeps no digests. -/
def reporting : Platform where
  parseUrl := fun _ => none
  slugFor := id
  numbered := fun slug _ => slug
  effectHash := fun _ => none
  localeLe := fun _ _ => true
  toLowerCase := id

def tick (now : Time) : Choice where
  now := now
  passId := ofString "pass"
  holdId := fun _ => ofString "hold"
  saved := true

/-- An order of one finding, which is a repair or an answer. -/
def order (task : Task) : WorkOrder where
  batchId := ofString "job-b1"
  jobId := ofString "job"
  createdAt := 0
  headSha := ofString "head"
  baseSha := ofString "base"
  permissions := { modifyCode := true, push := true, reply := true, resolveThreads := true }
  conflictResolution := false
  summary := ofString "go on"
  findings := [{
    sourceId := ofString "thread_comment:C1"
    kind := ofString "thread_comment"
    revision := ofString "r2"
    groupKey := ofString "C1"
    task := task
    instructions := ofString "x" }]

def ordered (task : Task) : Batch where
  batchId := ofString "job-b1"
  state := .accepted
  kind := .repair
  workOrder := order task
  createdAt := 0

def maintained (task : Task) : Job where
  jobId := ofString "job"
  generation := 1
  url := ofString "url"
  provider := .github
  mode := .repair
  resolveThreads := true
  checkInterval := 60000
  checkout := some (ofString "/app")
  budgets := BudgetArgs.opened {}
  nextCheckAt := 0
  batches := [ordered task]

def maintaining (task : Task) : Store where
  jobs := Table.empty.set (ofString "job") (maintained task)

/-- A report of one push, confirmed or not, after some attempts. -/
def pushed (state : EffectState) (attempts : Nat) : WorkReport where
  batchId := ofString "job-b1"
  mutationAttempts := attempts
  findings := [{
    sourceId := ofString "thread_comment:C1"
    revision := ofString "r2"
    outcome := .incomplete
    stage := .committed }]
  effects := [{ kind := .push, state := state }]

end Sample

/-- An answer whose first report had no attempts is counted once. -/
theorem reported_once_iff_answer :
    ∃ twice once corrected reportedOnce,
      (reportBatch Sample.reporting (Sample.tick 1) (ofString "job-b1") (Sample.pushed .uncertain 0)
          (Sample.maintaining .answer) >>=
        reportBatch Sample.reporting (Sample.tick 2) (ofString "job-b1")
          (Sample.pushed .notPerformed 1)) = .ok twice ∧
      reportBatch Sample.reporting (Sample.tick 3) (ofString "job-b1")
        (Sample.pushed .notPerformed 1) (Sample.maintaining .answer) = .ok once ∧
      twice.jobs.get (ofString "job") = some corrected ∧
      once.jobs.get (ofString "job") = some reportedOnce ∧
      SameAccount (ofString "job-b1") (Sample.order .answer) corrected reportedOnce := by
  have hjob : batchJob (Sample.maintaining .answer) (ofString "job-b1") =
      some (ofString "job", Sample.maintained .answer) := rfl
  have hbatch : (Sample.maintained .answer).batch (ofString "job-b1") =
      some (Sample.ordered .answer) := rfl
  have huncertain : ∃ effect ∈ (Sample.pushed .uncertain 0).effects,
      effect.state = .uncertain := ⟨_, List.mem_singleton_self _, rfl⟩
  have hvalid : ∀ state attempts, workReportProblems (Sample.order .answer)
      (Sample.pushed state attempts) = [] := by
    intro state attempts
    rfl
  rcases reported_once_iff Sample.reporting (Sample.tick 1) (Sample.tick 2) (Sample.tick 3) hjob
      hbatch rfl huncertain (hvalid _ _) (hvalid .notPerformed 1) with
    ⟨twice, once, corrected, reportedOnce, htwice, honce, hcorrected, hreported, hiff⟩
  refine ⟨twice, once, corrected, reportedOnce, htwice, honce, hcorrected, hreported,
    hiff.mpr ⟨rfl, ?_⟩⟩
  intro finding hfinding
  rw [List.mem_singleton.mp hfinding]
  nofun

/-- A repair that was reported and corrected, with one attempt each time, is
    counted twice. -/
theorem reported_twice :
    ∃ twice once corrected reportedOnce,
      (reportBatch Sample.reporting (Sample.tick 1) (ofString "job-b1") (Sample.pushed .uncertain 1)
          (Sample.maintaining .repair) >>=
        reportBatch Sample.reporting (Sample.tick 2) (ofString "job-b1")
          (Sample.pushed .notPerformed 1)) = .ok twice ∧
      reportBatch Sample.reporting (Sample.tick 2) (ofString "job-b1")
        (Sample.pushed .notPerformed 1) (Sample.maintaining .repair) = .ok once ∧
      twice.jobs.get (ofString "job") = some corrected ∧
      once.jobs.get (ofString "job") = some reportedOnce ∧
      corrected.budgets.mutationAttempts.used = 2 ∧
      reportedOnce.budgets.mutationAttempts.used = 1 ∧
      repeatedGroups corrected (Sample.order .repair).findings = [ofString "C1"] ∧
      repeatedGroups reportedOnce (Sample.order .repair).findings = [] ∧
      ¬SameAccount (ofString "job-b1") (Sample.order .repair) corrected reportedOnce := by
  refine ⟨_, _, _, _, rfl, rfl, rfl, rfl, by decide +kernel, by decide +kernel, by decide +kernel,
    by decide +kernel, ?_⟩
  intro hsame
  exact absurd hsame.attempts (by decide +kernel)

end PrmSkill

end CopilotFleet
