import CopilotFleet.PrmSkill.Engine

/-!
# Readiness over Settled Feedback

A job is marked ready when nothing is left that its last observation asks for.
The engine does not check that against the observation: it looks at the list of
obligations, which was built from the observation and has been edited since. A
worker's report takes the findings it settled out of the list whether or not
they are settled where the observation saw them, and the list never held more
than so many to begin with. A report takes the mark away, but a triage that
closes what is left of the list in the same pass puts it back.

`ready_sound_iff` says that this is the only way: in a run, the mark is always
over settled feedback exactly when no triage closes a list that does not cover
its observation.

## Main definitions

* `Sound`: A ready job's last observation is settled.
* `Covered`: What a triage that closes the list leaves of a source.
* `Careful`: No triage closes a list that does not cover its observation.

## Theorems

* `planBatch_ok`, `reportBatch_ok`, `cancelBatch_ok`: What an admitted command leaves.
* `recordOpen_sound`: An observation never marks a job it should not.
* `triage_sound_iff`: A triage does exactly when it is not careful.
* `ready_sound_iff`: Runs of careful commands are the sound ones.
* `ready_over_unsettled`: A run of which the last triage is not.
-/

namespace CopilotFleet

namespace PrmSkill

open Utf16

/-- A source is one of the job's own effects, read back. -/
def isKnownEffect (job : Job) (source : Source) : Bool :=
  job.effects.any fun effect => effect.state = .known && effect.sourceId = some source.id

def isSettled (job : Job) (observation : Observation) (source : Source) : Bool :=
  (job.dispositions.get source.id).any fun disposition =>
    isSettledAt disposition source.revision observation.headSha

/-- A ready job and the observation it is ready at. -/
structure ReadyAt (job : Job) (ready : Ready) (observation : Observation) : Prop where
  complete : observation.complete = true
  fingerprint : observation.fingerprint = some ready.fingerprint
  headSha : observation.headSha = some ready.headSha
  settled : ∀ source ∈ observation.sources,
    isKnownEffect job source = true ∨ isSettled job observation source = true
  holds : job.holds = []
  batches : outstandingBatch job = none

/-- A job marked ready is ready at its last observation. -/
def Job.Sound (job : Job) : Prop :=
  ∀ ready, job.ready = some ready →
    ∃ observation, job.lastObservation = some observation ∧ ReadyAt job ready observation

def Store.Sound (store : Store) : Prop :=
  ∀ jobId job, store.jobs.get jobId = some job → job.Sound

/-! ### Jobs that stay sound -/

theorem Job.Sound.of_none {job : Job} (h : job.ready = none) : job.Sound := by
  intro ready hready
  rw [h] at hready
  cases hready

/-- A change that touches nothing readiness depends on. -/
theorem Job.Sound.of_same {job job' : Job} (h : job.Sound) (hready : job'.ready = job.ready)
    (hobservation : job'.lastObservation = job.lastObservation)
    (heffects : job'.effects = job.effects) (hdispositions : job'.dispositions = job.dispositions)
    (hholds : job.holds = [] → job'.holds = [])
    (hbatches : outstandingBatch job = none → outstandingBatch job' = none) : job'.Sound := by
  intro ready hjob
  rcases h ready (hready ▸ hjob) with ⟨observation, hlast, hat⟩
  refine ⟨observation, hobservation.trans hlast, hat.complete, hat.fingerprint, hat.headSha, ?_,
    hholds hat.holds, hbatches hat.batches⟩
  intro source hsource
  unfold isKnownEffect isSettled
  rw [heffects, hdispositions]
  exact hat.settled source hsource

variable (choice : Choice)

theorem readyMark_eq_some {job : Job} {observation : Observation} {ready : Ready} :
    readyMark choice job observation = some ready →
      evidenceBlockers observation = [] ∧ job.obligations = [] ∧ job.holds = [] ∧
        outstandingBatch job = none ∧ observation.fingerprint = some ready.fingerprint ∧
          observation.headSha = some ready.headSha := by
  unfold readyMark
  split
  · rename_i hblockers
    unfold readinessBlockers jobBlockers at hblockers
    simp only [List.append_eq_nil_iff] at hblockers
    have hobligations : job.obligations = [] := by
      by_contra hne
      simp [hne] at hblockers
    have hholds : job.holds = [] := by
      by_contra hne
      simp [hne] at hblockers
    have hbatches : outstandingBatch job = none := by
      by_contra hne
      have hsome : (outstandingBatch job).isSome := Option.isSome_iff_ne_none.mpr hne
      simp [hsome] at hblockers
    split
    · rename_i fingerprint headSha hfingerprint hhead
      intro hready
      cases hready
      exact ⟨hblockers.1, hobligations, hholds, hbatches, hfingerprint, hhead⟩
    · intro hready
      cases hready
  · intro hready
    cases hready

/-- The converse: where nothing blocks, the mark is given. -/
theorem readyMark_isSome {job : Job} {observation : Observation}
    (hevidence : evidenceBlockers observation = []) (hobligations : job.obligations = [])
    (hholds : job.holds = []) (hbatches : outstandingBatch job = none)
    (hfingerprint : observation.fingerprint.isSome) (hhead : observation.headSha.isSome) :
    (readyMark choice job observation).isSome := by
  rcases Option.isSome_iff_exists.mp hfingerprint with ⟨fingerprint, hfingerprint⟩
  rcases Option.isSome_iff_exists.mp hhead with ⟨headSha, hhead⟩
  have hblockers : readinessBlockers job observation = [] := by
    unfold readinessBlockers jobBlockers
    simp [hevidence, hobligations, hholds, hbatches]
  unfold readyMark
  rw [if_pos hblockers, hfingerprint, hhead]
  rfl

theorem addHold_sound (kind : HoldKind) (reason : Text) (sourceIds : List Text) (job : Job) :
    (addHold choice kind reason sourceIds job).Sound :=
  Job.Sound.of_none rfl

/-! ### Observing -/

/-- Obligations are only ever added, so an empty list owes nothing to any source. -/
theorem buildObligations_nil {job : Job} {observation : Observation}
    {snapshot : List SnapshotSource} {obligations : List Obligation} {sources : List Source}
    (h : buildObligations job observation snapshot obligations sources = []) :
    obligations = [] ∧ ∀ source ∈ sources,
      ∀ obligation, readSource job observation snapshot source ≠ .owed obligation := by
  induction sources generalizing obligations with
  | nil => exact ⟨h, by simp⟩
  | cons source rest ih =>
      unfold buildObligations at h
      cases hread : readSource job observation snapshot source with
      | selfEffect =>
          rw [hread] at h
          refine ⟨(ih h).1, ?_⟩
          intro source' hsource'
          rcases List.mem_cons.mp hsource' with rfl | hsource'
          · simp [hread]
          · exact (ih h).2 source' hsource'
      | settled =>
          rw [hread] at h
          refine ⟨(ih h).1, ?_⟩
          intro source' hsource'
          rcases List.mem_cons.mp hsource' with rfl | hsource'
          · simp [hread]
          · exact (ih h).2 source' hsource'
      | owed obligation =>
          rw [hread] at h
          simp only at h
          split at h
          · simp at h
          · exact absurd (ih h).1 (by simp)

/-- What is not owed is a known effect or settled. -/
theorem settled_of_readSource {job : Job} {observation : Observation}
    {snapshot : List SnapshotSource} {source : Source}
    (h : ∀ obligation, readSource job observation snapshot source ≠ .owed obligation) :
    isKnownEffect job source = true ∨ isSettled job observation source = true := by
  unfold readSource at h
  simp only at h
  split at h
  · rename_i hrecorded
    left
    unfold isRecorded at hrecorded
    rcases List.any_eq_true.mp hrecorded with ⟨effect, heffect, hknown⟩
    rw [Bool.and_eq_true] at hknown
    exact List.any_eq_true.mpr ⟨effect, heffect, hknown.1⟩
  · split at h
    · rename_i hsettled
      right
      exact hsettled
    · exact absurd rfl (h _)

/-- An observation never marks a job it should not. -/
theorem recordOpen_sound {observation : Observation} {snapshot : List SnapshotSource} {job : Job}
    (hlast : job.lastObservation = some observation) (hcomplete : observation.complete = true) :
    (recordOpen choice observation snapshot job).Sound := by
  intro ready hready
  unfold recordOpen refreshReadiness at hready ⊢
  simp only [hlast, hcomplete, if_true] at hready ⊢
  rcases readyMark_eq_some choice hready with
    ⟨_, hobligations, hholds, hbatches, hfingerprint, hhead⟩
  refine ⟨observation, rfl, hcomplete, hfingerprint, hhead, ?_, hholds, hbatches⟩
  intro source hsource
  have hsettled : isKnownEffect job source = true ∨ isSettled job observation source = true :=
    settled_of_readSource ((buildObligations_nil hobligations).2 source hsource)
  exact hsettled

theorem recordIncomplete_sound {observation : Observation} {job : Job} (h : job.Sound) :
    (recordIncomplete choice observation job).Sound := by
  unfold recordIncomplete
  simp only
  split
  · exact Job.Sound.of_none rfl
  split
  · exact h.of_same rfl rfl rfl rfl id id
  split
  · exact Job.Sound.of_none rfl
  · exact h.of_same rfl rfl rfl rfl id id

theorem recordOwned_sound {passId : Text} {observation : Observation}
    {snapshot : List SnapshotSource} {identity : Identity} {job : Job}
    (hcomplete : observation.complete = true) :
    (recordOwned choice passId observation snapshot identity job).Sound := by
  unfold recordOwned
  simp only
  split
  · exact Job.Sound.of_none rfl
  · exact Job.Sound.of_none rfl
  · exact recordOpen_sound choice rfl hcomplete

theorem recordComplete_sound {platform : Platform} {store : Store} {passId : Text}
    {observation : Observation} {snapshot : List SnapshotSource} {job : Job}
    (hcomplete : observation.complete = true) :
    (recordComplete platform choice store passId observation snapshot job).Sound := by
  unfold recordComplete
  split
  · exact recordOwned_sound choice hcomplete
  · simp only
    split
    · exact Job.Sound.of_none rfl
    · exact recordOwned_sound choice hcomplete

/-! ### Triage -/

/-- The revision at which a source is owed, by the first of its obligations. -/
def Job.owedAt (job : Job) (sourceId : Text) : Option Text :=
  (job.obligation sourceId).map (·.revision)

/-- A decision that closes the obligations of a source. -/
def closes (decisions : List Decision) (sourceId : Text) : Bool :=
  decisions.any fun decision => decision.sourceId = sourceId && decision.decision = .noAction

theorem noteHuman_map (batchId sourceId : Text) (obligations : List Obligation) :
    (noteHuman batchId sourceId obligations).map (fun entry => (entry.sourceId, entry.revision)) =
      obligations.map fun entry => (entry.sourceId, entry.revision) := by
  induction obligations with
  | nil => rfl
  | cons entry rest ih =>
      unfold noteHuman
      split
      · rfl
      · rw [List.map_cons, List.map_cons, ih]

/-- Who is owed what, without what was noted. -/
def Job.owed (job : Job) : List (Text × Text) :=
  job.obligations.map fun entry => (entry.sourceId, entry.revision)

theorem owedAt_eq (job : Job) (sourceId : Text) :
    job.owedAt sourceId = (job.owed.find? fun entry => entry.1 = sourceId).map (·.2) := by
  unfold Job.owedAt Job.obligation Job.owed
  rw [List.find?_map, Option.map_map]
  rfl

variable {triageId : Text} {decision : Decision} {decisions : List Decision} {job : Job}

theorem applyDecision_owed :
    (applyDecision choice triageId job decision).owed =
      job.owed.filter fun entry => !(closes [decision] entry.1) := by
  have hkeep : ∀ entries : List Obligation, decision.decision ≠ .noAction →
      (entries.map fun entry => (entry.sourceId, entry.revision)).filter
        (fun entry => !(closes [decision] entry.1)) =
      entries.map fun entry => (entry.sourceId, entry.revision) := by
    intro entries hdecision
    refine List.filter_eq_self.mpr ?_
    intro entry _
    simp [closes, hdecision]
  unfold applyDecision Job.owed
  cases hobligation : job.obligation decision.sourceId with
  | none =>
      -- Nothing is owed to the source, so nothing is closed.
      refine (List.filter_eq_self.mpr ?_).symm
      intro entry hentry
      rcases List.mem_map.mp hentry with ⟨obligation, hmem, rfl⟩
      have hne := List.find?_eq_none.mp hobligation obligation hmem
      simp only [decide_eq_true_eq] at hne
      simp [closes, Ne.symm hne]
  | some obligation =>
      simp only
      by_cases hdecision : decision.decision = .noAction
      · rw [if_pos hdecision, List.filter_map]
        congr 1
        refine List.filter_congr ?_
        intro entry _
        simp [closes, hdecision, eq_comm]
      · rw [if_neg hdecision, noteHuman_map, hkeep _ hdecision]

/-- A decision leaves everything but the obligations and the dispositions. -/
theorem applyDecision_same :
    (applyDecision choice triageId job decision).lastObservation = job.lastObservation ∧
      (applyDecision choice triageId job decision).effects = job.effects ∧
        (applyDecision choice triageId job decision).holds = job.holds ∧
          (applyDecision choice triageId job decision).batches = job.batches := by
  unfold applyDecision
  split
  · exact ⟨rfl, rfl, rfl, rfl⟩
  · exact ⟨rfl, rfl, rfl, rfl⟩

theorem applyDecision_other {sourceId : Text} (h : sourceId ≠ decision.sourceId) :
    (applyDecision choice triageId job decision).dispositions.get sourceId =
      job.dispositions.get sourceId := by
  unfold applyDecision
  split
  · rfl
  · exact Table.get_set_ne _ _ h

theorem applyDecision_owedAt {sourceId : Text} (h : sourceId ≠ decision.sourceId) :
    (applyDecision choice triageId job decision).owedAt sourceId = job.owedAt sourceId := by
  rw [owedAt_eq, owedAt_eq, applyDecision_owed, List.find?_filter]
  congr 2
  funext entry
  by_cases hentry : entry.1 = sourceId
  · have hne : decision.sourceId ≠ entry.1 := fun heq => h (hentry ▸ heq.symm)
    simp [closes, hentry, Ne.symm h]
  · simp [hentry]

/-- The decided job: what a triage comes to before readiness is looked at. -/
theorem decided_same :
    (decisions.foldl (applyDecision choice triageId) job).lastObservation =
        job.lastObservation ∧
      (decisions.foldl (applyDecision choice triageId) job).effects = job.effects ∧
        (decisions.foldl (applyDecision choice triageId) job).holds = job.holds ∧
          (decisions.foldl (applyDecision choice triageId) job).batches = job.batches := by
  induction decisions generalizing job with
  | nil => exact ⟨rfl, rfl, rfl, rfl⟩
  | cons decision rest ih =>
      have hrest := @ih (applyDecision choice triageId job decision)
      have hstep := @applyDecision_same choice triageId decision job
      exact ⟨hrest.1.trans hstep.1, hrest.2.1.trans hstep.2.1, hrest.2.2.1.trans hstep.2.2.1,
        hrest.2.2.2.trans hstep.2.2.2⟩

theorem decided_owed :
    (decisions.foldl (applyDecision choice triageId) job).owed =
      job.owed.filter fun entry => !(closes decisions entry.1) := by
  induction decisions generalizing job with
  | nil =>
      refine (List.filter_eq_self.mpr ?_).symm
      intro entry _
      rfl
  | cons decision rest ih =>
      rw [List.foldl_cons, ih, applyDecision_owed, List.filter_filter]
      refine List.filter_congr ?_
      intro entry _
      simp [closes, Bool.and_comm]

theorem decided_nil :
    (decisions.foldl (applyDecision choice triageId) job).obligations = [] ↔
      ∀ entry ∈ job.obligations, closes decisions entry.sourceId = true := by
  have howed := @decided_owed choice triageId decisions job
  unfold Job.owed at howed
  constructor
  · intro hnil entry hentry
    rw [hnil, List.map_nil] at howed
    have hclosed := List.filter_eq_nil_iff.mp howed.symm (entry.sourceId, entry.revision)
      (List.mem_map_of_mem hentry)
    simpa using hclosed
  · intro hall
    rw [← List.map_eq_nil_iff, howed, List.filter_eq_nil_iff]
    intro entry hentry
    rcases List.mem_map.mp hentry with ⟨obligation, hobligation, rfl⟩
    simpa using hall obligation hobligation

theorem decided_other {sourceId : Text} (h : sourceId ∉ decisions.map (·.sourceId)) :
    (decisions.foldl (applyDecision choice triageId) job).dispositions.get sourceId =
      job.dispositions.get sourceId := by
  induction decisions generalizing job with
  | nil => rfl
  | cons decision rest ih =>
      rw [List.map_cons, List.mem_cons, not_or] at h
      rw [List.foldl_cons, ih h.2, applyDecision_other choice h.1]

/-- What is closed is settled at the revision it was owed at. -/
theorem decided_closed {revision : Text} (hnodup : (decisions.map (·.sourceId)).Nodup)
    (hmem : decision ∈ decisions) (hclose : decision.decision = .noAction)
    (howed : job.owedAt decision.sourceId = some revision) :
    ∃ disposition,
      (decisions.foldl (applyDecision choice triageId) job).dispositions.get
          decision.sourceId = some disposition ∧
        disposition.revision = revision ∧ disposition.outcome = .alreadySatisfied ∧
          disposition.batchId = triageId := by
  induction decisions generalizing job with
  | nil => cases hmem
  | cons first rest ih =>
      rw [List.map_cons, List.nodup_cons] at hnodup
      rw [List.foldl_cons]
      rcases List.mem_cons.mp hmem with rfl | hmem
      · rw [decided_other choice hnodup.1]
        unfold Job.owedAt at howed
        rcases Option.map_eq_some_iff.mp howed with ⟨obligation, hobligation, rfl⟩
        unfold applyDecision
        rw [hobligation]
        simp only [Table.get_set_self, hclose, if_true]
        exact ⟨_, rfl, rfl, rfl, rfl⟩
      · have hne : decision.sourceId ≠ first.sourceId := by
          intro heq
          exact hnodup.1 (heq ▸ List.mem_map_of_mem hmem)
        refine ih hnodup.2 hmem ?_
        rw [applyDecision_owedAt choice hne, howed]

/-- The triage closes all that is owed, and nothing else blocks. -/
structure Closing (job : Job) (decisions : List Decision) (observation : Observation) : Prop where
  evidence : evidenceBlockers observation = []
  fingerprint : observation.fingerprint.isSome
  headSha : observation.headSha.isSome
  holds : job.holds = []
  batches : outstandingBatch job = none
  closed : ∀ entry ∈ job.obligations, closes decisions entry.sourceId = true

/-- What a triage that closes everything leaves of a source is settled: it is
    owed at the revision it was observed at, or settled there already. -/
def Covered (job : Job) (observation : Observation) (source : Source) : Prop :=
  isKnownEffect job source = true ∨
    match job.owedAt source.id with
    | some revision => revision = source.revision
    | none => isSettled job observation source = true

theorem closes_of_owedAt {sourceId revision : Text}
    (hclosed : ∀ entry ∈ job.obligations, closes decisions entry.sourceId = true)
    (howed : job.owedAt sourceId = some revision) :
    ∃ decision ∈ decisions, decision.sourceId = sourceId ∧ decision.decision = .noAction := by
  unfold Job.owedAt Job.obligation at howed
  rcases Option.map_eq_some_iff.mp howed with ⟨entry, hfind, _⟩
  have hid : entry.sourceId = sourceId := by simpa using List.find?_some hfind
  rcases List.any_eq_true.mp (hclosed entry (List.mem_of_find?_eq_some hfind)) with
    ⟨decision, hmem, hdecision⟩
  simp only [Bool.and_eq_true, decide_eq_true_eq] at hdecision
  exact ⟨decision, hmem, hdecision.1.trans hid, hdecision.2⟩

/-- After the triage a source is settled exactly when it was covered before. -/
theorem settled_decided_iff {passId : Text} {observation : Observation} {source : Source}
    (hnodup : (decisions.map (·.sourceId)).Nodup)
    (hcurrent : ∀ decision ∈ decisions, (job.obligation decision.sourceId).isSome)
    (hclosed : ∀ entry ∈ job.obligations, closes decisions entry.sourceId = true) :
    (isKnownEffect (decisions.foldl (applyDecision choice (TRIAGE_PREFIX ++ passId)) job) source =
        true ∨
      isSettled (decisions.foldl (applyDecision choice (TRIAGE_PREFIX ++ passId)) job)
        observation source = true) ↔ Covered job observation source := by
  have hsame := @decided_same choice (TRIAGE_PREFIX ++ passId) decisions job
  have htriage : TRIAGE_PREFIX.isPrefixOf (TRIAGE_PREFIX ++ passId) = true :=
    List.isPrefixOf_iff_prefix.mpr (List.prefix_append _ _)
  unfold Covered isKnownEffect
  rw [hsame.2.1]
  refine or_congr_right ?_
  cases howed : job.owedAt source.id with
  | some revision =>
      rcases closes_of_owedAt hclosed howed with ⟨decision, hmem, hid, hclose⟩
      rcases @decided_closed choice (TRIAGE_PREFIX ++ passId) decision decisions job revision
        hnodup hmem hclose (hid ▸ howed) with ⟨disposition, hget, hrevision, houtcome, hbatch⟩
      unfold isSettled
      rw [← hid, hget]
      simp [isSettledAt, hrevision, houtcome, hbatch, htriage, Outcome.settled]
  | none =>
      have hundecided : source.id ∉ decisions.map (·.sourceId) := by
        intro hmem
        rcases List.mem_map.mp hmem with ⟨decision, hdecision, hid⟩
        have hsome := hcurrent decision hdecision
        unfold Job.owedAt at howed
        rw [Option.map_eq_none_iff] at howed
        rw [hid, howed] at hsome
        cases hsome
      unfold isSettled
      rw [decided_other choice hundecided]

/-- A triage marks a job it should not exactly when it closes a list that does
    not cover the observation. -/
theorem triage_sound_iff {passId : Text} {observation : Observation}
    (hlast : job.lastObservation = some observation) (hcomplete : observation.complete = true)
    (hnodup : (decisions.map (·.sourceId)).Nodup)
    (hcurrent : ∀ decision ∈ decisions, (job.obligation decision.sourceId).isSome) :
    (refreshReadiness choice
        (decisions.foldl (applyDecision choice (TRIAGE_PREFIX ++ passId)) job)).Sound ↔
      (Closing job decisions observation →
        ∀ source ∈ observation.sources, Covered job observation source) := by
  have hsame := @decided_same choice (TRIAGE_PREFIX ++ passId) decisions job
  have hsettled := fun source hclosed => @settled_decided_iff choice decisions job passId
    observation source hnodup hcurrent hclosed
  have hnil := @decided_nil choice (TRIAGE_PREFIX ++ passId) decisions job
  revert hsame hsettled hnil
  generalize decisions.foldl (applyDecision choice (TRIAGE_PREFIX ++ passId)) job = decided
  intro hsame hsettled hnil
  have hbatches : outstandingBatch decided = outstandingBatch job := by
    unfold outstandingBatch
    rw [hsame.2.2.2]
  have hrefresh : refreshReadiness choice decided =
      { decided with ready := readyMark choice decided observation } := by
    unfold refreshReadiness
    rw [hsame.1, hlast]
    simp only [hcomplete, if_true]
  rw [hrefresh]
  constructor
  · intro hsound hclosing source hsource
    -- The triage closes the job, so a mark is set, and a sound mark speaks for every source.
    have hmark := readyMark_isSome choice hclosing.evidence (hnil.mpr hclosing.closed)
      (hsame.2.2.1.trans hclosing.holds) (hbatches.trans hclosing.batches)
      hclosing.fingerprint hclosing.headSha
    rcases Option.isSome_iff_exists.mp hmark with ⟨ready, hready⟩
    rcases hsound ready hready with ⟨observation', hobservation', hat⟩
    have heq : observation' = observation := by
      have h : some observation' = some observation :=
        hobservation'.symm.trans (hsame.1.trans hlast)
      exact Option.some.inj h
    rw [heq] at hat
    exact (hsettled source hclosing.closed).mp (hat.settled source hsource)
  · intro hcovered ready hready
    rcases readyMark_eq_some choice hready with
      ⟨hevidence, hobligations, hholds, houtstanding, hfingerprint, hhead⟩
    refine ⟨observation, hsame.1.trans hlast, hcomplete, hfingerprint, hhead, ?_, hholds,
      houtstanding⟩
    have hclosed := hnil.mp hobligations
    intro source hsource
    refine (hsettled source hclosed).mpr (hcovered ⟨hevidence, ?_, ?_, ?_, ?_, hclosed⟩ source
      hsource)
    · rw [hfingerprint]
      rfl
    · rw [hhead]
      rfl
    · exact hsame.2.2.1.symm.trans hholds
    · exact hbatches.symm.trans houtstanding

/-! ### Commands -/

variable {choice} {store next : Store} {jobId passId : Text} {job' : Job}

theorem Store.Sound.set (h : store.Sound) (hjob : job'.Sound) :
    Store.Sound { store with jobs := store.jobs.set jobId job' } := by
  intro id job hget
  rcases Table.get_set_some hget with ⟨_, rfl⟩ | ⟨_, hget⟩
  · exact hjob
  · exact h id job hget

theorem Store.Sound.of_jobs (h : store.Sound) (hjobs : next.jobs = store.jobs) : next.Sound := by
  intro id job hget
  rw [hjobs] at hget
  exact h id job hget

theorem bind_ok {ε α β : Type} {x : Except ε α} {f : α → Except ε β} {b : β}
    (h : x >>= f = .ok b) : ∃ a, x = .ok a ∧ f a = .ok b := by
  cases x with
  | error e => cases h
  | ok a => exact ⟨a, rfl, h⟩

/-- A check that is passed. -/
theorem unless_ok {ε α : Type} {p : Prop} [Decidable p] {e : ε} {x : Except ε α} {a : α}
    (h : (if p then throw e else x) = .ok a) : ¬p ∧ x = .ok a := by
  by_cases hp : p
  · rw [if_pos hp] at h
    cases h
  · rw [if_neg hp] at h
    exact ⟨hp, h⟩

theorem getJob_ok {jobId' : Text} (h : getJob store jobId = .ok (jobId', job)) :
    jobId' = jobId ∧ store.jobs.get jobId = some job := by
  unfold getJob at h
  split at h
  · cases h
  · rename_i found hfound
    cases h
    exact ⟨rfl, hfound⟩

theorem holdJob_sound {design : Bool} {reason : Text} {sourceIds : List Text} (h : store.Sound)
    (hnext : holdJob choice jobId design reason sourceIds store = .ok next) : next.Sound := by
  unfold holdJob at hnext
  rcases bind_ok hnext with ⟨⟨id, job⟩, _, hnext⟩
  cases hnext
  exact h.set (addHold_sound choice _ _ _ _)

theorem pauseJob_sound {reason : Text} (h : store.Sound)
    (hnext : pauseJob jobId reason store = .ok next) : next.Sound := by
  unfold pauseJob at hnext
  rcases bind_ok hnext with ⟨⟨key, job⟩, hjob, hnext⟩
  rcases unless_ok hnext with ⟨_, hnext⟩
  cases hnext
  have hsound := h jobId job (getJob_ok hjob).2
  exact h.set (hsound.of_same rfl rfl rfl rfl id id)

theorem releaseJob_sound (h : store.Sound) (hnext : releaseJob jobId store = .ok next) :
    next.Sound := by
  unfold releaseJob at hnext
  rcases bind_ok hnext with ⟨⟨key, job⟩, hjob, hnext⟩
  rcases unless_ok hnext with ⟨_, hnext⟩
  cases hnext
  have hsound := h jobId job (getJob_ok hjob).2
  have hset : Store.Sound { store with
      jobs := store.jobs.set key { job with released := true } } :=
    h.set (hsound.of_same rfl rfl rfl rfl id id)
  exact hset.of_jobs rfl

theorem clearHolds_sound {clear : List Text} (h : job.Sound) :
    (clearHolds choice clear job).Sound := by
  have hholds : job.holds = [] →
      (job.holds.filter fun hold => !clear.contains hold.holdId) = [] := by
    intro hnil
    rw [hnil]
    rfl
  unfold clearHolds
  simp only
  split
  · exact h.of_same rfl rfl rfl rfl hholds id
  · exact h.of_same rfl rfl rfl rfl hholds id

/-- A resumption takes the cleared holds from a job that is there. -/
theorem resumeJob_ok {clear : List Text} {confirmHuman : Text}
    (hnext : resumeJob choice jobId clear confirmHuman store = .ok next) :
    ∃ job, store.jobs.get jobId = some job ∧
      next = { store with jobs := store.jobs.set jobId (clearHolds choice clear job) } := by
  unfold resumeJob at hnext
  rcases bind_ok hnext with ⟨⟨key, job⟩, hjob, hnext⟩
  rcases unless_ok hnext with ⟨_, hnext⟩
  rcases unless_ok hnext with ⟨_, hnext⟩
  rcases unless_ok hnext with ⟨_, hnext⟩
  rcases unless_ok hnext with ⟨_, hnext⟩
  cases hnext
  rcases getJob_ok hjob with ⟨rfl, hget⟩
  exact ⟨job, hget, rfl⟩

theorem resumeJob_sound {clear : List Text} {confirmHuman : Text} (h : store.Sound)
    (hnext : resumeJob choice jobId clear confirmHuman store = .ok next) : next.Sound := by
  rcases resumeJob_ok hnext with ⟨job, hget, rfl⟩
  exact h.set (clearHolds_sound (h jobId job hget))

theorem setBatch_outstanding {batchId : Text} {f : Batch → Batch} {batches : List Batch}
    (hf : ∀ batch, (f batch).state.outstanding = false)
    (h : batches.find? (fun batch => batch.state.outstanding) = none) :
    (setBatch batchId f batches).find? (fun batch => batch.state.outstanding) = none := by
  induction batches with
  | nil => rfl
  | cons batch rest ih =>
      rw [List.find?_cons] at h
      split at h
      · cases h
      · rename_i hbatch
        unfold setBatch
        split
        · rw [List.find?_cons, hf batch]
          exact h
        · rw [List.find?_cons, hbatch]
          exact ih h

theorem batchJob_get {batchId : Text} (h : batchJob store batchId = some (jobId, job)) :
    store.jobs.get jobId = some job :=
  (store.jobs.mem_entries_iff jobId job).mp (List.mem_of_find?_eq_some h)

/-- What is cancelled is a batch that is accepted or prepared, and it is paid back. -/
theorem cancelBatch_ok {batchId : Text} (hnext : cancelBatch choice batchId store = .ok next) :
    ∃ key job batch, store.jobs.get key = some job ∧ job.batch batchId = some batch ∧
      batch.state.outstanding = true ∧ next = { store with
        jobs := store.jobs.set key { job with
          batches := setBatch batchId (fun batch =>
            { batch with state := .cancelled, settledAt := some choice.now }) job.batches
          budgets := job.budgets.withKind batch.kind
            (job.budgets.ofKind batch.kind).refund } } := by
  unfold cancelBatch at hnext
  split at hnext
  · rename_i key job hjob
    split at hnext
    · rename_i batch hbatch
      rcases unless_ok hnext with ⟨hstate, hnext⟩
      refine ⟨key, job, batch, batchJob_get hjob, hbatch, ?_, (Except.ok.inj hnext).symm⟩
      by_cases haccepted : batch.state = .accepted
      · rw [haccepted]
        rfl
      · by_cases hprepared : batch.state = .prepared
        · rw [hprepared]
          rfl
        · exact absurd ⟨haccepted, hprepared⟩ hstate
    · cases hnext
  · cases hnext

theorem cancelBatch_sound {batchId : Text} (h : store.Sound)
    (hnext : cancelBatch choice batchId store = .ok next) : next.Sound := by
  rcases cancelBatch_ok hnext with ⟨key, job, batch, hget, _, _, rfl⟩
  refine h.set ((h key job hget).of_same rfl rfl rfl rfl id ?_)
  intro hnone
  exact setBatch_outstanding (fun _ => rfl) hnone

/-- A report is taken of a batch that is accepted or uncertain. -/
theorem reportBatch_ok {platform : Platform} {batchId : Text} {report : WorkReport}
    (hnext : reportBatch platform choice batchId report store = .ok next) :
    ∃ key job batch, store.jobs.get key = some job ∧ job.batch batchId = some batch ∧
      batch.state.outstanding = true ∧ next = { store with
        jobs := store.jobs.set key (applyReport platform choice batch report job) } := by
  unfold reportBatch at hnext
  split at hnext
  · rename_i key job hjob
    split at hnext
    · rename_i batch hbatch
      rcases unless_ok hnext with ⟨hstate, hnext⟩
      rcases unless_ok hnext with ⟨_, hnext⟩
      refine ⟨key, job, batch, batchJob_get hjob, hbatch, ?_, (Except.ok.inj hnext).symm⟩
      by_cases haccepted : batch.state = .accepted
      · rw [haccepted]
        rfl
      · by_cases huncertain : batch.state = .uncertain
        · rw [huncertain]
          rfl
        · exact absurd ⟨haccepted, huncertain⟩ hstate
    · cases hnext
  · cases hnext

theorem reportBatch_sound {platform : Platform} {batchId : Text} {report : WorkReport}
    (h : store.Sound) (hnext : reportBatch platform choice batchId report store = .ok next) :
    next.Sound := by
  rcases reportBatch_ok hnext with ⟨_, _, _, _, _, _, rfl⟩
  exact h.set (Job.Sound.of_none rfl)

theorem acceptBatch_sound {input : PlanInput} {findings : List OrderedFinding}
    {headSha baseSha : Text} : (acceptBatch choice input findings headSha baseSha job).Sound := by
  refine Job.Sound.of_none ?_
  unfold acceptBatch
  simp only
  split
  · rfl
  split
  · rfl
  split
  · rfl
  · rfl

/-- A batch is planned for a job that has none outstanding. -/
theorem planBatch_ok {input : PlanInput}
    (hnext : planBatch choice passId jobId input store = .ok next) :
    ∃ job findings headSha baseSha, store.jobs.get jobId = some job ∧
      (outstandingBatch job).isSome = false ∧ next = { store with
        jobs := store.jobs.set jobId
          (acceptBatch choice input findings headSha baseSha job) } := by
  unfold planBatch at hnext
  rcases bind_ok hnext with ⟨_, _, hnext⟩
  rcases bind_ok hnext with ⟨⟨key, job⟩, hjob, hnext⟩
  rcases getJob_ok hjob with ⟨hkey, hget⟩
  rw [hkey] at hnext
  simp only at hnext
  split at hnext
  · rcases unless_ok hnext with ⟨_, hnext⟩
    rcases unless_ok hnext with ⟨_, hnext⟩
    rcases unless_ok hnext with ⟨_, hnext⟩
    rcases unless_ok hnext with ⟨_, hnext⟩
    rcases unless_ok hnext with ⟨hidle, hnext⟩
    rcases unless_ok hnext with ⟨_, hnext⟩
    have hidle := Bool.eq_false_iff.mpr hidle
    split at hnext
    · split at hnext
      · rcases bind_ok hnext with ⟨findings, _, hnext⟩
        split at hnext
        · rcases unless_ok hnext with ⟨_, hnext⟩
          rcases unless_ok hnext with ⟨_, hnext⟩
          exact ⟨job, findings, _, _, hget, hidle, (Except.ok.inj hnext).symm⟩
        · exact ⟨job, findings, _, _, hget, hidle, (Except.ok.inj hnext).symm⟩
      · cases hnext
    · cases hnext
  · cases hnext

theorem planBatch_sound {input : PlanInput} (h : store.Sound)
    (hnext : planBatch choice passId jobId input store = .ok next) : next.Sound := by
  rcases planBatch_ok hnext with ⟨_, _, _, _, _, _, rfl⟩
  exact h.set acceptBatch_sound

theorem recordObservation_sound {platform : Platform} {reserved : Nat} {result : ProviderResult}
    (h : store.Sound)
    (hnext : recordObservation platform choice passId jobId reserved result store = .ok next) :
    next.Sound := by
  unfold recordObservation at hnext
  rcases bind_ok hnext with ⟨pass, _, hnext⟩
  rcases bind_ok hnext with ⟨⟨key, job⟩, hjob, hnext⟩
  cases hnext
  have hsound := h jobId job (getJob_ok hjob).2
  have hattempt : Job.Sound { job with lastAttempt := some (result.observation choice) } :=
    hsound.of_same rfl rfl rfl rfl id id
  have hjobs : Store.Sound { store with activePass := some { pass with
      requestsRemaining := pass.requestsRemaining +
        (reserved - (result.observation choice).requestsConsumed) } } := h.of_jobs rfl
  refine hjobs.set ?_
  split
  · rename_i hcomplete
    exact recordComplete_sound choice hcomplete
  · exact recordIncomplete_sound choice hattempt

theorem addJob_sound {platform : Platform} {args : AddArgs} (h : store.Sound)
    (hnext : addJob platform choice args store = .ok next) : next.Sound := by
  unfold addJob at hnext
  split at hnext
  · cases hnext
  · split at hnext
    · cases hnext
    split at hnext
    · cases hnext
    split at hnext
    · cases hnext
    split at hnext
    · cases hnext
    · cases hnext
      exact h.set (Job.Sound.of_none rfl)

theorem beginPass_jobs {platform : Platform}
    (hnext : beginPass platform choice store = .ok next) : next.jobs = store.jobs := by
  unfold beginPass at hnext
  split at hnext
  · cases hnext
  · cases hnext
    rfl

theorem endPass_jobs (hnext : endPass choice passId store = .ok next) :
    next.jobs = store.jobs := by
  unfold endPass at hnext
  rcases bind_ok hnext with ⟨pass, _, hnext⟩
  cases hnext
  rfl

theorem recoverPass_jobs {confirmStopped : Text}
    (hnext : recoverPass passId confirmStopped store = .ok next) : next.jobs = store.jobs := by
  unfold recoverPass at hnext
  split at hnext
  · cases hnext
  split at hnext
  · cases hnext
  split at hnext
  · cases hnext
  · cases hnext
    rfl

theorem reserveVisit_jobs {requests : Option Nat}
    (hnext : reserveVisit choice passId jobId requests store = .ok next) :
    next.jobs = store.jobs := by
  unfold reserveVisit at hnext
  rcases bind_ok hnext with ⟨pass, _, hnext⟩
  rcases bind_ok hnext with ⟨⟨key, job⟩, _, hnext⟩
  rcases unless_ok hnext with ⟨_, hnext⟩
  rcases unless_ok hnext with ⟨_, hnext⟩
  rcases unless_ok hnext with ⟨_, hnext⟩
  cases hnext
  rfl

/-- What is checked of a triage before anything is recorded. -/
theorem admitTriage_ok {key : Text}
    (h : admitTriage choice passId jobId decisions store = .ok (key, job)) :
    key = jobId ∧ store.jobs.get jobId = some job ∧
      (∃ observation, job.lastObservation = some observation ∧ observation.complete = true) ∧
        (decisions.map (·.sourceId)).Nodup ∧
          ∀ decision ∈ decisions, (job.obligation decision.sourceId).isSome := by
  unfold admitTriage at h
  rcases bind_ok h with ⟨pass, _, h⟩
  rcases bind_ok h with ⟨⟨key', job'⟩, hjob, h⟩
  rcases unless_ok h with ⟨hobserved, h⟩
  rcases unless_ok h with ⟨hnodup, h⟩
  rcases unless_ok h with ⟨hcurrent, h⟩
  cases h
  rcases getJob_ok hjob with ⟨rfl, hget⟩
  rw [not_or, not_not, not_not] at hobserved
  rcases Option.map_eq_some_iff.mp hobserved.2 with ⟨observation, hlast, hcomplete⟩
  refine ⟨rfl, hget, ⟨observation, hlast, hcomplete⟩, not_not.mp hnodup, ?_⟩
  intro decision hmem
  rw [Bool.not_eq_true, List.any_eq_false] at hcurrent
  have hsome := hcurrent decision hmem
  rw [Option.isNone_iff_eq_none] at hsome
  exact Option.isSome_iff_ne_none.mpr hsome

/-- No triage closes a list of obligations that does not cover its observation. -/
def Careful (store : Store) (command : Command × Choice) : Prop :=
  match command.1 with
  | .triageJob passId jobId decisions =>
      command.2.saved = true → ∀ key job observation,
        admitTriage command.2 passId jobId decisions store = .ok (key, job) →
          job.lastObservation = some observation → Closing job decisions observation →
            ∀ source ∈ observation.sources, Covered job observation source
  | _ => True

theorem mutate_sound {platform : Platform} {command : Command} (h : store.Sound)
    (hother : ∀ passId jobId decisions, command ≠ .triageJob passId jobId decisions)
    (hnext : mutate platform choice command store = .ok next) : next.Sound := by
  cases command with
  | addJob args => exact addJob_sound h hnext
  | beginPass => exact h.of_jobs (beginPass_jobs hnext)
  | reserveVisit passId jobId requests => exact h.of_jobs (reserveVisit_jobs hnext)
  | recordObservation passId jobId reserved result => exact recordObservation_sound h hnext
  | triageJob passId jobId decisions => exact absurd rfl (hother passId jobId decisions)
  | planBatch passId jobId input => exact planBatch_sound h hnext
  | reportBatch batchId report => exact reportBatch_sound h hnext
  | cancelBatch batchId => exact cancelBatch_sound h hnext
  | holdJob jobId design reason sourceIds => exact holdJob_sound h hnext
  | pauseJob jobId reason => exact pauseJob_sound h hnext
  | resumeJob jobId clear confirmHuman => exact resumeJob_sound h hnext
  | releaseJob jobId => exact releaseJob_sound h hnext
  | endPass passId => exact h.of_jobs (endPass_jobs hnext)
  | recoverPass passId confirmStopped => exact h.of_jobs (recoverPass_jobs hnext)

/-- A triage keeps a sound store sound exactly when it is careful. -/
theorem triage_step_iff {platform : Platform} {passId jobId : Text}
    {decisions : List Decision} (h : store.Sound) :
    (transact platform store (.triageJob passId jobId decisions, choice)).Sound ↔
      Careful store (.triageJob passId jobId decisions, choice) := by
  unfold transact Careful mutate triageJob
  simp only
  cases hadmit : admitTriage choice passId jobId decisions store with
  | error code =>
      change Store.Sound store ↔ _
      simp [h]
  | ok admitted =>
      rcases admitted with ⟨key, job⟩
      rcases admitTriage_ok hadmit with
        ⟨rfl, hget, ⟨observation, hlast, hcomplete⟩, hnodup, hcurrent⟩
      have hiff := @triage_sound_iff choice decisions job passId observation hlast hcomplete
        hnodup hcurrent
      by_cases hsaved : choice.saved = true
      · change Store.Sound (if choice.saved = true then _ else _) ↔ _
        rw [if_pos hsaved]
        constructor
        · intro hsound _ key' job' observation' hok hlast' hclosing
          cases hok
          rw [hlast'] at hlast
          cases hlast
          exact hiff.mp (hsound _ _ (Table.get_set_self _ _ _)) hclosing
        · intro hcareful
          exact h.set (hiff.mpr (hcareful hsaved key job observation rfl hlast))
      · change Store.Sound (if choice.saved = true then _ else _) ↔ _
        rw [if_neg hsaved]
        simp [h, hsaved]

theorem step_sound_iff {platform : Platform} (command : Command × Choice) (h : store.Sound) :
    (transact platform store command).Sound ↔ Careful store command := by
  rcases command with ⟨command, choice⟩
  by_cases htriage : ∃ passId jobId decisions, command = .triageJob passId jobId decisions
  · rcases htriage with ⟨passId, jobId, decisions, rfl⟩
    exact triage_step_iff h
  · have hother : ∀ passId jobId decisions, command ≠ .triageJob passId jobId decisions :=
      fun passId jobId decisions heq => htriage ⟨passId, jobId, decisions, heq⟩
    have hcareful : Careful store (command, choice) := by
      unfold Careful
      split
      · rename_i passId jobId decisions heq
        exact absurd heq (hother passId jobId decisions)
      · trivial
    refine iff_of_true ?_ hcareful
    unfold transact
    simp only
    split
    · rename_i next hnext
      split
      · exact mutate_sound h hother hnext
      · exact h
    · exact h

/-- In a run from the empty store, readiness is always over settled feedback
    exactly when every command is careful. -/
theorem ready_sound_iff (platform : Platform) (commands : List (Command × Choice)) :
    (∀ before after, commands = before ++ after →
        (Run.final (transact platform) {} before).Sound) ↔
      Run.Admits (transact platform) Careful {} commands := by
  have hrun : ∀ (commands : List (Command × Choice)) (store : Store), store.Sound →
      ((∀ before after, commands = before ++ after →
          (Run.final (transact platform) store before).Sound) ↔
        Run.Admits (transact platform) Careful store commands) := by
    intro commands
    induction commands with
    | nil =>
        intro store hstore
        refine iff_of_true ?_ trivial
        intro before after hsplit
        rw [(List.append_eq_nil_iff.mp hsplit.symm).1]
        exact hstore
    | cons command rest ih =>
        intro store hstore
        constructor
        · intro hall
          have hstep : (transact platform store command).Sound := hall [command] rest rfl
          refine ⟨(step_sound_iff command hstore).mp hstep, (ih _ hstep).mp ?_⟩
          intro before after hsplit
          exact hall (command :: before) after (by rw [hsplit, List.cons_append])
        · rintro ⟨hcareful, hrest⟩ before after hsplit
          have hstep : (transact platform store command).Sound :=
            (step_sound_iff command hstore).mpr hcareful
          cases before with
          | nil => exact hstore
          | cons first before =>
              rw [List.cons_append, List.cons.injEq] at hsplit
              rw [← hsplit.1]
              exact (ih _ hstep).mpr hrest before after hsplit.2
  refine hrun commands {} ?_
  intro jobId job hget
  cases hget

/-! ### A run that is not careful -/

def localPlatform : Platform where
  parseUrl url := some (.github, url)
  slugFor url := url
  numbered slug n := slug ++ decimal n
  effectHash _ := none
  localeLe _ _ := true
  toLowerCase text := text

def atMinute (minute : Nat) : Choice where
  now := minute * 60000
  passId := ofString "pass-1"
  holdId n := ofString "hold-" ++ decimal n
  saved := true

/-- Two comments, and nothing else in the way. -/
def twoComments : Observation where
  attemptedAt := 60000
  complete := true
  checksComplete := true
  reviewsComplete := true
  headSha := some (ofString "0a1b")
  baseSha := some (ofString "2c3d")
  state := some .opened
  fingerprint := some (ofString "f-1")
  mergeability := .mergeable
  sources := [
    { id := ofString "thread_comment:1", revision := ofString "r1", groupKey := ofString "g1",
      evidence := [] },
    { id := ofString "thread_comment:2", revision := ofString "r2", groupKey := ofString "g2",
      evidence := [] }]
  evidence := []

/-- The first comment goes to a worker, who finds it satisfied already; the
    second is then triaged in the same pass. -/
def reportedThenTriaged : List (Command × Choice) := [
  (.addJob {
    url := ofString "pr-7"
    mode := .answer
    checkout := some (ofString "/work/repo")
    resolveThreads := false
    interval := 900000
    budgets := {} }, atMinute 0),
  (.beginPass, atMinute 1),
  (.reserveVisit (ofString "pass-1") (ofString "pr-7") none, atMinute 1),
  (.recordObservation (ofString "pass-1") (ofString "pr-7") 20 (.answer (some twoComments) []),
    atMinute 1),
  (.planBatch (ofString "pass-1") (ofString "pr-7") {
    summary := ofString "Answer the first comment."
    findings := [{
      sourceId := ofString "thread_comment:1"
      task := .answer
      instructions := ofString "Answer." }] }, atMinute 1),
  (.reportBatch (ofString "pr-7-b1") {
    batchId := ofString "pr-7-b1"
    mutationAttempts := 0
    findings := [{
      sourceId := ofString "thread_comment:1"
      revision := ofString "r1"
      outcome := .alreadySatisfied
      stage := .inspected }] }, atMinute 2),
  (.triageJob (ofString "pass-1") (ofString "pr-7") [{
    sourceId := ofString "thread_comment:2"
    decision := .noAction
    reason := ofString "Bot noise." }], atMinute 3)]

/-- A job is ready over a source that is neither known nor settled. -/
def Job.premature (job : Job) : Bool :=
  job.ready.isSome && job.lastObservation.any fun observation =>
    observation.sources.any fun source =>
      !isKnownEffect job source && !isSettled job observation source

theorem not_sound_of_premature (h : job.premature = true) : ¬job.Sound := by
  intro hsound
  unfold Job.premature at h
  rw [Bool.and_eq_true] at h
  rcases Option.isSome_iff_exists.mp h.1 with ⟨ready, hready⟩
  rcases hsound ready hready with ⟨observation, hlast, hat⟩
  rw [hlast, Option.any_some] at h
  rcases List.any_eq_true.mp h.2 with ⟨source, hsource, hunsettled⟩
  rw [Bool.and_eq_true, Bool.not_eq_true', Bool.not_eq_true'] at hunsettled
  rcases hat.settled source hsource with hknown | hsettled
  · rw [hunsettled.1] at hknown
    cases hknown
  · rw [hunsettled.2] at hsettled
    cases hsettled

theorem ready_over_unsettled :
    ¬(Run.final (transact localPlatform) {} reportedThenTriaged).Sound := by
  have hpremature : ((Run.final (transact localPlatform) {} reportedThenTriaged).jobs.get
      (ofString "pr-7")).any Job.premature = true := by decide +kernel
  rcases (Option.any_eq_true _ _).mp hpremature with ⟨job, hget, hjob⟩
  intro hsound
  exact not_sound_of_premature hjob (hsound (ofString "pr-7") job hget)

end PrmSkill

end CopilotFleet
