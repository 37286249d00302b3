import CopilotFleet.Lib.Refusal
import CopilotFleet.Lib.Run
import CopilotFleet.Orchestrator.WorkerResumeService
import Mathlib.Logic.Relation

/-!
# Approvals Are Spent Once

What any sequence of calls does to requests, whatever the fleet does in
between and in the middle of a call. Every call comes apart into small steps
(`Small`): the fleet changes, settled requests are dropped, a request is
settled, approved, offered, launched or inserted. Each small step says what
was true of the record it wrote, and of the fleet. The rest follows from the
small steps alone.

A version of a request is one record (`Progress`). So the record that is
approved is the one that was shown, although the scheduler had a pass in
between. A request is approved while it waits, launched while it is approved,
and never again in a state it has left.

## Main definitions

* `Small`: What a call can do at once.
* `Progress`, `Later`: What becomes of a request.
* `Applies`: The fleet gives what the request was made for.
* `Justified`: Why an approval, an offer or a launch could happen.
* `Unspent`: An approval that can still be spent.
* `Ledger`: What small steps keep.
* `Spare`: A retained worker that only the slot that is kept free can take.
* `BindsSpare`: What the fleet gives for the step and the run of a request.

## Theorems

* `tick_small`, `request_small`, `decide_small`: Calls come apart into small steps.
* `ledger_of_run`: The ledger is kept throughout a run.
* `approvals_justified`: Each launch is the only one of an approval, and within it.
* `approvals_spare`: The fleet on which an approval is given or offered.
* `requests_progress`: What becomes of a request between two states of a run.
-/

namespace CopilotFleet

open Utf16

namespace Orchestrator

namespace WorkerResume

open Relation

variable {env : Environment} {digests : Digests}

/-! ### One write -/

/-- A write was of the version that was named. -/
theorem update_ok {requests : Requests} {id : Text} {expectedVersion : Nat} {patch : Patch}
    {now : Int} {next : Requests × WorkerResumeRequest}
    (h : requests.update id expectedVersion patch now = .ok next) :
    ∃ current, requests.get id = some current ∧ current.version = expectedVersion ∧
      next = (requests.set id (Requests.patched current patch now),
        Requests.patched current patch now) := by
  unfold Requests.update at h
  split at h
  · cases h
  · rename_i current hget
    split at h
    · cases h
    · rename_i hversion
      split at h
      · cases h
      · exact ⟨current, hget, Decidable.of_not_not hversion, (Except.ok.inj h).symm⟩

/-- The same, where the record that is written is known. -/
theorem update_known {requests : Requests} {request : WorkerResumeRequest} {patch : Patch}
    {now : Int} {next : Requests × WorkerResumeRequest}
    (hget : requests.get request.id = some request)
    (h : requests.update request.id request.version patch now = .ok next) :
    next = (requests.set request.id (Requests.patched request patch now),
      Requests.patched request patch now) := by
  rcases update_ok h with ⟨current, hcurrent, _, hnext⟩
  rw [hget, Option.some.injEq] at hcurrent
  subst hcurrent
  exact hnext

theorem insert_ok {requests next : Requests} {request : WorkerResumeRequest}
    (h : requests.insert request = .ok next) :
    requests.taken request = false ∧ next = requests.set request.id request := by
  unfold Requests.insert at h
  split at h
  · cases h
  · split at h
    · split at h
      · cases h
      · cases h
    · rename_i htaken
      rw [Bool.or_eq_true, not_or, Bool.not_eq_true, Bool.not_eq_true] at htaken
      exact ⟨htaken.2, (Except.ok.inj h).symm⟩

/-! ### What the fleet gives -/

/-- The step is still the one that was asked about, and binds to what the request was made for. -/
def Applies (env : Environment) (digests : Digests) (live : Live) (run : Run)
    (request : WorkerResumeRequest) : Prop :=
  ∃ step binding, live.steps.get request.stepId = some step ∧
    step.attempts = request.stepAttempt ∧ step.sessionId = request.sessionId ∧
    live.bind env run step = .ok binding ∧ binding.fingerprint digests = request.fingerprint

/-- The latest pass left the step waiting for the slot that is kept free. -/
def WaitsForSlot (live : Live) (run : Run) (request : WorkerResumeRequest) : Prop :=
  ∃ step hold, live.steps.get request.stepId = some step ∧
    live.hold run.id step.id = some hold ∧ hold.code = .nodeHeadroom

theorem revalidate_none {live : Live} {request : WorkerResumeRequest} {run : Run}
    {step : WorkerStep} {requireHold : Bool}
    (h : revalidate env digests live request run step requireHold = none) :
    step.attempts = request.stepAttempt ∧ step.sessionId = request.sessionId ∧
      (∃ binding, live.bind env run step = .ok binding ∧
        binding.fingerprint digests = request.fingerprint) ∧
      (requireHold = true → ∃ hold, live.hold run.id step.id = some hold ∧
        hold.code = .nodeHeadroom) := by
  unfold revalidate at h
  rcases Refusal.unless_none h with ⟨hsame, h⟩
  rcases Refusal.unless_none h with ⟨_, h⟩
  rcases Refusal.unless_none h with ⟨_, h⟩
  rw [Bool.or_eq_true, not_or, decide_eq_true_eq, decide_eq_true_eq] at hsame
  refine ⟨Decidable.of_not_not hsame.1, Decidable.of_not_not hsame.2, ?_⟩
  split at h
  · cases h
  · split at h
    · cases h
    · rename_i binding hbind
      rcases Refusal.unless_none h with ⟨_, h⟩
      rcases Refusal.unless_none h with ⟨hfingerprint, h⟩
      refine ⟨⟨binding, hbind, Decidable.of_not_not hfingerprint⟩, fun hrequire => ?_⟩
      rw [if_pos hrequire] at h
      split at h
      · rename_i hold hhold
        by_cases hcode : hold.code = .nodeHeadroom
        · exact ⟨hold, hhold, hcode⟩
        · rw [if_neg hcode] at h
          cases h
      · cases h

/-! ### Small steps -/

/-- What a call can do at once. -/
inductive Small (env : Environment) (digests : Digests) : System → System → Prop
  | fleet (s : System) (live : Live) (lastPrunedAt : Int) :
      Small env digests s { s with live, lastPrunedAt }
  | dropped (s : System) (requests : Requests)
      (hless : ∀ id r, requests.get id = some r → s.requests.get id = some r) :
      Small env digests s { s with requests }
  /-- A request ends, or what is said of its launch changes. -/
  | settled (s : System) (current next : WorkerResumeRequest)
      (hget : s.requests.get current.id = some current) (hactive : current.state.active = true)
      (hbound : next.toBound = current.toBound) (hid : next.id = current.id)
      (hversion : next.version = current.version + 1)
      (hstate : next.state.active = true → next.state = .launching) :
      Small env digests s { s with requests := s.requests.set current.id next }
  | approved (s : System) (current next : WorkerResumeRequest) (run : Run)
      (decision : WorkerResumeDecision) (operatorId : Text) (nowMs : Int)
      (hget : s.requests.get current.id = some current)
      (hwaiting : current.state = .awaitingApproval)
      (hbound : next.toBound = current.toBound) (hid : next.id = current.id)
      (hversion : next.version = current.version + 1) (hstate : next.state = .approved)
      (hlaunch : next.launchBy = some (nowMs + launchMs))
      (hdecision : decision.decision = .approveOnce)
      (hexpected : decision.expectedVersion = current.version)
      (hfingerprint : decision.fingerprint = current.fingerprint)
      (hexpires : nowMs < current.expiresAt)
      (hrun : s.live.runs.get current.runId = some run)
      (happlies : Applies env digests s.live run current)
      (hwaits : WaitsForSlot s.live run current) :
      Small env digests s { s with
        requests := s.requests.set current.id next
        log := s.log ++ [.approved current decision operatorId nowMs s.live] }
  | offered (s : System) (request : WorkerResumeRequest) (run : Run) (nowMs : Int)
      (hget : s.requests.get request.id = some request) (hstate : request.state = .approved)
      (hintime : lapsed request nowMs = false) (hrun : run.id = request.runId)
      (happlies : Applies env digests s.live run request) :
      Small env digests s { s with log := s.log ++ [.offered request.id nowMs s.live] }
  | launched (s : System) (current next : WorkerResumeRequest) (step : WorkerStep) (nowMs : Int)
      (hget : s.requests.get current.id = some current) (happroved : current.state = .approved)
      (hbound : next.toBound = current.toBound) (hid : next.id = current.id)
      (hversion : next.version = current.version + 1) (hstate : next.state = .launching)
      (hstep : current.stepId = step.id) (hattempt : current.stepAttempt = step.attempts)
      (hsession : current.sessionId = step.sessionId) (hintime : lapsed current nowMs = false) :
      Small env digests s { s with
        requests := s.requests.set current.id next
        log := s.log ++ [.launched current.id step nowMs] }
  | inserted (s : System) (request : WorkerResumeRequest) (hnew : request.id ∉ s.drawn)
      (hstate : request.state = .awaitingApproval) (htaken : s.requests.taken request = false) :
      Small env digests s { s with
        requests := s.requests.set request.id request
        drawn := s.drawn ++ [request.id] }

/-! ### What becomes of a request -/

/-- A record, and what it became: nothing of what it was made for changes, a version is one
    record, and what is settled stays. -/
structure Progress (r r' : WorkerResumeRequest) : Prop where
  bound : r'.toBound = r.toBound
  id : r'.id = r.id
  version : r' = r ∨ (r.state.active = true ∧ r.version < r'.version)

theorem Progress.refl (r : WorkerResumeRequest) : Progress r r := ⟨rfl, rfl, .inl rfl⟩

theorem Progress.trans {r r' r'' : WorkerResumeRequest} (h : Progress r r')
    (h' : Progress r' r'') : Progress r r'' := by
  refine ⟨h'.bound.trans h.bound, h'.id.trans h.id, ?_⟩
  rcases h'.version with hsame | ⟨_, hlt'⟩
  · rw [hsame]
    exact h.version
  · rcases h.version with hsame | ⟨hactive, hlt⟩
    · rw [← hsame]
      exact h'.version
    · exact .inr ⟨hactive, Nat.lt_trans hlt hlt'⟩

/-- Each request of the later state was there, or was not drawn yet. -/
structure Later (s next : System) : Prop where
  drawn : ∀ id ∈ s.drawn, id ∈ next.drawn
  requests : ∀ id r', next.requests.get id = some r' →
    (∃ r, s.requests.get id = some r ∧ Progress r r') ∨ id ∉ s.drawn

theorem Later.refl (s : System) : Later s s :=
  ⟨fun _ h => h, fun _ r h => .inl ⟨r, h, .refl r⟩⟩

theorem Later.trans {s next last : System} (h : Later s next) (h' : Later next last) :
    Later s last := by
  refine ⟨fun id hid => h'.drawn id (h.drawn id hid), fun id r'' hr'' => ?_⟩
  rcases h'.requests id r'' hr'' with ⟨r', hr', hprogress'⟩ | hnew
  · rcases h.requests id r' hr' with ⟨r, hr, hprogress⟩ | hnew
    · exact .inl ⟨r, hr, hprogress.trans hprogress'⟩
    · exact .inr hnew
  · exact .inr fun hid => hnew (h.drawn id hid)

/-- One record is written. -/
theorem Later.written {s : System} {current next : WorkerResumeRequest} {log : List Event}
    (hget : s.requests.get current.id = some current) (hprogress : Progress current next) :
    Later s { s with requests := s.requests.set current.id next, log } := by
  refine ⟨fun _ h => h, fun id r hr => .inl ?_⟩
  rcases Table.get_set_some hr with ⟨rfl, rfl⟩ | ⟨_, hr⟩
  · exact ⟨current, hget, hprogress⟩
  · exact ⟨r, hr, .refl r⟩

theorem Small.later {s next : System} (h : Small env digests s next) : Later s next := by
  cases h with
  | fleet live lastPrunedAt => exact ⟨fun _ h => h, fun _ r h => .inl ⟨r, h, .refl r⟩⟩
  | dropped requests hless =>
      exact ⟨fun _ h => h, fun id r h => .inl ⟨r, hless id r h, .refl r⟩⟩
  | settled current next hget hactive hbound hid hversion hstate =>
      exact .written hget ⟨hbound, hid, .inr ⟨hactive, by omega⟩⟩
  | approved current next run decision operatorId nowMs hget hwaiting hbound hid hversion =>
      exact .written hget ⟨hbound, hid, .inr ⟨by rw [hwaiting]; rfl, by omega⟩⟩
  | offered request run nowMs => exact ⟨fun _ h => h, fun _ r h => .inl ⟨r, h, .refl r⟩⟩
  | launched current next step nowMs hget happroved hbound hid hversion =>
      exact .written hget ⟨hbound, hid, .inr ⟨by rw [happroved]; rfl, by omega⟩⟩
  | inserted request hnew =>
      refine ⟨fun _ h => List.mem_append_left _ h, fun id r hr => ?_⟩
      by_cases hid : id = request.id
      · exact .inr (hid ▸ hnew)
      · rw [Table.get_set_ne _ _ hid] at hr
        exact .inl ⟨r, hr, .refl r⟩

theorem later_of_small {s next : System} (h : ReflTransGen (Small env digests) s next) :
    Later s next := by
  induction h with
  | refl => exact .refl s
  | tail _ hsmall ih => exact ih.trans hsmall.later

/-! ### The ledger -/

def Event.id : Event → Text
  | .approved request _ _ _ _ => request.id
  | .offered requestId _ _ => requestId
  | .launched requestId _ _ => requestId

def Event.launches : Event → Bool
  | .launched _ _ _ => true
  | _ => false

/-- An approval among the events, of a record that was made for the same, at some time. -/
def Approval (log : List Event) (id : Text) (bound : Bound) (nowMs : Int) : Prop :=
  ∃ request decision operatorId live,
    .approved request decision operatorId nowMs live ∈ log ∧ request.id = id ∧
      request.toBound = bound

theorem Approval.more {log : List Event} {id : Text} {bound : Bound} {nowMs : Int}
    (h : Approval log id bound nowMs) (e : Event) : Approval (log ++ [e]) id bound nowMs := by
  rcases h with ⟨request, decision, operatorId, live, hmem, hrest⟩
  exact ⟨request, decision, operatorId, live, List.mem_append_left _ hmem, hrest⟩

/-- An approval that can still be spent. -/
def Unspent (log : List Event) (id : Text) (r : WorkerResumeRequest) : Prop :=
  (∃ approvedAt, Approval log id r.toBound approvedAt ∧
    r.launchBy = some (approvedAt + launchMs)) ∧
  ∀ e ∈ log, e.launches → e.id ≠ id

theorem Unspent.more {log : List Event} {id : Text} {r : WorkerResumeRequest} {e : Event}
    (h : Unspent log id r) (hother : e.launches → e.id ≠ id) : Unspent (log ++ [e]) id r := by
  rcases h with ⟨⟨approvedAt, happroval, hby⟩, hnone⟩
  exact ⟨⟨approvedAt, happroval.more e, hby⟩, Run.forall_snoc hnone hother⟩

/-- Why an event could happen, after what happened before. -/
def Justified (env : Environment) (digests : Digests) (before : List Event) : Event → Prop
  | .approved request decision _ nowMs live =>
      request.state = .awaitingApproval ∧ decision.decision = .approveOnce ∧
      decision.expectedVersion = request.version ∧ decision.fingerprint = request.fingerprint ∧
      nowMs < request.expiresAt ∧
      (∃ run, live.runs.get request.runId = some run ∧ Applies env digests live run request ∧
        WaitsForSlot live run request) ∧
      ∀ e ∈ before, e.id ≠ request.id
  | .offered requestId nowMs live =>
      ∃ request approvedAt, Approval before requestId request.toBound approvedAt ∧
        nowMs ≤ approvedAt + launchMs ∧
        (∃ run : Run, run.id = request.runId ∧ Applies env digests live run request) ∧
        ∀ e ∈ before, e.launches → e.id ≠ requestId
  | .launched requestId step nowMs =>
      ∃ bound approvedAt, Approval before requestId bound approvedAt ∧
        nowMs ≤ approvedAt + launchMs ∧ bound.stepId = step.id ∧
        bound.stepAttempt = step.attempts ∧ bound.sessionId = step.sessionId ∧
        ∀ e ∈ before, e.launches → e.id ≠ requestId

/-- What small steps keep. -/
structure Ledger (env : Environment) (digests : Digests) (s : System) : Prop where
  keyed : ∀ id r, s.requests.get id = some r → r.id = id
  known : ∀ id r, s.requests.get id = some r → id ∈ s.drawn
  told : ∀ e ∈ s.log, e.id ∈ s.drawn
  single : ∀ id r other r', s.requests.get id = some r → s.requests.get other = some r' →
    r.state.active = true → r'.state.active = true → r.stepId = r'.stepId → id = other
  justified : Run.Each (Justified env digests) s.log
  waiting : ∀ id r, s.requests.get id = some r → r.state = .awaitingApproval →
    ∀ e ∈ s.log, e.id ≠ id
  approved : ∀ id r, s.requests.get id = some r → r.state = .approved → Unspent s.log id r

/-- The index has no other active record for the step of one that could be written. -/
theorem not_taken {requests : Requests} {request r : WorkerResumeRequest} {id : Text}
    (h : requests.taken request = false) (hactive : request.state.active = true)
    (hget : requests.get id = some r) (hkeyed : r.id = id) (hne : id ≠ request.id)
    (hr : r.state.active = true) : r.stepId ≠ request.stepId := by
  unfold Requests.taken at h
  rw [hactive, Bool.true_and] at h
  have hnot := List.any_eq_false.mp h r ((requests.mem_values_iff r).mpr ⟨id, hget⟩)
  intro hstep
  simp [hkeyed, hne, hstep, hr] at hnot

theorem not_lapsed {r : WorkerResumeRequest} {launchBy nowMs : Int}
    (h : lapsed r nowMs = false) (hlaunch : r.launchBy = some launchBy) : nowMs ≤ launchBy := by
  unfold lapsed at h
  rw [hlaunch] at h
  exact Int.not_lt.mp (of_decide_eq_false h)

theorem stepId_of_bound {r r' : WorkerResumeRequest} (h : r'.toBound = r.toBound) :
    r'.stepId = r.stepId := congrArg Bound.stepId h

/-- A record in another state than the one that was written was there. -/
theorem unwritten {requests : Requests} {key id : Text} {next r : WorkerResumeRequest}
    (hr : (requests.set key next).get id = some r) (hstate : r.state ≠ next.state) :
    id ≠ key ∧ requests.get id = some r := by
  rcases Table.get_set_some hr with ⟨_, rfl⟩ | hold
  · exact absurd rfl hstate
  · exact hold

/-- A record that was active is written: the tables stay keyed, and one is active for a step. -/
theorem Ledger.rewritten {s : System} (h : Ledger env digests s)
    {current next : WorkerResumeRequest} (hget : s.requests.get current.id = some current)
    (hactive : current.state.active = true) (hbound : next.toBound = current.toBound)
    (hid : next.id = current.id) {log : List Event} (htold : ∀ e ∈ log, e.id ∈ s.drawn)
    (hjustified : Run.Each (Justified env digests) log)
    (hwaiting : ∀ id r, (s.requests.set current.id next).get id = some r →
      r.state = .awaitingApproval → ∀ e ∈ log, e.id ≠ id)
    (happroved : ∀ id r, (s.requests.set current.id next).get id = some r →
      r.state = .approved → Unspent log id r) :
    Ledger env digests { s with requests := s.requests.set current.id next, log } := by
  -- Each record of the new table stands for one of the old, active for the same step.
  have hold : ∀ id r, (s.requests.set current.id next).get id = some r →
      ∃ r', s.requests.get id = some r' ∧ r.id = r'.id ∧ r.stepId = r'.stepId ∧
        (r.state.active = true → r'.state.active = true) := by
    intro id r hr
    rcases Table.get_set_some hr with ⟨rfl, rfl⟩ | ⟨_, hr⟩
    · exact ⟨current, hget, hid, stepId_of_bound hbound, fun _ => hactive⟩
    · exact ⟨r, hr, rfl, rfl, fun hr => hr⟩
  refine ⟨fun id r hr => ?_, fun id r hr => ?_, htold, fun id r other r' hr hr' ha ha' hs => ?_,
    hjustified, hwaiting, happroved⟩
  · rcases hold id r hr with ⟨r', hr', hsame, _⟩
    rw [hsame]
    exact h.keyed id r' hr'
  · rcases hold id r hr with ⟨r', hr', _⟩
    exact h.known id r' hr'
  · rcases hold id r hr with ⟨q, hq, _, hstep, hqactive⟩
    rcases hold other r' hr' with ⟨q', hq', _, hstep', hqactive'⟩
    exact h.single id q other q' hq hq' (hqactive ha) (hqactive' ha')
      (hstep.symm.trans (hs.trans hstep'))

theorem Small.ledger {s next : System} (h : Ledger env digests s)
    (hsmall : Small env digests s next) : Ledger env digests next := by
  cases hsmall with
  | fleet live lastPrunedAt =>
      exact ⟨h.keyed, h.known, h.told, h.single, h.justified, h.waiting, h.approved⟩
  | dropped requests hless =>
      exact ⟨fun id r hr => h.keyed id r (hless id r hr), fun id r hr =>
        h.known id r (hless id r hr), h.told, fun id r other r' hr hr' =>
          h.single id r other r' (hless id r hr) (hless other r' hr'), h.justified,
        fun id r hr => h.waiting id r (hless id r hr),
        fun id r hr => h.approved id r (hless id r hr)⟩
  | settled current next hget hactive hbound hid hversion hstate =>
      -- What was written is launching, if it is active.
      have hothers : ∀ id r, (s.requests.set current.id next).get id = some r →
          r.state.active = true → r.state ≠ .launching → s.requests.get id = some r := by
        intro id r hr hr' hne
        by_cases hactive : next.state.active = true
        · exact (unwritten hr (by rw [hstate hactive]; exact hne)).2
        · exact (unwritten hr fun hsame => hactive (hsame ▸ hr')).2
      refine h.rewritten hget hactive hbound hid h.told h.justified (fun id r hr hr' => ?_)
        (fun id r hr hr' => ?_)
      · exact h.waiting id r (hothers id r hr (by rw [hr']; rfl) (by rw [hr']; simp)) hr'
      · exact h.approved id r (hothers id r hr (by rw [hr']; rfl) (by rw [hr']; simp)) hr'
  | approved current next run decision operatorId nowMs hget hwaiting hbound hid hversion hstate
      hlaunch hdecision hexpected hfingerprint hexpires hrun happlies hwaits =>
      have hnone := h.waiting current.id current hget hwaiting
      refine h.rewritten hget (by rw [hwaiting]; rfl) hbound hid
        (Run.forall_snoc h.told (h.known current.id current hget))
        (Run.each_snoc.mpr ⟨h.justified, hwaiting, hdecision, hexpected, hfingerprint,
          hexpires, ⟨run, hrun, happlies, hwaits⟩, hnone⟩)
        (fun id r hr hr' => ?_) (fun id r hr hr' => ?_)
      · rcases unwritten hr (by rw [hr', hstate]; simp) with ⟨hne, hr⟩
        exact Run.forall_snoc (h.waiting id r hr hr') hne.symm
      · rcases Table.get_set_some hr with ⟨rfl, rfl⟩ | ⟨_, hr⟩
        · refine ⟨⟨nowMs, ⟨current, decision, operatorId, s.live, ?_, rfl, hbound.symm⟩,
            hlaunch⟩, ?_⟩
          · exact List.mem_append_right _ List.mem_cons_self
          · exact Run.forall_snoc (fun e he _ => hnone e he) fun hlaunches => by cases hlaunches
        · exact (h.approved id r hr hr').more fun hlaunches => by cases hlaunches
  | offered request run nowMs hget hstate hintime hrun happlies =>
      rcases h.approved request.id request hget hstate with ⟨⟨approvedAt, happroval, hby⟩, hnone⟩
      refine ⟨h.keyed, h.known, Run.forall_snoc h.told (h.known request.id request hget), h.single,
        ?_, fun id r hr hr' => ?_, fun id r hr hr' => ?_⟩
      · exact Run.each_snoc.mpr ⟨h.justified, request, approvedAt, happroval,
          not_lapsed hintime hby, ⟨run, hrun, happlies⟩, hnone⟩
      · refine Run.forall_snoc (h.waiting id r hr hr') fun hid => ?_
        have hid : request.id = id := hid
        rw [← hid, hget, Option.some.injEq] at hr
        rw [← hr, hstate] at hr'
        cases hr'
      · exact (h.approved id r hr hr').more fun hlaunches => by cases hlaunches
  | launched current next step nowMs hget happroved hbound hid hversion hstate hstep hattempt
      hsession hintime =>
      rcases h.approved current.id current hget happroved with
        ⟨⟨approvedAt, happroval, hby⟩, hnone⟩
      refine h.rewritten hget (by rw [happroved]; rfl) hbound hid
        (Run.forall_snoc h.told (h.known current.id current hget))
        (Run.each_snoc.mpr ⟨h.justified, current.toBound, approvedAt, happroval,
          not_lapsed hintime hby, hstep, hattempt, hsession, hnone⟩)
        (fun id r hr hr' => ?_) (fun id r hr hr' => ?_)
      · rcases unwritten hr (by rw [hr', hstate]; simp) with ⟨hne, hr⟩
        exact Run.forall_snoc (h.waiting id r hr hr') hne.symm
      · rcases unwritten hr (by rw [hr', hstate]; simp) with ⟨hne, hr⟩
        exact (h.approved id r hr hr').more fun _ => hne.symm
  | inserted request hnew hstate htaken =>
      have hnone : ∀ e ∈ s.log, e.id ≠ request.id := fun e he hid => hnew (hid ▸ h.told e he)
      -- A record that is active has no step in common with the new one.
      have hfree : ∀ {other q}, other ≠ request.id → s.requests.get other = some q →
          q.state.active = true → q.stepId ≠ request.stepId := fun hne hq hactive =>
        not_taken htaken (by rw [hstate]; rfl) hq (h.keyed _ _ hq) hne hactive
      refine ⟨fun id r hr => ?_, fun id r hr => ?_, fun e he => ?_,
        fun id r other r' hr hr' ha ha' hs => ?_, h.justified, fun id r hr hr' => ?_,
        fun id r hr hr' => ?_⟩
      · rcases Table.get_set_some hr with ⟨rfl, rfl⟩ | ⟨_, hr⟩
        · rfl
        · exact h.keyed id r hr
      · rcases Table.get_set_some hr with ⟨rfl, rfl⟩ | ⟨_, hr⟩
        · exact List.mem_append_right _ List.mem_cons_self
        · exact List.mem_append_left _ (h.known id r hr)
      · exact List.mem_append_left _ (h.told e he)
      · rcases Table.get_set_some hr with ⟨rfl, rfl⟩ | ⟨hid, hthere⟩
        · rcases Table.get_set_some hr' with ⟨rfl, rfl⟩ | ⟨hother, hthere'⟩
          · rfl
          · exact absurd hs.symm (hfree hother hthere' ha')
        · rcases Table.get_set_some hr' with ⟨rfl, rfl⟩ | ⟨_, hthere'⟩
          · exact absurd hs (hfree hid hthere ha)
          · exact h.single id r other r' hthere hthere' ha ha' hs
      · rcases Table.get_set_some hr with ⟨rfl, rfl⟩ | ⟨_, hr⟩
        · exact hnone
        · exact h.waiting id r hr hr'
      · exact h.approved id r (unwritten hr (by rw [hr', hstate]; simp)).2 hr'

/-! ### The scheduler's side -/

/-- What a visit of a request leaves: small steps, and every other record as it was. -/
structure Moves (env : Environment) (digests : Digests) (s : System) (q : WorkerResumeRequest)
    (requests : Requests) : Prop where
  small : ReflTransGen (Small env digests) s { s with requests }
  others : ∀ id, id ≠ q.id → requests.get id = s.requests.get id

theorem Moves.none (s : System) (q : WorkerResumeRequest) :
    Moves env digests s q s.requests := ⟨.refl, fun _ _ => rfl⟩

section

variable {s : System} {q : WorkerResumeRequest}

theorem finish_moves {state : WorkerResumeRequestState} {outcome : Text} {patch : Patch}
    {now : Int} {next : Requests × WorkerResumeRequest}
    (hget : s.requests.get q.id = some q) (hactive : q.state.active = true)
    (hstate : state.active = false) (h : s.requests.finish q state outcome patch now = .ok next) :
    Moves env digests s q next.1 := by
  rw [update_known hget h]
  refine ⟨.single (.settled s q _ hget hactive rfl rfl rfl fun hnext => ?_), fun id hid =>
    Table.get_set_ne _ _ hid⟩
  have hsettled : state.active = true := hnext
  rw [hstate] at hsettled
  cases hsettled

theorem settle_moves {state : WorkerResumeRequestState} {outcome : Text} {now : Int}
    {requests : Requests} (hget : s.requests.get q.id = some q) (hactive : q.state.active = true)
    (hstate : state.active = false) (h : s.requests.settle q state outcome now = .ok requests) :
    Moves env digests s q requests := by
  rcases Refusal.map_ok h with ⟨next, hfinish, rfl⟩
  exact finish_moves hget hactive hstate hfinish

theorem follow_moves {live : Live} {nowMs : Int} {clock : Text → Int} {requests : Requests}
    (hget : s.requests.get q.id = some q) (hactive : q.state.active = true)
    (hlaunching : q.state = .launching) (h : follow live s.requests q nowMs clock = .ok requests) :
    Moves env digests s q requests := by
  unfold follow at h
  split at h
  · exact settle_moves hget hactive rfl h
  · split at h
    · rcases Refusal.map_ok h with ⟨next, hfinish, rfl⟩
      exact finish_moves hget hactive rfl hfinish
    · split at h
      · exact settle_moves hget hactive rfl h
      · rename_i step _ _ _
        by_cases hprogress : progressOf live q step = q.outcome
        · rw [if_neg (fun hne => hne hprogress)] at h
          rw [← Except.ok.inj h]
          exact .none s q
        · -- Only what is said of the launch changes.
          rw [if_pos hprogress] at h
          rcases Refusal.map_ok h with ⟨next, hupdate, rfl⟩
          rw [update_known hget hupdate]
          exact ⟨.single (.settled s q _ hget hactive rfl rfl rfl fun _ => hlaunching),
            fun id hid => Table.get_set_ne _ _ hid⟩

theorem reconcileOne_moves {nowMs : Int} {runId : Option Text} {clock : Text → Int}
    {requests : Requests} (hget : s.requests.get q.id = some q) (hactive : q.state.active = true)
    (h : reconcileOne env digests s.live nowMs runId clock s.requests q = .ok requests) :
    Moves env digests s q requests := by
  have hsame : ∀ {next}, Except.ok s.requests = (Except.ok next : Except WorkerResumeConflict _) →
      Moves env digests s q next := by
    intro next h
    rw [← Except.ok.inj h]
    exact .none s q
  unfold reconcileOne at h
  split at h
  · exact hsame h
  · split at h
    · split at h
      · exact settle_moves hget hactive rfl h
      · split at h
        · split at h
          · exact settle_moves hget hactive rfl h
          · exact hsame h
        · exact settle_moves hget hactive rfl h
    · rename_i hwaiting
      split at h
      · split at h
        · exact settle_moves hget hactive rfl h
        · exact hsame h
      · rename_i happroved
        refine follow_moves hget hactive ?_ h
        -- Of the active states it is the one that is left.
        cases hstate : q.state with
        | launching => rfl
        | awaitingApproval => exact absurd hstate hwaiting
        | approved => exact absurd hstate happroved
        | launched | cancelled | expired | stale | failed =>
            rw [hstate] at hactive
            cases hactive

/-- The exception that an offer adds is one of an approved request the fleet still fits. -/
def Offers (env : Environment) (digests : Digests) (live : Live) (run : Run) (nowMs : Int)
    (q : WorkerResumeRequest) : Prop :=
  q.state = .approved ∧ lapsed q nowMs = false ∧ run.id = q.runId ∧
    Applies env digests live run q

theorem offer_ok {run : Run} {nowMs : Int} {clock : Text → Int}
    {exceptions : Table Text ScheduleException} {next : Requests × Table Text ScheduleException}
    (hget : s.requests.get q.id = some q) (hactive : q.state.active = true)
    (h : offer env digests s.live run nowMs clock (s.requests, exceptions) q = .ok next) :
    Moves env digests s q next.1 ∧ (next.2 = exceptions ∨
      (next.1 = s.requests ∧ Offers env digests s.live run nowMs q ∧
        ∃ granted : ScheduleException, granted.requestId = q.id ∧
          next.2 = exceptions.set q.stepId granted)) := by
  unfold offer at h
  split at h
  · rw [← Except.ok.inj h]
    exact ⟨.none s q, .inl rfl⟩
  · rename_i hmine
    rw [Bool.or_eq_true, not_or, decide_eq_true_eq, decide_eq_true_eq] at hmine
    split at h
    · rcases Refusal.map_ok h with ⟨requests, hsettle, rfl⟩
      exact ⟨settle_moves hget hactive rfl hsettle, .inl rfl⟩
    · rename_i hlapsed
      simp only at h
      split at h
      · rcases Refusal.map_ok h with ⟨requests, hsettle, rfl⟩
        exact ⟨settle_moves hget hactive rfl hsettle, .inl rfl⟩
      · rename_i hreason
        rw [← Except.ok.inj h]
        refine ⟨.none s q, .inr ⟨rfl, ⟨Decidable.of_not_not hmine.2,
          Bool.eq_false_iff.mpr hlapsed, (Decidable.of_not_not hmine.1).symm, ?_⟩, _, rfl,
          rfl⟩⟩
        split at hreason
        · rename_i step hstep
          rcases revalidate_none hreason with ⟨hattempt, hsession, ⟨binding, hbind, hsame⟩, _⟩
          exact ⟨step, binding, hstep, hattempt, hsession, hbind, hsame⟩
        · cases hreason

end

/-- What one visit keeps, all do, up to the one that throws. -/
theorem eachOf_visits {σ : Type} (P : List WorkerResumeRequest → σ → Prop)
    (visit : σ → WorkerResumeRequest → Except WorkerResumeConflict σ)
    (hstep : ∀ q rest s next, P (q :: rest) s → visit s q = .ok next → P rest next) :
    ∀ (xs : List WorkerResumeRequest) (s : σ), P xs s →
      ∃ rest, P rest (eachOf visit xs s).1 ∧ ((eachOf visit xs s).2 = none → rest = []) := by
  intro xs
  induction xs with
  | nil => exact fun s h => ⟨[], h, fun _ => rfl⟩
  | cons q rest ih =>
      intro s h
      unfold eachOf
      cases hvisit : visit s q with
      | ok next => exact ih next (hstep q rest s next h hvisit)
      | error conflict => exact ⟨q :: rest, h, fun hnone => by cases hnone⟩

/-- The requests that are still to be visited are as they were read. -/
structure Pending (rest : List WorkerResumeRequest) (requests : Requests) : Prop where
  read : ∀ q ∈ rest, requests.get q.id = some q ∧ q.state.active = true
  nodup : (rest.map WorkerResumeRequest.id).Nodup

theorem Pending.next {q : WorkerResumeRequest} {rest : List WorkerResumeRequest}
    {requests next : Requests} (h : Pending (q :: rest) requests)
    (hothers : ∀ id, id ≠ q.id → next.get id = requests.get id) : Pending rest next := by
  have hnodup := h.nodup
  rw [List.map_cons, List.nodup_cons] at hnodup
  refine ⟨fun r hr => ?_, hnodup.2⟩
  have hne : r.id ≠ q.id := fun hid => hnodup.1 (hid ▸ List.mem_map_of_mem hr)
  rw [hothers r.id hne]
  exact h.read r (List.mem_cons_of_mem _ hr)

theorem listActive_pending {requests : Requests}
    (hkeyed : ∀ id r, requests.get id = some r → r.id = id) :
    Pending requests.listActive requests := by
  have hperm := List.mergeSort_perm
    (requests.values.filter fun request => request.state.active) Requests.older
  constructor
  · intro q hq
    rcases List.mem_filter.mp (hperm.mem_iff.mp hq) with ⟨hmem, hactive⟩
    rcases (requests.mem_values_iff q).mp hmem with ⟨id, hget⟩
    exact ⟨by rw [hkeyed id q hget]; exact hget, hactive⟩
  · -- The ids are the keys.
    have hkeys : requests.values.map WorkerResumeRequest.id =
        requests.entries.map Prod.fst := by
      unfold Table.values
      rw [List.map_map]
      refine List.map_congr_left fun e he => ?_
      exact hkeyed e.1 e.2 ((requests.mem_entries_iff e.1 e.2).mp he)
    refine ((hperm.map WorkerResumeRequest.id).nodup_iff).mpr ?_
    refine List.Nodup.sublist (List.filter_sublist.map _) ?_
    rw [hkeys]
    exact requests.nodup

/-- What small steps keep, a call that is made of them keeps. -/
theorem ledger_of_small {s next : System} (h : Ledger env digests s)
    (hsmall : ReflTransGen (Small env digests) s next) : Ledger env digests next := by
  induction hsmall with
  | refl => exact h
  | tail _ hstep ih => exact hstep.ledger ih

/-- The exceptions of a pass are those of approved requests, each as it stands. -/
structure Granted (env : Environment) (digests : Digests) (s : System) (run : Run) (nowMs : Int)
    (rest : List WorkerResumeRequest) (offered : Requests × Table Text ScheduleException) :
    Prop where
  small : ReflTransGen (Small env digests) s { s with requests := offered.1 }
  pending : Pending rest offered.1
  grants : ∀ granted ∈ offered.2.values, ∃ q, q.id = granted.requestId ∧
    q.id ∉ rest.map WorkerResumeRequest.id ∧ offered.1.get q.id = some q ∧
    Offers env digests s.live run nowMs q

theorem Granted.next {s : System} {run : Run} {nowMs : Int} {clock : Text → Int}
    {q : WorkerResumeRequest} {rest : List WorkerResumeRequest}
    {offered next : Requests × Table Text ScheduleException}
    (h : Granted env digests s run nowMs (q :: rest) offered)
    (hoffer : offer env digests s.live run nowMs clock offered q = .ok next) :
    Granted env digests s run nowMs rest next := by
  rcases h.pending.read q List.mem_cons_self with ⟨hget, hactive⟩
  have hnodup := h.pending.nodup
  rw [List.map_cons, List.nodup_cons] at hnodup
  rcases offer_ok (s := { s with requests := offered.1 }) hget hactive hoffer with
    ⟨hmoves, hgranted⟩
  have hold : ∀ granted ∈ offered.2.values, ∃ p, p.id = granted.requestId ∧
      p.id ∉ rest.map WorkerResumeRequest.id ∧ next.1.get p.id = some p ∧
      Offers env digests s.live run nowMs p := by
    intro granted hmem
    rcases h.grants granted hmem with ⟨p, hid, hnotin, hp, hoffers⟩
    rw [List.map_cons, List.mem_cons, not_or] at hnotin
    exact ⟨p, hid, hnotin.2, by rw [hmoves.others p.id hnotin.1]; exact hp, hoffers⟩
  refine ⟨h.small.trans hmoves.small, h.pending.next hmoves.others, ?_⟩
  rcases hgranted with hsame | ⟨hrequests, hoffers, granted, hid, hset⟩
  · rw [hsame]
    exact hold
  · rw [hset]
    intro g hg
    rcases (Table.mem_values_iff _ g).mp hg with ⟨k, hk⟩
    rcases Table.get_set_some hk with ⟨_, rfl⟩ | ⟨_, hk⟩
    · exact ⟨q, hid.symm, hnodup.1, by rw [hrequests]; exact hget, hoffers⟩
    · exact hold g ((Table.mem_values_iff _ g).mpr ⟨k, hk⟩)

/-- The exceptions of a pass are told one after the other. -/
theorem spoken_small (run : Run) (nowMs : Int) :
    ∀ (grants : List ScheduleException) (s : System),
      (∀ granted ∈ grants, ∃ q, q.id = granted.requestId ∧ s.requests.get q.id = some q ∧
        Offers env digests s.live run nowMs q) →
      ReflTransGen (Small env digests) s { s with
        log := s.log ++ grants.map fun granted => .offered granted.requestId nowMs s.live } := by
  intro grants
  induction grants with
  | nil =>
      intro s _
      rw [List.map_nil, List.append_nil]
  | cons granted rest ih =>
      intro s h
      rcases h granted List.mem_cons_self with ⟨q, hid, hget, hstate, hintime, hrun, happlies⟩
      have hrest := ih { s with log := s.log ++ [.offered granted.requestId nowMs s.live] }
        fun g hg => h g (List.mem_cons_of_mem _ hg)
      rw [List.append_assoc] at hrest
      refine .head ?_ hrest
      rw [← hid]
      exact .offered s q run nowMs hget hstate hintime hrun happlies

theorem exceptionsFor_small {s : System} (h : Ledger env digests s) (run : Run) (nowMs : Int)
    (clock : Text → Int) :
    ReflTransGen (Small env digests) s (s.tick env digests (.exceptionsFor run nowMs clock)) := by
  have hvisits := eachOf_visits (Granted env digests s run nowMs)
    (offer env digests s.live run nowMs clock)
    (fun q rest offered next h hoffer => h.next hoffer) s.requests.listActive
    (s.requests, .empty) ⟨.refl, listActive_pending h.keyed, fun g hg => by cases hg⟩
  rcases hvisits with ⟨rest, hgranted, _⟩
  unfold System.tick exceptionsFor
  by_cases hnone : (eachOf (offer env digests s.live run nowMs clock) s.requests.listActive
      (s.requests, .empty)).2.isNone
  · simp only [hnone, if_true]
    refine hgranted.small.trans
      (spoken_small run nowMs _ { s with requests := _ } fun granted hmem => ?_)
    rcases hgranted.grants granted hmem with ⟨q, hid, _, hget, hoffers⟩
    exact ⟨q, hid, hget, hoffers⟩
  · simp only [hnone, Bool.false_eq_true, if_false, List.append_nil]
    exact hgranted.small

theorem claimLaunch_small {s : System} (h : Ledger env digests s) (requestId : Text)
    (step : WorkerStep) (nowMs : Int) (clock : Text → Int) (commits : Bool) :
    ReflTransGen (Small env digests) s
      (s.tick env digests (.claimLaunch requestId step nowMs clock commits)) := by
  simp only [System.tick]
  split
  · rename_i requests launching hclaim
    cases commits with
    | false => exact .refl
    | true =>
        unfold claimLaunch at hclaim
        split at hclaim
        · cases hclaim
        · rename_i q hq
          rcases Option.filter_eq_some_iff.mp hq with ⟨hget, hfits⟩
          simp only [Bool.and_eq_true, decide_eq_true_eq, Bool.not_eq_true'] at hfits
          rcases hfits with ⟨⟨⟨⟨hstate, hstep⟩, hattempt⟩, hsession⟩, hintime⟩
          have hid := h.keyed requestId q hget
          rcases Refusal.map_ok hclaim with ⟨next, hupdate, heq⟩
          have hrequests := congrArg Prod.fst heq
          simp only [update_known (hid ▸ hget) hupdate] at hrequests
          rw [if_pos rfl, ← hrequests, ← hid]
          exact .single (.launched s q _ step nowMs (hid ▸ hget) hstate rfl rfl rfl rfl hstep
            hattempt hsession hintime)
  · exact .refl

theorem failLaunch_small {s : System} (h : Ledger env digests s) (requestId reason : Text)
    (clock : Text → Int) :
    ReflTransGen (Small env digests) s
      (s.tick env digests (.failLaunch requestId reason clock)) := by
  simp only [System.tick]
  split
  · rename_i requests hfail
    unfold failLaunch at hfail
    split at hfail
    · rw [← Except.ok.inj hfail]
    · rename_i q hq
      rcases Option.filter_eq_some_iff.mp hq with ⟨hget, hactive⟩
      have hid := h.keyed requestId q hget
      exact (settle_moves (hid ▸ hget) hactive rfl hfail).small
  · exact .refl

theorem reconcile_small {s : System} (h : Ledger env digests s) (nowMs : Int)
    (runId : Option Text) (clock : Text → Int) :
    ReflTransGen (Small env digests) s
      (s.tick env digests (.reconcile nowMs runId clock)) := by
  -- Settled requests are dropped first, and those that are left are visited.
  have hvisits : ∀ (lastPrunedAt : Int) (requests : Requests),
      (∀ id r, requests.get id = some r → s.requests.get id = some r) →
      ReflTransGen (Small env digests) s { s with
        lastPrunedAt
        requests := (eachOf (reconcileOne env digests s.live nowMs runId clock)
          requests.listActive requests).1 } := by
    intro lastPrunedAt requests hless
    have hdropped : ReflTransGen (Small env digests) s { s with requests, lastPrunedAt } :=
      .tail (.single (.fleet s s.live lastPrunedAt))
        (.dropped { s with lastPrunedAt } requests hless)
    rcases eachOf_visits (fun rest requests =>
        ReflTransGen (Small env digests) s { s with requests, lastPrunedAt } ∧
          Pending rest requests)
      (reconcileOne env digests s.live nowMs runId clock)
      (fun q rest requests next hbefore hvisit => by
        rcases hbefore with ⟨hsmall, hpending⟩
        rcases hpending.read q List.mem_cons_self with ⟨hget, hactive⟩
        have hmoves := reconcileOne_moves (s := { s with requests, lastPrunedAt }) hget hactive
          hvisit
        exact ⟨hsmall.trans hmoves.small, hpending.next hmoves.others⟩)
      requests.listActive requests
      ⟨hdropped, listActive_pending fun id r hr => h.keyed id r (hless id r hr)⟩ with
      ⟨rest, ⟨hsmall, _⟩, _⟩
    exact hsmall
  by_cases hdue : (runId.isNone && 60 * 60000 < nowMs - s.lastPrunedAt) = true
  · simp only [System.tick, hdue, if_true]
    refine hvisits nowMs (s.requests.prune nowMs) fun id r hr => ?_
    unfold Requests.prune at hr
    rw [Table.get_keep, Option.filter_eq_some_iff] at hr
    exact hr.1
  · simp only [System.tick, hdue]
    exact hvisits s.lastPrunedAt s.requests fun _ _ hr => hr

/-- The scheduler's own operations come apart into small steps. -/
theorem tick_small {s : System} (h : Ledger env digests s) (t : Tick) :
    ReflTransGen (Small env digests) s (s.tick env digests t) := by
  cases t with
  | fleet live => exact .single (.fleet s live s.lastPrunedAt)
  | exceptionsFor run nowMs clock => exact exceptionsFor_small h run nowMs clock
  | claimLaunch requestId step nowMs clock commits =>
      exact claimLaunch_small h requestId step nowMs clock commits
  | failLaunch requestId reason clock => exact failLaunch_small h requestId reason clock
  | reconcile nowMs runId clock => exact reconcile_small h nowMs runId clock

theorem ticks_small (ticks : List Tick) {s : System} (h : Ledger env digests s) :
    ReflTransGen (Small env digests) s (s.ticks env digests ticks) := by
  induction ticks generalizing s with
  | nil => exact .refl
  | cons t rest ih =>
      have hfirst := tick_small h t
      exact hfirst.trans (ih (ledger_of_small h hfirst))

/-! ### The side of those who ask and decide -/

theorem tick_drawn (s : System) (t : Tick) : (s.tick env digests t).drawn = s.drawn := by
  cases t with
  | fleet live => rfl
  | exceptionsFor run nowMs clock => rfl
  | claimLaunch requestId step nowMs clock commits =>
      simp only [System.tick]
      split
      · split <;> rfl
      · rfl
  | failLaunch requestId reason clock =>
      simp only [System.tick]
      split <;> rfl
  | reconcile nowMs runId clock => rfl

/-- The scheduler draws no ids. -/
theorem ticks_drawn (ticks : List Tick) (s : System) :
    (s.ticks env digests ticks).drawn = s.drawn := by
  induction ticks generalizing s with
  | nil => rfl
  | cons t rest ih => exact (ih (s.tick env digests t)).trans (tick_drawn s t)

/-- The scheduler has a pass, or none. -/
theorem passed_small {c : Prop} [Decidable c] (pass : List Tick) {s : System}
    (h : Ledger env digests s) :
    ReflTransGen (Small env digests) s (if c then s.ticks env digests pass else s) ∧
      (if c then s.ticks env digests pass else s).drawn = s.drawn := by
  split
  · exact ⟨ticks_small pass h, ticks_drawn pass s⟩
  · exact ⟨.refl, rfl⟩

theorem ask_small (s : System) (run : Run) (step : WorkerStep) (actor : ResumeActor)
    (reason id : Text) (nowMs : Int) (hnew : id ∉ s.drawn) :
    ReflTransGen (Small env digests) s
      (s.ask env digests run step actor reason id nowMs).1 := by
  unfold System.ask
  split
  · exact .refl
  · split
    · split
      · exact .refl
      · exact .refl
    · simp only
      split
      · exact .refl
      · split
        · exact .refl
        · split
          · exact .refl
          · rename_i binding _ _ requests hinsert
            rcases insert_ok hinsert with ⟨htaken, rfl⟩
            exact .single (.inserted s
              (System.requestOf env digests binding actor reason id nowMs) hnew rfl htaken)

theorem request_small {s : System} (h : Ledger env digests s) (input : ResumeInput)
    (actor : ResumeActor) (id : Text) (nowMs : Int) (clock : Text → Int) (pass : List Tick)
    (hnew : id ∉ s.drawn) :
    ReflTransGen (Small env digests) s
      (s.request env digests input actor id nowMs clock pass).1 := by
  unfold System.request
  split
  · exact .refl
  · rename_i found run _
    -- The scheduler has its pass, where the step waits.
    rcases passed_small (c := found.state = .pending) pass h with ⟨hbefore, hdrawn⟩
    generalize (if found.state = .pending then s.ticks env digests pass else s) = passed
      at hbefore hdrawn
    have hasked : ∀ step requests,
        ReflTransGen (Small env digests) passed { passed with requests } →
        ReflTransGen (Small env digests) s
          (System.ask env digests { passed with requests } run step actor input.reason id
            nowMs).1 :=
      fun step requests hsmall => (hbefore.trans hsmall).trans
        (ask_small { passed with requests } run step actor input.reason id nowMs
          (by rw [hdrawn]; exact hnew))
    simp only
    split
    · exact hbefore
    · rename_i step _
      split
      · exact hbefore
      · split
        · exact hbefore
        · split
          · exact hbefore
          · split
            · exact hasked step passed.requests .refl
            · rename_i current hcurrent
              split
              · exact hbefore
              · split
                · exact hbefore
                · rename_i requests hsettle
                  rcases Option.filter_eq_some_iff.mp hcurrent with ⟨hfound, hwaiting⟩
                  rcases (passed.requests.mem_values_iff current).mp
                    (List.mem_of_find?_eq_some hfound) with ⟨k, hk⟩
                  have hid := (ledger_of_small h hbefore).keyed k current hk
                  have hwaiting := of_decide_eq_true hwaiting
                  exact hasked step requests (settle_moves (hid ▸ hk) (by rw [hwaiting]; rfl) rfl
                    hsettle).small

/-- What a decision leaves. It approves the record that was shown and nothing else. -/
theorem commit_small {s : System} {shown current : WorkerResumeRequest}
    {decision : WorkerResumeDecision} {operatorId : Text} {nowMs : Int} {clock : Text → Int}
    {requests : Requests} {decided : Decided} (hget : s.requests.get current.id = some current)
    (hsame : current.version = shown.version → current = shown)
    (hwaiting : shown.state = .awaitingApproval) (hexpected : shown.version =
      decision.expectedVersion) (hfingerprint : shown.fingerprint = decision.fingerprint)
    (h : commit env digests s.live s.requests shown current decision operatorId nowMs clock =
      .ok (requests, decided)) :
    ReflTransGen (Small env digests) s { s with
      requests
      log := s.log ++ if decided.launch then
        [.approved current decision operatorId nowMs s.live] else [] } := by
  -- An answer that ends the request launches nothing.
  have hfinished : ∀ {state : WorkerResumeRequestState} {outcome : Text} {patch : Patch}
      {now : Int} {f : Requests × WorkerResumeRequest → Requests × Decided},
      current.state.active = true → state.active = false →
      (∀ next, (f next).1 = next.1 ∧ (f next).2.launch = false) →
      (s.requests.finish current state outcome patch now).map f = .ok (requests, decided) →
      ReflTransGen (Small env digests) s { s with
        requests
        log := s.log ++ if decided.launch then
          [.approved current decision operatorId nowMs s.live] else [] } := by
    intro state outcome patch now f hactive hstate hlaunch hfinish
    rcases Refusal.map_ok hfinish with ⟨next, hnext, heq⟩
    have hrequests := congrArg Prod.fst heq
    have hdecided := congrArg Prod.snd heq
    simp only at hrequests hdecided
    rw [← hdecided, (hlaunch next).2, ← hrequests, (hlaunch next).1, if_neg Bool.false_ne_true,
      List.append_nil]
    exact (finish_moves hget hactive hstate hnext).small
  unfold commit at h
  split at h
  · have hsplit := Prod.mk.inj (Except.ok.inj h)
    rw [← hsplit.1, ← hsplit.2, if_neg Bool.false_ne_true, List.append_nil]
  · rename_i hversion
    -- The version did not move: the row under the lock is the row that was shown.
    have hshown := hsame (Decidable.of_not_not hversion)
    have hactive : current.state.active = true := by rw [hshown, hwaiting]; rfl
    split at h
    · exact hfinished hactive rfl (fun _ => ⟨rfl, rfl⟩) h
    · rename_i hexpires
      split at h
      · exact hfinished hactive rfl (fun _ => ⟨rfl, rfl⟩) h
      · rename_i hdecision
        simp only at h
        split at h
        · exact hfinished hactive rfl (fun _ => ⟨rfl, rfl⟩) h
        · rename_i hreason
          split at hreason
          · rename_i run step hrun hstep
            -- Revalidation found no reason against it, so the binding is that of the current
            -- attempt.
            rcases revalidate_none hreason with ⟨hattempt, hsession, hbinds, hwaits⟩
            rcases hbinds with ⟨binding, hbind, hprint⟩
            rcases hwaits rfl with ⟨hold, hhold, hcode⟩
            rcases Refusal.map_ok h with ⟨next, hupdate, heq⟩
            rw [update_known hget hupdate] at heq
            have hsplit := Prod.mk.inj heq
            rw [← hsplit.1, ← hsplit.2, if_pos rfl]
            have hchosen : decision.decision = .approveOnce := by
              cases hd : decision.decision with
              | approveOnce => rfl
              | cancel => exact absurd hd hdecision
            exact .single (.approved s current _ run decision operatorId nowMs hget
              (by rw [hshown]; exact hwaiting) rfl rfl rfl rfl rfl hchosen
              (by rw [hshown]; exact hexpected.symm) (by rw [hshown]; exact hfingerprint.symm)
              (Int.not_le.mp hexpires) hrun
              ⟨step, binding, hstep, hattempt, hsession, hbind, hprint⟩
              ⟨step, hold, hstep, hhold, hcode⟩)
          · cases hreason

theorem decide_small {s : System} (h : Ledger env digests s) (requestId : Text)
    (decision : WorkerResumeDecision) (operatorId : Text) (nowMs : Int) (clock : Text → Int)
    (before after : List Tick) :
    ReflTransGen (Small env digests) s
      (s.decide env digests requestId decision operatorId nowMs clock before after).1 := by
  unfold System.decide
  split
  · exact .refl
  · rename_i shown hshown
    split
    · exact .refl
    · rename_i hstands
      rw [Bool.or_eq_true, Bool.or_eq_true, not_or, not_or, decide_eq_true_eq,
        decide_eq_true_eq, decide_eq_true_eq] at hstands
      rcases hstands with ⟨⟨hwaiting, hexpected⟩, hfingerprint⟩
      -- The scheduler has its pass before an approval.
      have hbefore := (passed_small before h
        (c := (decision.decision = .approveOnce && nowMs < shown.expiresAt) = true)).1
      generalize (if (decision.decision = .approveOnce && nowMs < shown.expiresAt) = true then
        s.ticks env digests before else s) = passed at hbefore
      have hledger := ledger_of_small h hbefore
      simp only
      split
      · exact hbefore
      · rename_i current hcurrent
        split
        · exact hbefore
        · rename_i requests decided hcommit
          -- The version that was shown is one record.
          have hsame : current.version = shown.version → current = shown := by
            intro hversion
            rcases (later_of_small hbefore).requests requestId current hcurrent with
              ⟨r, hr, hprogress⟩ | hnew
            · rw [hshown, Option.some.injEq] at hr
              rw [← hr] at hprogress
              rcases hprogress.version with hsame | ⟨_, hlt⟩
              · exact hsame
              · omega
            · exact absurd (h.known requestId shown hshown) hnew
          have hid := hledger.keyed requestId current hcurrent
          have hcommitted := hbefore.trans (commit_small (hid ▸ hcurrent) hsame
            (Decidable.of_not_not hwaiting) (Decidable.of_not_not hexpected)
            (Decidable.of_not_not hfingerprint) hcommit)
          split
          · exact hcommitted
          · by_cases hlaunch : decided.launch = true
            · rw [if_pos hlaunch] at hcommitted
              simp only [if_pos hlaunch]
              exact hcommitted.trans (ticks_small after (ledger_of_small h hcommitted))
            · rw [if_neg hlaunch] at hcommitted
              simp only [if_neg hlaunch]
              exact hcommitted

/-! ### Runs -/

/-- A call comes apart into small steps. -/
theorem step_small {s : System} (h : Ledger env digests s) {op : Op} (hfresh : Fresh s op) :
    ReflTransGen (Small env digests) s (step env digests s op) := by
  cases op with
  | tick t => exact tick_small h t
  | request input actor id nowMs clock pass =>
      exact request_small h input actor id nowMs clock pass hfresh
  | decide requestId decision operatorId nowMs clock before after =>
      exact decide_small h requestId decision operatorId nowMs clock before after
  | clear => exact .single (.dropped s .empty fun id r hr => by cases hr)

theorem ledger_start (live : Live) : Ledger env digests (System.start live) where
  keyed := fun id r hr => by cases hr
  known := fun id r hr => by cases hr
  told := fun e he => by cases he
  single := fun id r other r' hr => by cases hr
  justified := Run.each_nil _
  waiting := fun id r hr => by cases hr
  approved := fun id r hr => by cases hr

/-- The ledger is kept, and each call leads on from where it met the requests. -/
theorem ledger_of_run {s : System} (ops : List Op) (hledger : Ledger env digests s)
    (h : Run.Admits (step env digests) Fresh s ops) :
    Ledger env digests (Run.final (step env digests) s ops) ∧
      Later s (Run.final (step env digests) s ops) :=
  Run.invariant_of_admits (step env digests) Fresh
    (fun next => Ledger env digests next ∧ Later s next)
    (fun next op hnext hfresh => by
      have hsmall := step_small hnext.1 hfresh
      exact ⟨ledger_of_small hnext.1 hsmall, hnext.2.trans (later_of_small hsmall)⟩)
    ops s ⟨hledger, .refl s⟩ h

/-! ### What is approved -/

/-- A retained worker that only the slot that is kept free can take. -/
structure Spare (env : Environment) (live : Live) (run : Run) (binding : Binding) : Prop where
  task : binding.run = run ∧ runnable run.state = true
  queued : binding.step.state = .pending ∧ binding.step.dispatchedAt = []
  session : live.session binding.step.sessionId = some binding.session
  owner : binding.session.runId = run.id
  ended : binding.session.state.terminal = true ∧ binding.session.agentSessionId ≠ []
  node : live.node binding.session.nodeId = some binding.node ∧ binding.node.online = true
  reserved : binding.reserved = (live.holders binding.node binding.kind).length
  /-- There is room, of which the scheduler would take nothing by itself. -/
  kept : margin binding.node.toFleetNode binding.kind ≤ binding.reserved ∧
    binding.reserved < capacityFor binding.node.toFleetNode binding.kind
  /-- No other session of the Node holds the checkout of one that writes. -/
  alone : ∀ other ∈ live.sessions, binding.session.bound || !binding.session.readOnly →
    other.id ≠ binding.session.id → other.nodeId = binding.node.id →
    holdsCheckout other.toFleetSession (some binding.node.toFleetNode) →
    checkoutLockKey other.toFleetSession ≠ binding.checkoutKey

theorem retained_ok {live : Live} {run : Run} {step : WorkerStep} {session : WorkerSession}
    (h : live.retained run step = .ok session) :
    runnable run.state = true ∧ step.state = .pending ∧ step.dispatchedAt = [] ∧
      live.session step.sessionId = some session ∧ session.runId = run.id ∧
      session.state.terminal = true ∧ session.agentSessionId ≠ [] := by
  unfold Live.retained at h
  rcases Refusal.unless_ok h with ⟨hrun, h⟩
  rcases Refusal.unless_ok h with ⟨hqueued, h⟩
  rcases Refusal.unless_ok h with ⟨hdispatched, h⟩
  rw [Bool.or_eq_true, not_or, decide_eq_true_eq, decide_eq_true_eq] at hqueued
  split at h
  · cases h
  · rename_i found hfound
    rcases Option.filter_eq_some_iff.mp hfound with ⟨hfound, howner⟩
    rcases Refusal.unless_ok h with ⟨hover, h⟩
    rcases Refusal.unless_ok h with ⟨hconversation, h⟩
    rcases Refusal.unless_ok h with ⟨_, h⟩
    rcases Refusal.unless_ok h with ⟨_, h⟩
    rcases Refusal.unless_ok h with ⟨_, h⟩
    rw [← Except.ok.inj h]
    simp only [Bool.not_eq_true', Bool.not_eq_false] at hrun hover
    exact ⟨hrun, Decidable.of_not_not hqueued.1, Decidable.of_not_not hdispatched, hfound,
      of_decide_eq_true howner, hover, hconversation⟩

theorem attached_ok {live : Live} {run : Run} {step : WorkerStep} {session : WorkerSession}
    {placement : Placement} {node : WorkerNode}
    (h : live.attached run step session = .ok (placement, node)) :
    live.node session.nodeId = some node ∧ node.online = true := by
  unfold Live.attached at h
  simp only at h
  split at h
  · rename_i found other hplacement hnode
    rcases Refusal.unless_ok h with ⟨_, h⟩
    rcases Refusal.unless_ok h with ⟨honline, h⟩
    split at h
    · cases h
    · rcases Refusal.unless_ok h with ⟨_, h⟩
      rcases Refusal.unless_ok h with ⟨_, h⟩
      split at h
      · cases h
      · have hsplit := Prod.mk.inj (Except.ok.inj h)
        rw [← hsplit.2]
        simp only [Bool.not_eq_true', Bool.not_eq_false] at honline
        exact ⟨hnode, honline⟩
  · cases h

/-- What binds is spare. -/
theorem spare_of_bind {live : Live} {run : Run} {step : WorkerStep} {binding : Binding}
    (h : live.bind env run step = .ok binding) : Spare env live run binding := by
  unfold Live.bind at h
  split at h
  · cases h
  · rename_i session hsession
    rcases retained_ok hsession with ⟨hrun, hpending, hdispatched, hfound, howner, hover, hresume⟩
    split at h
    · cases h
    · rename_i placement node hattached
      rcases attached_ok hattached with ⟨hnode, honline⟩
      simp only at h
      rcases Refusal.unless_ok h with ⟨halone, h⟩
      rcases Refusal.unless_ok h with ⟨hroom, h⟩
      rcases Refusal.unless_ok h with ⟨hkept, h⟩
      rw [← Except.ok.inj h]
      refine ⟨⟨rfl, hrun⟩, ⟨hpending, hdispatched⟩, hfound, howner, ⟨hover, hresume⟩,
        ⟨hnode, honline⟩, rfl, ⟨?_, Nat.lt_of_not_le hroom⟩, ?_⟩
      · rw [remainingCapacity_pos] at hkept
        exact Nat.le_of_not_lt hkept
      · intro other hmem hwrites hne hon hholds hkey
        have hshares := List.filter_eq_nil_iff.mp (Decidable.of_not_not halone) other hmem
        apply hshares
        have hne : other.id ≠ session.id := hne
        have hon : other.nodeId = node.id := hon
        simp only at hwrites hkey
        simp only [hwrites, hholds, hkey, hne, hon, ne_eq, not_false_eq_true, decide_true,
          Bool.and_self, Bool.true_or]

/-- The fleet as it stood when an approval was given or offered. -/
def Event.fleet : Event → Option Live
  | .approved _ _ _ _ live => some live
  | .offered _ _ live => some live
  | .launched _ _ _ => none

/-- The fleet binds the request's own step, as it was asked about, in its run, and what it
    gives is spare and has the fingerprint. -/
def BindsSpare (env : Environment) (digests : Digests) (live : Live)
    (request : WorkerResumeRequest) (fingerprint : Text) : Prop :=
  ∃ run step binding,
    (live.runs.get request.runId = some run ∨ run.id = request.runId) ∧
    live.steps.get request.stepId = some step ∧ step.attempts = request.stepAttempt ∧
    step.sessionId = request.sessionId ∧ live.bind env run step = .ok binding ∧
    binding.fingerprint digests = fingerprint ∧ Spare env live run binding

theorem bindsSpare_of_applies {live : Live} {run : Run} {request : WorkerResumeRequest}
    (hrun : live.runs.get request.runId = some run ∨ run.id = request.runId)
    (h : Applies env digests live run request) :
    BindsSpare env digests live request request.fingerprint := by
  rcases h with ⟨step, binding, hstep, hattempt, hsession, hbind, hprint⟩
  exact ⟨run, step, binding, hrun, hstep, hattempt, hsession, hbind, hprint, spare_of_bind hbind⟩

/-- Requests that were made for the same bind to the same. -/
theorem BindsSpare.congr {live : Live} {request other : WorkerResumeRequest} {fingerprint : Text}
    (h : BindsSpare env digests live request fingerprint) (hsame : other.toBound = request.toBound) :
    BindsSpare env digests live other fingerprint := by
  unfold BindsSpare
  rw [hsame]
  exact h

/-! ### A small fleet

One Node with two slots, of which a worker at another checkout holds one.
-/

namespace Sample

def retained : WorkerSession where
  toFleetSession := Orchestrator.Sample.worker .stopped
  runId := ofString "run"
  workspaceId := ofString "app"
  agentSessionId := ofString "conversation"

def other : WorkerSession where
  toFleetSession := { Orchestrator.Sample.worker .running with
    id := ofString "other"
    placementId := ofString "second" }
  runId := ofString "run"
  workspaceId := ofString "app"

def queued : WorkerStep where
  toRunStep := { Orchestrator.Sample.step "step" .pending with
    sessionId := ofString "worker"
    attempts := 2 }
  runId := ofString "run"

def live : Live where
  runs := Table.empty.set (ofString "run") Orchestrator.Sample.run
  steps := Table.empty.set (ofString "step") queued
  sessions := [retained, other]
  nodes := [{ toFleetNode := { Orchestrator.Sample.node with maxSessions := 2 } }]
  placements := [Orchestrator.Sample.first, Orchestrator.Sample.second]
  nodeWorkBlocked := fun _ => none
  commandSettling := fun _ => false
  manualControl := fun _ => false
  maintenance := fun _ _ _ _ => none
  holds := fun _ => some fun _ => some { code := .nodeHeadroom, detail := [] }

def hashes : Digests where
  sha256 := id
  fingerprint := fun facts => facts.stepId ++ facts.promptDigest ++ facts.holders.flatten

def asked : Op :=
  .request { stepId := some (ofString "step") } { kind := .operator, id := ofString "person" }
    (ofString "request") 0 (fun _ => 0) []

/-- The approval, and the pass in which it is spent. -/
def approved : Op :=
  .decide (ofString "request") {
      decision := .approveOnce
      expectedVersion := 1
      fingerprint := ofString "step" ++ ofString "go on" ++ ofString "other" }
    (ofString "person") 1000 (fun _ => 1000) []
    [.exceptionsFor Orchestrator.Sample.run 1000 fun _ => 1000,
      .claimLaunch (ofString "request") queued 1000 (fun _ => 1000) true]

/-- The fleet and its requests after both. -/
def spent : System :=
  Run.final (WorkerResume.step Orchestrator.Sample.environment hashes) (System.start live)
    [asked, approved]

end Sample

/-! ### Main results -/

/-- Each launch spends an approval in its time, and each approval is spent once. -/
theorem approvals_justified (live : Live) (ops : List Op)
    (h : Run.Admits (step env digests) Fresh (System.start live) ops) :
    Run.Each (Justified env digests)
      (Run.final (step env digests) (System.start live) ops).log :=
  (ledger_of_run ops (ledger_start live) h).1.justified

theorem approvals_justified_spent :
    Sample.spent.log.map Event.launches = [false, false, true] ∧
      Run.Each (Justified Sample.environment Sample.hashes) Sample.spent.log :=
  ⟨by decide +kernel,
    approvals_justified Sample.live [Sample.asked, Sample.approved]
      ⟨List.not_mem_nil, trivial, trivial⟩⟩

/-- Where an approval is given or offered, the fleet fits what the operator was shown: only the
    slot that is kept free is left for the worker, and nobody else holds its checkout. -/
theorem approvals_spare (live : Live) (ops : List Op)
    (h : Run.Admits (step env digests) Fresh (System.start live) ops) (e : Event)
    (he : e ∈ (Run.final (step env digests) (System.start live) ops).log) (fleet : Live)
    (hfleet : e.fleet = some fleet) :
    ∃ request decision operatorId nowMs seen,
      .approved request decision operatorId nowMs seen ∈
          (Run.final (step env digests) (System.start live) ops).log ∧ request.id = e.id ∧
        BindsSpare env digests fleet request decision.fingerprint := by
  have hledger := (ledger_of_run ops (ledger_start live) h).1
  rcases List.append_of_mem he with ⟨before, after, hsplit⟩
  have hjustified := hledger.justified before e after hsplit
  cases e with
  | approved request decision operatorId nowMs seen =>
      cases Option.some.inj hfleet
      rcases hjustified with ⟨_, _, _, hfingerprint, _, ⟨run, hrun, happlies, _⟩, _⟩
      refine ⟨request, decision, operatorId, nowMs, fleet, he, rfl, ?_⟩
      rw [hfingerprint]
      exact bindsSpare_of_applies (.inl hrun) happlies
  | offered requestId nowMs seen =>
      cases Option.some.inj hfleet
      rcases hjustified with ⟨bound, _, happroval, _, ⟨run, hrun, happlies⟩, _⟩
      -- The approval stands earlier in the log, and was of the same.
      rcases happroval with ⟨request, decision, operatorId, live', hmem, hid, hbound⟩
      rcases List.append_of_mem (hsplit ▸ List.mem_append_left _ hmem) with
        ⟨earlier, later, hearlier⟩
      have hgiven := hledger.justified earlier _ later hearlier
      refine ⟨request, decision, operatorId, _, live', hsplit ▸ List.mem_append_left _ hmem, hid,
        ?_⟩
      rw [hgiven.2.2.2.1, hbound]
      exact (bindsSpare_of_applies (.inr hrun) happlies).congr hbound
  | launched requestId step nowMs => cases hfleet

theorem approvals_spare_spent :
    ∃ (e : Event) (fleet : Live), e.fleet = some fleet ∧ ∃ request decision operatorId nowMs seen,
      .approved request decision operatorId nowMs seen ∈ Sample.spent.log ∧ request.id = e.id ∧
        BindsSpare Sample.environment Sample.hashes fleet request decision.fingerprint := by
  have hoffered : (Sample.spent.log[1]?.bind Event.fleet).isSome = true := by decide +kernel
  rcases Option.isSome_iff_exists.mp hoffered with ⟨fleet, hfleet⟩
  rcases Option.bind_eq_some_iff.mp hfleet with ⟨e, he, hfleet⟩
  exact ⟨e, fleet, hfleet, approvals_spare Sample.live [Sample.asked, Sample.approved]
    ⟨List.not_mem_nil, trivial, trivial⟩ e (List.mem_of_getElem? he) fleet hfleet⟩

/-- One request of a step is active, and a request changes only forward from what it was. -/
theorem requests_progress (live : Live) (ops later : List Op)
    (h : Run.Admits (step env digests) Fresh (System.start live) (ops ++ later)) :
    (∀ id r id' r',
      (Run.final (step env digests) (System.start live) ops).requests.get id = some r →
      (Run.final (step env digests) (System.start live) ops).requests.get id' = some r' →
      r.state.active = true → r'.state.active = true → r.stepId = r'.stepId → id = id') ∧
    ∀ id r r',
      (Run.final (step env digests) (System.start live) ops).requests.get id = some r →
      (Run.final (step env digests) (System.start live) (ops ++ later)).requests.get id =
        some r' → Progress r r' := by
  rcases (Run.admits_append (step env digests) Fresh (System.start live) ops later).mp h with
    ⟨hops, hlater⟩
  have hledger := (ledger_of_run ops (ledger_start live) hops).1
  refine ⟨hledger.single, fun id r r' hr hr' => ?_⟩
  rw [Run.final_append] at hr'
  rcases (ledger_of_run later hledger hlater).2.requests id r' hr' with ⟨q, hq, hprogress⟩ | hnew
  · rw [hr, Option.some.injEq] at hq
    rw [hq]
    exact hprogress
  · exact absurd (hledger.known id r hr) hnew

theorem requests_progress_spent :
    (Sample.spent.requests.get (ofString "request")).any (fun r => r.version = 3) = true ∧
      ∀ r r', (step Sample.environment Sample.hashes (System.start Sample.live)
        Sample.asked).requests.get (ofString "request") = some r →
      Sample.spent.requests.get (ofString "request") = some r' → Progress r r' :=
  ⟨by decide +kernel,
    (requests_progress Sample.live [Sample.asked] [Sample.approved]
      ⟨List.not_mem_nil, trivial, trivial⟩).2 (ofString "request")⟩

end WorkerResume

end Orchestrator

end CopilotFleet
