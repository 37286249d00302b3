import CopilotFleet.Auth.NodeEnrollment
import CopilotFleet.Lib.Run

/-!
# Enrollments over a Hostile Network

A Host, the machines that enrol with it, and a network that delivers what it
likes: any call of the Host may come from anybody, and any answer a machine
waits for may be anything. Grants are deleted, the Host restarts and forgets
its challenges, other code writes the nodes, secrets get known, and the same
keys sign the transcripts of every other exchange.

Beside the state there is a history: what was issued, what came of it, and what
was signed and proved by whom. The tables of the Host are held against that
history throughout a run (`Kept`). A challenge that is pending was issued and
not answered yet, and a grant that was spent is never open again, so one
completion finds either of them. The ids of both are drawn anew (`Fresh`).

## Main definitions

* `Fleet`: The Host, the machines, and the history of both.
* `Op`, `step`: What happens next.
* `Fresh`: What is drawn was never drawn before.
* `Enrollment.Proven`: What a Host was shown before it enrolled a machine.
* `Kept`: What the tables of the Host and the history have in common.

## Theorems

* `step_challenge`, `step_complete`: What a call of the Host adds to the history.
* `kept_of_run`: The tables and the history keep up with each other.
* `enrollment_once`: Every grant and every challenge enrols one machine.
-/

namespace CopilotFleet

namespace NodeEnrollment

open Utf16 NodeAuth

/-- A challenge the Host issued, and when. -/
structure Issue where
  challenge : PendingChallenge
  clock : ChallengeClock

/-- A machine the Host enrolled: what it was shown, and the row it left. -/
structure Enrollment where
  challenge : PendingChallenge
  grant : EnrollmentGrantRow
  clock : CompleteClock
  input : EnrollNode
  node : FleetNode
  row : Option NodeRow

/-- A challenge a machine sent its proofs for. -/
structure Answer where
  attempt : Attempt
  challenge : NodeEnrollmentChallengeResponse

def Answer.fields (a : Answer) : EnrollmentTranscriptInput := a.attempt.fields a.challenge

/-- How far a machine got. -/
inductive Phase where
  | waiting
  | proved (challenge : NodeEnrollmentChallengeResponse)
  | enrolled (challenge : NodeEnrollmentChallengeResponse) (credentials : KeyedCredentials)
  | failed

structure Session where
  attempt : Attempt
  phase : Phase

/-- The Host and the machines, and the history of both. -/
structure Fleet where
  host : Host
  sessions : List Session
  created : List Text
  disclosed : List Text
  issued : List Issue
  enrollments : List Enrollment
  answers : List Answer
  signed : List (Text × Bytes)
  proved : List (Text × Bytes)

def Host.empty : Host where
  grants := .empty
  pending := .empty
  nodes := .empty
  audit := []

def Fleet.empty : Fleet where
  host := .empty
  sessions := []
  created := []
  disclosed := []
  issued := []
  enrollments := []
  answers := []
  signed := []
  proved := []

/-- What happens next. A call of the Host comes from anybody, and what a machine is
    answered is anything; `sign` is what its key and the Host's are used for elsewhere. -/
inductive Op where
  | create (drawn : GrantDraw) (createdByAdminId : Text) (clock : CreateClock)
  | deleteGrants
  | restart
  | nodes (nodes : Table Text NodeRow)
  | disclose (tokenHash : Text)
  | challenge (drawn : ChallengeDraw) (clock : ChallengeClock) (input : NodeEnrollmentChallenge)
  | complete (drawnId : Text) (clock : CompleteClock) (input : EnrollNode)
  | start (keys : IdentityKeyPair) (nodeNonce : Text) (input : EnrollWithGrantInput)
  | answer (session : Nat) (challenge : NodeEnrollmentChallengeResponse)
  | receive (session : Nat) (receipt : NodeEnrollmentReceipt)
  | fail (session : Nat)
  | sign (key : Text) (t : Signed)

namespace Fleet

variable (platform : EnrollmentPlatform) (identity : HostIdentity)

/-- A challenge that was issued is one more the Host signed. -/
def challenged (s : Fleet) (drawn : ChallengeDraw) (clock : ChallengeClock)
    (called : Host × Except Failure NodeEnrollmentChallengeResponse) : Fleet :=
  match called.2, called.1.pending.get drawn.challengeId with
  | .ok _, some challenge =>
      { s with
        host := called.1
        issued := s.issued ++ [{ challenge, clock }]
        signed := s.signed ++ [(identity.publicKey,
          enrollmentTranscript ENROLLMENT_CHALLENGE_LABEL challenge.toEnrollmentTranscriptInput)] }
  | _, _ => { s with host := called.1 }

/-- The challenge a completion answers and the grant it is under. -/
def evidence (s : Fleet) (clock : CompleteClock) (input : EnrollNode) :
    Option (PendingChallenge × EnrollmentGrantRow) :=
  (s.host.named clock input).bind fun challenge =>
    ((s.host.taken clock input).live challenge.grantId clock.live).map fun grant =>
      (challenge, grant)

/-- A machine that was enrolled is one more receipt the Host signed. -/
def completed (s : Fleet) (clock : CompleteClock) (input : EnrollNode)
    (called : Host × Except Failure (FleetNode × NodeEnrollmentReceipt)) : Fleet :=
  match called.2, s.evidence clock input with
  | .ok (node, _), some (challenge, grant) =>
      { s with
        host := called.1
        enrollments := s.enrollments ++ [{
          challenge, grant, clock, input, node
          row := called.1.nodes.get input.registration.name }]
        signed := s.signed ++ [(identity.publicKey,
          enrollmentReceiptTranscript challenge.toEnrollmentTranscriptInput node.id)] }
  | _, _ => { s with host := called.1 }

/-- A machine that sent its proofs. -/
def sent (s : Fleet) (i : Nat) (attempt : Attempt) (challenge : NodeEnrollmentChallengeResponse) :
    Fleet :=
  { s with
    sessions := s.sessions.set i { attempt, phase := .proved challenge }
    answers := s.answers ++ [{ attempt, challenge }]
    signed := s.signed ++ [(attempt.keys.publicKey,
      enrollmentTranscript ENROLLMENT_COMPLETION_LABEL (attempt.fields challenge))]
    proved := s.proved ++ [(platform.grantSecretDigest attempt.secret,
      enrollmentTranscript ENROLLMENT_GRANT_LABEL (attempt.fields challenge))] }

def answered (s : Fleet) (i : Nat) (challenge : NodeEnrollmentChallengeResponse) : Fleet :=
  match s.sessions[i]? with
  | some { attempt, phase := .waiting } =>
      match attempt.answer platform challenge with
      | .ok _ => s.sent platform i attempt challenge
      | .error _ => { s with sessions := s.sessions.set i { attempt, phase := .failed } }
  | _ => s

def received (s : Fleet) (i : Nat) (receipt : NodeEnrollmentReceipt) : Fleet :=
  match s.sessions[i]? with
  | some { attempt, phase := .proved challenge } =>
      match attempt.receive platform challenge receipt with
      | .ok credentials =>
          { s with
            sessions := s.sessions.set i { attempt, phase := .enrolled challenge credentials } }
      | .error _ => { s with sessions := s.sessions.set i { attempt, phase := .failed } }
  | _ => s

/-- A machine that starts to enroll, where it can. -/
def started (s : Fleet) (keys : IdentityKeyPair) (nodeNonce : Text)
    (input : EnrollWithGrantInput) : Fleet :=
  match Attempt.start platform keys nodeNonce input with
  | .ok (attempt, _) => { s with sessions := s.sessions ++ [{ attempt, phase := .waiting }] }
  | .error _ => s

/-- A machine that gives up. -/
def failed (s : Fleet) (i : Nat) : Fleet :=
  match s.sessions[i]? with
  | some session => { s with sessions := s.sessions.set i { session with phase := .failed } }
  | none => s

end Fleet

def step (platform : EnrollmentPlatform) (identity : HostIdentity) (s : Fleet) : Op → Fleet
  | .create drawn createdByAdminId clock =>
      { s with
        host := (s.host.create platform drawn createdByAdminId clock).1
        created := s.created ++ [drawn.id] }
  | .deleteGrants => { s with host := { s.host with grants := .empty } }
  | .restart => { s with host := { s.host with pending := .empty } }
  | .nodes nodes => { s with host := { s.host with nodes } }
  | .disclose tokenHash => { s with disclosed := s.disclosed ++ [tokenHash] }
  | .challenge drawn clock input =>
      s.challenged identity drawn clock (s.host.challenge platform identity drawn clock input)
  | .complete drawnId clock input =>
      s.completed identity clock input (s.host.complete platform identity drawnId clock input)
  | .start keys nodeNonce input => s.started platform keys nodeNonce input
  | .answer i challenge => s.answered platform i challenge
  | .receive i receipt => s.received platform i receipt
  | .fail i => s.failed i
  | .sign key t => { s with signed := s.signed ++ [(key, t.bytes platform.toNodeIdentity)] }

/-- What is drawn was never drawn before. -/
def Fresh (s : Fleet) : Op → Prop
  | .create drawn _ _ => drawn.id ∉ s.created
  | .challenge drawn _ _ =>
      toUtf8 drawn.challengeId ∉ s.issued.map fun i => toUtf8 i.challenge.challengeId
  | _ => True

instance (s : Fleet) : DecidablePred (Fresh s) := fun op => by
  cases op <;> unfold Fresh <;> infer_instance

/-! ### What a call of the Host does to the history -/

section

variable (platform : EnrollmentPlatform) (identity : HostIdentity)

theorem step_challenge (s : Fleet) (drawn : ChallengeDraw) (clock : ChallengeClock)
    (input : NodeEnrollmentChallenge) :
    (∃ audit, step platform identity s (.challenge drawn clock input) =
      { s with host := { s.host.sweep clock.sweep with audit } }) ∨
    ∃ grant, s.host.live input.grantId clock.live = some grant ∧
      step platform identity s (.challenge drawn clock input) =
        { s with
          host := { s.host.sweep clock.sweep with
            pending := (s.host.sweep clock.sweep).pending.set drawn.challengeId
              (Host.keptChallenge identity drawn clock input grant) }
          issued := s.issued ++ [{
            challenge := Host.keptChallenge identity drawn clock input grant, clock }]
          signed := s.signed ++ [(identity.publicKey,
            enrollmentTranscript ENROLLMENT_CHALLENGE_LABEL
              (Host.challengeFields identity drawn input))] } := by
  change (∃ audit, s.challenged identity drawn clock _ = _) ∨
    ∃ grant, _ ∧ s.challenged identity drawn clock _ = _
  rcases s.host.challenge_cases platform identity drawn clock input with
    ⟨failure, audit, hcalled⟩ | ⟨grant, response, hlive, hcalled⟩
  · rw [hcalled]
    exact .inl ⟨audit, rfl⟩
  · rw [hcalled]
    refine .inr ⟨grant, hlive, ?_⟩
    unfold Fleet.challenged
    simp only [Table.get_set_self]
    rfl

theorem Host.Proves.evidence {platform : EnrollmentPlatform} {s : Fleet} {clock : CompleteClock}
    {input : EnrollNode} {challenge : PendingChallenge} {grant : EnrollmentGrantRow}
    (h : s.host.Proves platform clock input challenge grant) :
    s.evidence clock input = some (challenge, grant) := by
  have hlive : (s.host.taken clock input).live challenge.grantId clock.live = some grant := h.live
  unfold Fleet.evidence
  rw [h.named, Option.bind_some, hlive, Option.map_some]

/-- A completion adds one enrollment, of a machine that proved itself under a grant
    that was still one when it was spent, or none. -/
theorem step_complete (s : Fleet) (drawnId : Text) (clock : CompleteClock) (input : EnrollNode) :
    (∃ nodes audit, step platform identity s (.complete drawnId clock input) =
      { s with host := { s.host.taken clock input with nodes, audit } }) ∨
    ∃ challenge grant, s.host.Proves platform clock input challenge grant ∧
      clock.consume < grant.expiresAt ∧
      let nodeId := Host.nodeId s.host.nodes drawnId input.registration.name
      step platform identity s (.complete drawnId clock input) =
        { s with
          host := s.host.enrolled drawnId clock input challenge grant
          enrollments := s.enrollments ++ [{
            challenge, grant, clock, input
            node := { id := nodeId, name := input.registration.name }
            row := some (Host.nodeRow s.host.nodes drawnId input.registration
              challenge.nodePublicKey) }]
          signed := s.signed ++ [(identity.publicKey,
            enrollmentReceiptTranscript challenge.toEnrollmentTranscriptInput nodeId)] } := by
  change (∃ nodes audit, s.completed identity clock input _ = _) ∨
    ∃ challenge grant, _ ∧ _ ∧ s.completed identity clock input _ = _
  by_cases hproves : ∃ challenge grant, s.host.Proves platform clock input challenge grant
  · rcases hproves with ⟨challenge, grant, hproves⟩
    rw [Host.complete_proves platform identity hproves]
    by_cases hlapsed : grant.expiresAt ≤ clock.consume
    · rw [if_pos hlapsed]
      exact .inl ⟨_, s.host.audit, rfl⟩
    · rw [if_neg hlapsed]
      refine .inr ⟨challenge, grant, hproves, Int.not_le.mp hlapsed, ?_⟩
      have hrow : (s.host.enrolled drawnId clock input challenge grant).nodes.get
          input.registration.name = some (Host.nodeRow s.host.nodes drawnId input.registration
            challenge.nodePublicKey) :=
        Table.get_set_self _ _ _
      unfold Fleet.completed
      simp only [hproves.evidence, hrow]
  · rcases Host.complete_unproved platform identity hproves with ⟨failure, audit, hcalled⟩
    rw [hcalled]
    exact .inl ⟨s.host.nodes, audit, rfl⟩

end

/-! ### One machine for a grant and for a challenge -/

/-- What a Host was shown before it enrolled a machine, and the row that it left. -/
structure Enrollment.Proven (platform : EnrollmentPlatform) (e : Enrollment) : Prop where
  pending : e.clock.sweep < e.challenge.expiresAt
  named : e.input.challengeId = e.challenge.challengeId
  registration : platform.registrationHash e.input.registration = e.challenge.registrationHash
  signed : platform.verifyIdentitySignature e.challenge.nodePublicKey
    (enrollmentTranscript ENROLLMENT_COMPLETION_LABEL e.challenge.toEnrollmentTranscriptInput)
    e.input.nodeSignature = true
  proved : sameProof (platform.grantProof e.grant.tokenHash
    (enrollmentTranscript ENROLLMENT_GRANT_LABEL e.challenge.toEnrollmentTranscriptInput))
    e.input.grantProof = true
  grant : e.grant.id = e.challenge.grantId
  open_ : e.grant.consumedAt = none
  live : e.clock.live < e.grant.expiresAt
  spent : e.clock.consume < e.grant.expiresAt
  row : e.row = some {
    id := e.node.id
    secretHash := []
    publicKey := e.challenge.nodePublicKey
    details := e.input.registration.details }

/-- The history and the tables of the Host keep up with each other. -/
structure Kept (platform : EnrollmentPlatform) (s : Fleet) : Prop where
  grant : ∀ id row, s.host.grants.get id = some row → row.id = id ∧ id ∈ s.created
  pending : ∀ id challenge, s.host.pending.get id = some challenge →
    challenge.challengeId = id ∧ ∃ i ∈ s.issued, i.challenge = challenge
  issued : ∀ i ∈ s.issued,
    i.challenge.expiresAt = i.clock.issued + ENROLLMENT_CHALLENGE_TTL_MS
  drawn : (s.issued.map fun i => toUtf8 i.challenge.challengeId).Nodup
  completed : ∀ e ∈ s.enrollments, e.Proven platform ∧ (∃ i ∈ s.issued, i.challenge = e.challenge) ∧
    s.host.pending.get e.challenge.challengeId = none
  challenges : (s.enrollments.map fun e => toUtf8 e.challenge.challengeId).Nodup
  spent : ∀ e ∈ s.enrollments, e.grant.id ∈ s.created ∧
    ∀ row, s.host.grants.get e.grant.id = some row → row.consumedAt ≠ none
  grants : (s.enrollments.map fun e => e.grant.id).Nodup

namespace Kept

variable {platform : EnrollmentPlatform} {s : Fleet}

theorem empty (platform : EnrollmentPlatform) : Kept platform .empty where
  grant := by
    intro id row h
    cases h
  pending := by
    intro id challenge h
    cases h
  issued _ h := absurd h List.not_mem_nil
  drawn := List.nodup_nil
  completed _ h := absurd h List.not_mem_nil
  challenges := List.nodup_nil
  spent _ h := absurd h List.not_mem_nil
  grants := List.nodup_nil

/-- A step that draws nothing and enrols nobody, and leaves no table with more. -/
theorem less {t : Fleet} (h : Kept platform s) (hcreated : t.created = s.created)
    (hissued : t.issued = s.issued) (henrollments : t.enrollments = s.enrollments)
    (hgrants : ∀ id row, t.host.grants.get id = some row → s.host.grants.get id = some row)
    (hpending : ∀ id challenge, t.host.pending.get id = some challenge →
      s.host.pending.get id = some challenge) : Kept platform t where
  grant id row hrow := by
    rw [hcreated]
    exact h.grant id row (hgrants id row hrow)
  pending id challenge hchallenge := by
    rw [hissued]
    exact h.pending id challenge (hpending id challenge hchallenge)
  issued := by
    rw [hissued]
    exact h.issued
  drawn := by
    rw [hissued]
    exact h.drawn
  completed e he := by
    rw [henrollments] at he
    rw [hissued]
    rcases h.completed e he with ⟨hproven, hissue, hnone⟩
    refine ⟨hproven, hissue, ?_⟩
    rw [Option.eq_none_iff_forall_ne_some]
    intro challenge hchallenge
    rw [hpending _ _ hchallenge] at hnone
    cases hnone
  challenges := by
    rw [henrollments]
    exact h.challenges
  spent e he := by
    rw [henrollments] at he
    rw [hcreated]
    exact ⟨(h.spent e he).1, fun row hrow => (h.spent e he).2 row (hgrants _ row hrow)⟩
  grants := by
    rw [henrollments]
    exact h.grants

theorem sweep_get {host : Host} {now : Int} {id : Text} {challenge : PendingChallenge} :
    (host.sweep now).pending.get id = some challenge ↔
      host.pending.get id = some challenge ∧ now < challenge.expiresAt := by
  unfold Host.sweep
  rw [Table.get_keep, Option.filter_eq_some_iff, Bool.not_eq_true', decide_eq_false_iff_not,
    Int.not_le]

theorem taken_get {host : Host} {clock : CompleteClock} {input : EnrollNode} {id : Text}
    {challenge : PendingChallenge} :
    (host.taken clock input).pending.get id = some challenge ↔
      id ≠ input.challengeId ∧ host.pending.get id = some challenge ∧
        clock.sweep < challenge.expiresAt := by
  unfold Host.taken
  rw [Table.get_erase]
  by_cases hid : id = input.challengeId
  · rw [if_pos hid]
    constructor
    · intro h
      cases h
    · exact fun h => absurd hid h.1
  · rw [if_neg hid, sweep_get]
    exact ⟨fun h => ⟨hid, h⟩, fun h => h.2⟩

/-- A new grant has an id that none had. -/
theorem created (h : Kept platform s) (drawn : GrantDraw) (createdByAdminId : Text)
    (clock : CreateClock) (hfresh : drawn.id ∉ s.created) :
    Kept platform { s with
      host := (s.host.create platform drawn createdByAdminId clock).1
      created := s.created ++ [drawn.id] } where
  grant id row hrow := by
    change (s.host.grants.set drawn.id _).get id = some row at hrow
    rcases Table.get_set_some hrow with ⟨rfl, rfl⟩ | ⟨_, hrow⟩
    · exact ⟨rfl, List.mem_append_right _ List.mem_cons_self⟩
    · exact ⟨(h.grant id row hrow).1, List.mem_append_left _ (h.grant id row hrow).2⟩
  pending := h.pending
  issued := h.issued
  drawn := h.drawn
  completed := h.completed
  challenges := h.challenges
  spent e he := by
    refine ⟨List.mem_append_left _ (h.spent e he).1, fun row hrow => ?_⟩
    change (s.host.grants.set drawn.id _).get e.grant.id = some row at hrow
    have hne : e.grant.id ≠ drawn.id := fun heq => hfresh (heq ▸ (h.spent e he).1)
    rw [Table.get_set_ne _ _ hne] at hrow
    exact (h.spent e he).2 row hrow
  grants := h.grants

/-- A new challenge has an id that none had. -/
theorem challenged (h : Kept platform s) (drawn : ChallengeDraw) (clock : ChallengeClock)
    {challenge : PendingChallenge} (signed : List (Text × Bytes))
    (hid : challenge.challengeId = drawn.challengeId)
    (hexpires : challenge.expiresAt = clock.issued + ENROLLMENT_CHALLENGE_TTL_MS)
    (hfresh : toUtf8 drawn.challengeId ∉ s.issued.map fun i => toUtf8 i.challenge.challengeId) :
    Kept platform { s with
      host := { s.host.sweep clock.sweep with
        pending := (s.host.sweep clock.sweep).pending.set drawn.challengeId challenge }
      issued := s.issued ++ [{ challenge, clock }]
      signed } where
  grant := h.grant
  pending id other hother := by
    rcases Table.get_set_some hother with ⟨rfl, rfl⟩ | ⟨_, hother⟩
    · exact ⟨hid, _, List.mem_append_right _ List.mem_cons_self, rfl⟩
    · rcases h.pending id other (sweep_get.mp hother).1 with ⟨hother, i, hi, hchallenge⟩
      exact ⟨hother, i, List.mem_append_left _ hi, hchallenge⟩
  issued := Run.forall_snoc h.issued hexpires
  drawn := Run.nodup_snoc h.drawn (by rw [hid]; exact hfresh)
  completed e he := by
    rcases h.completed e he with ⟨hproven, ⟨i, hi, hchallenge⟩, hnone⟩
    refine ⟨hproven, ⟨i, List.mem_append_left _ hi, hchallenge⟩, ?_⟩
    have hne : e.challenge.challengeId ≠ drawn.challengeId := by
      intro heq
      refine hfresh ?_
      rw [← heq, ← hchallenge]
      exact List.mem_map_of_mem hi
    rw [Table.get_set_ne _ _ hne, Option.eq_none_iff_forall_ne_some]
    intro other hother
    rw [(sweep_get.mp hother).1] at hnone
    cases hnone
  challenges := h.challenges
  spent := h.spent
  grants := h.grants

/-- A challenge that is pending was issued once, and no machine was enrolled on it. -/
theorem unanswered (h : Kept platform s) {id : Text} {challenge : PendingChallenge}
    (hpending : s.host.pending.get id = some challenge) :
    toUtf8 challenge.challengeId ∉ s.enrollments.map fun e => toUtf8 e.challenge.challengeId := by
  intro hmem
  rcases List.mem_map.mp hmem with ⟨e, he, hsame⟩
  rcases h.completed e he with ⟨_, ⟨i, hi, hissued⟩, hnone⟩
  rcases h.pending id challenge hpending with ⟨hid, j, hj, hchallenge⟩
  have heq : i = j := by
    refine List.inj_on_of_nodup_map h.drawn hi hj ?_
    rw [hissued, hchallenge]
    exact hsame
  rw [← hissued, heq, hchallenge, hid, hpending] at hnone
  cases hnone

/-- A grant that is open was spent on no machine. -/
theorem unspent (h : Kept platform s) {id : Text} {grant : EnrollmentGrantRow}
    (hgrant : s.host.grants.get id = some grant) (hopen : grant.consumedAt = none) :
    grant.id ∉ s.enrollments.map fun e => e.grant.id := by
  intro hmem
  rcases List.mem_map.mp hmem with ⟨e, he, hsame⟩
  rw [(h.grant id grant hgrant).1] at hsame
  exact (h.spent e he).2 grant (by rw [hsame]; exact hgrant) hopen

/-- What a completion is enrolled on was proven. -/
theorem proven (h : Kept platform s) {drawnId : Text} {clock : CompleteClock} {input : EnrollNode}
    {challenge : PendingChallenge} {grant : EnrollmentGrantRow}
    (hproves : s.host.Proves platform clock input challenge grant)
    (hspent : clock.consume < grant.expiresAt) :
    Enrollment.Proven platform {
      challenge, grant, clock, input
      node := {
        id := Host.nodeId s.host.nodes drawnId input.registration.name
        name := input.registration.name }
      row := some (Host.nodeRow s.host.nodes drawnId input.registration
        challenge.nodePublicKey) } := by
  rcases sweep_get.mp hproves.named with ⟨hpending, hsweep⟩
  rcases Host.live_eq_some.mp hproves.live with ⟨hgrant, hopen, hlive⟩
  exact {
    pending := hsweep
    named := (h.pending _ _ hpending).1.symm
    registration := hproves.registration
    signed := hproves.signed
    proved := hproves.proved
    grant := (h.grant _ _ hgrant).1
    open_ := hopen
    live := hlive
    spent := hspent
    row := rfl }

/-- A machine is enrolled on a challenge and under a grant that none was enrolled with. -/
theorem enrolled (h : Kept platform s) {drawnId : Text} {clock : CompleteClock}
    {input : EnrollNode} {e : Enrollment} (signed : List (Text × Bytes))
    (hproves : s.host.Proves platform clock input e.challenge e.grant)
    (hproven : e.Proven platform) :
    Kept platform { s with
      host := s.host.enrolled drawnId clock input e.challenge e.grant
      enrollments := s.enrollments ++ [e]
      signed } := by
  rcases sweep_get.mp hproves.named with ⟨hpending, _⟩
  rcases Host.live_eq_some.mp hproves.live with ⟨hgrant, hopen, _⟩
  rcases h.pending _ _ hpending with ⟨hid, i, hi, hissued⟩
  rcases h.grant _ _ hgrant with ⟨hgrantId, hcreated⟩
  have htaken : ∀ id challenge, (s.host.taken clock input).pending.get id = some challenge →
      id ≠ input.challengeId ∧ s.host.pending.get id = some challenge := fun id challenge hget =>
    ⟨(taken_get.mp hget).1, (taken_get.mp hget).2.1⟩
  -- One grant is spent, and every other row stands as it was.
  have hrows : ∀ id row, (s.host.enrolled drawnId clock input e.challenge e.grant).grants.get id =
      some row → (id = e.challenge.grantId ∧ row.id = id ∧ row.consumedAt ≠ none) ∨
        (id ≠ e.challenge.grantId ∧ s.host.grants.get id = some row) := by
    intro id row hrow
    change (s.host.grants.set e.challenge.grantId _).get id = some row at hrow
    rcases Table.get_set_some hrow with ⟨rfl, rfl⟩ | hold
    · exact .inl ⟨rfl, hgrantId, Option.some_ne_none _⟩
    · exact .inr hold
  exact {
    grant := by
      intro id row hrow
      rcases hrows id row hrow with ⟨heq, hrow, _⟩ | ⟨_, hrow⟩
      · exact ⟨hrow, heq ▸ hcreated⟩
      · exact h.grant id row hrow
    pending := fun id challenge hget => h.pending id challenge (htaken id challenge hget).2
    issued := h.issued
    drawn := h.drawn
    completed := by
      intro e' he'
      -- The challenge went when it was taken, so no enrollment can complete it again.
      have hgone : (s.host.taken clock input).pending.get e'.challenge.challengeId = none := by
        rw [Option.eq_none_iff_forall_ne_some]
        intro challenge hget
        rcases htaken _ _ hget with ⟨hne, hbefore⟩
        rcases List.mem_append.mp he' with he' | he'
        · rw [(h.completed e' he').2.2] at hbefore
          cases hbefore
        · rw [List.mem_singleton.mp he', hid] at hne
          exact hne rfl
      rcases List.mem_append.mp he' with he' | he'
      · exact ⟨(h.completed e' he').1, (h.completed e' he').2.1, hgone⟩
      · rw [List.mem_singleton.mp he'] at hgone ⊢
        exact ⟨hproven, ⟨i, hi, hissued⟩, hgone⟩
    challenges := Run.nodup_snoc h.challenges (h.unanswered hpending)
    spent := by
      intro e' he'
      have hmem : e'.grant.id ∈ s.created :=
        Run.forall_snoc (p := fun e => e.grant.id ∈ s.created) (fun e he => (h.spent e he).1)
          (by rw [hgrantId]; exact hcreated) e' he'
      refine ⟨hmem, fun row hrow => ?_⟩
      rcases hrows _ row hrow with ⟨_, _, hspent⟩ | ⟨hne, hrow⟩
      · exact hspent
      · rcases List.mem_append.mp he' with he' | he'
        · exact (h.spent e' he').2 row hrow
        · rw [List.mem_singleton.mp he', hgrantId] at hne
          exact absurd rfl hne
    grants := Run.nodup_snoc h.grants (h.unspent hgrant hopen) }

end Kept

/-- What a machine does leaves the Host and its history as they were. -/
structure SameHost (s t : Fleet) : Prop where
  host : t.host = s.host
  created : t.created = s.created
  issued : t.issued = s.issued
  enrollments : t.enrollments = s.enrollments

theorem SameHost.kept {platform : EnrollmentPlatform} {s t : Fleet} (h : SameHost s t)
    (hkept : Kept platform s) : Kept platform t := by
  refine hkept.less h.created h.issued h.enrollments ?_ ?_
  · rw [h.host]
    exact fun _ _ hrow => hrow
  · rw [h.host]
    exact fun _ _ hchallenge => hchallenge

section

variable (platform : EnrollmentPlatform) (identity : HostIdentity)

theorem answered_sameHost (s : Fleet) (i : Nat) (challenge : NodeEnrollmentChallengeResponse) :
    SameHost s (s.answered platform i challenge) := by
  unfold Fleet.answered
  split
  · split
    · exact ⟨rfl, rfl, rfl, rfl⟩
    · exact ⟨rfl, rfl, rfl, rfl⟩
  · exact ⟨rfl, rfl, rfl, rfl⟩

theorem received_sameHost (s : Fleet) (i : Nat) (receipt : NodeEnrollmentReceipt) :
    SameHost s (s.received platform i receipt) := by
  unfold Fleet.received
  split
  · split
    · exact ⟨rfl, rfl, rfl, rfl⟩
    · exact ⟨rfl, rfl, rfl, rfl⟩
  · exact ⟨rfl, rfl, rfl, rfl⟩

theorem start_sameHost (s : Fleet) (keys : IdentityKeyPair) (nodeNonce : Text)
    (input : EnrollWithGrantInput) :
    SameHost s (step platform identity s (.start keys nodeNonce input)) := by
  change SameHost s (s.started platform keys nodeNonce input)
  unfold Fleet.started
  split
  · exact ⟨rfl, rfl, rfl, rfl⟩
  · exact ⟨rfl, rfl, rfl, rfl⟩

theorem fail_sameHost (s : Fleet) (i : Nat) :
    SameHost s (step platform identity s (.fail i)) := by
  change SameHost s (s.failed i)
  unfold Fleet.failed
  split
  · exact ⟨rfl, rfl, rfl, rfl⟩
  · exact ⟨rfl, rfl, rfl, rfl⟩

theorem kept_step (s : Fleet) (op : Op) (h : Kept platform s) (hfresh : Fresh s op) :
    Kept platform (step platform identity s op) := by
  cases op with
  | create drawn createdByAdminId clock => exact h.created drawn createdByAdminId clock hfresh
  | deleteGrants =>
      refine h.less rfl rfl rfl (fun id row hrow => ?_) fun _ _ hchallenge => hchallenge
      cases hrow
  | restart =>
      refine h.less rfl rfl rfl (fun _ _ hrow => hrow) fun id challenge hchallenge => ?_
      cases hchallenge
  | nodes nodes => exact h.less rfl rfl rfl (fun _ _ hrow => hrow) fun _ _ hchallenge => hchallenge
  | disclose tokenHash =>
      exact h.less rfl rfl rfl (fun _ _ hrow => hrow) fun _ _ hchallenge => hchallenge
  | challenge drawn clock input =>
      rcases step_challenge platform identity s drawn clock input with
        ⟨audit, hstep⟩ | ⟨grant, _, hstep⟩
      · rw [hstep]
        exact h.less rfl rfl rfl (fun _ _ hrow => hrow) fun _ _ hchallenge =>
          (Kept.sweep_get.mp hchallenge).1
      · rw [hstep]
        exact h.challenged drawn clock _ rfl rfl hfresh
  | complete drawnId clock input =>
      rcases step_complete platform identity s drawnId clock input with
        ⟨nodes, audit, hstep⟩ | ⟨challenge, grant, hproves, hspent, hstep⟩
      · rw [hstep]
        exact h.less rfl rfl rfl (fun _ _ hrow => hrow) fun _ _ hchallenge =>
          (Kept.taken_get.mp hchallenge).2.1
      · rw [hstep]
        exact Kept.enrolled h _ hproves (h.proven hproves hspent)
  | start keys nodeNonce input => exact (start_sameHost platform identity s _ _ _).kept h
  | answer i challenge => exact (answered_sameHost platform s i challenge).kept h
  | receive i receipt => exact (received_sameHost platform s i receipt).kept h
  | fail i => exact (fail_sameHost platform identity s i).kept h
  | sign key t =>
      exact h.less rfl rfl rfl (fun _ _ hrow => hrow) fun _ _ hchallenge => hchallenge

theorem kept_of_run (ops : List Op)
    (hfresh : Run.Admits (step platform identity) Fresh .empty ops) :
    Kept platform (Run.final (step platform identity) .empty ops) :=
  Run.invariant_of_admits (step platform identity) Fresh (Kept platform)
    (kept_step platform identity) ops .empty (Kept.empty platform) hfresh

/-- Whoever asks, and however the calls come, a grant and a challenge enrol one machine each,
    and only one that proved itself in time for the challenge and under a grant that was open. -/
theorem enrollment_once (ops : List Op)
    (hfresh : Run.Admits (step platform identity) Fresh .empty ops) :
    let s := Run.final (step platform identity) .empty ops
    (s.enrollments.map fun e => e.grant.id).Nodup ∧
    (s.enrollments.map fun e => e.challenge.challengeId).Nodup ∧
    ∀ e ∈ s.enrollments, e.Proven platform ∧ ∃ i ∈ s.issued, i.challenge = e.challenge ∧
      e.clock.sweep < i.clock.issued + ENROLLMENT_CHALLENGE_TTL_MS := by
  intro s
  have h : Kept platform s := kept_of_run platform identity ops hfresh
  refine ⟨h.grants, ?_, fun e he => ?_⟩
  · refine List.Nodup.of_map toUtf8 ?_
    rw [List.map_map]
    exact h.challenges
  · rcases h.completed e he with ⟨hproven, ⟨i, hi, hissued⟩, _⟩
    refine ⟨hproven, i, hi, hissued, ?_⟩
    rw [← h.issued i hi, hissued]
    exact hproven.pending

end

namespace Sample

/-- Two texts that differ in their last bit encode the same. -/
def fromBase64 (text : Text) : Bytes := text.map fun u => u.toUInt8 / 2

/-- The private key of a public one has another unit behind it. -/
def privateKey (publicKey : Text) : Text := (fromBase64 publicKey).map (·.toUInt16) ++ [0]

/-- Whoever has a private key can sign. -/
def sign (privateKey : Text) (message : Bytes) : Text := privateKey ++ message.map (·.toUInt16)

def platform : EnrollmentPlatform where
  sha256Hex := id
  toUpperCase := id
  verifyIdentitySignature key message signature := signature = sign (privateKey key) message
  signWithIdentity := sign
  fromBase64
  sha256Digest bytes := bytes.map (·.toUInt16)
  registrationHash registration := registration.name
  grantSecretDigest := id
  grantProof := sign
  parseUrl _ := some { protocol := ofString "https:", loopback := false }

def host : HostIdentity where
  hostId := ofString "host"
  publicKey := ofString "H"
  fingerprint := platform.identityFingerprint (ofString "H")
  privateKey := privateKey (ofString "H")

def input : EnrollWithGrantInput where
  hostUrl := ofString "https://fleet"
  hostId := ofString "host"
  hostFingerprint := host.fingerprint
  grant := ofString "g.s"
  registration := { name := ofString "builder", details := [] }

def keys : IdentityKeyPair where
  privateKey := privateKey (ofString "N")
  publicKey := ofString "N"

/-- The machine, once it has read its grant. -/
def attempt : Attempt where
  input
  grantId := ofString "g"
  secret := ofString "s"
  keys
  nodeNonce := ofString "n"
  hash := ofString "builder"

/-- The challenge as it comes to the machine, with a text of the Host's key. -/
def challenge (hostPublicKey : Text) : NodeEnrollmentChallengeResponse where
  challengeId := ofString "c"
  hostId := ofString "host"
  hostPublicKey
  hostFingerprint := host.fingerprint
  hostNonce := ofString "h"
  expiresAt := 300000
  signature := sign host.privateKey
    (enrollmentTranscript ENROLLMENT_CHALLENGE_LABEL (attempt.fields {
      challengeId := ofString "c"
      hostId := ofString "host"
      hostPublicKey := []
      hostFingerprint := []
      hostNonce := ofString "h"
      expiresAt := 0
      signature := [] }))

/-- A grant, a challenge, the proofs, and the receipt. -/
def exchange (hostPublicKey : Text) : List Op :=
  [.create { id := ofString "g", secret := ofString "s" } (ofString "admin")
      { expiry := 0, created := 0 },
    .start keys (ofString "n") input,
    .challenge { challengeId := ofString "c", hostNonce := ofString "h" }
      { sweep := 0, live := 0, issued := 0 }
      { grantId := ofString "g"
        nodeNonce := ofString "n"
        nodePublicKey := ofString "N"
        registrationHash := ofString "builder"
        dialedHostUrl := ofString "https://fleet" },
    .answer 0 (challenge hostPublicKey),
    .complete (ofString "node") { sweep := 1, live := 1, consume := 1, stamp := 1 }
      (attempt.proofs platform (challenge hostPublicKey)),
    .receive 0 {
      nodeId := ofString "node"
      challengeId := ofString "c"
      hostId := ofString "host"
      hostPublicKey
      hostFingerprint := host.fingerprint
      signature := sign host.privateKey
        (enrollmentReceiptTranscript (attempt.fields (challenge hostPublicKey))
          (ofString "node")) }]

end Sample

/-- That exchange enrols one machine, which was in time. -/
theorem enrollment_once_exchange :
    let s := Run.final (step Sample.platform Sample.host) .empty
      (Sample.exchange Sample.host.publicKey)
    s.enrollments.length = 1 ∧ ∀ e ∈ s.enrollments, ∃ i ∈ s.issued, i.challenge = e.challenge ∧
      e.clock.sweep < i.clock.issued + ENROLLMENT_CHALLENGE_TTL_MS := by
  have hfresh : Run.Admits (step Sample.platform Sample.host) Fresh .empty
      (Sample.exchange Sample.host.publicKey) := by
    decide +kernel
  refine ⟨by decide +kernel, fun e he => ?_⟩
  exact ((enrollment_once Sample.platform Sample.host (Sample.exchange Sample.host.publicKey)
    hfresh).2.2 e he).2

end NodeEnrollment

end CopilotFleet
