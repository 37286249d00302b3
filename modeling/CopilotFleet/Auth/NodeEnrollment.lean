import CopilotFleet.Auth.Transcripts
import CopilotFleet.Lib.Table

/-!
# Enrolling a Machine

How a new machine joins the fleet. The Host prints a grant, an id and a secret,
and keeps the digest of the secret. The machine asks for a challenge with the
id alone, checks what comes back against the fingerprint the operator gave it,
and only then proves that it holds its private key and the grant's secret, both
over the challenge it was given. The Host answers with a receipt over the same
challenge and the id the machine now answers to.

Either side is a function of what it keeps and of what arrives. What arrives is
whatever the network delivers, so nothing here says who sent it. A call of the
Host reads its clock several times, and each reading is an input of its own.

The row of the machine is written before its grant is spent. A grant that runs
out between those two readings of the clock leaves the row behind a refusal,
which `complete_refused` separates from every other refusal.

## Main definitions

* `EnrollmentPlatform`: What both sides ask of the platform.
* `Host`: Grants, challenges not yet answered, and the nodes.
* `Host.create`, `Host.challenge`, `Host.complete`: The calls of the Host.
* `parseEnrollmentGrant`: A printed grant taken apart.
* `Attempt.start`, `Attempt.answer`, `Attempt.receive`: The three parts of
  `enrollWithGrant`, between what it waits for.
* `Host.Proves`: What a completion shows before a row is written.

## Theorems

* `Host.complete_proves`, `Host.complete_unproved`: What a completion does, by what it shows.
* `complete_refused`: What a refusal leaves behind.
-/

namespace CopilotFleet

namespace NodeEnrollment

open Utf16 NodeAuth

/-! ### What both sides ask of the platform -/

/-- What a machine says about itself: the name its row goes by, and the rest. -/
structure NodeRegistrationPayload where
  name : Text
  details : Text
  deriving DecidableEq

/-- An address as the runtime reads it. -/
structure ParsedUrl where
  protocol : Text
  loopback : Bool

/-- Signatures, digests and addresses. -/
structure EnrollmentPlatform extends NodeIdentity where
  signWithIdentity : Text → Bytes → Text
  /-- The bytes that a text encodes, which several texts may. -/
  fromBase64 : Text → Bytes
  /-- The digest of some bytes, in hexadecimal. -/
  sha256Digest : Bytes → Text
  registrationHash : NodeRegistrationPayload → Text
  grantSecretDigest : Text → Text
  grantProof : Text → Bytes → Text
  parseUrl : Text → Option ParsedUrl

/-- The short name a human compares. It is of the encoded key, not of its text. -/
def EnrollmentPlatform.identityFingerprint (platform : EnrollmentPlatform) (publicKey : Text) :
    Text :=
  platform.sha256Digest (platform.fromBase64 publicKey)

/-- Two texts are compared as the bytes they are sent as. -/
def sameDigest (left right : Text) : Bool := toUtf8 left = toUtf8 right

def sameProof (expected presented : Text) : Bool := toUtf8 expected = toUtf8 presented

/-- The keys of a Host, and the id it goes by. -/
structure HostIdentity where
  hostId : Text
  publicKey : Text
  fingerprint : Text
  privateKey : Text

/-! ### Grants -/

def ENROLLMENT_GRANT_TTL_MS : Int := 15 * 60 * 1000

/-- A grant as it is stored: the digest of its secret, and whether it was spent. -/
structure EnrollmentGrantRow where
  id : Text
  tokenHash : Text
  createdByAdminId : Text
  createdAt : Int
  expiresAt : Int
  consumedAt : Option Int
  consumedByNodeId : Text

def formatEnrollmentGrant (id secret : Text) : Text := id ++ ofString "." ++ secret

/-- The text before the first full stop and the text behind it, neither of them empty. -/
def parseEnrollmentGrant (value : Text) : Option (Text × Text) :=
  let id := value.takeWhile (· ≠ 46)
  let secret := (value.dropWhile (· ≠ 46)).drop 1
  if id ≠ [] ∧ secret ≠ [] then some (id, secret) else none

/-- What is drawn for a grant. -/
structure GrantDraw where
  id : Text
  secret : Text

/-- What the Connect card prints, once. -/
structure IssuedGrant where
  id : Text
  grant : Text
  expiresAt : Int

/-! ### The Host -/

def ENROLLMENT_CHALLENGE_TTL_MS : Int := 5 * 60 * 1000

def MAX_PENDING_CHALLENGES : Nat := 100

def REFUSED : String := "That enrollment could not be authorised."

/-- A challenge that was not answered yet. -/
structure PendingChallenge extends EnrollmentTranscriptInput where
  grantId : Text
  expiresAt : Int

/-- A node's row. Its name is its key. -/
structure NodeRow where
  id : Text
  secretHash : Text
  publicKey : Text
  details : Text
  deriving DecidableEq

structure SecurityAuditInput where
  eventType : String
  outcome : String
  detail : String
  targetId : Text

structure Host where
  grants : Table Text EnrollmentGrantRow
  pending : Table Text PendingChallenge
  nodes : Table Text NodeRow
  audit : List SecurityAuditInput

structure NodeEnrollmentChallenge where
  grantId : Text
  nodeNonce : Text
  nodePublicKey : Text
  registrationHash : Text
  dialedHostUrl : Text

structure NodeEnrollmentChallengeResponse where
  challengeId : Text
  hostId : Text
  hostPublicKey : Text
  hostFingerprint : Text
  hostNonce : Text
  expiresAt : Int
  signature : Text

structure EnrollNode where
  challengeId : Text
  registration : NodeRegistrationPayload
  nodeSignature : Text
  grantProof : Text

structure NodeEnrollmentReceipt where
  nodeId : Text
  challengeId : Text
  hostId : Text
  hostPublicKey : Text
  hostFingerprint : Text
  signature : Text

structure FleetNode where
  id : Text
  name : Text

/-- How a call of the Host ends without what was asked: with a status, or thrown. -/
inductive Failure where
  | refused (status : Nat) (error : String)
  | thrown (message : String)

/-- What is drawn for a challenge. -/
structure ChallengeDraw where
  challengeId : Text
  hostNonce : Text

/-- The clock as one `create` reads it. -/
structure CreateClock where
  expiry : Int
  created : Int

/-- The clock as one `challenge` reads it. -/
structure ChallengeClock where
  sweep : Int
  live : Int
  issued : Int

/-- The clock as one `complete` reads it. -/
structure CompleteClock where
  sweep : Int
  live : Int
  consume : Int
  stamp : Int

namespace Host

variable (platform : EnrollmentPlatform) (identity : HostIdentity)

def audited (host : Host) (entry : SecurityAuditInput) : Host :=
  { host with audit := host.audit ++ [entry] }

def create (drawn : GrantDraw) (createdByAdminId : Text) (clock : CreateClock) (host : Host) :
    Host × IssuedGrant :=
  let expiresAt := clock.expiry + ENROLLMENT_GRANT_TTL_MS
  ({ host with
      grants := host.grants.set drawn.id {
        id := drawn.id
        tokenHash := platform.grantSecretDigest drawn.secret
        createdByAdminId
        createdAt := clock.created
        expiresAt
        consumedAt := none
        consumedByNodeId := [] } },
    { id := drawn.id, grant := formatEnrollmentGrant drawn.id drawn.secret, expiresAt })

/-- Whether a row is still a grant at this reading of the clock. -/
def usable (now : Int) (row : EnrollmentGrantRow) : Bool :=
  row.consumedAt.isNone && !decide (row.expiresAt ≤ now)

def live (host : Host) (id : Text) (now : Int) : Option EnrollmentGrantRow :=
  (host.grants.get id).filter (usable now)

def consumeEnrollmentGrant (grants : Table Text EnrollmentGrantRow) (id nodeId : Text) (now : Int) :
    Table Text EnrollmentGrantRow × Bool :=
  match grants.get id with
  | some row =>
      if row.consumedAt.isNone then
        (grants.set id { row with consumedAt := some now, consumedByNodeId := nodeId }, true)
      else (grants, false)
  | none => (grants, false)

def consume (host : Host) (id nodeId : Text) (clock : CompleteClock) : Host × Bool :=
  if (host.live id clock.consume).isNone then (host, false)
  else
    let spent := consumeEnrollmentGrant host.grants id nodeId clock.stamp
    ({ host with grants := spent.1 }, spent.2)

def sweep (host : Host) (now : Int) : Host :=
  { host with pending := host.pending.keep fun _ challenge => !decide (challenge.expiresAt ≤ now) }

/-- The fields of a challenge, of what was asked and what was drawn. -/
def challengeFields (drawn : ChallengeDraw) (input : NodeEnrollmentChallenge) :
    EnrollmentTranscriptInput where
  challengeId := drawn.challengeId
  hostId := identity.hostId
  hostNonce := drawn.hostNonce
  nodeNonce := input.nodeNonce
  nodePublicKey := input.nodePublicKey
  registrationHash := input.registrationHash
  dialedHostUrl := input.dialedHostUrl

/-- The challenge as it is kept. -/
def keptChallenge (drawn : ChallengeDraw) (clock : ChallengeClock) (input : NodeEnrollmentChallenge)
    (grant : EnrollmentGrantRow) : PendingChallenge :=
  { challengeFields identity drawn input with
    grantId := grant.id
    expiresAt := clock.issued + ENROLLMENT_CHALLENGE_TTL_MS }

/-- The challenge as it is kept, and as it is answered. -/
def issue (host : Host) (drawn : ChallengeDraw) (clock : ChallengeClock)
    (input : NodeEnrollmentChallenge) (grant : EnrollmentGrantRow) :
    Host × NodeEnrollmentChallengeResponse :=
  let fields := challengeFields identity drawn input
  let expiresAt := clock.issued + ENROLLMENT_CHALLENGE_TTL_MS
  ({ host with
      pending := host.pending.set drawn.challengeId
        (keptChallenge identity drawn clock input grant) },
    { challengeId := drawn.challengeId
      hostId := identity.hostId
      hostPublicKey := identity.publicKey
      hostFingerprint := identity.fingerprint
      hostNonce := drawn.hostNonce
      expiresAt
      signature := platform.signWithIdentity identity.privateKey
        (enrollmentTranscript ENROLLMENT_CHALLENGE_LABEL fields) })

def challenge (drawn : ChallengeDraw) (clock : ChallengeClock) (input : NodeEnrollmentChallenge)
    (host : Host) : Host × Except Failure NodeEnrollmentChallengeResponse :=
  let swept := host.sweep clock.sweep
  match swept.live input.grantId clock.live with
  | none =>
      (swept.audited {
          eventType := "enrollment_grant_rejected"
          outcome := "denied"
          detail := "no live grant for that id"
          targetId := [] },
        .error (.refused 401 REFUSED))
  | some grant =>
      if MAX_PENDING_CHALLENGES ≤ swept.pending.size then
        (swept, .error (.refused 503
          "This Host is already handling as many enrollments as it will hold."))
      else
        let issued := swept.issue platform identity drawn clock input grant
        (issued.1, .ok issued.2)

/-- The id a name goes by: its own, or the one drawn for it. -/
def nodeId (nodes : Table Text NodeRow) (drawnId name : Text) : Text :=
  ((nodes.get name).map NodeRow.id).getD drawnId

/-- The row a name gets with a key. -/
def nodeRow (nodes : Table Text NodeRow) (drawnId : Text) (registration : NodeRegistrationPayload)
    (publicKey : Text) : NodeRow where
  id := nodeId nodes drawnId registration.name
  secretHash := []
  publicKey
  details := registration.details

def registerNodeWithKey (nodes : Table Text NodeRow) (drawnId : Text)
    (registration : NodeRegistrationPayload) (publicKey : Text) :
    Except String (Table Text NodeRow × FleetNode) :=
  if publicKey = [] then .error "A key-based Node registration needs a public key."
  else
    .ok (nodes.set registration.name (nodeRow nodes drawnId registration publicKey),
      { id := nodeId nodes drawnId registration.name, name := registration.name })

/-- The last frame of an enrolment, over the challenge it answers. -/
def receipt (challenge : PendingChallenge) (nodeId : Text) : NodeEnrollmentReceipt where
  nodeId
  challengeId := challenge.challengeId
  hostId := identity.hostId
  hostPublicKey := identity.publicKey
  hostFingerprint := identity.fingerprint
  signature := platform.signWithIdentity identity.privateKey
    (enrollmentReceiptTranscript challenge.toEnrollmentTranscriptInput nodeId)

/-- What is done once everything is proved: the row, then the grant, then the receipt. -/
def enroll (drawnId : Text) (clock : CompleteClock) (input : EnrollNode)
    (challenge : PendingChallenge) (host : Host) :
    Host × Except Failure (FleetNode × NodeEnrollmentReceipt) :=
  match registerNodeWithKey host.nodes drawnId input.registration challenge.nodePublicKey with
  | .error message => (host, .error (.thrown message))
  | .ok (nodes, node) =>
      let spent := { host with nodes }.consume challenge.grantId node.id clock
      if !spent.2 then (spent.1, .error (.refused 401 REFUSED))
      else
        (spent.1.audited {
            eventType := "enrollment_grant_consumed"
            outcome := "allowed"
            detail := ""
            targetId := node.id },
          .ok (node, receipt platform identity challenge node.id))

/-- The checks of a completion against the challenge it names, and what follows them. -/
def answer (drawnId : Text) (clock : CompleteClock) (input : EnrollNode)
    (challenge : PendingChallenge) (host : Host) :
    Host × Except Failure (FleetNode × NodeEnrollmentReceipt) :=
  let fields := challenge.toEnrollmentTranscriptInput
  if platform.registrationHash input.registration ≠ challenge.registrationHash then
    (host, .error (.refused 400
      "The registration does not match the one this enrollment committed to."))
  else if !platform.verifyIdentitySignature challenge.nodePublicKey
      (enrollmentTranscript ENROLLMENT_COMPLETION_LABEL fields) input.nodeSignature then
    (host.audited {
        eventType := "enrollment_node_proof_failed"
        outcome := "denied"
        detail := "node signature did not verify"
        targetId := [] },
      .error (.refused 401 REFUSED))
  else
    match host.live challenge.grantId clock.live with
    | none => (host, .error (.refused 401 REFUSED))
    | some grant =>
        if !sameProof (platform.grantProof grant.tokenHash
            (enrollmentTranscript ENROLLMENT_GRANT_LABEL fields)) input.grantProof then
          (host.audited {
              eventType := "enrollment_grant_rejected"
              outcome := "denied"
              detail := "grant proof did not verify"
              targetId := [] },
            .error (.refused 401 REFUSED))
        else host.enroll platform identity drawnId clock input challenge

/-- The challenge a completion names, once those that ran out are gone. -/
def named (host : Host) (clock : CompleteClock) (input : EnrollNode) : Option PendingChallenge :=
  (host.sweep clock.sweep).pending.get input.challengeId

/-- The Host once the challenge is taken, which answers only once. -/
def taken (host : Host) (clock : CompleteClock) (input : EnrollNode) : Host :=
  { host.sweep clock.sweep with
    pending := (host.sweep clock.sweep).pending.erase input.challengeId }

def complete (drawnId : Text) (clock : CompleteClock) (input : EnrollNode) (host : Host) :
    Host × Except Failure (FleetNode × NodeEnrollmentReceipt) :=
  match host.named clock input with
  | none => (host.taken clock input, .error (.refused 401 REFUSED))
  | some challenge =>
      (host.taken clock input).answer platform identity drawnId clock input challenge

end Host

/-! ### The machine -/

structure EnrollWithGrantInput where
  hostUrl : Text
  hostId : Text
  hostFingerprint : Text
  grant : Text
  registration : NodeRegistrationPayload

/-- A key pair, as it is drawn. -/
structure IdentityKeyPair where
  privateKey : Text
  publicKey : Text

/-- The Host a machine will answer to from here on. -/
structure PinnedHost where
  hostId : Text
  publicKey : Text
  fingerprint : Text

structure KeyedCredentials where
  hostUrl : Text
  nodeId : Text
  name : Text
  privateKey : Text
  publicKey : Text
  host : PinnedHost

/-- Only over an address that nobody else reads. -/
def isConfidentialHostUrl (platform : EnrollmentPlatform) (url : Text) : Bool :=
  match platform.parseUrl url with
  | none => false
  | some parsed =>
      if parsed.protocol = ofString "https:" then true
      else if parsed.protocol ≠ ofString "http:" then false
      else parsed.loopback

/-- One call of `enrollWithGrant`, with what it drew and what it read off its grant. -/
structure Attempt where
  input : EnrollWithGrantInput
  grantId : Text
  secret : Text
  keys : IdentityKeyPair
  nodeNonce : Text
  hash : Text

def mismatch (received expected : Text) : Text :=
  ofString "That Host's fingerprint is " ++ received ++ ofString ", not the " ++ expected ++
    ofString " on the Connect command. Nothing was sent to it."

namespace Attempt

variable (platform : EnrollmentPlatform)

/-- Up to the question: what is asked holds nothing that could be used again. -/
def start (keys : IdentityKeyPair) (nodeNonce : Text) (input : EnrollWithGrantInput) :
    Except Text (Attempt × NodeEnrollmentChallenge) :=
  if !isConfidentialHostUrl platform input.hostUrl then
    .error (ofString "Refusing to enrol against " ++ input.hostUrl ++ ofString
      (": everything this Host sends afterwards would cross that address in clear text. Use an " ++
        "HTTPS address, or a loopback forward such as \x60devtunnel connect\x60."))
  else
    match parseEnrollmentGrant input.grant with
    | none => .error (ofString ("That enrollment grant is not in the \x60<id>.<secret>\x60 " ++
        "form the Connect command prints."))
    | some (grantId, secret) =>
        let hash := platform.registrationHash input.registration
        .ok ({ input, grantId, secret, keys, nodeNonce, hash },
          { grantId
            nodeNonce
            nodePublicKey := keys.publicKey
            registrationHash := hash
            dialedHostUrl := input.hostUrl })

/-- The fields a machine puts its own values in, and takes the others from the challenge. -/
def fields (attempt : Attempt) (challenge : NodeEnrollmentChallengeResponse) :
    EnrollmentTranscriptInput where
  challengeId := challenge.challengeId
  hostId := challenge.hostId
  hostNonce := challenge.hostNonce
  nodeNonce := attempt.nodeNonce
  nodePublicKey := attempt.keys.publicKey
  registrationHash := attempt.hash
  dialedHostUrl := attempt.input.hostUrl

/-- The two proofs, over the challenge that was checked. -/
def proofs (attempt : Attempt) (challenge : NodeEnrollmentChallengeResponse) : EnrollNode where
  challengeId := challenge.challengeId
  registration := attempt.input.registration
  nodeSignature := platform.signWithIdentity attempt.keys.privateKey
    (enrollmentTranscript ENROLLMENT_COMPLETION_LABEL (attempt.fields challenge))
  grantProof := platform.grantProof (platform.grantSecretDigest attempt.secret)
    (enrollmentTranscript ENROLLMENT_GRANT_LABEL (attempt.fields challenge))

/-- From the challenge to the proofs. -/
def answer (attempt : Attempt) (challenge : NodeEnrollmentChallengeResponse) :
    Except Text EnrollNode :=
  if !sameDigest challenge.hostFingerprint attempt.input.hostFingerprint ||
      !sameDigest (platform.identityFingerprint challenge.hostPublicKey)
        attempt.input.hostFingerprint then
    .error (mismatch challenge.hostFingerprint attempt.input.hostFingerprint)
  else if challenge.hostId ≠ attempt.input.hostId then
    .error (mismatch challenge.hostFingerprint attempt.input.hostFingerprint)
  else if !platform.verifyIdentitySignature challenge.hostPublicKey
      (enrollmentTranscript ENROLLMENT_CHALLENGE_LABEL (attempt.fields challenge))
      challenge.signature then
    .error (ofString
      "That Host's enrollment signature did not verify, so nothing was sent to it.")
  else .ok (attempt.proofs platform challenge)

/-- From the receipt to what is stored. -/
def receive (attempt : Attempt) (challenge : NodeEnrollmentChallengeResponse)
    (receipt : NodeEnrollmentReceipt) : Except Text KeyedCredentials :=
  if receipt.challengeId ≠ challenge.challengeId || receipt.hostId ≠ challenge.hostId ||
      !sameDigest receipt.hostPublicKey challenge.hostPublicKey ||
      !sameDigest receipt.hostFingerprint challenge.hostFingerprint then
    .error (ofString ("That enrollment receipt describes a different Host or a different " ++
      "enrollment, so nothing was stored."))
  else if !platform.verifyIdentitySignature challenge.hostPublicKey
      (enrollmentReceiptTranscript (attempt.fields challenge) receipt.nodeId)
      receipt.signature then
    .error (ofString ("That enrollment receipt was not signed by the Host that answered the " ++
      "challenge, so nothing was stored."))
  else
    .ok {
      hostUrl := attempt.input.hostUrl
      nodeId := receipt.nodeId
      name := attempt.input.registration.name
      privateKey := attempt.keys.privateKey
      publicKey := attempt.keys.publicKey
      host := {
        hostId := receipt.hostId
        publicKey := receipt.hostPublicKey
        fingerprint := receipt.hostFingerprint } }

/-- What a machine checked before it sent its proofs. -/
theorem answer_ok {attempt : Attempt} {challenge : NodeEnrollmentChallengeResponse}
    {sent : EnrollNode} (h : attempt.answer platform challenge = .ok sent) :
    sent = attempt.proofs platform challenge ∧
      toUtf8 (platform.identityFingerprint challenge.hostPublicKey) =
        toUtf8 attempt.input.hostFingerprint ∧
      challenge.hostId = attempt.input.hostId ∧
      platform.verifyIdentitySignature challenge.hostPublicKey
        (enrollmentTranscript ENROLLMENT_CHALLENGE_LABEL (attempt.fields challenge))
        challenge.signature = true := by
  unfold answer at h
  split at h
  · cases h
  · rename_i hprint
    split at h
    · cases h
    · rename_i hhost
      split at h
      · cases h
      · rename_i hverify
        simp only [sameDigest, Bool.or_eq_true, Bool.not_eq_true', decide_eq_false_iff_not,
          not_or, not_not] at hprint
        simp only [Bool.not_eq_true', Bool.not_eq_false] at hverify
        exact ⟨(Except.ok.inj h).symm, hprint.2, not_not.mp hhost, hverify⟩

/-- What a machine checked before it stored its credentials. -/
theorem receive_ok {attempt : Attempt} {challenge : NodeEnrollmentChallengeResponse}
    {receipt : NodeEnrollmentReceipt} {credentials : KeyedCredentials}
    (h : attempt.receive platform challenge receipt = .ok credentials) :
    credentials.nodeId = receipt.nodeId ∧ credentials.publicKey = attempt.keys.publicKey ∧
      credentials.host.hostId = challenge.hostId ∧
      toUtf8 credentials.host.publicKey = toUtf8 challenge.hostPublicKey ∧
      platform.verifyIdentitySignature challenge.hostPublicKey
        (enrollmentReceiptTranscript (attempt.fields challenge) receipt.nodeId)
        receipt.signature = true := by
  unfold receive at h
  split at h
  · cases h
  · rename_i hsame
    split at h
    · cases h
    · rename_i hverify
      simp only [sameDigest, Bool.or_eq_true, Bool.not_eq_true', decide_eq_false_iff_not,
        decide_eq_true_eq, not_or, not_not] at hsame
      simp only [Bool.not_eq_true', Bool.not_eq_false] at hverify
      have heq := Except.ok.inj h
      rw [← heq]
      exact ⟨rfl, rfl, hsame.1.1.2, hsame.1.2, hverify⟩

end Attempt

/-! ### What a completion does -/

namespace Host

variable (platform : EnrollmentPlatform) (identity : HostIdentity)

theorem live_eq_some {host : Host} {id : Text} {now : Int} {row : EnrollmentGrantRow} :
    host.live id now = some row ↔
      host.grants.get id = some row ∧ row.consumedAt = none ∧ now < row.expiresAt := by
  unfold live usable
  rw [Option.filter_eq_some_iff, Bool.and_eq_true, Option.isNone_iff_eq_none, Bool.not_eq_true',
    decide_eq_false_iff_not, Int.not_le]

/-- A challenge that is refused only sweeps; one that is issued is kept. -/
theorem challenge_cases (host : Host) (drawn : ChallengeDraw) (clock : ChallengeClock)
    (input : NodeEnrollmentChallenge) :
    (∃ failure audit, host.challenge platform identity drawn clock input =
      ({ host.sweep clock.sweep with audit }, .error failure)) ∨
    ∃ grant response, host.live input.grantId clock.live = some grant ∧
      host.challenge platform identity drawn clock input =
        ({ host.sweep clock.sweep with
            pending := (host.sweep clock.sweep).pending.set drawn.challengeId
              (keptChallenge identity drawn clock input grant) }, .ok response) := by
  cases hlive : (host.sweep clock.sweep).live input.grantId clock.live with
  | none =>
      simp only [challenge, hlive]
      exact .inl ⟨_, _, rfl⟩
  | some grant =>
      simp only [challenge, hlive]
      by_cases hfull : MAX_PENDING_CHALLENGES ≤ (host.sweep clock.sweep).pending.size
      · rw [if_pos hfull]
        exact .inl ⟨_, host.audit, rfl⟩
      · rw [if_neg hfull]
        exact .inr ⟨grant, _, hlive, rfl⟩

theorem consume_lapsed {host : Host} {id nodeId : Text} {clock : CompleteClock}
    {row : EnrollmentGrantRow} (hrow : host.grants.get id = some row)
    (hlapsed : row.expiresAt ≤ clock.consume) : host.consume id nodeId clock = (host, false) := by
  have hnone : host.live id clock.consume = none := by
    rw [Option.eq_none_iff_forall_ne_some]
    intro other hother
    rw [live_eq_some, hrow, Option.some.injEq] at hother
    rw [← hother.1] at hother
    omega
  unfold consume
  rw [hnone]
  rfl

theorem consume_live {host : Host} {id nodeId : Text} {clock : CompleteClock}
    {row : EnrollmentGrantRow} (hrow : host.grants.get id = some row)
    (hopen : row.consumedAt = none) (hlive : ¬row.expiresAt ≤ clock.consume) :
    host.consume id nodeId clock =
      ({ host with
          grants := host.grants.set id {
            row with consumedAt := some clock.stamp, consumedByNodeId := nodeId } }, true) := by
  have hsome : host.live id clock.consume = some row :=
    live_eq_some.mpr ⟨hrow, hopen, Int.not_le.mp hlive⟩
  unfold consume consumeEnrollmentGrant
  rw [hsome, hrow]
  simp only [Option.isNone_some, Bool.false_eq_true, if_false, hopen, Option.isNone_none, if_true]

/-- What a completion shows before anything is written: the challenge it names
    is still there, and it has its registration, its key and a grant. -/
structure Proves (host : Host) (clock : CompleteClock) (input : EnrollNode)
    (challenge : PendingChallenge) (grant : EnrollmentGrantRow) : Prop where
  named : host.named clock input = some challenge
  registration : platform.registrationHash input.registration = challenge.registrationHash
  signed : platform.verifyIdentitySignature challenge.nodePublicKey
    (enrollmentTranscript ENROLLMENT_COMPLETION_LABEL challenge.toEnrollmentTranscriptInput)
    input.nodeSignature = true
  live : host.live challenge.grantId clock.live = some grant
  proved : sameProof (platform.grantProof grant.tokenHash
    (enrollmentTranscript ENROLLMENT_GRANT_LABEL challenge.toEnrollmentTranscriptInput))
    input.grantProof = true
  keyed : challenge.nodePublicKey ≠ []

/-- The Host with the row of the machine, before its grant is spent. -/
def registered (host : Host) (drawnId : Text) (clock : CompleteClock) (input : EnrollNode)
    (challenge : PendingChallenge) : Host :=
  { host.taken clock input with
    nodes := host.nodes.set input.registration.name
      (nodeRow host.nodes drawnId input.registration challenge.nodePublicKey) }

/-- The Host once the grant is spent on that row. -/
def enrolled (host : Host) (drawnId : Text) (clock : CompleteClock) (input : EnrollNode)
    (challenge : PendingChallenge) (grant : EnrollmentGrantRow) : Host :=
  { host.registered drawnId clock input challenge with
    grants := host.grants.set challenge.grantId {
      grant with
      consumedAt := some clock.stamp
      consumedByNodeId := nodeId host.nodes drawnId input.registration.name }
    audit := host.audit ++ [{
      eventType := "enrollment_grant_consumed"
      outcome := "allowed"
      detail := ""
      targetId := nodeId host.nodes drawnId input.registration.name }] }

/-- Where everything is proved, only the grant can still run out. -/
theorem complete_proves {host : Host} {drawnId : Text} {clock : CompleteClock} {input : EnrollNode}
    {challenge : PendingChallenge} {grant : EnrollmentGrantRow}
    (h : Proves platform host clock input challenge grant) :
    host.complete platform identity drawnId clock input =
      if grant.expiresAt ≤ clock.consume then
        (host.registered drawnId clock input challenge, .error (.refused 401 REFUSED))
      else
        (host.enrolled drawnId clock input challenge grant,
          .ok ({ id := nodeId host.nodes drawnId input.registration.name,
                 name := input.registration.name },
            receipt platform identity challenge
              (nodeId host.nodes drawnId input.registration.name))) := by
  rcases live_eq_some.mp h.live with ⟨hrow, hopen, _⟩
  have hlive : (host.taken clock input).live challenge.grantId clock.live = some grant := h.live
  unfold complete answer
  rw [h.named]
  simp only
  rw [if_neg (not_not.mpr h.registration), h.signed, hlive]
  simp only [Bool.not_true, Bool.false_eq_true, if_false]
  rw [h.proved]
  simp only [Bool.not_true, Bool.false_eq_true, if_false]
  unfold enroll registerNodeWithKey
  rw [if_neg h.keyed]
  simp only
  by_cases hlapsed : grant.expiresAt ≤ clock.consume
  · rw [if_pos hlapsed, consume_lapsed (by exact hrow) hlapsed]
    rfl
  · rw [if_neg hlapsed, consume_live (by exact hrow) hopen hlapsed]
    rfl

/-- Where nothing is proved, nothing is written. -/
theorem complete_unproved {host : Host} {drawnId : Text} {clock : CompleteClock}
    {input : EnrollNode} (h : ¬∃ challenge grant, Proves platform host clock input challenge grant) :
    ∃ failure audit, host.complete platform identity drawnId clock input =
      ({ host.taken clock input with audit }, .error failure) := by
  unfold complete
  cases hnamed : host.named clock input with
  | none => exact ⟨_, host.audit, rfl⟩
  | some challenge =>
      simp only
      unfold answer
      by_cases hregistration :
          platform.registrationHash input.registration ≠ challenge.registrationHash
      · rw [if_pos hregistration]
        exact ⟨_, host.audit, rfl⟩
      rw [if_neg hregistration]
      by_cases hsigned : platform.verifyIdentitySignature challenge.nodePublicKey
          (enrollmentTranscript ENROLLMENT_COMPLETION_LABEL challenge.toEnrollmentTranscriptInput)
          input.nodeSignature = true
      -- A signature of another key is reported to the audit and refused.
      swap
      · rw [Bool.eq_false_of_not_eq_true hsigned]
        exact ⟨_, _, rfl⟩
      rw [hsigned]
      simp only [Bool.not_true, Bool.false_eq_true, if_false]
      cases hlive : (host.taken clock input).live challenge.grantId clock.live with
      | none => exact ⟨_, host.audit, rfl⟩
      | some grant =>
          simp only
          by_cases hproved : sameProof (platform.grantProof grant.tokenHash
              (enrollmentTranscript ENROLLMENT_GRANT_LABEL challenge.toEnrollmentTranscriptInput))
              input.grantProof = true
          swap
          · rw [Bool.eq_false_of_not_eq_true hproved]
            exact ⟨_, _, rfl⟩
          rw [hproved]
          simp only [Bool.not_true, Bool.false_eq_true, if_false]
          by_cases hkey : challenge.nodePublicKey = []
          · unfold enroll registerNodeWithKey
            rw [if_pos hkey]
            exact ⟨_, host.audit, rfl⟩
          · -- Past every check the completion is proved, against `h`.
            exact absurd ⟨challenge, grant, {
              named := hnamed
              registration := not_not.mp hregistration
              signed := hsigned
              live := hlive
              proved := hproved
              keyed := hkey }⟩ h

end Host

/-- A refusal spends no grant, and leaves the nodes as they were, except for the row
    of a machine that proved everything with a grant that then ran out. -/
theorem complete_refused (platform : EnrollmentPlatform) (identity : HostIdentity) (host : Host)
    (drawnId : Text) (clock : CompleteClock) (input : EnrollNode) :
    let called := host.complete platform identity drawnId clock input
    (∀ failure, called.2 = .error failure →
      called.1.grants = host.grants ∧
      called.1.pending = (host.sweep clock.sweep).pending.erase input.challengeId ∧
      (called.1.nodes = host.nodes ∨ ∃ challenge grant,
        host.Proves platform clock input challenge grant ∧
          clock.live < grant.expiresAt ∧ grant.expiresAt ≤ clock.consume)) ∧
    ∀ challenge grant, host.Proves platform clock input challenge grant →
      grant.expiresAt ≤ clock.consume →
        called.2 = .error (.refused 401 REFUSED) ∧
        called.1.grants = host.grants ∧
        called.1.nodes.get input.registration.name =
          some (Host.nodeRow host.nodes drawnId input.registration challenge.nodePublicKey) := by
  intro called
  constructor
  · intro failure hfailure
    by_cases hproves : ∃ challenge grant, host.Proves platform clock input challenge grant
    · rcases hproves with ⟨challenge, grant, hproves⟩
      have hcalled : called = _ := Host.complete_proves platform identity hproves
      rw [hcalled] at hfailure ⊢
      by_cases hlapsed : grant.expiresAt ≤ clock.consume
      · rw [if_pos hlapsed]
        exact ⟨rfl, rfl, .inr ⟨challenge, grant, hproves,
          (Host.live_eq_some.mp hproves.live).2.2, hlapsed⟩⟩
      · rw [if_neg hlapsed] at hfailure
        cases hfailure
    · rcases Host.complete_unproved platform identity hproves with ⟨_, _, hcalled⟩
      rw [show called = _ from hcalled]
      exact ⟨rfl, rfl, .inl rfl⟩
  · intro challenge grant hproves hlapsed
    have hcalled : called = _ := Host.complete_proves platform identity hproves
    rw [if_pos hlapsed] at hcalled
    rw [hcalled]
    exact ⟨rfl, rfl, Table.get_set_self _ _ _⟩

end NodeEnrollment

end CopilotFleet
