import CopilotFleet.Auth.EnrollmentRuns

/-!
# What a Host and a Machine Agree on

Keys and proofs are taken to be ideal, which is said of each step (`Ideal`):
what verifies under a key that only one party holds, that party signed before,
and what is proved with a secret nobody else knows, its holder proved. The
texts that go into a transcript are otherwise any, so the two sides agree on
them as the bytes they are sent as (`Same`).

Every entry of what was signed has one origin (`Origin`), and the number of the
fields and the label tell which. That is what a challenge, a proof and a
receipt are read back with, whatever else the same keys sign.

A machine proves itself only to a challenge its Host issued for exactly its own
values. A Host enrols under a secret nobody else knows, or with the key of a
machine, only what that machine proved itself for. And a machine that stores
its credentials has been enrolled, once, under the id it stores.

## Main definitions

* `Same`: Two challenges with the same values.
* `Ideal`: What is asked of the keys at each step.
* `Origin`: Who signs what.
* `Agreed`: What the two sides have in common throughout.

## Theorems

* `signed_challenge`, `signed_completion`, `signed_receipt`: What was signed says who did it.
* `agreed_of_run`: The two sides agree throughout.
* `enrollment_agrees`: What a Host enrolled and what a machine stored.
-/

namespace CopilotFleet

namespace NodeEnrollment

open Utf16 NodeAuth

/-- A text whose bytes fit the length in front of them, as every string of the platform does. -/
def Short (t : Text) : Prop := (toUtf8 t).length < 2 ^ 32

instance (t : Text) : Decidable (Short t) := inferInstanceAs (Decidable (_ < _))

/-- Two challenges with one text in every field, as the bytes they are sent as. -/
structure Same (a b : EnrollmentTranscriptInput) : Prop where
  challengeId : toUtf8 a.challengeId = toUtf8 b.challengeId
  hostId : toUtf8 a.hostId = toUtf8 b.hostId
  hostNonce : toUtf8 a.hostNonce = toUtf8 b.hostNonce
  nodeNonce : toUtf8 a.nodeNonce = toUtf8 b.nodeNonce
  nodePublicKey : toUtf8 a.nodePublicKey = toUtf8 b.nodePublicKey
  registrationHash : toUtf8 a.registrationHash = toUtf8 b.registrationHash
  dialedHostUrl : toUtf8 a.dialedHostUrl = toUtf8 b.dialedHostUrl

/-- Everything that goes into a transcript is short. -/
def ShortSigned (id : NodeIdentity) (t : Signed) : Prop :=
  Short t.label ∧ ∀ f ∈ t.fields id, Short f.1 ∧ Short f.2

instance (id : NodeIdentity) (t : Signed) : Decidable (ShortSigned id t) :=
  have : Decidable (∀ f ∈ t.fields id, Short f.1 ∧ Short f.2) :=
    List.decidableBAll (fun f : Text × Text => Short f.1 ∧ Short f.2) (t.fields id)
  inferInstanceAs (Decidable (_ ∧ _))

/-- Equal bytes are one kind of transcript, under one label and with the same values. -/
theorem signed_bytes_eq {id : NodeIdentity} {t u : Signed} (ht : ShortSigned id t)
    (hu : ShortSigned id u) (h : t.bytes id = u.bytes id) :
    toUtf8 t.label = toUtf8 u.label ∧ t.size = u.size ∧
      (t.fields id).map (fun f => (toUtf8 f.1, toUtf8 f.2)) =
        (u.fields id).map fun f => (toUtf8 f.1, toUtf8 f.2) := by
  rw [t.bytes_eq, u.bytes_eq] at h
  rcases transcriptBytes_injective ht.1 hu.1 ht.2 hu.2 h with ⟨hlabel, hfields⟩
  refine ⟨hlabel, ?_, hfields⟩
  have hlen := congrArg List.length hfields
  rw [List.length_map, List.length_map, t.length_fields, u.length_fields] at hlen
  exact hlen

theorem same_of_fields {a b : EnrollmentTranscriptInput}
    (h : a.fields.map (fun f => (toUtf8 f.1, toUtf8 f.2)) =
      b.fields.map fun f => (toUtf8 f.1, toUtf8 f.2)) : Same a b := by
  simp only [EnrollmentTranscriptInput.fields, List.map_cons, List.map_nil, List.cons.injEq,
    Prod.mk.injEq, true_and, and_true] at h
  rcases h with ⟨h1, h2, h3, h4, h5, h6, h7⟩
  exact ⟨h1, h2, h3, h4, h5, h6, h7⟩

theorem same_of_receipt {a b : EnrollmentTranscriptInput} {nodeId nodeId' : Text}
    (h : (a.fields ++ [(ofString "nodeId", nodeId)]).map (fun f => (toUtf8 f.1, toUtf8 f.2)) =
      (b.fields ++ [(ofString "nodeId", nodeId')]).map fun f => (toUtf8 f.1, toUtf8 f.2)) :
    Same a b ∧ toUtf8 nodeId = toUtf8 nodeId' := by
  rw [List.map_append, List.map_append] at h
  rcases List.append_inj h rfl with ⟨hfront, hback⟩
  simp only [List.map_cons, List.map_nil, List.cons.injEq, Prod.mk.injEq, true_and, and_true]
    at hback
  exact ⟨same_of_fields hfront, hback⟩

theorem Same.symm {a b : EnrollmentTranscriptInput} (h : Same a b) : Same b a where
  challengeId := h.challengeId.symm
  hostId := h.hostId.symm
  hostNonce := h.hostNonce.symm
  nodeNonce := h.nodeNonce.symm
  nodePublicKey := h.nodePublicKey.symm
  registrationHash := h.registrationHash.symm
  dialedHostUrl := h.dialedHostUrl.symm

/-- A label of one exchange is none of another's. -/
theorem label_ne {a b : String} (h : a ≠ b) : toUtf8 (ofString a) ≠ toUtf8 (ofString b) :=
  fun heq => h (ofString_injective
    (toUtf8_injective (wellFormed_ofString a) (wellFormed_ofString b) heq))

section

variable (platform : EnrollmentPlatform) (identity : HostIdentity)

/-- What the same keys sign outside an enrolment. -/
def Elsewhere : Signed → Prop
  | .enrollment _ _ => False
  | .receipt _ _ => False
  | _ => True

instance : DecidablePred Elsewhere := fun t => by
  cases t <;> unfold Elsewhere <;> infer_instance

/-- The public keys of the machines, whatever texts encode them. -/
def Fleet.keys (s : Fleet) : List Bytes :=
  s.sessions.map fun session => platform.fromBase64 session.attempt.keys.publicKey

/-- The text encodes the Host's key. -/
def OfHost (publicKey : Text) : Prop :=
  platform.fromBase64 publicKey = platform.fromBase64 identity.publicKey

instance (publicKey : Text) : Decidable (OfHost platform identity publicKey) :=
  inferInstanceAs (Decidable (_ = _))

/-- The challenge a machine sent its proofs for. -/
def Session.challenge (session : Session) : Option NodeEnrollmentChallengeResponse :=
  match session.phase with
  | .proved challenge => some challenge
  | .enrolled challenge _ => some challenge
  | _ => none

/-- A completion that verifies with the key of a machine, or under a secret nobody else knows,
    was signed or proved by a machine. -/
def IdealCompletion (s : Fleet) (drawnId : Text) (input : EnrollNode)
    (p : PendingChallenge × EnrollmentGrantRow) : Prop :=
  let fields := p.1.toEnrollmentTranscriptInput
  (platform.fromBase64 p.1.nodePublicKey ∈ s.keys platform →
    platform.verifyIdentitySignature p.1.nodePublicKey
      (enrollmentTranscript ENROLLMENT_COMPLETION_LABEL fields) input.nodeSignature = true →
    ∃ signed ∈ s.signed,
      platform.fromBase64 signed.1 = platform.fromBase64 p.1.nodePublicKey ∧
        signed.2 = enrollmentTranscript ENROLLMENT_COMPLETION_LABEL fields) ∧
  (p.2.tokenHash ∉ s.disclosed →
    sameProof (platform.grantProof p.2.tokenHash
      (enrollmentTranscript ENROLLMENT_GRANT_LABEL fields)) input.grantProof = true →
    (p.2.tokenHash, enrollmentTranscript ENROLLMENT_GRANT_LABEL fields) ∈ s.proved) ∧
  ShortSigned platform.toNodeIdentity (.receipt fields
    (Host.nodeId s.host.nodes drawnId input.registration.name))

/-- The Host's fingerprint is of its key alone, and what verifies under a text of that key it
    signed. The text is not signed, and need not be the one the Host has. -/
def IdealChallenge (s : Fleet) (challenge : NodeEnrollmentChallengeResponse) (session : Session) :
    Prop :=
  let fields := session.attempt.fields challenge
  (toUtf8 (platform.identityFingerprint challenge.hostPublicKey) = toUtf8 identity.fingerprint →
    OfHost platform identity challenge.hostPublicKey) ∧
  (OfHost platform identity challenge.hostPublicKey →
    platform.verifyIdentitySignature challenge.hostPublicKey
      (enrollmentTranscript ENROLLMENT_CHALLENGE_LABEL fields) challenge.signature = true →
    (identity.publicKey, enrollmentTranscript ENROLLMENT_CHALLENGE_LABEL fields) ∈ s.signed) ∧
  ShortSigned platform.toNodeIdentity (.enrollment ENROLLMENT_COMPLETION_LABEL fields)

/-- A receipt that verifies under the Host's key, the Host signed. -/
def IdealReceipt (s : Fleet) (receipt : NodeEnrollmentReceipt) (session : Session) : Prop :=
  ∀ challenge ∈ session.challenge,
    (OfHost platform identity challenge.hostPublicKey →
      platform.verifyIdentitySignature challenge.hostPublicKey
        (enrollmentReceiptTranscript (session.attempt.fields challenge) receipt.nodeId)
        receipt.signature = true →
      (identity.publicKey, enrollmentReceiptTranscript (session.attempt.fields challenge)
        receipt.nodeId) ∈ s.signed) ∧
    ShortSigned platform.toNodeIdentity
      (.receipt (session.attempt.fields challenge) receipt.nodeId)

/-- What verifies under a key that one party holds, that party signed; a fingerprint is of
    one key, in whatever texts; and the key of a new machine was nobody's. Everything signed is
    short. -/
def Ideal (s : Fleet) : Op → Prop
  | .challenge drawn _ input =>
      ShortSigned platform.toNodeIdentity
        (.enrollment ENROLLMENT_CHALLENGE_LABEL (Host.challengeFields identity drawn input))
  | .complete drawnId clock input =>
      ∀ p ∈ s.evidence clock input, IdealCompletion platform s drawnId input p
  | .start keys _ _ => ∀ i ∈ s.issued,
      platform.fromBase64 i.challenge.nodePublicKey ≠ platform.fromBase64 keys.publicKey
  | .answer i challenge =>
      ∀ session ∈ s.sessions[i]?, IdealChallenge platform identity s challenge session
  | .receive i receipt =>
      ∀ session ∈ s.sessions[i]?, IdealReceipt platform identity s receipt session
  | .sign _ t => Elsewhere t ∧ ShortSigned platform.toNodeIdentity t
  | _ => True

/-- What is asked of every step. -/
def Admissible (s : Fleet) (op : Op) : Prop := Fresh s op ∧ Ideal platform identity s op

/-! Whether a step is admissible is decided from the history. -/

instance (s : Fleet) (drawnId : Text) (input : EnrollNode)
    (p : PendingChallenge × EnrollmentGrantRow) :
    Decidable (IdealCompletion platform s drawnId input p) :=
  inferInstanceAs (Decidable (_ ∧ _ ∧ _))

instance (s : Fleet) (challenge : NodeEnrollmentChallengeResponse) (session : Session) :
    Decidable (IdealChallenge platform identity s challenge session) :=
  inferInstanceAs (Decidable (_ ∧ _ ∧ _))

instance (s : Fleet) (receipt : NodeEnrollmentReceipt) (session : Session) :
    Decidable (IdealReceipt platform identity s receipt session) :=
  inferInstanceAs (Decidable (∀ challenge ∈ session.challenge, _ ∧ _))

instance (s : Fleet) : ∀ op, Decidable (Ideal platform identity s op)
  | .challenge _ _ _ => inferInstanceAs (Decidable (ShortSigned _ _))
  | .complete drawnId clock input => inferInstanceAs (Decidable
      (∀ p ∈ s.evidence clock input, IdealCompletion platform s drawnId input p))
  | .start keys _ _ => inferInstanceAs (Decidable (∀ i ∈ s.issued,
      platform.fromBase64 i.challenge.nodePublicKey ≠ platform.fromBase64 keys.publicKey))
  | .answer i challenge => inferInstanceAs (Decidable
      (∀ session ∈ s.sessions[i]?, IdealChallenge platform identity s challenge session))
  | .receive i receipt => inferInstanceAs (Decidable
      (∀ session ∈ s.sessions[i]?, IdealReceipt platform identity s receipt session))
  | .sign _ _ => inferInstanceAs (Decidable (_ ∧ _))
  | .create .. => .isTrue trivial
  | .deleteGrants => .isTrue trivial
  | .restart => .isTrue trivial
  | .nodes _ => .isTrue trivial
  | .disclose _ => .isTrue trivial
  | .fail _ => .isTrue trivial

instance (s : Fleet) : DecidablePred (Admissible platform identity s) := fun _ =>
  inferInstanceAs (Decidable (_ ∧ _))

end

/-! ### Who signed what -/

section

variable {platform : EnrollmentPlatform} {identity : HostIdentity} {s : Fleet}

theorem short_ofString {text : String} (h : text.toList.length < 2 ^ 30) : Short (ofString text) :=
  (encodable_ofString h).2

/-- Where a signature came from: a challenge that was issued, a machine that was enrolled,
    a machine that sent its proofs, or another exchange. -/
def Origin (identity : HostIdentity) (s : Fleet) (key : Text) : Signed → Prop
  | .enrollment label f =>
      (label = ENROLLMENT_CHALLENGE_LABEL ∧ key = identity.publicKey ∧
        ∃ i ∈ s.issued, i.challenge.toEnrollmentTranscriptInput = f) ∨
      (label = ENROLLMENT_COMPLETION_LABEL ∧
        ∃ a ∈ s.answers, a.attempt.keys.publicKey = key ∧ a.fields = f)
  | .receipt f nodeId =>
      key = identity.publicKey ∧
        ∃ e ∈ s.enrollments, e.challenge.toEnrollmentTranscriptInput = f ∧ e.node.id = nodeId
  | _ => True

theorem Elsewhere.origin {t : Signed} (h : Elsewhere t) {key : Text} : Origin identity s key t := by
  cases t with
  | enrollment | receipt => cases h
  | handshake | httpProof | channel => trivial

/-- Everything that was signed has an origin. -/
def SignedBy (platform : EnrollmentPlatform) (identity : HostIdentity) (s : Fleet) : Prop :=
  ∀ p ∈ s.signed, ∃ t, p.2 = t.bytes platform.toNodeIdentity ∧
    ShortSigned platform.toNodeIdentity t ∧ Origin identity s p.1 t

/-- The origins of one kind of transcript are the transcripts of that kind. -/
theorem SignedBy.origin (h : SignedBy platform identity s) {key : Text} {u : Signed}
    (hu : ShortSigned platform.toNodeIdentity u)
    (hmem : (key, u.bytes platform.toNodeIdentity) ∈ s.signed) :
    ∃ t, Origin identity s key t ∧ toUtf8 u.label = toUtf8 t.label ∧ u.size = t.size ∧
      (u.fields platform.toNodeIdentity).map (fun f => (toUtf8 f.1, toUtf8 f.2)) =
        (t.fields platform.toNodeIdentity).map fun f => (toUtf8 f.1, toUtf8 f.2) := by
  rcases h _ hmem with ⟨t, hbytes, ht, horigin⟩
  exact ⟨t, horigin, signed_bytes_eq hu ht hbytes⟩

/-- A challenge under the Host's key was issued by the Host. -/
theorem signed_challenge (h : SignedBy platform identity s) {key : Text}
    {f : EnrollmentTranscriptInput}
    (hf : ShortSigned platform.toNodeIdentity (.enrollment ENROLLMENT_CHALLENGE_LABEL f))
    (hmem : (key, enrollmentTranscript ENROLLMENT_CHALLENGE_LABEL f) ∈ s.signed) :
    ∃ i ∈ s.issued, Same i.challenge.toEnrollmentTranscriptInput f := by
  rcases h.origin (u := .enrollment ENROLLMENT_CHALLENGE_LABEL f) hf hmem with
    ⟨t, horigin, hlabel, hsize, hfields⟩
  cases t with
  | enrollment label g =>
      rcases horigin with ⟨_, _, i, hi, rfl⟩ | ⟨rfl, _⟩
      · exact ⟨i, hi, (same_of_fields hfields).symm⟩
      · exact absurd hlabel (label_ne (by decide))
  | receipt | handshake | httpProof | channel => simp [Signed.size] at hsize

/-- A completion under a key was sent by a machine with that key. -/
theorem signed_completion (h : SignedBy platform identity s) {key : Text}
    {f : EnrollmentTranscriptInput}
    (hf : ShortSigned platform.toNodeIdentity (.enrollment ENROLLMENT_COMPLETION_LABEL f))
    (hmem : (key, enrollmentTranscript ENROLLMENT_COMPLETION_LABEL f) ∈ s.signed) :
    ∃ a ∈ s.answers, a.attempt.keys.publicKey = key ∧ Same a.fields f := by
  rcases h.origin (u := .enrollment ENROLLMENT_COMPLETION_LABEL f) hf hmem with
    ⟨t, horigin, hlabel, hsize, hfields⟩
  cases t with
  | enrollment label g =>
      rcases horigin with ⟨rfl, _⟩ | ⟨_, a, ha, hkey, rfl⟩
      · exact absurd hlabel (label_ne (by decide))
      · exact ⟨a, ha, hkey, (same_of_fields hfields).symm⟩
  | receipt | handshake | httpProof | channel => simp [Signed.size] at hsize

/-- A receipt under the Host's key is of a machine the Host enrolled. -/
theorem signed_receipt (h : SignedBy platform identity s) {key : Text}
    {f : EnrollmentTranscriptInput} {nodeId : Text}
    (hf : ShortSigned platform.toNodeIdentity (.receipt f nodeId))
    (hmem : (key, enrollmentReceiptTranscript f nodeId) ∈ s.signed) :
    ∃ e ∈ s.enrollments, Same e.challenge.toEnrollmentTranscriptInput f ∧
      toUtf8 e.node.id = toUtf8 nodeId := by
  rcases h.origin (u := .receipt f nodeId) hf hmem with ⟨t, horigin, _, hsize, hfields⟩
  cases t with
  | receipt g id =>
      rcases horigin with ⟨_, e, he, rfl, rfl⟩
      rcases same_of_receipt hfields with ⟨hsame, hid⟩
      exact ⟨e, he, hsame.symm, hid.symm⟩
  | enrollment | handshake | httpProof | channel => simp [Signed.size] at hsize

/-- More history is more origins. -/
theorem Origin.mono {t : Fleet} {key : Text} {u : Signed} (h : Origin identity s key u)
    (hissued : ∀ i ∈ s.issued, i ∈ t.issued) (hanswers : ∀ a ∈ s.answers, a ∈ t.answers)
    (henrollments : ∀ e ∈ s.enrollments, e ∈ t.enrollments) : Origin identity t key u := by
  cases u with
  | enrollment label f =>
      rcases h with ⟨hlabel, hkey, i, hi, hf⟩ | ⟨hlabel, a, ha, hkey, hf⟩
      · exact .inl ⟨hlabel, hkey, i, hissued i hi, hf⟩
      · exact .inr ⟨hlabel, a, hanswers a ha, hkey, hf⟩
  | receipt f nodeId =>
      rcases h with ⟨hkey, e, he, hf⟩
      exact ⟨hkey, e, henrollments e he, hf⟩
  | handshake | httpProof | channel => exact h

end

/-! ### What holds throughout -/

/-- The operator gave this machine the fingerprint of this Host. -/
def Pinned (identity : HostIdentity) (attempt : Attempt) : Prop :=
  toUtf8 attempt.input.hostFingerprint = toUtf8 identity.fingerprint

section

variable (platform : EnrollmentPlatform) (identity : HostIdentity)

/-- A proof under a secret was sent by a machine that has the secret. -/
def ProvedOk (s : Fleet) (p : Text × Bytes) : Prop :=
  ∃ a ∈ s.answers, platform.grantSecretDigest a.attempt.secret = p.1 ∧
    enrollmentTranscript ENROLLMENT_GRANT_LABEL a.fields = p.2 ∧
    ShortSigned platform.toNodeIdentity (.enrollment ENROLLMENT_GRANT_LABEL a.fields)

/-- A machine proved itself to a challenge this Host issued for exactly its values. -/
def AnswerOk (s : Fleet) (a : Answer) : Prop :=
  Pinned identity a.attempt → OfHost platform identity a.challenge.hostPublicKey ∧
    ∃ i ∈ s.issued, Same i.challenge.toEnrollmentTranscriptInput a.fields

/-- Under a secret nobody else knows, and with the key of a machine, only that machine is
    enrolled, with the values it proved itself for. -/
structure EnrollmentOk (s : Fleet) (e : Enrollment) : Prop where
  granted : e.grant.tokenHash ∉ s.disclosed → ∃ a ∈ s.answers,
    platform.grantSecretDigest a.attempt.secret = e.grant.tokenHash ∧
      Same a.fields e.challenge.toEnrollmentTranscriptInput
  keyed : platform.fromBase64 e.challenge.nodePublicKey ∈ s.keys platform → ∃ a ∈ s.answers,
    platform.fromBase64 a.attempt.keys.publicKey =
        platform.fromBase64 e.challenge.nodePublicKey ∧
      Same a.fields e.challenge.toEnrollmentTranscriptInput

/-- A machine that stores its credentials was enrolled under the id it stores. -/
structure SessionOk (s : Fleet) (session : Session) : Prop where
  answered : ∀ challenge, session.challenge = some challenge →
    { attempt := session.attempt, challenge } ∈ s.answers
  stored : ∀ challenge credentials, session.phase = .enrolled challenge credentials →
    Pinned identity session.attempt →
      toUtf8 credentials.host.publicKey = toUtf8 challenge.hostPublicKey ∧
      OfHost platform identity challenge.hostPublicKey ∧
      ∃ e ∈ s.enrollments,
        Same e.challenge.toEnrollmentTranscriptInput (session.attempt.fields challenge) ∧
          toUtf8 e.node.id = toUtf8 credentials.nodeId

/-- What the two sides have in common. -/
structure Agreed (s : Fleet) : Prop where
  signed : SignedBy platform identity s
  proved : ∀ p ∈ s.proved, ProvedOk platform s p
  answers : ∀ a ∈ s.answers, AnswerOk platform identity s a
  enrollments : ∀ e ∈ s.enrollments, EnrollmentOk platform s e
  sessions : ∀ session ∈ s.sessions, SessionOk platform identity s session

end

/-- A step adds to the history, and no machine takes a key that was enrolled before. -/
structure Grows (platform : EnrollmentPlatform) (s t : Fleet) : Prop where
  issued : ∀ i ∈ s.issued, i ∈ t.issued
  answers : ∀ a ∈ s.answers, a ∈ t.answers
  enrollments : ∀ e ∈ s.enrollments, e ∈ t.enrollments
  disclosed : ∀ d ∈ s.disclosed, d ∈ t.disclosed
  keys : ∀ e ∈ s.enrollments, platform.fromBase64 e.challenge.nodePublicKey ∈ t.keys platform →
    platform.fromBase64 e.challenge.nodePublicKey ∈ s.keys platform

section

variable {platform : EnrollmentPlatform} {identity : HostIdentity} {s t : Fleet}

theorem ProvedOk.mono {p : Text × Bytes} (h : ProvedOk platform s p) (hgrows : Grows platform s t) :
    ProvedOk platform t p := by
  rcases h with ⟨a, ha, hproved⟩
  exact ⟨a, hgrows.answers a ha, hproved⟩

theorem AnswerOk.mono {a : Answer} (h : AnswerOk platform identity s a) (hgrows : Grows platform s t) :
    AnswerOk platform identity t a := by
  intro hpinned
  rcases h hpinned with ⟨hkey, i, hi, hsame⟩
  exact ⟨hkey, i, hgrows.issued i hi, hsame⟩

theorem EnrollmentOk.mono {e : Enrollment} (h : EnrollmentOk platform s e) (he : e ∈ s.enrollments)
    (hgrows : Grows platform s t) : EnrollmentOk platform t e where
  granted hnot := by
    rcases h.granted fun hmem => hnot (hgrows.disclosed _ hmem) with ⟨a, ha, hsame⟩
    exact ⟨a, hgrows.answers a ha, hsame⟩
  keyed hmem := by
    rcases h.keyed (hgrows.keys e he hmem) with ⟨a, ha, hsame⟩
    exact ⟨a, hgrows.answers a ha, hsame⟩

theorem SessionOk.mono {session : Session} (h : SessionOk platform identity s session)
    (hgrows : Grows platform s t) : SessionOk platform identity t session where
  answered challenge hchallenge := hgrows.answers _ (h.answered challenge hchallenge)
  stored challenge credentials hphase hpinned := by
    rcases h.stored challenge credentials hphase hpinned with ⟨hsent, hkey, e, he, hsame⟩
    exact ⟨hsent, hkey, e, hgrows.enrollments e he, hsame⟩

/-- What a step has to say for itself is what it adds. -/
theorem Agreed.grow (h : Agreed platform identity s) (hgrows : Grows platform s t)
    (hsigned : ∀ p ∈ t.signed, p ∈ s.signed ∨ ∃ u, p.2 = u.bytes platform.toNodeIdentity ∧
      ShortSigned platform.toNodeIdentity u ∧ Origin identity t p.1 u)
    (hproved : ∀ p ∈ t.proved, p ∈ s.proved ∨ ProvedOk platform t p)
    (hanswers : ∀ a ∈ t.answers, a ∈ s.answers ∨ AnswerOk platform identity t a)
    (henrollments : ∀ e ∈ t.enrollments, e ∈ s.enrollments ∨ EnrollmentOk platform t e)
    (hsessions : ∀ session ∈ t.sessions, session ∈ s.sessions ∨ SessionOk platform identity t session) :
    Agreed platform identity t where
  signed p hp := by
    rcases hsigned p hp with hp | hnew
    · rcases h.signed p hp with ⟨u, hbytes, hshort, horigin⟩
      exact ⟨u, hbytes, hshort,
        horigin.mono hgrows.issued hgrows.answers hgrows.enrollments⟩
    · exact hnew
  proved p hp := (hproved p hp).elim (fun hp => (h.proved p hp).mono hgrows) id
  answers a ha := (hanswers a ha).elim (fun ha => (h.answers a ha).mono hgrows) id
  enrollments e he :=
    (henrollments e he).elim (fun he => (h.enrollments e he).mono he hgrows) id
  sessions session hsession :=
    (hsessions session hsession).elim (fun hold => (h.sessions session hold).mono hgrows) id

theorem Agreed.empty (platform : EnrollmentPlatform) (identity : HostIdentity) :
    Agreed platform identity .empty where
  signed _ h := absurd h List.not_mem_nil
  proved _ h := absurd h List.not_mem_nil
  answers _ h := absurd h List.not_mem_nil
  enrollments _ h := absurd h List.not_mem_nil
  sessions _ h := absurd h List.not_mem_nil

end

/-! ### Every step -/

theorem short_challenge_label : Short ENROLLMENT_CHALLENGE_LABEL := short_ofString (by decide)

theorem short_completion_label : Short ENROLLMENT_COMPLETION_LABEL := short_ofString (by decide)

theorem short_grant_label : Short ENROLLMENT_GRANT_LABEL := short_ofString (by decide)

/-- What is signed under one label is short under another. -/
theorem ShortSigned.relabel {id : NodeIdentity} {label label' : Text}
    {f : EnrollmentTranscriptInput} (h : ShortSigned id (.enrollment label f)) (hlabel : Short label') :
    ShortSigned id (.enrollment label' f) :=
  ⟨hlabel, h.2⟩

section

variable {platform : EnrollmentPlatform} {identity : HostIdentity} {s : Fleet}

theorem Grows.of_same {t : Fleet} (hsessions : t.sessions = s.sessions)
    (hissued : ∀ i ∈ s.issued, i ∈ t.issued) (hanswers : ∀ a ∈ s.answers, a ∈ t.answers)
    (henrollments : ∀ e ∈ s.enrollments, e ∈ t.enrollments)
    (hdisclosed : ∀ d ∈ s.disclosed, d ∈ t.disclosed) : Grows platform s t where
  issued := hissued
  answers := hanswers
  enrollments := henrollments
  disclosed := hdisclosed
  keys e _ hmem := by
    unfold Fleet.keys at hmem ⊢
    rw [← hsessions]
    exact hmem

/-- A change of the Host alone, which may make a secret known. -/
theorem Agreed.host (h : Agreed platform identity s) (host : Host) (created disclosed : List Text)
    (hdisclosed : ∀ d ∈ s.disclosed, d ∈ disclosed) :
    Agreed platform identity { s with host, created, disclosed } :=
  h.grow (Grows.of_same rfl (fun _ hi => hi) (fun _ ha => ha) (fun _ he => he) hdisclosed)
    (fun _ hp => .inl hp) (fun _ hp => .inl hp) (fun _ ha => .inl ha) (fun _ he => .inl he)
    fun _ hsession => .inl hsession

theorem Agreed.challenged (h : Agreed platform identity s) (host : Host) (i : Issue)
    (hshort : ShortSigned platform.toNodeIdentity
      (.enrollment ENROLLMENT_CHALLENGE_LABEL i.challenge.toEnrollmentTranscriptInput)) :
    Agreed platform identity { s with
      host
      issued := s.issued ++ [i]
      signed := s.signed ++ [(identity.publicKey,
        enrollmentTranscript ENROLLMENT_CHALLENGE_LABEL
          i.challenge.toEnrollmentTranscriptInput)] } := by
  refine h.grow (Grows.of_same rfl (fun _ hi => List.mem_append_left _ hi) (fun _ ha => ha)
    (fun _ he => he) fun _ hd => hd) ?_ (fun _ hp => .inl hp) (fun _ ha => .inl ha)
    (fun _ he => .inl he) fun _ hsession => .inl hsession
  exact Run.old_or_new ⟨.enrollment ENROLLMENT_CHALLENGE_LABEL _, rfl, hshort,
    .inl ⟨rfl, rfl, i, List.mem_append_right _ List.mem_cons_self, rfl⟩⟩

/-- A machine that is enrolled under a secret, or with the key of a machine, sent the proofs. -/
theorem Agreed.enrolled (h : Agreed platform identity s) (host : Host) {e : Enrollment}
    (hproven : e.Proven platform)
    (hshort : ShortSigned platform.toNodeIdentity
      (.receipt e.challenge.toEnrollmentTranscriptInput e.node.id))
    (hkeyed : platform.fromBase64 e.challenge.nodePublicKey ∈ s.keys platform →
      platform.verifyIdentitySignature e.challenge.nodePublicKey
        (enrollmentTranscript ENROLLMENT_COMPLETION_LABEL
          e.challenge.toEnrollmentTranscriptInput) e.input.nodeSignature = true →
      ∃ signed ∈ s.signed,
        platform.fromBase64 signed.1 = platform.fromBase64 e.challenge.nodePublicKey ∧
          signed.2 = enrollmentTranscript ENROLLMENT_COMPLETION_LABEL
            e.challenge.toEnrollmentTranscriptInput)
    (hgranted : e.grant.tokenHash ∉ s.disclosed →
      sameProof (platform.grantProof e.grant.tokenHash (enrollmentTranscript
        ENROLLMENT_GRANT_LABEL e.challenge.toEnrollmentTranscriptInput)) e.input.grantProof =
          true →
      (e.grant.tokenHash, enrollmentTranscript ENROLLMENT_GRANT_LABEL
        e.challenge.toEnrollmentTranscriptInput) ∈ s.proved) :
    Agreed platform identity { s with
      host
      enrollments := s.enrollments ++ [e]
      signed := s.signed ++ [(identity.publicKey,
        enrollmentReceiptTranscript e.challenge.toEnrollmentTranscriptInput e.node.id)] } := by
  have hfields : ∀ f ∈ e.challenge.toEnrollmentTranscriptInput.fields, Short f.1 ∧ Short f.2 :=
    fun f hf => hshort.2 f (List.mem_append_left _ hf)
  refine h.grow (Grows.of_same rfl (fun _ hi => hi) (fun _ ha => ha)
    (fun _ he => List.mem_append_left _ he) fun _ hd => hd) ?_ (fun _ hp => .inl hp)
    (fun _ ha => .inl ha) ?_ fun _ hsession => .inl hsession
  · exact Run.old_or_new ⟨.receipt _ _, rfl, hshort, rfl, e,
      List.mem_append_right _ List.mem_cons_self, rfl, rfl⟩
  · intro e' he'
    rcases List.mem_append.mp he' with he' | he'
    · exact .inl he'
    · rw [List.mem_singleton.mp he']
      refine .inr ⟨fun hnot => ?_, fun hmem => ?_⟩
      · -- The MAC was made by whoever holds the secret, over these very fields.
        rcases h.proved _ (hgranted hnot hproven.proved) with ⟨a, ha, hsecret, hbytes, ha'⟩
        refine ⟨a, ha, hsecret, same_of_fields ?_⟩
        exact (signed_bytes_eq ha' (u := .enrollment ENROLLMENT_GRANT_LABEL
          e.challenge.toEnrollmentTranscriptInput) ⟨short_grant_label, hfields⟩ hbytes).2.2
      · -- The signature is under a key of an honest machine, which signed this transcript.
        rcases hkeyed hmem hproven.signed with ⟨⟨key, bytes⟩, hsigned, hkey, rfl⟩
        rcases signed_completion h.signed ⟨short_completion_label, hfields⟩ hsigned with
          ⟨a, ha, rfl, hsame⟩
        exact ⟨a, ha, hkey, hsame⟩

/-- A machine that gets on keeps its key. -/
theorem keys_set {i : Nat} {session : Session} {phase : Phase} (h : s.sessions[i]? = some session)
    (key : Bytes) (hmem : key ∈ (s.sessions.set i { session with phase }).map
      fun session => platform.fromBase64 session.attempt.keys.publicKey) :
    key ∈ s.keys platform := by
  rcases List.mem_map.mp hmem with ⟨other, hother, rfl⟩
  rcases List.mem_or_eq_of_mem_set hother with hother | rfl
  · exact List.mem_map_of_mem hother
  · exact List.mem_map.mpr ⟨session, List.mem_of_getElem? h, rfl⟩

theorem Agreed.sent (h : Agreed platform identity s) {i : Nat} {attempt : Attempt} {phase : Phase}
    {challenge : NodeEnrollmentChallengeResponse}
    (hsession : s.sessions[i]? = some { attempt, phase })
    (hanswer : AnswerOk platform identity s { attempt, challenge })
    (hshort : ShortSigned platform.toNodeIdentity
      (.enrollment ENROLLMENT_COMPLETION_LABEL (attempt.fields challenge))) :
    Agreed platform identity (s.sent platform i attempt challenge) := by
  have hgrows : Grows platform s (s.sent platform i attempt challenge) := {
    issued := fun _ hi => hi
    answers := fun _ ha => List.mem_append_left _ ha
    enrollments := fun _ he => he
    disclosed := fun _ hd => hd
    keys := fun e _ hmem => keys_set hsession _ hmem }
  have hnew : { attempt, challenge } ∈ (s.sent platform i attempt challenge).answers :=
    List.mem_append_right _ List.mem_cons_self
  refine h.grow hgrows ?_ ?_ ?_ (fun _ he => .inl he) ?_
  · exact Run.old_or_new ⟨.enrollment ENROLLMENT_COMPLETION_LABEL _, rfl, hshort,
      .inr ⟨rfl, _, hnew, rfl, rfl⟩⟩
  · exact Run.old_or_new ⟨_, hnew, rfl, rfl, hshort.relabel short_grant_label⟩
  · exact Run.old_or_new (hanswer.mono hgrows)
  · intro session hmem
    rcases List.mem_or_eq_of_mem_set hmem with hmem | rfl
    · exact .inl hmem
    · refine .inr ⟨fun other hother => ?_, fun other credentials hphase => ?_⟩
      · rw [← Option.some.inj hother]
        exact hnew
      · cases hphase

/-- A machine that gets on without another word to the Host. -/
theorem Agreed.moved (h : Agreed platform identity s) {i : Nat} {session : Session} {phase : Phase}
    (hsession : s.sessions[i]? = some session)
    (hok : SessionOk platform identity s { session with phase }) :
    Agreed platform identity { s with sessions := s.sessions.set i { session with phase } } := by
  have hgrows : Grows platform s { s with sessions := s.sessions.set i { session with phase } } := {
    issued := fun _ hi => hi
    answers := fun _ ha => ha
    enrollments := fun _ he => he
    disclosed := fun _ hd => hd
    keys := fun e _ hmem => keys_set hsession _ hmem }
  refine h.grow hgrows (fun _ hp => .inl hp) (fun _ hp => .inl hp) (fun _ ha => .inl ha)
    (fun _ he => .inl he) fun other hmem => ?_
  rcases List.mem_or_eq_of_mem_set hmem with hmem | rfl
  · exact .inl hmem
  · exact .inr (hok.mono hgrows)

theorem Agreed.failed (h : Agreed platform identity s) {i : Nat} {session : Session}
    (hsession : s.sessions[i]? = some session) :
    Agreed platform identity
      { s with sessions := s.sessions.set i { session with phase := .failed } } := by
  refine h.moved hsession ⟨fun challenge hchallenge => ?_, fun challenge credentials hphase => ?_⟩
  · cases hchallenge
  · cases hphase

end

section

variable {platform : EnrollmentPlatform} {identity : HostIdentity} {s : Fleet}

theorem start_keys {keys : IdentityKeyPair} {nodeNonce : Text} {input : EnrollWithGrantInput}
    {attempt : Attempt} {asked : NodeEnrollmentChallenge}
    (h : Attempt.start platform keys nodeNonce input = .ok (attempt, asked)) :
    attempt.keys = keys := by
  unfold Attempt.start at h
  split at h
  · cases h
  · split at h
    · cases h
    · rw [← (Prod.mk.inj (Except.ok.inj h)).1]

theorem Agreed.started (h : Agreed platform identity s) (hkept : Kept platform s)
    {keys : IdentityKeyPair} {nodeNonce : Text} {input : EnrollWithGrantInput}
    (hnew : ∀ i ∈ s.issued,
      platform.fromBase64 i.challenge.nodePublicKey ≠ platform.fromBase64 keys.publicKey) :
    Agreed platform identity (step platform identity s (.start keys nodeNonce input)) := by
  change Agreed platform identity (s.started platform keys nodeNonce input)
  unfold Fleet.started
  split
  · rename_i attempt _ hstart
    have hgrows : Grows platform s { s with
        sessions := s.sessions ++ [{ attempt, phase := .waiting }] } := {
      issued := fun _ hi => hi
      answers := fun _ ha => ha
      enrollments := fun _ he => he
      disclosed := fun _ hd => hd
      keys := by
        intro e he hmem
        unfold Fleet.keys at hmem
        rw [List.map_append, List.map_singleton] at hmem
        rcases List.mem_append.mp hmem with hmem | hmem
        · exact hmem
        · -- The machine that was enrolled had a key before this one was drawn.
          rcases (hkept.completed e he).2.1 with ⟨i, hi, hissued⟩
          rw [List.mem_singleton, start_keys hstart, ← hissued] at hmem
          exact absurd hmem (hnew i hi) }
    refine h.grow hgrows (fun _ hp => .inl hp) (fun _ hp => .inl hp) (fun _ ha => .inl ha)
      (fun _ he => .inl he) fun session hmem => ?_
    rcases List.mem_append.mp hmem with hmem | hmem
    · exact .inl hmem
    · rw [List.mem_singleton.mp hmem]
      refine .inr ⟨fun challenge hchallenge => ?_, fun challenge credentials hphase => ?_⟩
      · cases hchallenge
      · cases hphase
  · exact h

/-- A machine proves itself to its own Host only. -/
theorem Agreed.answered (h : Agreed platform identity s) (i : Nat)
    (challenge : NodeEnrollmentChallengeResponse)
    (hideal : Ideal platform identity s (.answer i challenge)) :
    Agreed platform identity (s.answered platform i challenge) := by
  unfold Fleet.answered
  split
  · rename_i attempt hsession
    rcases hideal _ hsession with ⟨hprint, hsigned, hshort⟩
    split
    · rename_i sent hanswer
      rcases Attempt.answer_ok platform hanswer with ⟨_, hfingerprint, _, hverify⟩
      refine h.sent hsession (fun hpinned => ?_) hshort
      have hkey := hprint (hfingerprint.trans hpinned)
      refine ⟨hkey, signed_challenge h.signed (hshort.relabel short_challenge_label)
        (hsigned hkey hverify)⟩
    · exact h.failed hsession
  · exact h

/-- A machine stores what its own Host signed for it. -/
theorem Agreed.received (h : Agreed platform identity s) (i : Nat) (receipt : NodeEnrollmentReceipt)
    (hideal : Ideal platform identity s (.receive i receipt)) :
    Agreed platform identity (s.received platform i receipt) := by
  unfold Fleet.received
  split
  · rename_i attempt challenge hsession
    rcases hideal _ hsession challenge rfl with ⟨hsigned, hshort⟩
    split
    · rename_i credentials hreceive
      rcases Attempt.receive_ok platform hreceive with ⟨hid, _, _, hkey, hverify⟩
      have hanswer : { attempt, challenge } ∈ s.answers :=
        (h.sessions _ (List.mem_of_getElem? hsession)).answered challenge rfl
      refine h.moved hsession ⟨fun other hother => ?_, fun other stored hphase hpinned => ?_⟩
      · rw [← Option.some.inj hother]
        exact hanswer
      · rw [Phase.enrolled.injEq] at hphase
        rw [← hphase.1, ← hphase.2]
        rcases h.answers _ hanswer hpinned with ⟨hhost, _⟩
        refine ⟨hkey, hhost, ?_⟩
        rw [hid]
        exact signed_receipt h.signed hshort (hsigned hhost hverify)
    · exact h.failed hsession
  · exact h

theorem agreed_step (s : Fleet) (op : Op) (hkept : Kept platform s)
    (h : Agreed platform identity s) (hideal : Ideal platform identity s op) :
    Agreed platform identity (step platform identity s op) := by
  cases op with
  | create drawn createdByAdminId clock => exact h.host _ _ _ fun _ hd => hd
  | deleteGrants => exact h.host _ _ _ fun _ hd => hd
  | restart => exact h.host _ _ _ fun _ hd => hd
  | nodes nodes => exact h.host _ _ _ fun _ hd => hd
  | disclose tokenHash => exact h.host _ _ _ fun _ hd => List.mem_append_left _ hd
  | challenge drawn clock input =>
      rcases step_challenge platform identity s drawn clock input with
        ⟨audit, hstep⟩ | ⟨grant, _, hstep⟩
      · rw [hstep]
        exact h.host _ _ _ fun _ hd => hd
      · rw [hstep]
        exact h.challenged _ {
          challenge := Host.keptChallenge identity drawn clock input grant
          clock } hideal
  | complete drawnId clock input =>
      rcases step_complete platform identity s drawnId clock input with
        ⟨nodes, audit, hstep⟩ | ⟨challenge, grant, hproves, hspent, hstep⟩
      · rw [hstep]
        exact h.host _ _ _ fun _ hd => hd
      · rcases hideal _ hproves.evidence with ⟨hkeyed, hgranted, hshort⟩
        rw [hstep]
        exact h.enrolled _ (hkept.proven hproves hspent) hshort hkeyed hgranted
  | start keys nodeNonce input => exact h.started hkept hideal
  | answer i challenge => exact h.answered i challenge hideal
  | receive i receipt => exact h.received i receipt hideal
  | fail i =>
      change Agreed platform identity (s.failed i)
      unfold Fleet.failed
      split
      · exact h.failed (by assumption)
      · exact h
  | sign key t =>
      refine h.grow (Grows.of_same rfl (fun _ hi => hi) (fun _ ha => ha) (fun _ he => he)
        fun _ hd => hd) (Run.old_or_new ⟨t, rfl, hideal.2, hideal.1.origin⟩)
        (fun _ hp => .inl hp) (fun _ ha => .inl ha) (fun _ he => .inl he)
        fun _ hsession => .inl hsession

end

section

variable (platform : EnrollmentPlatform) (identity : HostIdentity)

theorem agreed_of_run (ops : List Op)
    (h : Run.Admits (step platform identity) (Admissible platform identity) .empty ops) :
    Kept platform (Run.final (step platform identity) .empty ops) ∧
      Agreed platform identity (Run.final (step platform identity) .empty ops) :=
  Run.invariant_of_admits (step platform identity) (Admissible platform identity)
    (fun s => Kept platform s ∧ Agreed platform identity s)
    (fun s op hs hok => ⟨kept_step platform identity s op hs.1 hok.1,
      agreed_step s op hs.1 hs.2 hok.2⟩)
    ops .empty ⟨Kept.empty platform, Agreed.empty platform identity⟩ h

/-- Whatever the network does, a Host enrols under a secret nobody else knows, and with the key
    of a machine, only what a machine proved itself for; a machine proves itself only to a
    challenge of its own Host for its own values; and one that stores its credentials was enrolled
    by that Host, once, under the id it stores. -/
theorem enrollment_agrees (ops : List Op)
    (h : Run.Admits (step platform identity) (Admissible platform identity) .empty ops) :
    let s := Run.final (step platform identity) .empty ops
    (∀ e ∈ s.enrollments,
      (e.grant.tokenHash ∉ s.disclosed → ∃ a ∈ s.answers,
        platform.grantSecretDigest a.attempt.secret = e.grant.tokenHash ∧
          Same a.fields e.challenge.toEnrollmentTranscriptInput) ∧
      (platform.fromBase64 e.challenge.nodePublicKey ∈ s.keys platform → ∃ a ∈ s.answers,
        platform.fromBase64 a.attempt.keys.publicKey =
            platform.fromBase64 e.challenge.nodePublicKey ∧
          Same a.fields e.challenge.toEnrollmentTranscriptInput)) ∧
    (∀ a ∈ s.answers, Pinned identity a.attempt →
      OfHost platform identity a.challenge.hostPublicKey ∧
        ∃ i ∈ s.issued, Same i.challenge.toEnrollmentTranscriptInput a.fields) ∧
    ∀ session ∈ s.sessions, ∀ challenge credentials,
      session.phase = .enrolled challenge credentials → Pinned identity session.attempt →
        toUtf8 credentials.host.publicKey = toUtf8 challenge.hostPublicKey ∧
        OfHost platform identity challenge.hostPublicKey ∧
        ∃ e ∈ s.enrollments, e.Proven platform ∧ toUtf8 e.node.id = toUtf8 credentials.nodeId ∧
          Same e.challenge.toEnrollmentTranscriptInput (session.attempt.fields challenge) ∧
          ∀ e' ∈ s.enrollments,
            Same e'.challenge.toEnrollmentTranscriptInput (session.attempt.fields challenge) →
              e' = e := by
  intro s
  rcases agreed_of_run platform identity ops h with ⟨hkept, hagreed⟩
  refine ⟨fun e he => ?_, hagreed.answers, ?_⟩
  · exact ⟨(hagreed.enrollments e he).granted, (hagreed.enrollments e he).keyed⟩
  · intro session hsession challenge credentials hphase hpinned
    rcases (hagreed.sessions session hsession).stored challenge credentials hphase hpinned with
      ⟨hsent, hkey, e, he, hsame, hid⟩
    refine ⟨hsent, hkey, e, he, (hkept.completed e he).1, hid, hsame, fun e' he' hsame' => ?_⟩
    -- Two enrolments on one challenge are one.
    refine List.inj_on_of_nodup_map hkept.challenges he' he ?_
    exact hsame'.challengeId.trans hsame.challengeId.symm

end

/-- A relay changes the text of the Host's key. What the Host enrolled, the machine proved itself
    for, and the key it went by is the Host's all the same. -/
theorem enrollment_agrees_exchange :
    let s := Run.final (step Sample.platform Sample.host) .empty (Sample.exchange (ofString "I"))
    s.enrollments.length = 1 ∧
    (∀ e ∈ s.enrollments, ∃ a ∈ s.answers,
      Same a.fields e.challenge.toEnrollmentTranscriptInput) ∧
    ∀ a ∈ s.answers, a.challenge.hostPublicKey = ofString "I" ∧
      OfHost Sample.platform Sample.host a.challenge.hostPublicKey := by
  have hadmits : Run.Admits (step Sample.platform Sample.host)
      (Admissible Sample.platform Sample.host) .empty (Sample.exchange (ofString "I")) := by
    decide +kernel
  have hsecret : ∀ e ∈ (Run.final (step Sample.platform Sample.host) .empty
      (Sample.exchange (ofString "I"))).enrollments, e.grant.tokenHash ∉ (Run.final
        (step Sample.platform Sample.host) .empty
          (Sample.exchange (ofString "I"))).disclosed := by
    decide +kernel
  have hrelayed : ∀ a ∈ (Run.final (step Sample.platform Sample.host) .empty
      (Sample.exchange (ofString "I"))).answers,
        toUtf8 a.attempt.input.hostFingerprint = toUtf8 Sample.host.fingerprint ∧
          a.challenge.hostPublicKey = ofString "I" := by
    decide +kernel
  have hagrees :=
    enrollment_agrees Sample.platform Sample.host (Sample.exchange (ofString "I")) hadmits
  refine ⟨by decide +kernel, fun e he => ?_, fun a ha => ?_⟩
  · rcases (hagrees.1 e he).1 (hsecret e he) with ⟨a, ha, _, hsame⟩
    exact ⟨a, ha, hsame⟩
  · exact ⟨(hrelayed a ha).2, (hagrees.2.1 a ha (hrelayed a ha).1).1⟩

end NodeEnrollment

end CopilotFleet
