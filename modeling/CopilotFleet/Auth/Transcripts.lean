import CopilotFleet.Protocol.NodeAuth

/-!
# What is Signed

Every signature, HMAC and key derivation between a Host and a Node is over the
bytes of a transcript: a label, and then the name and the value of each field.
This file lists the transcripts there are and proves that no two of them are
the same bytes.

Equal bytes are equal lists of strings, because each string carries its length
(`transcriptBytes_injective`), and a well-formed string is determined by its
UTF-8 bytes. The transcripts of one kind have the same fields, and those of two
kinds have different numbers of them, so not even a label that two kinds shared
would make one read as the other (`Signed.of_fields_eq`).

The method of an HTTP proof is signed in upper case, so what such a transcript
determines is the method as signed (`Signed.signed`).

## Main definitions

* `enrollmentTranscript`, `enrollmentReceiptTranscript`, `handshakeTranscript`: The transcripts
  of an enrollment, of its receipt and of a handshake.
* `Signed`: A transcript of any kind.
* `Signed.Encodable`: Every string of it is well-formed and short of `2 ^ 32` bytes.

## Theorems

* `transcriptBytes_eq`: A transcript determines its domain and its fields.
* `signed_injective`: Two transcripts of the same bytes are the same.
-/

namespace CopilotFleet

namespace NodeAuth

open Utf16

def ENROLLMENT_CHALLENGE_LABEL : Text := ofString "fleet-enrollment-host-challenge-v1"

def ENROLLMENT_COMPLETION_LABEL : Text := ofString "fleet-enrollment-node-completion-v1"

def ENROLLMENT_GRANT_LABEL : Text := ofString "fleet-enrollment-grant-proof-v1"

def ENROLLMENT_RECEIPT_LABEL : Text := ofString "fleet-enrollment-host-receipt-v1"

structure EnrollmentTranscriptInput where
  challengeId : Text
  hostId : Text
  hostNonce : Text
  nodeNonce : Text
  nodePublicKey : Text
  registrationHash : Text
  dialedHostUrl : Text

structure HandshakeTranscriptInput where
  protocol : Text
  hostId : Text
  nodeId : Text
  connectionId : Text
  hostNonce : Text
  nodeNonce : Text
  hostPublicKey : Text
  nodePublicKey : Text
  hostEphemeralPublicKey : Text
  nodeEphemeralPublicKey : Text
  dialedHostUrl : Text

/-- What the signature of a Node HTTP call covers. -/
structure NodeHttpProofTranscriptInput where
  nodeId : Text
  method : Text
  path : Text
  timestamp : Text
  nonce : Text
  bodyHash : Text

/-- The fields a grant authorises. -/
def EnrollmentTranscriptInput.fields (input : EnrollmentTranscriptInput) : List (Text × Text) :=
  [(ofString "challengeId", input.challengeId),
    (ofString "hostId", input.hostId),
    (ofString "hostNonce", input.hostNonce),
    (ofString "nodeNonce", input.nodeNonce),
    (ofString "nodePublicKey", input.nodePublicKey),
    (ofString "registrationHash", input.registrationHash),
    (ofString "dialedHostUrl", input.dialedHostUrl)]

def HandshakeTranscriptInput.fields (input : HandshakeTranscriptInput) : List (Text × Text) :=
  [(ofString "protocol", input.protocol),
    (ofString "hostId", input.hostId),
    (ofString "nodeId", input.nodeId),
    (ofString "connectionId", input.connectionId),
    (ofString "hostNonce", input.hostNonce),
    (ofString "nodeNonce", input.nodeNonce),
    (ofString "hostPublicKey", input.hostPublicKey),
    (ofString "nodePublicKey", input.nodePublicKey),
    (ofString "hostEphemeralPublicKey", input.hostEphemeralPublicKey),
    (ofString "nodeEphemeralPublicKey", input.nodeEphemeralPublicKey),
    (ofString "dialedHostUrl", input.dialedHostUrl)]

def enrollmentTranscript (label : Text) (input : EnrollmentTranscriptInput) : Bytes :=
  transcriptBytes label input.fields

/-- What the Host signs when it tells a Node which id it now answers to. -/
def enrollmentReceiptTranscript (input : EnrollmentTranscriptInput) (nodeId : Text) : Bytes :=
  transcriptBytes ENROLLMENT_RECEIPT_LABEL (input.fields ++ [(ofString "nodeId", nodeId)])

def handshakeTranscript (label : Text) (input : HandshakeTranscriptInput) : Bytes :=
  transcriptBytes label input.fields

/-- A transcript of any kind, with what it was made from. -/
inductive Signed where
  | enrollment (label : Text) (input : EnrollmentTranscriptInput)
  | receipt (input : EnrollmentTranscriptInput) (nodeId : Text)
  | handshake (label : Text) (input : HandshakeTranscriptInput)
  | httpProof (input : NodeHttpProofTranscriptInput)
  | channel (binding : ChannelBinding) (sequence : Nat)

namespace Signed

variable (id : NodeIdentity)

def bytes : Signed → Bytes
  | enrollment label input => enrollmentTranscript label input
  | receipt input nodeId => enrollmentReceiptTranscript input nodeId
  | handshake label input => handshakeTranscript label input
  | httpProof input =>
      nodeHttpProofTranscript id input.nodeId input.method input.path input.timestamp input.nonce
        input.bodyHash
  | channel binding sequence => additionalData binding sequence

def label : Signed → Text
  | enrollment label _ => label
  | receipt _ _ => ENROLLMENT_RECEIPT_LABEL
  | handshake label _ => label
  | httpProof _ => NODE_HTTP_PROOF_LABEL
  | channel _ _ => CHANNEL_AAD_LABEL

/-- The names and values, as they are signed. -/
def fields : Signed → List (Text × Text)
  | enrollment _ input => input.fields
  | receipt input nodeId => input.fields ++ [(ofString "nodeId", nodeId)]
  | handshake _ input => input.fields
  | httpProof input =>
      [(ofString "nodeId", input.nodeId),
        (ofString "method", id.toUpperCase input.method),
        (ofString "path", input.path),
        (ofString "timestamp", input.timestamp),
        (ofString "nonce", input.nonce),
        (ofString "bodyHash", input.bodyHash)]
  | channel binding sequence =>
      [(ofString "protocol", binding.protocol),
        (ofString "hostId", binding.hostId),
        (ofString "nodeId", binding.nodeId),
        (ofString "connectionId", binding.connectionId),
        (ofString "sequence", ofString (toString sequence))]

/-- The same with the method in upper case, as it is signed. -/
def signed : Signed → Signed
  | httpProof input => httpProof { input with method := id.toUpperCase input.method }
  | other => other

/-- How many fields a kind has. -/
def size : Signed → Nat
  | enrollment _ _ => 7
  | receipt _ _ => 8
  | handshake _ _ => 11
  | httpProof _ => 6
  | channel _ _ => 5

theorem length_fields (t : Signed) : (t.fields id).length = t.size := by
  cases t <;> rfl

theorem bytes_eq (t : Signed) : t.bytes id = transcriptBytes t.label (t.fields id) := by
  cases t <;> rfl

end Signed

/-- A string the length of whose bytes fits its prefix, and which they determine. -/
def Encodable (s : Text) : Prop := wellFormed s = true ∧ (toUtf8 s).length < 2 ^ 32

def Signed.Encodable (id : NodeIdentity) (t : Signed) : Prop :=
  NodeAuth.Encodable t.label ∧ ∀ f ∈ t.fields id, NodeAuth.Encodable f.1 ∧ NodeAuth.Encodable f.2

/-- A transcript determines its domain and its fields. -/
theorem transcriptBytes_eq {d e : Text} {fs gs : List (Text × Text)} (hd : Encodable d)
    (he : Encodable e) (hfs : ∀ f ∈ fs, Encodable f.1 ∧ Encodable f.2)
    (hgs : ∀ g ∈ gs, Encodable g.1 ∧ Encodable g.2)
    (h : transcriptBytes d fs = transcriptBytes e gs) : d = e ∧ fs = gs := by
  rcases transcriptBytes_injective hd.2 he.2 (fun f hf => ⟨(hfs f hf).1.2, (hfs f hf).2.2⟩)
    (fun g hg => ⟨(hgs g hg).1.2, (hgs g hg).2.2⟩) h with ⟨hdomain, hfields⟩
  refine ⟨toUtf8_injective hd.1 he.1 hdomain, ?_⟩
  -- The fields are the same bytes one by one, and so the same strings.
  clear h
  induction fs generalizing gs with
  | nil =>
      rw [List.map_nil] at hfields
      exact (List.map_eq_nil_iff.mp hfields.symm).symm
  | cons f fs ih =>
      cases gs with
      | nil => cases hfields
      | cons g gs =>
          rw [List.map_cons, List.map_cons, List.cons.injEq, Prod.mk.injEq] at hfields
          have hf := hfs f List.mem_cons_self
          have hg := hgs g List.mem_cons_self
          have hfield : f = g := Prod.ext
            (toUtf8_injective hf.1.1 hg.1.1 hfields.1.1)
            (toUtf8_injective hf.2.1 hg.2.1 hfields.1.2)
          rw [hfield, ih (fun x hx => hfs x (List.mem_cons_of_mem f hx))
            (fun x hx => hgs x (List.mem_cons_of_mem g hx)) hfields.2]

theorem EnrollmentTranscriptInput.fields_injective {a b : EnrollmentTranscriptInput}
    (h : a.fields = b.fields) : a = b := by
  cases a
  cases b
  simp only [fields, List.cons.injEq, Prod.mk.injEq, true_and, and_true] at h
  simp only [h]

theorem HandshakeTranscriptInput.fields_injective {a b : HandshakeTranscriptInput}
    (h : a.fields = b.fields) : a = b := by
  cases a
  cases b
  simp only [fields, List.cons.injEq, Prod.mk.injEq, true_and, and_true] at h
  simp only [h]

/-- Each kind has its own number of fields, so the fields tell the kind, and its values. -/
theorem Signed.of_fields_eq (id : NodeIdentity) {t u : Signed} (hlabel : t.label = u.label)
    (h : t.fields id = u.fields id) : t.signed id = u.signed id := by
  have hsize : t.size = u.size := by rw [← t.length_fields id, h, u.length_fields id]
  cases t with
  | enrollment label input =>
      cases u with
      | enrollment label' input' =>
          rw [show label = label' from hlabel, EnrollmentTranscriptInput.fields_injective h]
      | receipt | handshake | httpProof | channel => simp [size] at hsize
  | receipt input nodeId =>
      cases u with
      | receipt input' nodeId' =>
          rcases List.append_inj h rfl with ⟨hinput, hid⟩
          simp only [List.cons.injEq, Prod.mk.injEq, true_and, and_true] at hid
          rw [EnrollmentTranscriptInput.fields_injective hinput, hid]
      | enrollment | handshake | httpProof | channel => simp [size] at hsize
  | handshake label input =>
      cases u with
      | handshake label' input' =>
          rw [show label = label' from hlabel, HandshakeTranscriptInput.fields_injective h]
      | enrollment | receipt | httpProof | channel => simp [size] at hsize
  | httpProof input =>
      cases u with
      | httpProof input' =>
          cases input
          cases input'
          simp only [fields, List.cons.injEq, Prod.mk.injEq, true_and, and_true] at h
          simp only [signed, h]
      | enrollment | receipt | handshake | channel => simp [size] at hsize
  | channel binding sequence =>
      cases u with
      | channel binding' sequence' =>
          cases binding
          cases binding'
          simp only [fields, List.cons.injEq, Prod.mk.injEq, true_and, and_true] at h
          rcases h with ⟨hprotocol, hhost, hnode, hconnection, hsequence⟩
          rw [ofString_toString_injective hsequence, hprotocol, hhost, hnode, hconnection]
      | enrollment | receipt | handshake | httpProof => simp [size] at hsize

/-- Equal bytes are one list of strings, and one transcript of the protocol. -/
theorem signed_injective (id : NodeIdentity) :
    (∀ (d e : Text) (fs gs : List (Text × Text)), Encodable d → Encodable e →
      (∀ f ∈ fs, Encodable f.1 ∧ Encodable f.2) → (∀ g ∈ gs, Encodable g.1 ∧ Encodable g.2) →
      transcriptBytes d fs = transcriptBytes e gs → d = e ∧ fs = gs) ∧
    ∀ t u : Signed, t.Encodable id → u.Encodable id → t.bytes id = u.bytes id →
      t.signed id = u.signed id := by
  refine ⟨fun d e fs gs hd he hfs hgs h => transcriptBytes_eq hd he hfs hgs h, ?_⟩
  intro t u ht hu h
  rw [t.bytes_eq, u.bytes_eq] at h
  rcases transcriptBytes_eq ht.1 hu.1 ht.2 hu.2 h with ⟨hlabel, hfields⟩
  exact Signed.of_fields_eq id hlabel hfields

theorem length_toUtf8_ofString (s : String) : (toUtf8 (ofString s)).length ≤ 4 * s.toList.length := by
  unfold toUtf8
  rw [scalars_ofString]
  induction s.toList with
  | nil => exact Nat.zero_le _
  | cons c rest ih =>
      have hsize := Char.utf8Size_le_four c
      rw [List.flatMap_cons, List.length_append, String.length_utf8EncodeChar, List.length_cons]
      omega

theorem encodable_ofString {s : String} (h : s.toList.length < 2 ^ 30) :
    Encodable (ofString s) :=
  ⟨wellFormed_ofString s, by have hle := length_toUtf8_ofString s; omega⟩

namespace Sample

/-- A platform that knows one method. -/
def identity : NodeIdentity where
  sha256Hex _ := ofString "e3b0c442"
  toUpperCase s := if s = ofString "get" then ofString "GET" else s
  verifyIdentitySignature _ _ _ := true

def proof (method : Text) : Signed :=
  .httpProof {
    nodeId := ofString "node"
    method
    path := ofString "/api/sessions"
    timestamp := ofString "1700000000000"
    nonce := ofString "nonce"
    bodyHash := ofString "e3b0c442" }

theorem fields_proof {method : Text} (h : identity.toUpperCase method = ofString "GET") :
    (proof method).fields identity =
      [(ofString "nodeId", ofString "node"),
        (ofString "method", ofString "GET"),
        (ofString "path", ofString "/api/sessions"),
        (ofString "timestamp", ofString "1700000000000"),
        (ofString "nonce", ofString "nonce"),
        (ofString "bodyHash", ofString "e3b0c442")] := by
  simp only [proof, Signed.fields, h]

theorem encodable_proof {method : Text} (h : identity.toUpperCase method = ofString "GET") :
    (proof method).Encodable identity := by
  refine ⟨encodable_ofString (by simp), ?_⟩
  rw [fields_proof h]
  simp only [List.forall_mem_cons]
  exact ⟨⟨encodable_ofString (by simp), encodable_ofString (by simp)⟩,
    ⟨encodable_ofString (by simp), encodable_ofString (by simp)⟩,
    ⟨encodable_ofString (by simp), encodable_ofString (by simp)⟩,
    ⟨encodable_ofString (by simp), encodable_ofString (by simp)⟩,
    ⟨encodable_ofString (by simp), encodable_ofString (by simp)⟩,
    ⟨encodable_ofString (by simp), encodable_ofString (by simp)⟩, fun _ h => by cases h⟩

end Sample

/-- A proof for a method in lower case is one for it in upper case. -/
theorem signed_injective_method :
    (Sample.proof (ofString "get")).signed Sample.identity =
      (Sample.proof (ofString "GET")).signed Sample.identity := by
  have hlower : Sample.identity.toUpperCase (ofString "get") = ofString "GET" := by
    simp [Sample.identity]
  have hupper : Sample.identity.toUpperCase (ofString "GET") = ofString "GET" := by
    simp [Sample.identity]
  refine (signed_injective Sample.identity).2 _ _ (Sample.encodable_proof hlower)
    (Sample.encodable_proof hupper) ?_
  rw [Signed.bytes_eq, Signed.bytes_eq, Sample.fields_proof hlower, Sample.fields_proof hupper]
  rfl

end NodeAuth

end CopilotFleet
