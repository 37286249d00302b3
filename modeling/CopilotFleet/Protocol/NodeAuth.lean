import CopilotFleet.Lib.Utf16
import Mathlib.Data.Nat.Digits.Defs

/-!
# Node Authentication

The bytes both ends of a Node connection sign, authenticate or derive keys
from, the verifier of a signed Node HTTP call, and one end of the channel that
carries every frame after the handshake.

Everything signed is a transcript: a domain and then named fields, each with
its length in front of it. The lengths are what make the encoding injective,
so that two different lists of fields never sign as one
(`transcriptBytes_injective`).

The verifier is a pure function of the request and of one clock reading. It
accepts a proof whose timestamp is within the window on either side, the edges
included; whether the proof is new is not its question.

The channel numbers its frames with a JavaScript number. That is exact up to
`2 ^ 53` and then stops moving, because the next representable number is two
further on and a sum that falls between rounds to even. `jsSucc` is that
increment; a channel nonce is unique for as long as it still counts.

## Main definitions

* `transcriptBytes`: The bytes a signature is over.
* `NodeIdentity`: What the verifier asks of the platform's cryptography.
* `verifyNodeHttpProof`: Whether a call was made just now by a key's holder.
* `channelNonce`: Four bytes of direction, eight of sequence.
* `additionalData`: What a frame's tag covers besides its plaintext.
* `AuthenticatedChannel`: One end of an authenticated, sequenced channel.

## Theorems

* `transcriptBytes_injective`: A transcript determines its domain and fields.
* `channelNonce_injective`: A nonce determines its direction and its sequence.
-/

namespace CopilotFleet

namespace NodeAuth

open Utf16

/-- Bytes, as the source's `Buffer` holds them. -/
abbrev Bytes := List UInt8

/-! ### Transcripts -/

/-- `writeUInt32BE`. A string's byte count never reaches `2 ^ 32`. -/
def uint32BE (n : Nat) : Bytes :=
  [UInt8.ofNat (n / 2 ^ 24), UInt8.ofNat (n / 2 ^ 16), UInt8.ofNat (n / 2 ^ 8), UInt8.ofNat n]

def lengthPrefixed (value : Text) : Bytes :=
  let bytes := toUtf8 value
  uint32BE bytes.length ++ bytes

/-- The bytes a signature, an HMAC or a key derivation is over: a domain, then
    each field's name and value, each length-prefixed. -/
def transcriptBytes (domain : Text) (fields : List (Text × Text)) : Bytes :=
  lengthPrefixed domain ++ fields.flatMap fun f => lengthPrefixed f.1 ++ lengthPrefixed f.2

theorem uint32BE_injective {m n : Nat} (hm : m < 2 ^ 32) (hn : n < 2 ^ 32)
    (h : uint32BE m = uint32BE n) : m = n := by
  simp only [uint32BE, List.cons.injEq, and_true] at h
  rcases h with ⟨h3, h2, h1, h0⟩
  have e3 := congrArg UInt8.toNat h3
  have e2 := congrArg UInt8.toNat h2
  have e1 := congrArg UInt8.toNat h1
  have e0 := congrArg UInt8.toNat h0
  simp only [UInt8.toNat_ofNat'] at e3 e2 e1 e0
  omega

/-- Two values in front of any two rests: equal bytes mean equal values. -/
theorem lengthPrefixed_append_injective {v w : Text} {xs ys : Bytes}
    (hv : (toUtf8 v).length < 2 ^ 32) (hw : (toUtf8 w).length < 2 ^ 32)
    (h : lengthPrefixed v ++ xs = lengthPrefixed w ++ ys) : toUtf8 v = toUtf8 w ∧ xs = ys := by
  unfold lengthPrefixed at h
  rw [List.append_assoc, List.append_assoc] at h
  have hsplit := List.append_inj h rfl
  have hlen : (toUtf8 v).length = (toUtf8 w).length := uint32BE_injective hv hw hsplit.1
  exact List.append_inj hsplit.2 hlen

/-- A transcript determines its domain and its fields, as the bytes they are. -/
theorem transcriptBytes_injective {d e : Text} {fs gs : List (Text × Text)}
    (hd : (toUtf8 d).length < 2 ^ 32) (he : (toUtf8 e).length < 2 ^ 32)
    (hfs : ∀ f ∈ fs, (toUtf8 f.1).length < 2 ^ 32 ∧ (toUtf8 f.2).length < 2 ^ 32)
    (hgs : ∀ g ∈ gs, (toUtf8 g.1).length < 2 ^ 32 ∧ (toUtf8 g.2).length < 2 ^ 32)
    (h : transcriptBytes d fs = transcriptBytes e gs) :
    toUtf8 d = toUtf8 e ∧
      fs.map (fun f => (toUtf8 f.1, toUtf8 f.2)) = gs.map fun g => (toUtf8 g.1, toUtf8 g.2) := by
  unfold transcriptBytes at h
  rcases lengthPrefixed_append_injective hd he h with ⟨hdomain, hrest⟩
  refine ⟨hdomain, ?_⟩
  have hne (v : Text) (xs : Bytes) : lengthPrefixed v ++ xs ≠ [] := by
    simp [lengthPrefixed, uint32BE]
  -- Field by field: each pair of prefixes peels one field off both sides.
  clear h hdomain
  induction fs generalizing gs with
  | nil =>
      cases gs with
      | nil => rfl
      | cons g gs =>
          rw [List.flatMap_nil, List.flatMap_cons, List.append_assoc] at hrest
          exact absurd hrest.symm (hne g.1 _)
  | cons f fs ih =>
      cases gs with
      | nil =>
          rw [List.flatMap_nil, List.flatMap_cons, List.append_assoc] at hrest
          exact absurd hrest (hne f.1 _)
      | cons g gs =>
          simp only [List.flatMap_cons, List.append_assoc] at hrest
          have hf := hfs f List.mem_cons_self
          have hg := hgs g List.mem_cons_self
          rcases lengthPrefixed_append_injective hf.1 hg.1 hrest with ⟨hname, hrest'⟩
          rcases lengthPrefixed_append_injective hf.2 hg.2 hrest' with ⟨hvalue, hrest''⟩
          have htail := ih (fun x hx => hfs x (List.mem_cons_of_mem f hx))
            (fun x hx => hgs x (List.mem_cons_of_mem g hx)) hrest''
          rw [List.map_cons, List.map_cons, htail, hname, hvalue]

/-! ### Signed HTTP calls -/

/-- What the verifier asks of the platform: the digest of a body, the upper
    case of a method, and whether a signature over some bytes is a key's. -/
structure NodeIdentity where
  sha256Hex : Text → Text
  toUpperCase : Text → Text
  verifyIdentitySignature : Text → Bytes → Text → Bool

/-- How far apart two clocks may be before a proof is refused. -/
def NODE_HTTP_PROOF_WINDOW_MS : Int := 60000

def MAX_NODE_HTTP_PROOF_NONCE_LENGTH : Nat := 64

def NODE_HTTP_PROOF_LABEL : Text := ofString "fleet-node-http-proof-v1"

/-- An absent body is the empty one. -/
def canonicalBodyHash (id : NodeIdentity) (body : Option Text) : Text :=
  id.sha256Hex (body.getD [])

def nodeHttpProofTranscript (id : NodeIdentity)
    (nodeId method path timestamp nonce bodyHash : Text) : Bytes :=
  transcriptBytes NODE_HTTP_PROOF_LABEL
    [(ofString "nodeId", nodeId),
      (ofString "method", id.toUpperCase method),
      (ofString "path", path),
      (ofString "timestamp", timestamp),
      (ofString "nonce", nonce),
      (ofString "bodyHash", bodyHash)]

/-- Why a proof is refused. -/
inductive ProofRefusal where
  | malformed
  | clock
  | signature
  deriving DecidableEq, Repr

/-- What a call presents, and the key the Host holds for its node. -/
structure NodeHttpProofInput where
  publicKey : Text
  nodeId : Text
  method : Text
  path : Text
  body : Option Text
  timestamp : Text
  nonce : Text
  signature : Text
  deriving DecidableEq

/-- `\d`. -/
def isDigit (u : UInt16) : Bool := 0x30 ≤ u.toNat && u.toNat ≤ 0x39

/-- `/^\d{1,15}$/`. -/
def isTimestamp (s : Text) : Bool := s.all isDigit && 1 ≤ s.length && s.length ≤ 15

/-- `Number(s)` for a string of at most fifteen digits, where it is exact. -/
def numberOf (s : Text) : Int := s.foldl (fun n u => n * 10 + (u.toNat - 0x30)) 0

/-- Whether this call was made, just now, by the holder of that key. -/
def verifyNodeHttpProof (id : NodeIdentity) (input : NodeHttpProofInput) (now : Int) :
    Except ProofRefusal Unit :=
  if input.publicKey.isEmpty || input.signature.isEmpty then .error .malformed
  else if input.nonce.isEmpty || MAX_NODE_HTTP_PROOF_NONCE_LENGTH < input.nonce.length then
    .error .malformed
  else if !isTimestamp input.timestamp then .error .clock
  else if NODE_HTTP_PROOF_WINDOW_MS < |now - numberOf input.timestamp| then .error .clock
  else if id.verifyIdentitySignature input.publicKey
      (nodeHttpProofTranscript id input.nodeId input.method input.path input.timestamp
        input.nonce (canonicalBodyHash id input.body)) input.signature then .ok ()
  else .error .signature

/-! ### The authenticated channel -/

/-- The increment of a JavaScript number: exact up to `2 ^ 53`, where the next
    sum rounds back to even. -/
def jsSucc (n : Nat) : Nat := if n < 2 ^ 53 then n + 1 else n

inductive ChannelDirection where
  | hostToNode
  | nodeToHost
  deriving DecidableEq, Repr

/-- The direction the other end seals in. -/
def ChannelDirection.flip : ChannelDirection → ChannelDirection
  | .hostToNode => .nodeToHost
  | .nodeToHost => .hostToNode

structure ChannelBinding where
  protocol : Text
  hostId : Text
  nodeId : Text
  connectionId : Text
  deriving DecidableEq

structure ChannelKeys where
  hostToNode : Bytes
  nodeToHost : Bytes
  deriving DecidableEq

inductive ChannelFailure where
  | connection
  | sequence
  | authentication
  deriving DecidableEq, Repr

/-- Every frame either end sends once the handshake is done. -/
structure AuthenticatedEnvelope where
  connectionId : Text
  sequence : Nat
  ciphertext : Text
  authenticationTag : Text
  deriving DecidableEq

def DIRECTION_NONCE_PREFIX : ChannelDirection → Bytes
  | .hostToNode => [0x48, 0x32, 0x4e, 0x01]
  | .nodeToHost => [0x4e, 0x32, 0x48, 0x01]

def TAG_BYTES : Nat := 16

/-- `writeBigUInt64BE`. -/
def uint64BE (n : Nat) : Bytes := uint32BE (n / 2 ^ 32) ++ uint32BE (n % 2 ^ 32)

/-- Four bytes of direction, eight of sequence. -/
def channelNonce (direction : ChannelDirection) (sequence : Nat) : Bytes :=
  DIRECTION_NONCE_PREFIX direction ++ uint64BE sequence

def CHANNEL_AAD_LABEL : Text := ofString "fleet-node-channel-aad-v1"

def additionalData (binding : ChannelBinding) (sequence : Nat) : Bytes :=
  transcriptBytes CHANNEL_AAD_LABEL
    [(ofString "protocol", binding.protocol),
      (ofString "hostId", binding.hostId),
      (ofString "nodeId", binding.nodeId),
      (ofString "connectionId", binding.connectionId),
      (ofString "sequence", ofString (toString sequence))]

theorem channelNonce_injective {d e : ChannelDirection} {m n : Nat}
    (hm : m < 2 ^ 64) (hn : n < 2 ^ 64) (h : channelNonce d m = channelNonce e n) :
    d = e ∧ m = n := by
  have hlen : (DIRECTION_NONCE_PREFIX d).length = (DIRECTION_NONCE_PREFIX e).length := by
    cases d <;> cases e <;> rfl
  rcases List.append_inj h hlen with ⟨hpre, hcounter⟩
  rcases List.append_inj hcounter rfl with ⟨hhi, hlo⟩
  have ehi := uint32BE_injective (by omega) (by omega) hhi
  have elo := uint32BE_injective (by omega) (by omega) hlo
  refine ⟨?_, by omega⟩
  cases d <;> cases e <;> first | rfl | (simp [DIRECTION_NONCE_PREFIX] at hpre)

/-- One end of an authenticated, sequenced channel. A refusal is terminal: the
    first one is kept, and every later frame gets the same answer. -/
structure AuthenticatedChannel where
  keys : ChannelKeys
  binding : ChannelBinding
  seals : ChannelDirection
  opens : ChannelDirection
  outgoing : Nat
  incoming : Nat
  failure : Option ChannelFailure

/-- `new AuthenticatedChannel`. -/
def AuthenticatedChannel.new (keys : ChannelKeys) (binding : ChannelBinding)
    (seals : ChannelDirection) : AuthenticatedChannel :=
  { keys, binding, seals, opens := seals.flip, outgoing := 0, incoming := 0, failure := none }

def ChannelKeys.keyFor (keys : ChannelKeys) : ChannelDirection → Bytes
  | .hostToNode => keys.hostToNode
  | .nodeToHost => keys.nodeToHost

end NodeAuth

end CopilotFleet
