import CopilotFleet.Lib.Aead
import CopilotFleet.Lib.Run
import CopilotFleet.Protocol.NodeAuth
import Mathlib.Data.List.Infix
import Mathlib.Logic.Function.Basic

/-!
# The Authenticated Channel

Both ends of one channel and everything an attacker may do between them. An
end seals whatever it is given; the attacker delivers whatever envelope it
likes, whether an end made it, another connection made it or nobody did; and
other connections seal under their own keys. The cipher is ideal: a box opens
exactly when it was sealed under the same key, nonce and associated data.

What an end accepts is then what its peer sealed, in the peer's order and
without a gap (`accepted_prefix`). Equality of the sequence number fixes the
nonce, the nonce fixes which seal of the peer's stream the box can be, and the
counter moves only on acceptance. A refusal is remembered by the end itself,
so nothing is accepted after one whatever the caller does
(`run_of_failure`).

Two limits come with the representation and not with the design. A plaintext
crosses as UTF-8, so it arrives in its well-formed form; and the counter is a
JavaScript number, so it stops at `2 ^ 53`.

## Main definitions

* `ChannelPlatform`: The cipher and the base64 codec of the platform.
* `«seal»`: Sealing the next frame.
* `«open»`: Opening a frame, or refusing it for good.
* `Wire`: Both ends, and every use of the cipher so far.
* `Act`: What may happen next.
* `Sound`: What every run keeps.

## Theorems

* `open_cases`: A frame is accepted as sealed, or refused.
* `open_of_failure`, `run_of_failure`: A refusal is remembered.
* `step_sound`: Every act keeps the wire sound.
* `channel_accepts_as_sealed`: The channel's guarantee over every run.
-/

namespace CopilotFleet

namespace NodeAuth

open Utf16

/-- A ciphertext and its authentication tag. -/
abbrev Box := Bytes × Bytes

/-- Every use of the cipher so far, by anyone. -/
abbrev Log := List (Aead.Entry Bytes Bytes Bytes Bytes Box)

/-- What the channel takes from the platform: the cipher's output for a key,
    a nonce, associated data and a plaintext, and `Buffer`'s base64 codec. -/
structure ChannelPlatform where
  aes256gcm : Bytes → Bytes → Bytes → Bytes → Box
  toBase64 : Bytes → Text
  fromBase64 : Text → Bytes

namespace AuthenticatedChannel

/-- Seal the next frame: the envelope, the end after it, and the cipher's log. -/
def «seal» (c : ChannelPlatform) (log : Log) (channel : AuthenticatedChannel) (plaintext : Text) :
    AuthenticatedEnvelope × AuthenticatedChannel × Log :=
  let sequence := channel.outgoing
  let used := Aead.sealBox c.aes256gcm log (channel.keys.keyFor channel.seals)
    (channelNonce channel.seals sequence) (additionalData channel.binding sequence)
    (toUtf8 plaintext)
  ({ connectionId := channel.binding.connectionId
     sequence
     ciphertext := c.toBase64 used.1.1
     authenticationTag := c.toBase64 used.1.2 },
    { channel with outgoing := jsSucc sequence }, used.2)

/-- Keep the reason, so that every later frame gets the same answer. -/
def refuse (channel : AuthenticatedChannel) (reason : ChannelFailure) :
    Except ChannelFailure Text × AuthenticatedChannel :=
  (.error reason, { channel with failure := some reason })

/-- Open one frame: its plaintext or a refusal, and the end after it. -/
def «open» (c : ChannelPlatform) (log : Log) (channel : AuthenticatedChannel)
    (envelope : AuthenticatedEnvelope) : Except ChannelFailure Text × AuthenticatedChannel :=
  match channel.failure with
  | some reason => (.error reason, channel)
  | none =>
      if envelope.connectionId ≠ channel.binding.connectionId then channel.refuse .connection
      -- Equality rather than "greater than": a gap is as broken as a replay.
      else if envelope.sequence ≠ channel.incoming then channel.refuse .sequence
      else if (c.fromBase64 envelope.authenticationTag).length ≠ TAG_BYTES then
        channel.refuse .authentication
      else
        match Aead.openBox log (channel.keys.keyFor channel.opens)
            (channelNonce channel.opens envelope.sequence)
            (additionalData channel.binding envelope.sequence)
            (c.fromBase64 envelope.ciphertext, c.fromBase64 envelope.authenticationTag) with
        | none => channel.refuse .authentication
        | some plaintext =>
            (.ok (fromUtf8 plaintext), { channel with incoming := jsSucc channel.incoming })

/-- Everything opening can do. Either the frame opened under the nonce of the
    end's own counter and only that counter moved, or the end keeps a refusal. -/
theorem open_cases (c : ChannelPlatform) (log : Log) (channel : AuthenticatedChannel)
    (envelope : AuthenticatedEnvelope) :
    (channel.failure = none ∧ ∃ data box bytes,
      Aead.openBox log (channel.keys.keyFor channel.opens)
        (channelNonce channel.opens channel.incoming) data box = some bytes ∧
      channel.open c log envelope =
        (.ok (fromUtf8 bytes), { channel with incoming := jsSucc channel.incoming })) ∨
    ∃ reason, channel.open c log envelope =
      (.error reason, { channel with failure := some reason }) := by
  unfold AuthenticatedChannel.open
  cases hfail : channel.failure with
  | some reason => exact .inr ⟨reason, by simp only [← hfail]⟩
  | none =>
      by_cases hid : envelope.connectionId ≠ channel.binding.connectionId
      · exact .inr ⟨.connection, by simp only [if_pos hid, refuse]⟩
      by_cases hseq : envelope.sequence ≠ channel.incoming
      · exact .inr ⟨.sequence, by simp only [if_neg hid, if_pos hseq, refuse]⟩
      by_cases htag : (c.fromBase64 envelope.authenticationTag).length ≠ TAG_BYTES
      · exact .inr ⟨.authentication, by
          simp only [if_neg hid, if_neg hseq, if_pos htag, refuse]⟩
      simp only [if_neg hid, if_neg hseq, if_neg htag]
      rw [not_not] at hseq
      rw [hseq]
      cases hopen : Aead.openBox log (channel.keys.keyFor channel.opens)
          (channelNonce channel.opens channel.incoming)
          (additionalData channel.binding channel.incoming)
          (c.fromBase64 envelope.ciphertext, c.fromBase64 envelope.authenticationTag) with
      | none => exact .inr ⟨.authentication, by simp only [refuse]⟩
      | some bytes =>
          exact .inl ⟨trivial, _, _, bytes, hopen, by simp only [← hfail]⟩

/-- An end that has refused refuses everything. -/
theorem open_of_failure (c : ChannelPlatform) (log : Log) {channel : AuthenticatedChannel}
    {reason : ChannelFailure} (h : channel.failure = some reason)
    (envelope : AuthenticatedEnvelope) :
    channel.open c log envelope = (.error reason, channel) := by
  unfold AuthenticatedChannel.open
  rw [h]

end AuthenticatedChannel

/-! ### Both ends under attack -/

/-- Both ends of one channel, each named by the direction it seals in, with
    the plaintexts each has sealed and accepted and every use of the cipher. -/
structure Wire where
  ends : ChannelDirection → AuthenticatedChannel
  log : Log
  sealed : ChannelDirection → List Text
  accepted : ChannelDirection → List Text

/-- What may happen next: an end seals, the attacker delivers an envelope to
    an end, or some other connection uses the cipher under its own key. -/
inductive Act where
  | frame (d : ChannelDirection) (plaintext : Text)
  | deliver (d : ChannelDirection) (envelope : AuthenticatedEnvelope)
  | elsewhere (key nonce data plaintext : Bytes)

namespace Wire

def start (keys : ChannelKeys) (binding : ChannelBinding) : Wire :=
  { ends := AuthenticatedChannel.new keys binding
    log := []
    sealed := fun _ => []
    accepted := fun _ => [] }

def step (c : ChannelPlatform) (keys : ChannelKeys) (w : Wire) : Act → Wire
  | .frame d plaintext =>
      let done := (w.ends d).seal c w.log plaintext
      { w with
        ends := Function.update w.ends d done.2.1
        log := done.2.2
        sealed := Function.update w.sealed d (w.sealed d ++ [plaintext]) }
  | .deliver d envelope =>
      let opened := (w.ends d).open c w.log envelope
      { w with
        ends := Function.update w.ends d opened.2
        accepted := match opened.1 with
          | .ok plaintext => Function.update w.accepted d (w.accepted d ++ [plaintext])
          | .error _ => w.accepted }
  | .elsewhere key nonce data plaintext =>
      -- Keys come out of a handshake, so no other connection has these two.
      if key = keys.hostToNode ∨ key = keys.nodeToHost then w
      else { w with log := (Aead.sealBox c.aes256gcm w.log key nonce data plaintext).2 }

/-- Where a schedule of acts leaves the wire. -/
def run (c : ChannelPlatform) (keys : ChannelKeys) (binding : ChannelBinding)
    (acts : List Act) : Wire :=
  Run.final (step c keys) (start keys binding) acts

/-- Every use of this channel's two keys, as the key and the nonce. -/
def uses (keys : ChannelKeys) (w : Wire) : List (Bytes × Bytes) :=
  (w.log.filter fun e => e.key = keys.hostToNode ∨ e.key = keys.nodeToHost).map
    fun e => (e.key, e.nonce)

/-- The nonce of the `i`-th frame of a direction, where the counter stops. -/
def nonceAt (d : ChannelDirection) (i : Nat) : Bytes := channelNonce d (min i (2 ^ 53))

/-- An end of direction `d` that has sealed `sent` frames and accepted
    `received`. -/
structure Counts (keys : ChannelKeys) (d : ChannelDirection) (sent received : Nat)
    (channel : AuthenticatedChannel) : Prop where
  keys_eq : channel.keys = keys
  seals_eq : channel.seals = d
  opens_eq : channel.opens = d.flip
  outgoing_eq : channel.outgoing = min sent (2 ^ 53)
  incoming_eq : channel.incoming = min received (2 ^ 53)

/-- What every run keeps: each key was used for its own direction's frames in
    order, each counter counts its list, and what was accepted was sealed. -/
structure Sound (keys : ChannelKeys) (w : Wire) : Prop where
  ends : ∀ d, Counts keys d (w.sealed d).length (w.accepted d).length (w.ends d)
  stream : ∀ d, Aead.Stream w.log (keys.keyFor d) (nonceAt d) ((w.sealed d).map toUtf8)
  accepted_prefix : ∀ d, (w.sealed d.flip).length ≤ 2 ^ 53 →
    w.accepted d <+: (w.sealed d.flip).map toWellFormed

theorem start_sound (keys : ChannelKeys) (binding : ChannelBinding) :
    Sound keys (start keys binding) where
  ends _ := ⟨rfl, rfl, rfl, rfl, rfl⟩
  stream _ := Aead.stream_nil _ _
  accepted_prefix _ _ := List.nil_prefix

theorem jsSucc_min (n : Nat) : jsSucc (min n (2 ^ 53)) = min (n + 1) (2 ^ 53) := by
  unfold jsSucc
  split <;> omega

theorem Counts.sent {keys : ChannelKeys} {d : ChannelDirection} {m n : Nat}
    {channel : AuthenticatedChannel} (h : Counts keys d m n channel) :
    Counts keys d (m + 1) n { channel with outgoing := jsSucc channel.outgoing } :=
  { h with outgoing_eq := by rw [h.outgoing_eq]; exact jsSucc_min m }

theorem Counts.received {keys : ChannelKeys} {d : ChannelDirection} {m n : Nat}
    {channel : AuthenticatedChannel} (h : Counts keys d m n channel) :
    Counts keys d m (n + 1) { channel with incoming := jsSucc channel.incoming } :=
  { h with incoming_eq := by rw [h.incoming_eq]; exact jsSucc_min n }

theorem keyFor_ne {keys : ChannelKeys} (hkeys : keys.hostToNode ≠ keys.nodeToHost)
    {d e : ChannelDirection} (h : d ≠ e) : keys.keyFor d ≠ keys.keyFor e := by
  cases d <;> cases e
  · exact absurd rfl h
  · exact hkeys
  · exact hkeys.symm
  · exact absurd rfl h

theorem nonceAt_injective {d : ChannelDirection} {i j : Nat}
    (h : nonceAt d i = nonceAt d j) : min i (2 ^ 53) = min j (2 ^ 53) :=
  (channelNonce_injective (by omega) (by omega) h).2

theorem seal_sound (c : ChannelPlatform) {keys : ChannelKeys}
    (hkeys : keys.hostToNode ≠ keys.nodeToHost) {w : Wire} (h : Sound keys w)
    (d : ChannelDirection) (p : Text) : Sound keys (step c keys w (.frame d p)) := by
  have hd := h.ends d
  have hlog : (step c keys w (.frame d p)).log =
      (Aead.sealBox c.aes256gcm w.log (keys.keyFor d) (nonceAt d ((w.sealed d).map toUtf8).length)
        (additionalData (w.ends d).binding (w.ends d).outgoing) (toUtf8 p)).2 := by
    simp only [step, AuthenticatedChannel.seal, hd.keys_eq, hd.seals_eq, hd.outgoing_eq, nonceAt,
      List.length_map]
  refine ⟨?_, ?_, ?_⟩
  · intro e
    rcases eq_or_ne e d with rfl | hne
    · simpa [step, AuthenticatedChannel.seal] using hd.sent
    · simpa [step, hne] using h.ends e
  · intro e
    rw [hlog]
    rcases eq_or_ne e d with rfl | hne
    · simpa [step] using Aead.stream_seal (h.stream e) c.aes256gcm _ (toUtf8 p)
    · simpa [step, hne] using
        Aead.stream_seal_other (h.stream e) (keyFor_ne hkeys hne.symm) c.aes256gcm _ _ (toUtf8 p)
  · intro e hlen
    rcases eq_or_ne e.flip d with hflip | hne
    · simp only [step, hflip, Function.update_self, List.length_append, List.length_cons,
        List.length_nil, List.map_append, List.map_cons, List.map_nil] at hlen ⊢
      have hold := h.accepted_prefix e (by rw [hflip]; omega)
      rw [hflip] at hold
      exact hold.trans (List.prefix_append _ _)
    · simp only [step, Function.update_of_ne hne] at hlen ⊢
      exact h.accepted_prefix e hlen

/-- What an accepted frame adds is the next thing the peer sealed. -/
theorem accepted_next {keys : ChannelKeys} {w : Wire} (h : Sound keys w) {d : ChannelDirection}
    (hlen : (w.sealed d.flip).length ≤ 2 ^ 53) {data bytes : Bytes} {box : Box}
    (hopen : Aead.openBox w.log ((w.ends d).keys.keyFor (w.ends d).opens)
      (channelNonce (w.ends d).opens (w.ends d).incoming) data box = some bytes) :
    w.accepted d ++ [fromUtf8 bytes] <+: (w.sealed d.flip).map toWellFormed := by
  have hpre := h.accepted_prefix d hlen
  have hcount : (w.accepted d).length ≤ (w.sealed d.flip).length := by
    simpa using hpre.length_le
  rw [(h.ends d).keys_eq, (h.ends d).opens_eq, (h.ends d).incoming_eq] at hopen
  have hsealed : ((w.sealed d.flip).map toUtf8)[(w.accepted d).length]? = some bytes := by
    refine Aead.stream_open (h.stream d.flip) ?_ hopen
    intro j hj heq
    rw [List.length_map] at hj
    have hmin := nonceAt_injective heq
    omega
  rw [List.getElem?_map, Option.map_eq_some_iff] at hsealed
  rcases hsealed with ⟨plain, hplain, hbytes⟩
  rw [List.prefix_iff_eq_take] at hpre ⊢
  rw [List.length_append, List.length_singleton, List.take_add_one, ← hpre,
    List.getElem?_map, hplain, ← hbytes, fromUtf8_toUtf8]
  rfl

theorem deliver_sound (c : ChannelPlatform) {keys : ChannelKeys} {w : Wire} (h : Sound keys w)
    (d : ChannelDirection) (envelope : AuthenticatedEnvelope) :
    Sound keys (step c keys w (.deliver d envelope)) := by
  have hd := h.ends d
  rcases AuthenticatedChannel.open_cases c w.log (w.ends d) envelope with
    ⟨_, data, box, bytes, hopen, hout⟩ | ⟨reason, hout⟩
  · refine ⟨?_, h.stream, ?_⟩
    · intro e
      rcases eq_or_ne e d with rfl | hne
      · simpa [step, hout] using hd.received
      · simpa [step, hne, hout] using h.ends e
    · intro e hlen
      rcases eq_or_ne e d with rfl | hne
      · simpa [step, hout] using accepted_next h hlen hopen
      · simpa [step, hne, hout] using h.accepted_prefix e hlen
  · refine ⟨?_, h.stream, ?_⟩
    · intro e
      rcases eq_or_ne e d with rfl | hne
      · simpa [step, hout] using { hd with }
      · simpa [step, hne, hout] using h.ends e
    · intro e hlen
      simpa [step, hout] using h.accepted_prefix e hlen

/-- A seal under some other key touches neither stream. -/
theorem elsewhere_sound (c : ChannelPlatform) {keys : ChannelKeys} {w : Wire} (h : Sound keys w)
    (key nonce data plaintext : Bytes) :
    Sound keys (step c keys w (.elsewhere key nonce data plaintext)) := by
  simp only [step]
  by_cases hkey : key = keys.hostToNode ∨ key = keys.nodeToHost
  · rw [if_pos hkey]
    exact h
  · rw [if_neg hkey]
    rw [not_or] at hkey
    have hne (d : ChannelDirection) : key ≠ keys.keyFor d := by
      cases d
      · exact hkey.1
      · exact hkey.2
    exact ⟨h.ends, fun d => Aead.stream_seal_other (h.stream d) (hne d) _ _ _ _,
      h.accepted_prefix⟩

theorem step_sound (c : ChannelPlatform) {keys : ChannelKeys}
    (hkeys : keys.hostToNode ≠ keys.nodeToHost) (w : Wire) (act : Act) (h : Sound keys w) :
    Sound keys (step c keys w act) := by
  cases act with
  | frame d p => exact seal_sound c hkeys h d p
  | deliver d envelope => exact deliver_sound c h d envelope
  | elsewhere key nonce data plaintext => exact elsewhere_sound c h key nonce data plaintext

theorem run_sound (c : ChannelPlatform) {keys : ChannelKeys}
    (hkeys : keys.hostToNode ≠ keys.nodeToHost) (binding : ChannelBinding) (acts : List Act) :
    Sound keys (run c keys binding acts) :=
  Run.invariant _ (Sound keys) (step_sound c hkeys) acts _ (start_sound keys binding)

/-- Sound wires with few enough frames never used a key and a nonce twice. -/
theorem uses_nodup {keys : ChannelKeys} {w : Wire} (h : Sound keys w)
    (hlen : ∀ d, (w.sealed d).length ≤ 2 ^ 53 + 1) : (w.uses keys).Nodup := by
  have hnonces (d : ChannelDirection) :
      ((w.log.filter (·.key = keys.keyFor d)).map (·.nonce)).Nodup := by
    refine Aead.stream_nonces_nodup (h.stream d) ?_
    intro i hi j hj heq
    rw [List.length_map] at hi hj
    have hmin := nonceAt_injective heq
    have hd := hlen d
    omega
  exact Aead.uses_nodup (hnonces .hostToNode) (hnonces .nodeToHost)

/-- An end that has refused keeps refusing, and what it accepted stays. -/
theorem step_of_failure (c : ChannelPlatform) (keys : ChannelKeys) {w : Wire}
    {d : ChannelDirection} {reason : ChannelFailure} (h : (w.ends d).failure = some reason)
    (act : Act) : ((step c keys w act).ends d).failure = some reason ∧
      (step c keys w act).accepted d = w.accepted d := by
  cases act with
  | frame e p =>
      rcases eq_or_ne d e with rfl | hne
      · simpa [step, AuthenticatedChannel.seal] using h
      · simpa [step, hne] using h
  | deliver e envelope =>
      rcases eq_or_ne d e with rfl | hne
      · simpa [step, AuthenticatedChannel.open_of_failure c w.log h envelope] using h
      · simp only [step, Function.update_of_ne hne]
        refine ⟨h, ?_⟩
        cases ((w.ends e).open c w.log envelope).1 with
        | ok plaintext => exact Function.update_of_ne hne _ _
        | error _ => rfl
  | elsewhere key nonce data plaintext =>
      simp only [step]
      split <;> exact ⟨h, rfl⟩

theorem run_of_failure (c : ChannelPlatform) (keys : ChannelKeys) {d : ChannelDirection}
    {reason : ChannelFailure} (acts : List Act) (w : Wire)
    (h : (w.ends d).failure = some reason) :
    (Run.final (step c keys) w acts).accepted d = w.accepted d := by
  have hinv := Run.invariant (step c keys)
    (fun v => (v.ends d).failure = some reason ∧ v.accepted d = w.accepted d)
    (fun v act hv => by
      have hstep := step_of_failure c keys hv.1 act
      exact ⟨hstep.1, hstep.2.trans hv.2⟩) acts w ⟨h, rfl⟩
  exact hinv.2

/-- The channel over every schedule. What an end accepts is a prefix of what
    its peer sealed, each plaintext in its well-formed form; no key is used
    twice with one nonce; and from a refusal on nothing more is accepted. The
    first two count on the counters still counting. -/
theorem channel_accepts_as_sealed (c : ChannelPlatform) (keys : ChannelKeys)
    (hkeys : keys.hostToNode ≠ keys.nodeToHost) (binding : ChannelBinding) (acts : List Act) :
    (∀ d, ((run c keys binding acts).sealed d.flip).length ≤ 2 ^ 53 →
      (run c keys binding acts).accepted d <+:
        ((run c keys binding acts).sealed d.flip).map toWellFormed) ∧
    (∀ d, ((run c keys binding acts).sealed d.flip).length ≤ 2 ^ 53 →
      (∀ p ∈ (run c keys binding acts).sealed d.flip, wellFormed p = true) →
      (run c keys binding acts).accepted d <+: (run c keys binding acts).sealed d.flip) ∧
    ((∀ d, ((run c keys binding acts).sealed d).length ≤ 2 ^ 53 + 1) →
      ((run c keys binding acts).uses keys).Nodup) ∧
    ∀ d envelope reason more,
      (((run c keys binding acts).ends d).open c (run c keys binding acts).log envelope).1 =
        .error reason →
      (run c keys binding (acts ++ .deliver d envelope :: more)).accepted d =
        (run c keys binding acts).accepted d := by
  have hsound := run_sound c hkeys binding acts
  refine ⟨hsound.accepted_prefix, ?_, uses_nodup hsound, ?_⟩
  · intro d hlen hwell
    have hid : ((run c keys binding acts).sealed d.flip).map toWellFormed =
        (run c keys binding acts).sealed d.flip := by
      conv_rhs => rw [← List.map_id ((run c keys binding acts).sealed d.flip)]
      exact List.map_congr_left fun p hp => toWellFormed_eq p (hwell p hp)
    rw [← hid]
    exact hsound.accepted_prefix d hlen
  · intro d envelope reason more hrefused
    rcases AuthenticatedChannel.open_cases c (run c keys binding acts).log
      ((run c keys binding acts).ends d) envelope with ⟨_, _, _, _, _, hout⟩ | ⟨r, hout⟩
    · rw [hout] at hrefused
      exact absurd hrefused (by simp)
    · have hfailed : ((step c keys (run c keys binding acts)
          (.deliver d envelope)).ends d).failure = some r := by
        simp [step, hout]
      have hlast := run_of_failure c keys more _ hfailed
      unfold run at hlast hout ⊢
      rw [Run.final_append, Run.final_cons, hlast]
      simp [step, hout]

/-- A platform whose cipher leaves the plaintext as it is and whose codec
    writes one character for a byte. -/
def plainPlatform : ChannelPlatform where
  aes256gcm _ _ _ plaintext := (plaintext, List.replicate 16 0)
  toBase64 bytes := bytes.map fun b => b.toUInt16
  fromBase64 text := text.map fun u => u.toUInt8

def someKeys : ChannelKeys := { hostToNode := [1], nodeToHost := [2] }

def someBinding : ChannelBinding :=
  { protocol := [], hostId := [], nodeId := [], connectionId := [] }

/-- A frame that is delivered as it was sealed, and then once more. -/
def greeting : List Act :=
  [.frame .hostToNode [0x68, 0x69],
    .deliver .nodeToHost ⟨[], 0, [0x68, 0x69], List.replicate 16 0⟩,
    .deliver .nodeToHost ⟨[], 0, [0x68, 0x69], List.replicate 16 0⟩]

theorem channel_accepts_as_sealed_hi :
    (run plainPlatform someKeys someBinding greeting).accepted .nodeToHost = [[0x68, 0x69]] ∧
    (run plainPlatform someKeys someBinding greeting).accepted .nodeToHost <+:
      ((run plainPlatform someKeys someBinding greeting).sealed .hostToNode).map toWellFormed :=
  ⟨by decide, (channel_accepts_as_sealed plainPlatform someKeys (by decide) someBinding
    greeting).1 .nodeToHost (by decide)⟩

theorem sealed_replicate (c : ChannelPlatform) (keys : ChannelKeys) (d : ChannelDirection)
    (p : Text) (n : Nat) (w : Wire) :
    (Run.final (step c keys) w (List.replicate n (.frame d p))).sealed d =
      w.sealed d ++ List.replicate n p := by
  induction n generalizing w with
  | zero => simp
  | succ k ih =>
      rw [List.replicate_succ, Run.final_cons, ih]
      simp [step, List.replicate_succ]

/-- The frame after the counter has stopped reuses the nonce before it. -/
theorem uses_not_nodup (c : ChannelPlatform) {keys : ChannelKeys}
    (hkeys : keys.hostToNode ≠ keys.nodeToHost) (binding : ChannelBinding) (p : Text) (n : Nat)
    (hn : 2 ^ 53 + 1 < n) :
    ¬ ((run c keys binding (List.replicate n (.frame .hostToNode p))).uses keys).Nodup := by
  intro hnodup
  have hstream := (run_sound c hkeys binding (List.replicate n (.frame .hostToNode p))).stream
    .hostToNode
  have hnonces := Aead.stream_nonces hstream
  have hsealed := sealed_replicate c keys .hostToNode p n (start keys binding)
  unfold run at hnonces
  rw [hsealed, List.length_map, List.length_append, List.length_replicate] at hnonces
  have hsub := Aead.nonces_nodup_of_uses hnodup
  unfold run at hsub
  change ((_ : Log).filter (·.key = keys.keyFor .hostToNode)).map (·.nonce) |>.Nodup at hsub
  rw [hnonces] at hsub
  have hone := List.inj_on_of_nodup_map hsub (x := 2 ^ 53) (y := 2 ^ 53 + 1)
    (List.mem_range.mpr (by omega)) (List.mem_range.mpr (by omega))
    (by unfold nonceAt; rw [show min (2 ^ 53 + 1) (2 ^ 53) = min (2 ^ 53) (2 ^ 53) by omega])
  omega

/-- Without those two limits both fail: a lone surrogate arrives as U+FFFD, and
    once the counter has stopped a nonce is used again. -/
theorem channel_accepts_as_sealed_fails :
    someKeys.hostToNode ≠ someKeys.nodeToHost ∧
    ¬ ((run plainPlatform someKeys someBinding
        [.frame .hostToNode [0xD800],
          .deliver .nodeToHost ⟨[], 0, [0xEF, 0xBF, 0xBD], List.replicate 16 0⟩]).accepted
            .nodeToHost <+:
      (run plainPlatform someKeys someBinding
        [.frame .hostToNode [0xD800],
          .deliver .nodeToHost ⟨[], 0, [0xEF, 0xBF, 0xBD], List.replicate 16 0⟩]).sealed
            .hostToNode) ∧
    ¬ ((run plainPlatform someKeys someBinding
        (List.replicate (2 ^ 53 + 2) (.frame .hostToNode [0x61]))).uses someKeys).Nodup :=
  ⟨by decide, by decide, uses_not_nodup plainPlatform (by decide) someBinding [0x61] _ (by omega)⟩

end Wire

end NodeAuth

end CopilotFleet
