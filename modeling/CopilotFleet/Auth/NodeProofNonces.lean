import CopilotFleet.Lib.Run
import CopilotFleet.Protocol.NodeAuth
import Mathlib.Data.List.Dedup
import Mathlib.Data.List.Induction
import Mathlib.Data.List.Nodup
import Mathlib.Data.List.Perm.Subperm

/-!
# Replayed Node Proofs

The Host's guard on a signed Node call. The verifier answers whether a proof
was made just now; the nonce cache answers whether it was made before. An
entry of the cache lives for twice the clock window, since a proof can be
accepted from one window before its timestamp to one window after.

Both ends of the clock window are inclusive, and an entry is dropped at the
very reading at which it expires. So a copy accepted at the earliest admissible
reading and another at the latest are exactly one lifetime apart, and the
second finds the cache empty. The same happens whenever the cache's own clock
reading, taken after the verifier's, falls a lifetime or more after the first.
`guard_honours_once` is the guarantee on the runs where it does not, and
`guard_honours_twice` the run on the edge.

The cache is compared with a history of what was ever claimed. `Remembers`
says the live part of that history is exactly what the cache holds; every
claim keeps it as long as nothing has to be evicted.

## Main definitions

* `NodeProofNonces`: The cache, whose keys are distinct by construction.
* `NodeProofNonces.claim`: Whether a nonce is presented for the first time.
* `preValidation`: The guard's decision on one request.
* `Remembers`: The cache holds exactly the live part of a history.
* `Timely`: Copies of a proof are claimed within one lifetime of each other.

## Theorems

* `holds_eq_false_iff`: A claim succeeds when no live entry has its key.
* `claimed_faithful`: A claim keeps the cache equal to the live history.
* `final_faithful`: So does every run below the limit.
* `guard_honours_once`: Timely runs honour every proof at most once, and where
  nonces are not shared only those do.
-/

namespace CopilotFleet

namespace NodeAuth

open Utf16

/-- An entry of the cache lives as long as its proof could still verify. -/
def NODE_PROOF_NONCE_TTL_MS : Int := NODE_HTTP_PROOF_WINDOW_MS * 2

/-- Every nonce spent and when its entry expires, oldest first. -/
structure NodeProofNonces where
  seen : List (Text × Int)
  ttlMs : Int
  limit : Nat
  keys_nodup : (seen.map Prod.fst).Nodup

/-- The node and its nonce, separated by a NUL. -/
def nonceKey (nodeId nonce : Text) : Text := nodeId ++ 0 :: nonce

namespace NodeProofNonces

def new (limit : Nat) : NodeProofNonces :=
  { seen := [], ttlMs := NODE_PROOF_NONCE_TTL_MS, limit, keys_nodup := List.nodup_nil }

/-- The entries left once the expired ones are dropped from the front. -/
def unexpired (nonces : NodeProofNonces) (now : Int) : List (Text × Int) :=
  nonces.seen.dropWhile fun e => e.2 ≤ now

/-- The entries with `key` made the newest, the oldest dropped past the limit. -/
def withNewest (nonces : NodeProofNonces) (key : Text) (now : Int) : List (Text × Int) :=
  let entries := (nonces.unexpired now).filter (·.1 ≠ key) ++ [(key, now + nonces.ttlMs)]
  entries.drop (entries.length - nonces.limit)

theorem unexpired_nodup (nonces : NodeProofNonces) (now : Int) :
    ((nonces.unexpired now).map Prod.fst).Nodup :=
  nonces.keys_nodup.sublist ((List.dropWhile_sublist _).map _)

theorem withNewest_nodup (nonces : NodeProofNonces) (key : Text) (now : Int) :
    ((nonces.withNewest key now).map Prod.fst).Nodup := by
  unfold withNewest
  refine List.Nodup.sublist ((List.drop_sublist _ _).map _) ?_
  rw [List.map_append, List.map_cons, List.map_nil, List.nodup_append]
  refine ⟨(nonces.unexpired_nodup now).sublist (List.filter_sublist.map _),
    List.nodup_singleton _, ?_⟩
  intro k hk k' hk' heq
  rw [List.mem_singleton] at hk'
  rw [List.mem_map] at hk
  rcases hk with ⟨e, he, hek⟩
  have hne := (List.mem_filter.mp he).2
  simp only [decide_eq_true_eq] at hne
  exact hne (by rw [hek, heq, hk'])

/-- Whether the entry at this key, if there is one, is still alive. -/
def holds (nonces : NodeProofNonces) (key : Text) (now : Int) : Bool :=
  (nonces.unexpired now).any fun e => e.1 = key && now < e.2

/-- True the first time this Node presents this nonce, false every time after. -/
def claim (nonces : NodeProofNonces) (nodeId nonce : Text) (now : Int) :
    Bool × NodeProofNonces :=
  if nonces.holds (nonceKey nodeId nonce) now then
    (false, { nonces with
      seen := nonces.unexpired now
      keys_nodup := nonces.unexpired_nodup now })
  else
    (true, { nonces with
      seen := nonces.withNewest (nonceKey nodeId nonce) now
      keys_nodup := nonces.withNewest_nodup (nonceKey nodeId nonce) now })

@[simp] theorem claim_fst (nonces : NodeProofNonces) (nodeId nonce : Text) (now : Int) :
    (nonces.claim nodeId nonce now).1 = !nonces.holds (nonceKey nodeId nonce) now := by
  unfold claim
  cases nonces.holds (nonceKey nodeId nonce) now <;> rfl

theorem claim_seen (nonces : NodeProofNonces) (nodeId nonce : Text) (now : Int) :
    (nonces.claim nodeId nonce now).2.seen =
      if nonces.holds (nonceKey nodeId nonce) now then nonces.unexpired now
      else nonces.withNewest (nonceKey nodeId nonce) now := by
  unfold claim
  cases nonces.holds (nonceKey nodeId nonce) now <;> rfl

@[simp] theorem claim_ttlMs (nonces : NodeProofNonces) (nodeId nonce : Text) (now : Int) :
    (nonces.claim nodeId nonce now).2.ttlMs = nonces.ttlMs := by
  unfold claim
  cases nonces.holds (nonceKey nodeId nonce) now <;> rfl

@[simp] theorem claim_limit (nonces : NodeProofNonces) (nodeId nonce : Text) (now : Int) :
    (nonces.claim nodeId nonce now).2.limit = nonces.limit := by
  unfold claim
  cases nonces.holds (nonceKey nodeId nonce) now <;> rfl

end NodeProofNonces

/-! ### The cache against its history -/

/-- Nothing with this key was claimed within the last lifetime. -/
def Fresh (ttlMs : Int) (history : List (Text × Int)) (key : Text) (now : Int) : Prop :=
  ∀ h ∈ history, h.1 = key → h.2 + ttlMs ≤ now

/-- At `now` the entries are the live part of the history of claims, ordered by
    when they expire. -/
structure Remembers (ttlMs : Int) (seen history : List (Text × Int)) (now : Int) : Prop where
  ordered : seen.Pairwise fun a b => a.2 ≤ b.2
  sound : ∀ e ∈ seen, ∃ h ∈ history, h.1 = e.1 ∧ h.2 + ttlMs = e.2
  complete : ∀ h ∈ history, now < h.2 + ttlMs → (h.1, h.2 + ttlMs) ∈ seen
  past : ∀ h ∈ history, h.2 ≤ now

/-- In an ordered cache the front loop drops everything that has expired. -/
theorem mem_unexpired {nonces : NodeProofNonces}
    (h : nonces.seen.Pairwise fun a b => a.2 ≤ b.2) (now : Int) (e : Text × Int) :
    e ∈ nonces.unexpired now ↔ e ∈ nonces.seen ∧ now < e.2 := by
  unfold NodeProofNonces.unexpired
  generalize nonces.seen = seen at h ⊢
  induction seen with
  | nil => simp
  | cons a rest ih =>
      rw [List.pairwise_cons] at h
      by_cases ha : a.2 ≤ now
      · rw [List.dropWhile_cons_of_pos (by simpa using ha), ih h.2, List.mem_cons]
        constructor
        · exact fun he => ⟨.inr he.1, he.2⟩
        · rintro ⟨rfl | he, hnow⟩
          · omega
          · exact ⟨he, hnow⟩
      · rw [List.dropWhile_cons_of_neg (by simpa using ha)]
        constructor
        · intro he
          refine ⟨he, ?_⟩
          rcases List.mem_cons.mp he with rfl | he'
          · omega
          · have hle := h.1 e he'
            omega
        · exact fun he => he.1

section Claims

variable {nonces : NodeProofNonces} {history : List (Text × Int)} {before now : Int}

/-- A live entry is a recent claim. -/
theorem holds_eq_false_iff (h : Remembers nonces.ttlMs nonces.seen history before)
    (hnow : before ≤ now) (key : Text) :
    nonces.holds key now = false ↔ Fresh nonces.ttlMs history key now := by
  unfold NodeProofNonces.holds Fresh
  rw [List.any_eq_false]
  constructor
  · intro hnone g hg hgk
    by_contra hlive
    rw [not_le] at hlive
    have hmem := (mem_unexpired h.ordered now _).mpr ⟨h.complete g hg (by omega), hlive⟩
    exact hnone _ hmem (by simp [hgk, hlive])
  · intro hfresh e he hkey
    rw [mem_unexpired h.ordered] at he
    rcases h.sound e he.1 with ⟨g, hg, hgk, hge⟩
    simp only [Bool.and_eq_true, decide_eq_true_eq] at hkey
    have hexpired := hfresh g hg (by rw [hgk, hkey.1])
    omega

/-- Dropping the expired entries leaves the same history remembered. -/
theorem unexpired_remembers (h : Remembers nonces.ttlMs nonces.seen history before)
    (hnow : before ≤ now) : Remembers nonces.ttlMs (nonces.unexpired now) history now where
  ordered := h.ordered.sublist (List.dropWhile_sublist _)
  sound e he := h.sound e ((mem_unexpired h.ordered now e).mp he).1
  complete g hg hlive :=
    (mem_unexpired h.ordered now _).mpr ⟨h.complete g hg (by omega), hlive⟩
  past g hg := (h.past g hg).trans hnow

/-- A fresh key put last is remembered, as long as nothing is evicted. -/
theorem withNewest_remembers (h : Remembers nonces.ttlMs nonces.seen history before)
    (hnow : before ≤ now) {key : Text} (hfresh : Fresh nonces.ttlMs history key now)
    (hroom : ((nonces.unexpired now).filter (·.1 ≠ key)).length < nonces.limit) :
    Remembers nonces.ttlMs (nonces.withNewest key now) (history ++ [(key, now)]) now := by
  have hkept : nonces.withNewest key now =
      (nonces.unexpired now).filter (·.1 ≠ key) ++ [(key, now + nonces.ttlMs)] := by
    unfold NodeProofNonces.withNewest
    simp only [List.length_append, List.length_singleton]
    rw [Nat.sub_eq_zero_of_le (by omega), List.drop_zero]
  have hlive := unexpired_remembers h hnow
  rw [hkept]
  refine ⟨?_, ?_, ?_, ?_⟩
  · rw [List.pairwise_append]
    refine ⟨hlive.ordered.sublist List.filter_sublist, List.pairwise_singleton _ _, ?_⟩
    intro e he f hf
    rw [List.mem_singleton] at hf
    rcases hlive.sound e (List.mem_filter.mp he).1 with ⟨g, hg, _, hge⟩
    have hpast := hlive.past g hg
    rw [hf, ← hge]
    exact Int.add_le_add_right hpast _
  · intro e he
    rcases List.mem_append.mp he with he | he
    · rcases hlive.sound e (List.mem_filter.mp he).1 with ⟨g, hg, hge⟩
      exact ⟨g, List.mem_append_left _ hg, hge⟩
    · rw [List.mem_singleton] at he
      exact ⟨(key, now), by simp, by rw [he], by rw [he]⟩
  · intro g hg hgl
    rcases List.mem_append.mp hg with hg | hg
    · refine List.mem_append_left _ (List.mem_filter.mpr ⟨hlive.complete g hg hgl, ?_⟩)
      -- A live claim of this very key would not have left it fresh.
      rw [decide_eq_true_eq]
      intro hgk
      have hexpired := hfresh g hg hgk
      omega
    · rw [List.mem_singleton] at hg
      exact List.mem_append_right _ (by rw [hg]; exact List.mem_singleton_self _)
  · intro g hg
    rcases List.mem_append.mp hg with hg | hg
    · exact hlive.past g hg
    · rw [List.mem_singleton] at hg
      rw [hg]

/-- A history remembered at one reading is remembered at any later one. -/
theorem Remembers.later {ttlMs : Int} {seen : List (Text × Int)}
    (h : Remembers ttlMs seen history before) (hnow : before ≤ now) :
    Remembers ttlMs seen history now where
  ordered := h.ordered
  sound := h.sound
  complete g hg hlive := h.complete g hg (by omega)
  past g hg := (h.past g hg).trans hnow

end Claims

/-! ### The guard -/

/-- What a signed call carries, and what the Host looked up for it. -/
structure PresentedNodeProof where
  id : Text
  timestamp : Text
  nonce : Text
  signature : Text
  publicKey : Text
  pathname : Text
  deriving DecidableEq

/-- A request as the guard's last hook sees it, with the two clock readings the
    hook takes: the verifier's and then the cache's. -/
structure GuardRequest where
  fleetNodeProof : Option PresentedNodeProof
  method : Text
  fleetRawBody : Option Text
  verifiedAt : Int
  claimedAt : Int

/-- What the verifier is asked about a request's proof. -/
def GuardRequest.input (request : GuardRequest) (proof : PresentedNodeProof) :
    NodeHttpProofInput :=
  { publicKey := proof.publicKey
    nodeId := proof.id
    method := request.method
    path := proof.pathname
    body := some (request.fleetRawBody.getD [])
    timestamp := proof.timestamp
    nonce := proof.nonce
    signature := proof.signature }

inductive GuardOutcome where
  | unsigned
  | honoured (fleetNodeId : Text)
  | rejected (reason : ProofRefusal)
  | replayed
  deriving DecidableEq

/-- The `preValidation` hook. The nonce is claimed only once the proof carrying
    it is real. -/
def preValidation (id : NodeIdentity) (nonces : NodeProofNonces) (request : GuardRequest) :
    GuardOutcome × NodeProofNonces :=
  match request.fleetNodeProof with
  | none => (.unsigned, nonces)
  | some proof =>
      match verifyNodeHttpProof id (request.input proof) request.verifiedAt with
      | .error reason => (.rejected reason, nonces)
      | .ok () =>
          let claimed := nonces.claim proof.id proof.nonce request.claimedAt
          (if claimed.1 then .honoured proof.id else .replayed, claimed.2)

/-- The cache, and every proof honoured so far with the reading it was claimed
    at. -/
structure GuardState where
  nonces : NodeProofNonces
  honoured : List (PresentedNodeProof × Int)

def GuardState.start (limit : Nat) : GuardState :=
  { nonces := NodeProofNonces.new limit, honoured := [] }

/-- One request to the guard. -/
def GuardState.step (id : NodeIdentity) (s : GuardState) (request : GuardRequest) : GuardState :=
  let decided := preValidation id s.nonces request
  { nonces := decided.2
    honoured := match decided.1, request.fleetNodeProof with
      | .honoured _, some proof => s.honoured ++ [(proof, request.claimedAt)]
      | _, _ => s.honoured }

/-- What makes two proofs copies of one another. -/
def PresentedNodeProof.copy (proof : PresentedNodeProof) : Text × Text × Text × Text :=
  (proof.id, proof.timestamp, proof.nonce, proof.signature)

def PresentedNodeProof.key (proof : PresentedNodeProof) : Text := nonceKey proof.id proof.nonce

/-- The proof of a request that verifies, and the reading its claim is made at. -/
def verifying (id : NodeIdentity) (request : GuardRequest) : Option (PresentedNodeProof × Int) :=
  request.fleetNodeProof.bind fun proof =>
    match verifyNodeHttpProof id (request.input proof) request.verifiedAt with
    | .ok () => some (proof, request.claimedAt)
    | .error _ => none

/-- The clock never goes back, within a request or between two. -/
def ClockAdvances (requests : List GuardRequest) : Prop :=
  (∀ r ∈ requests, r.verifiedAt ≤ r.claimedAt) ∧
    requests.Pairwise fun r s => r.claimedAt ≤ s.verifiedAt

/-- In any one lifetime fewer distinct proofs are claimed than the cache holds. -/
def BelowLimit (limit : Nat) (claims : List (PresentedNodeProof × Int)) : Prop :=
  ∀ now, ((claims.filter fun c => now < c.2 + NODE_PROOF_NONCE_TTL_MS && c.2 ≤ now).map
    (·.1.copy)).dedup.length < limit

/-- Copies of one proof are claimed less than one lifetime apart. -/
def Timely (claims : List (PresentedNodeProof × Int)) : Prop :=
  claims.Pairwise fun a b => a.1.copy = b.1.copy → b.2 < a.2 + NODE_PROOF_NONCE_TTL_MS

/-- No two different proofs carry one nonce of one node. -/
def Unshared (claims : List (PresentedNodeProof × Int)) : Prop :=
  ∀ a ∈ claims, ∀ b ∈ claims, a.1.key = b.1.key → a.1.copy = b.1.copy

/-- The claim of a verified proof, which is all a request does to the guard. -/
def GuardState.claimed (s : GuardState) (c : PresentedNodeProof × Int) : GuardState :=
  { nonces := (s.nonces.claim c.1.id c.1.nonce c.2).2
    honoured := if s.nonces.holds c.1.key c.2 then s.honoured else s.honoured ++ [c] }

theorem step_eq_claimed (id : NodeIdentity) (s : GuardState) (request : GuardRequest) :
    s.step id request = ((verifying id request).map s.claimed).getD s := by
  unfold GuardState.step preValidation verifying
  cases hproof : request.fleetNodeProof with
  | none => rfl
  | some proof =>
      simp only [Option.bind_some]
      cases verifyNodeHttpProof id (request.input proof) request.verifiedAt with
      | error reason => rfl
      | ok u =>
          simp only [NodeProofNonces.claim_fst, GuardState.claimed, PresentedNodeProof.key,
            Option.map_some, Option.getD_some]
          by_cases hheld : s.nonces.holds (nonceKey proof.id proof.nonce) request.claimedAt = true
          · simp [hheld]
          · simp [hheld]

/-- A run of the guard is the run of its verifying proofs. -/
theorem final_step_eq (id : NodeIdentity) (requests : List GuardRequest) (s : GuardState) :
    Run.final (GuardState.step id) s requests =
      Run.final GuardState.claimed s (requests.filterMap (verifying id)) := by
  induction requests generalizing s with
  | nil => rfl
  | cons request rest ih =>
      rw [Run.final_cons, ih, step_eq_claimed, List.filterMap_cons]
      cases verifying id request <;> rfl

/-- The reading and the key of every honoured proof. -/
def GuardState.history (s : GuardState) : List (Text × Int) :=
  s.honoured.map fun h => (h.1.key, h.2)

/-- What a run below the limit keeps, read at any clock reading from its last
    claim on. -/
structure Faithful (limit : Nat) (claims : List (PresentedNodeProof × Int)) (s : GuardState) :
    Prop where
  ttl_eq : s.nonces.ttlMs = NODE_PROOF_NONCE_TTL_MS
  limit_eq : s.nonces.limit = limit
  remembers : ∀ now, (∀ c ∈ claims, c.2 ≤ now) →
    Remembers NODE_PROOF_NONCE_TTL_MS s.nonces.seen s.history now
  honoured_sublist : s.honoured.Sublist claims

/-- The entries a claim keeps are fewer than the limit. -/
theorem room {limit : Nat} {claims : List (PresentedNodeProof × Int)} {s : GuardState}
    (h : Faithful limit claims s) {c : PresentedNodeProof × Int}
    (hclock : ∀ a ∈ claims, a.2 ≤ c.2) (hlimit : BelowLimit limit (claims ++ [c])) :
    ((s.nonces.unexpired c.2).filter (·.1 ≠ c.1.key)).length < s.nonces.limit := by
  have hrem := h.remembers c.2 hclock
  rw [h.limit_eq]
  refine lt_of_le_of_lt ?_ (hlimit c.2)
  -- Each entry kept is the key of a proof claimed within the lifetime.
  have hnodup : (((s.nonces.unexpired c.2).filter (·.1 ≠ c.1.key)).map Prod.fst).Nodup :=
    (s.nonces.unexpired_nodup c.2).sublist (List.filter_sublist.map _)
  have hsub : ((s.nonces.unexpired c.2).filter (·.1 ≠ c.1.key)).map Prod.fst ⊆
      ((((claims ++ [c]).filter fun a => c.2 < a.2 + NODE_PROOF_NONCE_TTL_MS && a.2 ≤ c.2).map
        (·.1.copy)).dedup.map fun p => nonceKey p.1 p.2.2.1) := by
    intro k hk
    rw [List.mem_map] at hk
    rcases hk with ⟨e, he, hek⟩
    have hlive := (mem_unexpired hrem.ordered c.2 e).mp (List.mem_filter.mp he).1
    rcases hrem.sound e hlive.1 with ⟨g, hg, hgk, hge⟩
    unfold GuardState.history at hg
    rw [List.mem_map] at hg
    rcases hg with ⟨a, ha, rfl⟩
    have hmem := h.honoured_sublist.subset ha
    rw [List.mem_map]
    refine ⟨a.1.copy, ?_, by rw [← hek, ← hgk]; rfl⟩
    rw [List.mem_dedup, List.mem_map]
    refine ⟨a, List.mem_filter.mpr ⟨List.mem_append_left _ hmem, ?_⟩, rfl⟩
    have hpast := hclock a hmem
    simp only [Bool.and_eq_true, decide_eq_true_eq]
    exact ⟨by omega, hpast⟩
  have hle := (List.subperm_of_subset hnodup hsub).length_le
  simpa using hle

/-- A proof is honoured exactly when its key is fresh. -/
theorem claimed_honoured {limit : Nat} {claims : List (PresentedNodeProof × Int)} {s : GuardState}
    (h : Faithful limit claims s) {c : PresentedNodeProof × Int}
    (hclock : ∀ a ∈ claims, a.2 ≤ c.2) :
    s.nonces.holds c.1.key c.2 = false ↔
      Fresh NODE_PROOF_NONCE_TTL_MS s.history c.1.key c.2 := by
  have hrem := h.remembers c.2 hclock
  rw [← h.ttl_eq] at hrem ⊢
  exact holds_eq_false_iff hrem le_rfl c.1.key

theorem claimed_faithful {limit : Nat} {claims : List (PresentedNodeProof × Int)} {s : GuardState}
    (h : Faithful limit claims s) {c : PresentedNodeProof × Int}
    (hclock : ∀ a ∈ claims, a.2 ≤ c.2) (hlimit : BelowLimit limit (claims ++ [c])) :
    Faithful limit (claims ++ [c]) (s.claimed c) := by
  have hrem := h.remembers c.2 hclock
  have hiff := claimed_honoured h hclock
  have hroom := room h hclock hlimit
  refine ⟨by simp [GuardState.claimed, h.ttl_eq], by simp [GuardState.claimed, h.limit_eq], ?_, ?_⟩
  · intro now hnow
    refine Remembers.later ?_ (hnow c (by simp))
    rw [← h.ttl_eq] at hrem hiff ⊢
    unfold GuardState.claimed GuardState.history at *
    simp only [NodeProofNonces.claim_seen]
    rw [show nonceKey c.1.id c.1.nonce = c.1.key from rfl]
    cases hheld : s.nonces.holds c.1.key c.2 with
    | true => exact unexpired_remembers hrem le_rfl
    | false =>
        simp only [Bool.false_eq_true, if_false, List.map_append, List.map_cons, List.map_nil]
        exact withNewest_remembers hrem le_rfl (hiff.mp hheld) hroom
  · unfold GuardState.claimed
    cases s.nonces.holds c.1.key c.2 with
    | true => exact h.honoured_sublist.trans (List.sublist_append_left _ _)
    | false => exact h.honoured_sublist.append (List.Sublist.refl _)

/-- A run below the limit was below it all along. -/
theorem BelowLimit.of_append {limit : Nat} {claims more : List (PresentedNodeProof × Int)}
    (h : BelowLimit limit (claims ++ more)) : BelowLimit limit claims := by
  intro now
  refine lt_of_le_of_lt ?_ (h now)
  refine (List.subperm_of_subset (List.nodup_dedup _) ?_).length_le
  intro p hp
  rw [List.mem_dedup, List.mem_map] at hp ⊢
  rcases hp with ⟨a, ha, hap⟩
  rw [List.mem_filter] at ha
  exact ⟨a, List.mem_filter.mpr ⟨List.mem_append_left _ ha.1, ha.2⟩, hap⟩

/-- A run of claims with its readings in order stays faithful. -/
theorem final_faithful (limit : Nat) (claims : List (PresentedNodeProof × Int))
    (hclock : claims.Pairwise fun a b => a.2 ≤ b.2) (hlimit : BelowLimit limit claims) :
    Faithful limit claims (Run.final GuardState.claimed (GuardState.start limit) claims) := by
  induction claims using List.reverseRecOn with
  | nil =>
      refine ⟨rfl, rfl, ?_, List.Sublist.refl _⟩
      intro now _
      exact ⟨List.Pairwise.nil, by simp [GuardState.start, NodeProofNonces.new],
        by simp [GuardState.start, GuardState.history],
        by simp [GuardState.start, GuardState.history]⟩
  | append_singleton claims c ih =>
      rw [List.pairwise_append] at hclock
      rw [Run.final_append]
      exact claimed_faithful (ih hclock.1 hlimit.of_append)
        (fun a ha => hclock.2.2 a ha c (List.mem_singleton_self c)) hlimit

/-- Timely claims honour no proof twice: an honoured copy is still live. -/
theorem nodup_of_timely (limit : Nat) (claims : List (PresentedNodeProof × Int))
    (hclock : claims.Pairwise fun a b => a.2 ≤ b.2) (hlimit : BelowLimit limit claims)
    (htimely : Timely claims) :
    ((Run.final GuardState.claimed (GuardState.start limit) claims).honoured.map
      (·.1.copy)).Nodup := by
  induction claims using List.reverseRecOn with
  | nil => exact List.nodup_nil
  | append_singleton claims c ih =>
      unfold Timely at htimely
      rw [List.pairwise_append] at hclock htimely
      have hold := ih hclock.1 hlimit.of_append htimely.1
      have hfaith := final_faithful limit claims hclock.1 hlimit.of_append
      have hiff := claimed_honoured hfaith (c := c)
        (fun a ha => hclock.2.2 a ha c (List.mem_singleton_self c))
      rw [Run.final_append]
      simp only [Run.final_cons, Run.final_nil, GuardState.claimed]
      generalize Run.final GuardState.claimed (GuardState.start limit) claims = s at *
      cases hheld : s.nonces.holds c.1.key c.2 with
      | true => exact hold
      | false =>
          simp only [Bool.false_eq_true, if_false, List.map_append, List.map_cons, List.map_nil]
          rw [List.nodup_append]
          refine ⟨hold, List.nodup_singleton _, ?_⟩
          intro p hp q hq heq
          rw [List.mem_singleton] at hq
          rw [List.mem_map] at hp
          rcases hp with ⟨a, ha, hap⟩
          have hcopy : a.1.copy = c.1.copy := by rw [hap, heq, hq]
          have hkey : a.1.key = c.1.key := by
            unfold PresentedNodeProof.copy at hcopy
            simp only [Prod.mk.injEq] at hcopy
            rw [PresentedNodeProof.key, PresentedNodeProof.key, hcopy.1, hcopy.2.2.1]
          have hlive := htimely.2.2 a (hfaith.honoured_sublist.subset ha) c
            (List.mem_singleton_self c) hcopy
          have hexpired := hiff.mp hheld (a.1.key, a.2) (List.mem_map_of_mem ha) hkey
          simp only at hexpired
          omega

/-- Every claim's key was honoured by then: by it, or by what refused it. -/
theorem exists_honoured (limit : Nat) (claims : List (PresentedNodeProof × Int))
    (hclock : claims.Pairwise fun a b => a.2 ≤ b.2) (hlimit : BelowLimit limit claims) :
    ∀ a ∈ claims, ∃ h ∈ (Run.final GuardState.claimed (GuardState.start limit) claims).honoured,
      h.1.key = a.1.key ∧ h.2 ≤ a.2 := by
  induction claims using List.reverseRecOn with
  | nil => simp
  | append_singleton claims c ih =>
      rw [List.pairwise_append] at hclock
      have hlast (a : PresentedNodeProof × Int) (ha : a ∈ claims) : a.2 ≤ c.2 :=
        hclock.2.2 a ha c (List.mem_singleton_self c)
      have hold := ih hclock.1 hlimit.of_append
      have hfaith := final_faithful limit claims hclock.1 hlimit.of_append
      have hiff := claimed_honoured hfaith (c := c) hlast
      rw [Run.final_append]
      simp only [Run.final_cons, Run.final_nil, GuardState.claimed]
      generalize Run.final GuardState.claimed (GuardState.start limit) claims = s at *
      intro a ha
      cases hheld : s.nonces.holds c.1.key c.2 with
      | true =>
          rw [if_pos rfl]
          rcases List.mem_append.mp ha with ha | ha
          · exact hold a ha
          · rw [List.mem_singleton] at ha
            have hstale : ¬ Fresh NODE_PROOF_NONCE_TTL_MS s.history c.1.key c.2 := by
              rw [← hiff, hheld]
              exact Bool.true_eq_false_eq_False
            unfold Fresh at hstale
            push Not at hstale
            rcases hstale with ⟨g, hg, hgk, _⟩
            unfold GuardState.history at hg
            rw [List.mem_map] at hg
            rcases hg with ⟨h, hh, rfl⟩
            exact ⟨h, hh, by rw [ha]; exact hgk,
              by rw [ha]; exact hlast h (hfaith.honoured_sublist.subset hh)⟩
      | false =>
          rw [if_neg Bool.false_ne_true]
          rcases List.mem_append.mp ha with ha | ha
          · rcases hold a ha with ⟨h, hh, hka⟩
            exact ⟨h, List.mem_append_left _ hh, hka⟩
          · rw [List.mem_singleton] at ha
            exact ⟨c, by simp, by rw [ha], by rw [ha]⟩

/-- Where nonces are not shared, honouring no proof twice takes timely claims:
    a copy a lifetime later finds nothing alive that could refuse it. -/
theorem timely_of_nodup (limit : Nat) (claims : List (PresentedNodeProof × Int))
    (hclock : claims.Pairwise fun a b => a.2 ≤ b.2) (hlimit : BelowLimit limit claims)
    (hunshared : Unshared claims)
    (hnodup : ((Run.final GuardState.claimed (GuardState.start limit) claims).honoured.map
      (·.1.copy)).Nodup) : Timely claims := by
  induction claims using List.reverseRecOn with
  | nil => exact List.Pairwise.nil
  | append_singleton claims c ih =>
      rw [List.pairwise_append] at hclock
      have hlast (a : PresentedNodeProof × Int) (ha : a ∈ claims) : a.2 ≤ c.2 :=
        hclock.2.2 a ha c (List.mem_singleton_self c)
      have hfaith := final_faithful limit claims hclock.1 hlimit.of_append
      have hhon := exists_honoured limit claims hclock.1 hlimit.of_append
      have hiff := claimed_honoured hfaith (c := c) hlast
      rw [Run.final_append] at hnodup
      simp only [Run.final_cons, Run.final_nil, GuardState.claimed] at hnodup
      have hshare : Unshared claims := fun a ha b hb =>
        hunshared a (List.mem_append_left _ ha) b (List.mem_append_left _ hb)
      have ih' := ih hclock.1 hlimit.of_append hshare
      generalize Run.final GuardState.claimed (GuardState.start limit) claims = s at *
      have hpre : (s.honoured.map (·.1.copy)).Nodup := by
        cases hheld : s.nonces.holds c.1.key c.2 with
        | true =>
            rw [hheld, if_pos rfl] at hnodup
            exact hnodup
        | false =>
            rw [hheld, if_neg Bool.false_ne_true, List.map_append] at hnodup
            exact (List.nodup_append.mp hnodup).1
      unfold Timely
      rw [List.pairwise_append]
      refine ⟨ih' hpre, List.pairwise_singleton _ _, ?_⟩
      intro a ha c' hc' hcopy
      rw [List.mem_singleton] at hc'
      subst hc'
      by_contra hlate
      rw [not_lt] at hlate
      rcases hhon a ha with ⟨h, hh, hhk, hha⟩
      have hhc := hfaith.honoured_sublist.subset hh
      have hhcopy : h.1.copy = c'.1.copy :=
        (hshare h hhc a ha hhk).trans hcopy
      -- The one honoured copy has expired, so the last claim is honoured too.
      have hfresh : Fresh NODE_PROOF_NONCE_TTL_MS s.history c'.1.key c'.2 := by
        intro g hg hgk
        unfold GuardState.history at hg
        rw [List.mem_map] at hg
        rcases hg with ⟨b, hb, rfl⟩
        have hbcopy : b.1.copy = h.1.copy := by
          rw [hhcopy]
          exact hunshared b (List.mem_append_left _ (hfaith.honoured_sublist.subset hb)) c'
            (by simp) hgk
        have hbh : b = h := List.inj_on_of_nodup_map hpre hb hh hbcopy
        rw [hbh]
        simp only
        omega
      rw [hiff.mpr hfresh, if_neg Bool.false_ne_true, List.map_append, List.nodup_append] at hnodup
      exact hnodup.2.2 h.1.copy (List.mem_map_of_mem hh) c'.1.copy (by simp) hhcopy

/-- Every proof a run of requests honoured, as what makes it a copy. -/
def honouredCopies (id : NodeIdentity) (limit : Nat) (requests : List GuardRequest) :
    List (Text × Text × Text × Text) :=
  (Run.final (GuardState.step id) (GuardState.start limit) requests).honoured.map (·.1.copy)

/-- The claims of a run whose clock never goes back are in order. -/
theorem claims_ordered (id : NodeIdentity) {requests : List GuardRequest}
    (h : ClockAdvances requests) :
    (requests.filterMap (verifying id)).Pairwise fun a b => a.2 ≤ b.2 := by
  have hreading {r : GuardRequest} {c : PresentedNodeProof × Int}
      (hc : verifying id r = some c) : c.2 = r.claimedAt := by
    unfold verifying at hc
    rw [Option.bind_eq_some_iff] at hc
    rcases hc with ⟨proof, _, hc⟩
    split at hc
    · rw [Option.some.injEq] at hc
      rw [← hc]
    · contradiction
  rw [List.pairwise_filterMap]
  refine h.2.imp_of_mem ?_
  intro r s _ hs hrs a ha b hb
  rw [hreading ha, hreading hb]
  exact hrs.trans (h.1 s hs)

/-- A guard whose clock never goes back and whose cache has room honours every
    proof at most once on the runs whose copies are claimed within a lifetime
    of each other, and, where no nonce is shared, on those runs only. -/
theorem guard_honours_once (id : NodeIdentity) (limit : Nat) (requests : List GuardRequest)
    (hclock : ClockAdvances requests)
    (hlimit : BelowLimit limit (requests.filterMap (verifying id))) :
    (Timely (requests.filterMap (verifying id)) → (honouredCopies id limit requests).Nodup) ∧
    (Unshared (requests.filterMap (verifying id)) →
      (honouredCopies id limit requests).Nodup →
      Timely (requests.filterMap (verifying id))) := by
  unfold honouredCopies
  rw [final_step_eq]
  have hordered := claims_ordered id hclock
  exact ⟨nodup_of_timely limit _ hordered hlimit, timely_of_nodup limit _ hordered hlimit⟩

theorem belowLimit_of_length_lt {limit : Nat} {claims : List (PresentedNodeProof × Int)}
    (h : claims.length < limit) : BelowLimit limit claims := by
  intro now
  have hdedup := (List.dedup_sublist ((claims.filter
    fun c => now < c.2 + NODE_PROOF_NONCE_TTL_MS && c.2 ≤ now).map (·.1.copy))).length_le
  rw [List.length_map] at hdedup
  have hfilter := List.length_filter_le
    (fun c : PresentedNodeProof × Int => now < c.2 + NODE_PROOF_NONCE_TTL_MS && c.2 ≤ now) claims
  omega

/-- An identity whose signatures all verify. -/
def trusting : NodeIdentity where
  sha256Hex body := body
  toUpperCase method := method
  verifyIdentitySignature _ _ _ := true

/-- A call signed at `60000`, presented when the Host's clock reads `now`. -/
def callAt (now : Int) : GuardRequest where
  fleetNodeProof := some
    { id := [0x6E], timestamp := [0x36, 0x30, 0x30, 0x30, 0x30], nonce := [0x61]
      signature := [0x73], publicKey := [0x6B], pathname := [0x2F] }
  method := [0x47]
  fleetRawBody := none
  verifiedAt := now
  claimedAt := now

theorem guard_honours_once_close :
    (honouredCopies trusting 5000 [callAt 0, callAt 119999]).Nodup :=
  (guard_honours_once trusting 5000 [callAt 0, callAt 119999]
    ⟨by decide, by simp [callAt]⟩ (belowLimit_of_length_lt (by decide))).1
    (by unfold Timely; decide)

/-- One window before its timestamp and one window after, a proof is honoured
    both times. -/
theorem guard_honours_twice :
    ClockAdvances [callAt 0, callAt 120000] ∧
    BelowLimit 5000 ([callAt 0, callAt 120000].filterMap (verifying trusting)) ∧
    ¬ (honouredCopies trusting 5000 [callAt 0, callAt 120000]).Nodup :=
  ⟨⟨by decide, by simp [callAt]⟩, belowLimit_of_length_lt (by decide), by decide⟩

end NodeAuth

end CopilotFleet
