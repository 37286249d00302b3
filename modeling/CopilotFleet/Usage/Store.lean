import CopilotFleet.Lib.Refusal
import CopilotFleet.Lib.Run
import CopilotFleet.Lib.Table
import CopilotFleet.Lib.Utf16
import Mathlib.Algebra.Field.Rat

/-!
# The Usage Store

What sessions have consumed is told to the Host as readings of counters that
only grow: a snapshot says what a counter stood at when it was read. A Node
sends its snapshots in batches until they are acknowledged, so the Host meets
them in any order, split up in any way, and more than once. It keeps each one
once, under the id the Node gave it, and gives it a number of its own.

A batch is taken in as a whole or not at all. What is kept of a session outlives
the session, so a snapshot is never kept without the metadata of its session,
whatever is taken in, retained or imported (`keyed_of_run`).

Times are instants beside the text they were written as.

## Main definitions

* `UsageSnapshot`: A reading of the counters of a session.
* `UsageStore`: The metadata and the snapshots that are kept.
* `ingest`: A batch of snapshots.
* `exportBackup`, `importBackup`: A store as it is moved to another Host.
* `Keyed`: What holds of a store.

## Theorems

* `ingestOne_ok`: What taking in one snapshot does.
* `keyed_of_run`: A snapshot is kept once, and not without its session, in every run.
-/

namespace CopilotFleet

namespace Usage

open Utf16 Refusal

/-! ### Amounts -/

inductive UsageAmountKey where
  | aiCredits
  | totalTokens
  | inputTokens
  | outputTokens
  | cacheReadTokens
  | cacheWriteTokens
  | reasoningTokens
  deriving DecidableEq

def usageAmountKeys : List UsageAmountKey :=
  [.aiCredits, .totalTokens, .inputTokens, .outputTokens, .cacheReadTokens, .cacheWriteTokens,
    .reasoningTokens]

/-- What the counters of a session stood at: credits as any amount, tokens as whole numbers. -/
structure Readings where
  aiCredits : Option ℚ≥0 := none
  totalTokens : Option Nat := none
  inputTokens : Option Nat := none
  outputTokens : Option Nat := none
  cacheReadTokens : Option Nat := none
  cacheWriteTokens : Option Nat := none
  reasoningTokens : Option Nat := none
  deriving DecidableEq

def Readings.get (readings : Readings) : UsageAmountKey → Option ℚ≥0
  | .aiCredits => readings.aiCredits
  | .totalTokens => readings.totalTokens.map fun n : Nat => (n : ℚ≥0)
  | .inputTokens => readings.inputTokens.map fun n : Nat => (n : ℚ≥0)
  | .outputTokens => readings.outputTokens.map fun n : Nat => (n : ℚ≥0)
  | .cacheReadTokens => readings.cacheReadTokens.map fun n : Nat => (n : ℚ≥0)
  | .cacheWriteTokens => readings.cacheWriteTokens.map fun n : Nat => (n : ℚ≥0)
  | .reasoningTokens => readings.reasoningTokens.map fun n : Nat => (n : ℚ≥0)

/-- Tokens are counted in whole numbers. -/
theorem Readings.get_tokens {readings : Readings} {key : UsageAmountKey} {value : ℚ≥0}
    (htokens : key ≠ .aiCredits) (h : readings.get key = some value) : ∃ n : ℕ, value = n := by
  cases key with
  | aiCredits => exact absurd rfl htokens
  | totalTokens | inputTokens | outputTokens | cacheReadTokens | cacheWriteTokens
    | reasoningTokens =>
      unfold Readings.get at h
      rcases Option.map_eq_some_iff.mp h with ⟨n, _, hn⟩
      exact ⟨n, hn.symm⟩

/-! ### Snapshots -/

inductive Backend where
  | copilot
  | hermes
  deriving DecidableEq

inductive Role where
  | lead
  | worker
  | reviewer
  | standalone
  deriving DecidableEq

/-- A time as it was written, and the instant it is. -/
structure Stamp where
  text : Text
  time : Int
  deriving DecidableEq

structure SessionAccounting where
  nativeSessionId : Text
  counterId : Text
  source : Text
  observedAt : Stamp
  startedAt : Option Stamp := none
  baseline : Option Bool := none
  amounts : Readings
  deriving DecidableEq

structure UsageSnapshot where
  id : Text
  sequence : Nat
  sessionId : Text
  accounting : SessionAccounting
  deriving DecidableEq

structure UsageStreamMetadata where
  nodeId : Text
  nodeName : Text
  sessionId : Text
  sessionName : Text
  backend : Backend
  role : Role
  taskId : Text
  taskName : Text
  deriving DecidableEq

/-- `metadataKey`. -/
abbrev SessionKey := Text × Text

def UsageStreamMetadata.key (metadata : UsageStreamMetadata) : SessionKey :=
  (metadata.nodeId, metadata.sessionId)

/-! ### The store -/

/-- A row of `usage_snapshots`; `sequence` is the Host's own. -/
structure Row where
  nodeId : Text
  sequence : Nat
  snapshot : UsageSnapshot
  deriving DecidableEq

def Row.key (row : Row) : SessionKey := (row.nodeId, row.snapshot.sessionId)

structure UsageStore where
  streams : Table SessionKey UsageStreamMetadata := Table.empty
  snapshots : List Row := []

/-- The session of a snapshot, as the Host knows it now, or an objection. -/
abbrev Resolve := Text → Text → Except String (Option UsageStreamMetadata)

def UsageStore.retain (store : UsageStore) (metadata : UsageStreamMetadata) : UsageStore :=
  { store with streams := store.streams.set metadata.key metadata }

/-- The row of an id, if there is one. -/
def UsageStore.find (store : UsageStore) (nodeId id : Text) : Option Row :=
  store.snapshots.find? fun row => row.nodeId = nodeId && row.snapshot.id = id

def UsageStore.maxSequence (store : UsageStore) (nodeId : Text) : Nat :=
  ((store.snapshots.filter fun row => row.nodeId = nodeId).map (·.sequence)).foldl max 0

def UsageStore.insertSnapshot (store : UsageStore) (nodeId : Text) (snapshot : UsageSnapshot) :
    UsageStore :=
  { store with snapshots := store.snapshots ++
      [{ nodeId, sequence := store.maxSequence nodeId + 1, snapshot }] }

/-- Another Node has a session of this id. -/
def UsageStore.ownedElsewhere (store : UsageStore) (nodeId sessionId : Text) : Bool :=
  store.streams.entries.any fun stream => stream.1.2 = sessionId && stream.1.1 ≠ nodeId

/-- A snapshot of a batch: what is kept then, and the sequence the Node may forget up to. -/
def ingestOne (resolve : Resolve) (nodeId : Text) (progress : UsageStore × Nat)
    (snapshot : UsageSnapshot) : Except String (UsageStore × Nat) :=
  let through := max progress.2 snapshot.sequence
  match progress.1.find nodeId snapshot.id with
  | some duplicate =>
      if duplicate.snapshot ≠ snapshot then .error "Usage snapshot identity conflict"
      else .ok (progress.1, through)
  | none =>
      let retained := progress.1.streams.get (nodeId, snapshot.sessionId)
      if retained = none ∧ progress.1.ownedElsewhere nodeId snapshot.sessionId then
        .error "Usage session ownership mismatch"
      else
        match resolve nodeId snapshot.sessionId with
        | .error error => .error error
        | .ok current =>
            match current.or retained with
            | none => .ok (progress.1, through)
            | some metadata =>
                if metadata.nodeId ≠ nodeId ∨ metadata.sessionId ≠ snapshot.sessionId then
                  .error "Usage session ownership mismatch"
                else .ok ((progress.1.retain metadata).insertSnapshot nodeId snapshot, through)

/-- `ingest`. What it has done is undone where it throws. -/
def ingest (resolve : Resolve) (nodeId : Text) (snapshots : List UsageSnapshot)
    (store : UsageStore) : Except String (UsageStore × Nat) :=
  snapshots.foldlM (ingestOne resolve nodeId) (store, 0)

/-! ### Backups -/

structure UsageBackup where
  streams : List UsageStreamMetadata
  snapshots : List (Text × UsageSnapshot)

/-- The order of `ORDER BY` on a text. -/
def textLe (left right : Text) : Bool := decide (toUtf8 left ≤ toUtf8 right)

def streamLe (left right : UsageStreamMetadata) : Bool :=
  if toUtf8 left.nodeId = toUtf8 right.nodeId then textLe left.sessionId right.sessionId
  else textLe left.nodeId right.nodeId

def rowLe (left right : Row) : Bool :=
  if toUtf8 left.nodeId = toUtf8 right.nodeId then left.sequence ≤ right.sequence
  else textLe left.nodeId right.nodeId

def exportBackup (store : UsageStore) : UsageBackup where
  streams := store.streams.values.mergeSort streamLe
  snapshots := (store.snapshots.mergeSort rowLe).map fun row => (row.nodeId, row.snapshot)

def importStream (streams : Table SessionKey UsageStreamMetadata) (stream : UsageStreamMetadata) :
    Except String (Table SessionKey UsageStreamMetadata) :=
  if (streams.get stream.key).isSome then .error "UNIQUE constraint failed"
  else .ok (streams.set stream.key stream)

def importSnapshot (store : UsageStore) (row : Text × UsageSnapshot) : Except String UsageStore :=
  if (store.find row.1 row.2.id).isSome then .error "UNIQUE constraint failed"
  else .ok (store.insertSnapshot row.1 row.2)

/-- `importBackup`, of an archive that has usage data; what was there is replaced. -/
def importBackup (backup : UsageBackup) : Except String UsageStore :=
  if backup.snapshots.any fun row => backup.streams.all fun stream =>
      stream.key ≠ (row.1, row.2.sessionId) then
    .error "Usage backup snapshot has no session metadata"
  else do
    let streams ← backup.streams.foldlM importStream Table.empty
    backup.snapshots.foldlM importSnapshot { streams }

/-! ### Runs -/

inductive Op where
  | retain (metadata : UsageStreamMetadata)
  | ingest (resolve : Resolve) (nodeId : Text) (snapshots : List UsageSnapshot)
  | importBackup (backup : UsageBackup)

/-- Where an operation throws, the store is as it was. -/
def step (store : UsageStore) : Op → UsageStore
  | .retain metadata => store.retain metadata
  | .ingest resolve nodeId snapshots =>
      match ingest resolve nodeId snapshots store with
      | .ok (store, _) => store
      | .error _ => store
  | .importBackup backup =>
      match importBackup backup with
      | .ok store => store
      | .error _ => store

/-! ### What is kept -/

/-- The snapshots that are kept, by the Node they are of. -/
def UsageStore.kept (store : UsageStore) : List (Text × UsageSnapshot) :=
  store.snapshots.map fun row => (row.nodeId, row.snapshot)

/-- The id of a snapshot, which is one of its Node. -/
def Row.id (row : Row) : Text × Text := (row.nodeId, row.snapshot.id)

theorem find_eq_none {store : UsageStore} {nodeId id : Text} :
    store.find nodeId id = none ↔ (nodeId, id) ∉ store.snapshots.map Row.id := by
  unfold UsageStore.find
  rw [List.find?_eq_none, List.mem_map]
  constructor
  · rintro h ⟨row, hrow, hid⟩
    have hpair := Prod.mk.inj hid
    refine h row hrow ?_
    rw [decide_eq_true hpair.1, decide_eq_true hpair.2]
    rfl
  · intro h row hrow hid
    rw [Bool.and_eq_true, decide_eq_true_eq, decide_eq_true_eq] at hid
    exact h ⟨row, hrow, Prod.ext hid.1 hid.2⟩

theorem find_some {store : UsageStore} {nodeId id : Text} {row : Row}
    (h : store.find nodeId id = some row) :
    row ∈ store.snapshots ∧ row.nodeId = nodeId ∧ row.snapshot.id = id := by
  unfold UsageStore.find at h
  have hid := List.find?_some h
  rw [Bool.and_eq_true, decide_eq_true_eq, decide_eq_true_eq] at hid
  exact ⟨List.mem_of_find?_eq_some h, hid⟩

/-- What taking in one snapshot did, if it was not refused. -/
inductive Taken (resolve : Resolve) (nodeId : Text) (snapshot : UsageSnapshot)
    (before : UsageStore) : UsageStore → Prop where
  /-- It is kept already. -/
  | known (h : (nodeId, snapshot) ∈ before.kept) : Taken resolve nodeId snapshot before before
  /-- Nobody knows its session any more. -/
  | expired (hnone : resolve nodeId snapshot.sessionId = .ok none)
      (hretained : before.streams.get (nodeId, snapshot.sessionId) = none) :
      Taken resolve nodeId snapshot before before
  | kept (metadata : UsageStreamMetadata) (hkey : metadata.key = (nodeId, snapshot.sessionId))
      (hresolved : ∀ m, resolve nodeId snapshot.sessionId = .ok (some m) → metadata = m)
      (hnew : (nodeId, snapshot.id) ∉ before.snapshots.map Row.id) :
      Taken resolve nodeId snapshot before ((before.retain metadata).insertSnapshot nodeId snapshot)

theorem ingestOne_ok {resolve : Resolve} {nodeId : Text} {progress after : UsageStore × Nat}
    {snapshot : UsageSnapshot} (h : ingestOne resolve nodeId progress snapshot = .ok after) :
    Taken resolve nodeId snapshot progress.1 after.1 ∧
      after.2 = max progress.2 snapshot.sequence := by
  unfold ingestOne at h
  dsimp only at h
  split at h
  · rename_i duplicate hfind
    split at h
    · cases h
    · rename_i hsame
      rw [← Except.ok.inj h]
      rw [ne_eq, not_not] at hsame
      -- Stored already, with the same reading.
      have hrow := find_some hfind
      refine ⟨.known (List.mem_map.mpr ⟨duplicate, hrow.1, ?_⟩), rfl⟩
      rw [hrow.2.1, hsame]
  · rename_i hfind
    split at h
    · cases h
    · split at h
      · cases h
      · rename_i current hresolve
        split at h
        · rename_i hnone
          rw [Option.or_eq_none_iff] at hnone
          rw [← Except.ok.inj h]
          -- No metadata is known of the session: the reading has outlived it.
          refine ⟨.expired ?_ hnone.2, rfl⟩
          rw [hresolve, hnone.1]
        · rename_i metadata hsome
          split at h
          · cases h
          · rename_i howned
            rw [not_or, ne_eq, ne_eq, not_not, not_not] at howned
            rw [← Except.ok.inj h]
            refine ⟨.kept metadata (Prod.ext howned.1 howned.2) (fun m hm => ?_)
              (find_eq_none.mp hfind), rfl⟩
            rw [hresolve] at hm
            rw [Except.ok.inj hm, Option.some_or] at hsome
            exact (Option.some.inj hsome).symm

/-! ### Invariants -/

/-- Every id is kept once, and every snapshot with the metadata of its session; the Host's own
    numbers grow with what is kept of a Node. -/
structure Keyed (store : UsageStore) : Prop where
  nodup : (store.snapshots.map Row.id).Nodup
  streams : ∀ key metadata, store.streams.get key = some metadata → metadata.key = key
  retained : ∀ row ∈ store.snapshots, (store.streams.get row.key).isSome
  numbered : store.snapshots.Pairwise fun a b => a.nodeId = b.nodeId → a.sequence < b.sequence

theorem maxSequence_le {store : UsageStore} {row : Row} (h : row ∈ store.snapshots) :
    row.sequence ≤ store.maxSequence row.nodeId := by
  unfold UsageStore.maxSequence
  have hmem : row.sequence ∈
      (store.snapshots.filter fun r => r.nodeId = row.nodeId).map (·.sequence) :=
    List.mem_map.mpr ⟨row, List.mem_filter.mpr ⟨h, decide_eq_true rfl⟩, rfl⟩
  revert hmem
  generalize (store.snapshots.filter fun r => r.nodeId = row.nodeId).map (·.sequence) = numbers
  have hgrow : ∀ (numbers : List Nat) (start : Nat), start ≤ numbers.foldl max start ∧
      ∀ n ∈ numbers, n ≤ numbers.foldl max start := by
    intro numbers
    induction numbers with
    | nil => exact fun start => ⟨Nat.le_refl start, fun n hn => absurd hn List.not_mem_nil⟩
    | cons m rest ih =>
        intro start
        have hrest := ih (max start m)
        refine ⟨Nat.le_trans (Nat.le_max_left start m) hrest.1, fun n hn => ?_⟩
        rcases List.mem_cons.mp hn with rfl | hn
        · exact Nat.le_trans (Nat.le_max_right start n) hrest.1
        · exact hrest.2 n hn
  exact (hgrow numbers 0).2 row.sequence

theorem retain_keyed {store : UsageStore} (h : Keyed store) (metadata : UsageStreamMetadata) :
    Keyed (store.retain metadata) where
  nodup := h.nodup
  streams := by
    intro key m hm
    unfold UsageStore.retain at hm
    rcases Table.get_set_some hm with ⟨hkey, rfl⟩ | ⟨_, hm⟩
    · exact hkey.symm
    · exact h.streams key m hm
  retained := by
    intro row hrow
    unfold UsageStore.retain
    rw [Table.get_set]
    split
    · rfl
    · exact h.retained row hrow
  numbered := h.numbered

theorem insertSnapshot_keyed {store : UsageStore} (h : Keyed store) {nodeId : Text}
    {snapshot : UsageSnapshot} (hnew : (nodeId, snapshot.id) ∉ store.snapshots.map Row.id)
    (hstream : (store.streams.get (nodeId, snapshot.sessionId)).isSome) :
    Keyed (store.insertSnapshot nodeId snapshot) where
  nodup := by
    unfold UsageStore.insertSnapshot
    rw [List.map_append, List.nodup_append]
    refine ⟨h.nodup, List.nodup_singleton _, ?_⟩
    intro id hid id' hid'
    rw [List.map_singleton, List.mem_singleton] at hid'
    rw [hid']
    rintro rfl
    exact hnew hid
  streams := h.streams
  retained := by
    intro row hrow
    rcases List.mem_append.mp hrow with hrow | hrow
    · exact h.retained row hrow
    · rw [List.mem_singleton.mp hrow]
      exact hstream
  numbered := by
    unfold UsageStore.insertSnapshot
    rw [List.pairwise_append]
    refine ⟨h.numbered, List.pairwise_singleton _ _, ?_⟩
    intro a ha b hb hnode
    rw [List.mem_singleton] at hb
    rw [hb] at hnode ⊢
    have hle := maxSequence_le ha
    rw [hnode] at hle
    exact Nat.lt_succ_of_le hle

theorem Taken.keyed {resolve : Resolve} {nodeId : Text} {snapshot : UsageSnapshot}
    {before after : UsageStore} (h : Taken resolve nodeId snapshot before after)
    (hkeyed : Keyed before) : Keyed after := by
  cases h with
  | known => exact hkeyed
  | expired => exact hkeyed
  | kept metadata hkey _ hnew =>
      refine insertSnapshot_keyed (retain_keyed hkeyed metadata) hnew ?_
      unfold UsageStore.retain
      rw [Table.get_set, if_pos hkey.symm]
      rfl

theorem ingest_keyed {resolve : Resolve} {nodeId : Text} {snapshots : List UsageSnapshot}
    {store : UsageStore} {after : UsageStore × Nat}
    (h : ingest resolve nodeId snapshots store = .ok after) (hkeyed : Keyed store) :
    Keyed after.1 :=
  foldlM_invariant (fun progress : UsageStore × Nat => Keyed progress.1)
    (fun _ _ _ _ hprogress hone => (ingestOne_ok hone).1.keyed hprogress) hkeyed h

/-- A store in which nothing is kept yet. -/
theorem keyed_of_none {streams : Table SessionKey UsageStreamMetadata}
    (h : ∀ key metadata, streams.get key = some metadata → metadata.key = key) :
    Keyed { streams } where
  nodup := List.nodup_nil
  streams := h
  retained := by
    intro row hrow
    cases hrow
  numbered := List.Pairwise.nil

theorem importStream_keyed {backup : List UsageStreamMetadata}
    {before after : Table SessionKey UsageStreamMetadata}
    (h : backup.foldlM importStream before = .ok after)
    (hkeyed : ∀ key metadata, before.get key = some metadata → metadata.key = key) :
    ∀ key metadata, after.get key = some metadata → metadata.key = key := by
  refine foldlM_invariant (fun streams : Table SessionKey UsageStreamMetadata =>
    ∀ key metadata, streams.get key = some metadata → metadata.key = key) ?_ hkeyed h
  intro streams stream _ streams' hstreams hone key metadata hget
  unfold importStream at hone
  split at hone
  · cases hone
  · rw [← Except.ok.inj hone] at hget
    rcases Table.get_set_some hget with ⟨hkey, rfl⟩ | ⟨_, hget⟩
    · exact hkey.symm
    · exact hstreams key metadata hget

theorem importStream_get {backup : List UsageStreamMetadata}
    {before after : Table SessionKey UsageStreamMetadata}
    (h : backup.foldlM importStream before = .ok after) :
    (∀ stream ∈ backup, after.get stream.key = some stream) ∧
      ∀ key metadata, before.get key = some metadata → after.get key = some metadata := by
  induction backup generalizing before with
  | nil =>
      rw [List.foldlM_nil] at h
      rw [← Except.ok.inj h]
      exact ⟨fun _ hs => absurd hs List.not_mem_nil, fun _ _ hm => hm⟩
  | cons stream rest ih =>
      rw [List.foldlM_cons] at h
      rcases bind_ok h with ⟨middle, hone, hrest⟩
      unfold importStream at hone
      split at hone
      · cases hone
      · rename_i hfree
        rw [Option.not_isSome_iff_eq_none] at hfree
        have hrest := ih hrest
        rw [← Except.ok.inj hone] at hrest
        refine ⟨fun s hs => ?_, fun key metadata hm => ?_⟩
        · rcases List.mem_cons.mp hs with rfl | hs
          · exact hrest.2 _ _ (Table.get_set_self _ _ _)
          · exact hrest.1 s hs
        · refine hrest.2 key metadata ?_
          rw [Table.get_set, if_neg]
          · exact hm
          · rintro rfl
            rw [hm] at hfree
            cases hfree

theorem importBackup_keyed {backup : UsageBackup} {store : UsageStore}
    (h : importBackup backup = .ok store) : Keyed store := by
  unfold importBackup at h
  split at h
  · cases h
  · rename_i hmetadata
    rcases bind_ok h with ⟨streams, hstreams, hsnapshots⟩
    have hget := importStream_get hstreams
    have hkeyed : Keyed { streams } :=
      keyed_of_none (importStream_keyed hstreams fun key metadata hnone => by
        rw [Table.get_empty] at hnone
        cases hnone)
    refine (foldlM_invariant (fun store : UsageStore => Keyed store ∧ store.streams = streams)
      ?_ ⟨hkeyed, rfl⟩ hsnapshots).1
    intro store row hrow store' hstore hone
    unfold importSnapshot at hone
    split at hone
    · cases hone
    · rename_i hnew
      rw [Option.not_isSome_iff_eq_none, find_eq_none] at hnew
      rw [← Except.ok.inj hone]
      refine ⟨insertSnapshot_keyed hstore.1 hnew ?_, hstore.2⟩
      -- The check found the stream of each snapshot.
      rw [Bool.not_eq_true, List.any_eq_false] at hmetadata
      have hfound := hmetadata row hrow
      rw [Bool.not_eq_true, List.all_eq_false] at hfound
      rcases hfound with ⟨stream, hstream, hkey⟩
      rw [decide_eq_true_eq, ne_eq, not_not] at hkey
      rw [hstore.2, ← hkey, hget.1 stream hstream]
      rfl

/-- Whatever is done, every snapshot is kept once and with the metadata of its session. -/
theorem keyed_of_run (ops : List Op) : Keyed (Run.final step {} ops) := by
  refine Run.invariant step Keyed (fun store op hkeyed => ?_) ops {}
    (keyed_of_none fun key metadata hnone => by
      rw [Table.get_empty] at hnone
      cases hnone)
  cases op with
  | retain metadata => exact retain_keyed hkeyed metadata
  | ingest resolve nodeId snapshots =>
      simp only [step]
      split
      · rename_i after through hingest
        exact ingest_keyed hingest hkeyed
      · exact hkeyed
  | importBackup backup =>
      simp only [step]
      split
      · rename_i after himport
        exact importBackup_keyed himport
      · exact hkeyed

end Usage

end CopilotFleet
