import CopilotFleet.Usage.Report
import Mathlib.Data.List.Dedup
import Mathlib.Data.List.Pairwise

/-!
# Usage Backups

A Host is replaced by another one, which is given what the old one kept. The
numbers of the snapshots are the Host's own and are made anew, but in the same
order, so a report meets the same readings in the same order and adds up the
same doubles. What it says is the same to the last digit (`restored_same`).

The names of machines and tasks are left out: where a Node was renamed, which of
its names is told is a matter of the order in which a store is read.

## Theorems

* `importBackup_exportBackup`: A backup is accepted, and restores what it was made of.
* `Alike.tally_eq`: A report of the same readings says the same.
* `restored_same`: A move to another Host does not matter.
-/

namespace CopilotFleet

namespace Usage

open Utf16 Refusal

/-! ### The order of the rows -/

theorem textLe_total (a b : Text) : textLe a b || textLe b a := by
  unfold textLe
  rw [Bool.or_eq_true, decide_eq_true_eq, decide_eq_true_eq]
  exact List.le_total _ _

theorem textLe_trans {a b c : Text} (h : textLe a b) (h' : textLe b c) : textLe a c := by
  unfold textLe at *
  rw [decide_eq_true_eq] at *
  exact List.le_trans h h'

theorem textLe_antisymm {a b : Text} (h : textLe a b) (h' : textLe b a) : toUtf8 a = toUtf8 b := by
  unfold textLe at *
  rw [decide_eq_true_eq] at *
  exact List.le_antisymm h h'

/-- The order by Nodes, and of one Node by another order. -/
def nodeOrder (le : Row → Row → Bool) (left right : Row) : Bool :=
  if toUtf8 left.nodeId = toUtf8 right.nodeId then le left right
  else textLe left.nodeId right.nodeId

theorem nodeOrder_total {le : Row → Row → Bool} (h : ∀ a b, le a b || le b a) (a b : Row) :
    nodeOrder le a b || nodeOrder le b a := by
  unfold nodeOrder
  by_cases hnode : toUtf8 a.nodeId = toUtf8 b.nodeId
  · rw [if_pos hnode, if_pos hnode.symm]
    exact h a b
  · rw [if_neg hnode, if_neg (Ne.symm hnode)]
    exact textLe_total _ _

theorem textLe_congr {a b c : Text} (h : toUtf8 a = toUtf8 b) : textLe a c = textLe b c := by
  unfold textLe
  rw [h]

theorem textLe_congr_right {a b c : Text} (h : toUtf8 b = toUtf8 c) : textLe a b = textLe a c := by
  unfold textLe
  rw [h]

theorem nodeOrder_trans {le : Row → Row → Bool}
    (htrans : ∀ a b c, le a b → le b c → le a c) (a b c : Row)
    (hab : nodeOrder le a b) (hbc : nodeOrder le b c) : nodeOrder le a c := by
  unfold nodeOrder at *
  by_cases h₁ : toUtf8 a.nodeId = toUtf8 b.nodeId
  · rw [if_pos h₁] at hab
    by_cases h₂ : toUtf8 b.nodeId = toUtf8 c.nodeId
    · rw [if_pos h₂] at hbc
      rw [if_pos (h₁.trans h₂)]
      exact htrans a b c hab hbc
    · rw [if_neg h₂] at hbc
      rw [if_neg (by rw [h₁]; exact h₂), textLe_congr h₁]
      exact hbc
  · rw [if_neg h₁] at hab
    by_cases h₂ : toUtf8 b.nodeId = toUtf8 c.nodeId
    · rw [if_neg (by rw [← h₂]; exact h₁), ← textLe_congr_right h₂]
      exact hab
    · rw [if_neg h₂] at hbc
      by_cases h₃ : toUtf8 a.nodeId = toUtf8 c.nodeId
      · -- Two different texts cannot be in both orders.
        rw [textLe_congr h₃] at hab
        exact absurd (textLe_antisymm hbc hab) h₂
      · rw [if_neg h₃]
        exact textLe_trans hab hbc

/-- The order of the readings of one Node. -/
def timeOrder (left right : Row) : Bool :=
  let leftTime := left.snapshot.accounting.observedAt.time
  let rightTime := right.snapshot.accounting.observedAt.time
  if leftTime = rightTime then left.sequence ≤ right.sequence else leftTime < rightTime

theorem readBefore_eq : readBefore = nodeOrder timeOrder := rfl

theorem timeOrder_iff (a b : Row) :
    timeOrder a b ↔ a.snapshot.accounting.observedAt.time < b.snapshot.accounting.observedAt.time ∨
      (a.snapshot.accounting.observedAt.time = b.snapshot.accounting.observedAt.time ∧
        a.sequence ≤ b.sequence) := by
  unfold timeOrder
  dsimp only
  by_cases h : a.snapshot.accounting.observedAt.time = b.snapshot.accounting.observedAt.time
  · rw [if_pos h, decide_eq_true_eq]
    omega
  · rw [if_neg h, decide_eq_true_eq]
    omega

theorem timeOrder_total (a b : Row) : timeOrder a b || timeOrder b a := by
  rw [Bool.or_eq_true, timeOrder_iff, timeOrder_iff]
  omega

theorem timeOrder_trans (a b c : Row) (hab : timeOrder a b) (hbc : timeOrder b c) :
    timeOrder a c := by
  rw [timeOrder_iff] at *
  omega

/-! ### Restored -/

/-- Rows of the same snapshots, both in the order of their numbers. -/
def SameRow (left right : Row) : Prop :=
  left.nodeId = right.nodeId ∧ left.snapshot = right.snapshot

/-- The numbers of a Node grow along the rows. -/
def Numbered (rows : List Row) : Prop :=
  rows.Pairwise fun a b => a.nodeId = b.nodeId → a.sequence < b.sequence

/-- Pairs of rows that are in the same order by both of their numbers. -/
def SameOrder (z w : Row × Row) : Prop :=
  z.1.nodeId = w.1.nodeId → (z.1.sequence ≤ w.1.sequence ↔ z.2.sequence ≤ w.2.sequence)

theorem sameOrder_of_numbered {zs : List (Row × Row)} (hsame : ∀ z ∈ zs, SameRow z.1 z.2)
    (hleft : Numbered (zs.map Prod.fst)) (hright : Numbered (zs.map Prod.snd)) :
    ∀ z ∈ zs, ∀ w ∈ zs, SameOrder z w := by
  have hpairs : zs.Pairwise fun z w => SameOrder z w ∧ SameOrder w z := by
    have hboth := (List.pairwise_map.mp hleft).and (List.pairwise_map.mp hright)
    refine hboth.imp_of_mem fun {z w} hz hw hgrow => ⟨fun hnode => ?_, fun hnode => ?_⟩
    · have h₁ := hgrow.1 hnode
      have h₂ := hgrow.2 (by rw [← (hsame z hz).1, ← (hsame w hw).1, hnode])
      omega
    · have h₁ := hgrow.1 hnode.symm
      have h₂ := hgrow.2 (by rw [← (hsame z hz).1, ← (hsame w hw).1, hnode])
      omega
  intro z hz w hw
  have hself : ∀ z ∈ zs, SameOrder z z ∧ SameOrder z z := by
    intro z _
    have horder : SameOrder z z := by
      intro _
      omega
    exact ⟨horder, horder⟩
  exact (hpairs.forall_of_forall_of_flip hself (hpairs.imp fun h => ⟨h.2, h.1⟩) hz hw).1

/-- What is read of rows, without the numbers. -/
def Row.pair (row : Row) : Text × UsageSnapshot := (row.nodeId, row.snapshot)

theorem sort_pairs {left right : List Row} (hpairs : left.map Row.pair = right.map Row.pair)
    (hleft : Numbered left) (hright : Numbered right)
    (hwf : ∀ a ∈ left, ∀ b ∈ left, toUtf8 a.nodeId = toUtf8 b.nodeId → a.nodeId = b.nodeId) :
    (left.mergeSort readBefore).map Row.pair = (right.mergeSort readBefore).map Row.pair := by
  have hlength : left.length = right.length := by
    rw [← List.length_map (f := Row.pair), hpairs, List.length_map]
  -- Sorting both sides of the zipped list at once shows that they sort alike.
  generalize hzs : left.zip right = zs
  have hfst : zs.map Prod.fst = left := by
    rw [← hzs, List.map_fst_zip (Nat.le_of_eq hlength)]
  have hsnd : zs.map Prod.snd = right := by
    rw [← hzs, List.map_snd_zip (Nat.le_of_eq hlength.symm)]
  have hsame : ∀ z ∈ zs, Row.pair z.1 = Row.pair z.2 := by
    rw [← hfst, ← hsnd, List.map_map, List.map_map] at hpairs
    exact List.map_inj_left.mp hpairs
  have horder := sameOrder_of_numbered
    (fun z hz => ⟨(Prod.mk.inj (hsame z hz)).1, (Prod.mk.inj (hsame z hz)).2⟩)
    (hfst ▸ hleft) (hsnd ▸ hright)
  have hread : ∀ z ∈ zs, ∀ w ∈ zs, readBefore z.1 w.1 = readBefore z.2 w.2 := by
    intro z hz w hw
    have hz' := Prod.mk.inj (hsame z hz)
    have hw' := Prod.mk.inj (hsame w hw)
    unfold readBefore
    rw [← hz'.1, ← hz'.2, ← hw'.1, ← hw'.2]
    by_cases hnode : toUtf8 z.1.nodeId = toUtf8 w.1.nodeId
    · rw [if_pos hnode, if_pos hnode]
      have hnode' : z.1.nodeId = w.1.nodeId := by
        refine hwf z.1 ?_ w.1 ?_ hnode
        · rw [← hfst]
          exact List.mem_map_of_mem hz
        · rw [← hfst]
          exact List.mem_map_of_mem hw
      have hnumbers := horder z hz w hw hnode'
      dsimp only
      simp only [hnumbers]
    · rw [if_neg hnode, if_neg hnode]
  have hl : (zs.mergeSort fun z w => readBefore z.1 w.1).map Prod.fst =
      left.mergeSort readBefore := by
    have hfirst : ∀ z ∈ zs, ∀ w ∈ zs, readBefore z.1 w.1 = readBefore (Prod.fst z) (Prod.fst w) :=
      fun _ _ _ _ => rfl
    rw [List.map_mergeSort hfirst, hfst]
  have hr : (zs.mergeSort fun z w => readBefore z.1 w.1).map Prod.snd =
      right.mergeSort readBefore := by
    rw [List.map_mergeSort hread, hsnd]
  rw [← hl, ← hr, List.map_map, List.map_map]
  refine List.map_congr_left fun z hz => ?_
  exact hsame z (List.mem_mergeSort.mp hz)

theorem rowLe_eq : rowLe = nodeOrder fun a b => decide (a.sequence ≤ b.sequence) := rfl

theorem export_sorted (store : UsageStore) :
    (store.snapshots.mergeSort rowLe).Pairwise fun a b => rowLe a b := by
  rw [rowLe_eq]
  refine List.pairwise_mergeSort (nodeOrder_trans fun a b c hab hbc => ?_)
    (nodeOrder_total fun a b => ?_) store.snapshots
  · rw [decide_eq_true_eq] at *
    omega
  · rw [Bool.or_eq_true, decide_eq_true_eq, decide_eq_true_eq]
    omega

theorem export_numbered {store : UsageStore} (h : Keyed store) :
    Numbered (store.snapshots.mergeSort rowLe) := by
  -- No two rows of a Node have one number, in whatever order they stand.
  have hdistinct : (store.snapshots.mergeSort rowLe).Pairwise
      fun a b => a.nodeId = b.nodeId → a.sequence ≠ b.sequence := by
    refine List.Pairwise.perm (h.numbered.imp fun hgrow hnode => ?_)
      (List.mergeSort_perm _ _).symm fun hxy hnode => (hxy hnode.symm).symm
    have hlt := hgrow hnode
    omega
  refine (hdistinct.and (export_sorted store)).imp fun {a b} hboth hnode => ?_
  have hle := hboth.2
  unfold rowLe at hle
  rw [if_pos (by rw [hnode]), decide_eq_true_eq] at hle
  have hne := hboth.1 hnode
  omega

/-- Streams of different sessions are all taken in. -/
theorem importStreams_ok (streams : List UsageStreamMetadata)
    (before : Table SessionKey UsageStreamMetadata)
    (hnodup : (streams.map UsageStreamMetadata.key).Nodup)
    (hfree : ∀ stream ∈ streams, before.get stream.key = none) :
    ∃ after, streams.foldlM importStream before = .ok after ∧
      ∀ key, (∀ stream ∈ streams, stream.key ≠ key) → after.get key = before.get key := by
  induction streams generalizing before with
  | nil => exact ⟨before, rfl, fun _ _ => rfl⟩
  | cons stream rest ih =>
      rw [List.map_cons, List.nodup_cons] at hnodup
      have hone : importStream before stream = .ok (before.set stream.key stream) := by
        unfold importStream
        rw [hfree stream List.mem_cons_self]
        rfl
      have hother : ∀ s ∈ rest, s.key ≠ stream.key := fun s hs hsame =>
        hnodup.1 (List.mem_map.mpr ⟨s, hs, hsame⟩)
      rcases ih (before.set stream.key stream) hnodup.2 fun s hs => by
        rw [Table.get_set, if_neg (hother s hs)]
        exact hfree s (List.mem_cons_of_mem stream hs) with ⟨after, hafter, hrest⟩
      refine ⟨after, ?_, fun key hkey => ?_⟩
      · rw [List.foldlM_cons, hone]
        exact hafter
      · rw [hrest key fun s hs => hkey s (List.mem_cons_of_mem stream hs), Table.get_set,
          if_neg (hkey stream List.mem_cons_self).symm]

/-- Snapshots of different ids are all taken in, in their order. -/
theorem importSnapshots_ok (pairs : List (Text × UsageSnapshot)) (store : UsageStore)
    (hnodup : (pairs.map fun p => (p.1, p.2.id)).Nodup)
    (hfree : ∀ p ∈ pairs, (p.1, p.2.id) ∉ store.snapshots.map Row.id) :
    ∃ after, pairs.foldlM importSnapshot store = .ok after ∧
      after.snapshots.map Row.pair = store.snapshots.map Row.pair ++ pairs ∧
      after.streams = store.streams := by
  induction pairs generalizing store with
  | nil => exact ⟨store, rfl, (List.append_nil _).symm, rfl⟩
  | cons p rest ih =>
      rw [List.map_cons, List.nodup_cons] at hnodup
      have hone : importSnapshot store p = .ok (store.insertSnapshot p.1 p.2) := by
        unfold importSnapshot
        rw [find_eq_none.mpr (hfree p List.mem_cons_self)]
        rfl
      rcases ih (store.insertSnapshot p.1 p.2) hnodup.2 fun q hq => by
        unfold UsageStore.insertSnapshot
        rw [List.map_append, List.mem_append, List.map_singleton, List.mem_singleton]
        rintro (hmem | hsame)
        · exact hfree q (List.mem_cons_of_mem p hq) hmem
        · exact hnodup.1 (List.mem_map.mpr ⟨q, hq, hsame⟩) with ⟨after, hafter, hpairs, hstreams⟩
      refine ⟨after, ?_, ?_, hstreams⟩
      · rw [List.foldlM_cons, hone]
        exact hafter
      · rw [hpairs]
        unfold UsageStore.insertSnapshot
        rw [List.map_append, List.append_assoc]
        rfl

/-- A backup is accepted, and has what it was made of. -/
theorem importBackup_exportBackup {store : UsageStore} (h : Keyed store) :
    ∃ restored, importBackup (exportBackup store) = .ok restored ∧ Keyed restored ∧
      (∀ key, restored.streams.get key = store.streams.get key) ∧
      restored.snapshots.map Row.pair = (store.snapshots.mergeSort rowLe).map Row.pair := by
  have hstreams : (store.streams.values.mergeSort streamLe).Perm store.streams.values :=
    List.mergeSort_perm _ _
  have hrows : (store.snapshots.mergeSort rowLe).Perm store.snapshots := List.mergeSort_perm _ _
  -- Sorting moves rows only, so the keys stay distinct and every insertion succeeds.
  have hkeys : store.streams.values.map UsageStreamMetadata.key =
      store.streams.entries.map Prod.fst := by
    unfold Table.values
    rw [List.map_map]
    refine List.map_congr_left fun e he => ?_
    exact h.streams e.1 e.2 ((store.streams.mem_entries_iff _ _).mp he)
  have hnodup : ((store.streams.values.mergeSort streamLe).map UsageStreamMetadata.key).Nodup := by
    rw [(hstreams.map _).nodup_iff, hkeys]
    exact store.streams.nodup
  rcases importStreams_ok _ Table.empty hnodup fun _ _ => Table.get_empty _
    with ⟨streams, hok, hother⟩
  have hget := (importStream_get hok).1
  rcases importSnapshots_ok ((store.snapshots.mergeSort rowLe).map Row.pair) { streams } (by
        rw [List.map_map]
        exact ((hrows.map _).nodup_iff).mpr h.nodup) (fun _ _ => List.not_mem_nil)
    with ⟨restored, hrestored, hpairs, hsame⟩
  have himport : importBackup (exportBackup store) = .ok restored := by
    unfold importBackup exportBackup
    dsimp only
    rw [if_neg]
    · change (((store.streams.values.mergeSort streamLe).foldlM importStream Table.empty) >>=
        fun streams => ((store.snapshots.mergeSort rowLe).map Row.pair).foldlM importSnapshot
          { streams }) = .ok restored
      rw [hok]
      exact hrestored
    · -- Every snapshot has the metadata of its session.
      rw [Bool.not_eq_true, List.any_eq_false]
      intro p hp hnone
      rcases List.mem_map.mp hp with ⟨row, hrow, rfl⟩
      rcases Option.isSome_iff_exists.mp (h.retained row (hrows.mem_iff.mp hrow)) with ⟨m, hm⟩
      have hmem : m ∈ store.streams.values.mergeSort streamLe :=
        hstreams.mem_iff.mpr ((store.streams.mem_values_iff m).mpr ⟨_, hm⟩)
      have hkey := of_decide_eq_true (List.all_eq_true.mp hnone m hmem)
      exact hkey (h.streams _ m hm)
  refine ⟨restored, himport, importBackup_keyed himport, fun key => ?_, ?_⟩
  · -- A stream comes back under its key, and no other key has one.
    rw [hsame]
    change streams.get key = _
    cases hkey : store.streams.get key with
    | some m =>
        have hmem : m ∈ store.streams.values.mergeSort streamLe :=
          hstreams.mem_iff.mpr ((store.streams.mem_values_iff m).mpr ⟨_, hkey⟩)
        rw [← h.streams key m hkey]
        exact hget m hmem
    | none =>
        rw [hother key, Table.get_empty]
        intro stream hstream hsamekey
        rcases (store.streams.mem_values_iff stream).mp (hstreams.mem_iff.mp hstream) with ⟨k, hk⟩
        rw [← hsamekey, h.streams k stream hk, hk] at hkey
        cases hkey
  · rw [hpairs]
    rfl

/-! ### The same report -/

/-- Whose a session is now, from what is kept and what there is. -/
theorem allMetadata_get {store : UsageStore} (h : Keyed store)
    (current : List UsageStreamMetadata) (key : SessionKey) :
    (allMetadata current store).get key =
      ((current.filter fun m => m.key = key).getLast?).or (store.streams.get key) := by
  unfold allMetadata
  rw [Table.get_foldl_set, Table.get_foldl_set, Option.map_id', Option.map_id', Table.get_empty,
    Option.or_none]
  congr 1
  have hvalues : ∀ m ∈ store.streams.values.filter fun m => m.key = key,
      store.streams.get key = some m := by
    intro m hm
    rcases List.mem_filter.mp hm with ⟨hmem, hkey⟩
    rcases (store.streams.mem_values_iff m).mp hmem with ⟨k, hget⟩
    rw [← of_decide_eq_true hkey, h.streams k m hget]
    exact hget
  cases hlast : (store.streams.values.filter fun m => m.key = key).getLast? with
  | some m => exact (hvalues m (List.mem_of_getLast? hlast)).symm
  | none =>
      -- No stream has the key.
      rw [List.getLast?_eq_none_iff] at hlast
      cases hget : store.streams.get key with
      | none => rfl
      | some m =>
          have hmem : m ∈ store.streams.values.filter fun m => m.key = key :=
            List.mem_filter.mpr ⟨(store.streams.mem_values_iff m).mpr ⟨key, hget⟩,
              decide_eq_true (h.streams key m hget)⟩
          rw [hlast] at hmem
          cases hmem

theorem visits_pairs (metadata : Table SessionKey UsageStreamMetadata) (rows : List Row) :
    visits metadata rows = ((rows.mergeSort readBefore).map Row.pair).filterMap fun p =>
      (metadata.get (p.1, p.2.sessionId)).map fun owner =>
        { nodeId := p.1, owner, sample := p.2.accounting } := by
  unfold visits
  rw [List.filterMap_map]
  rfl

/-- A row is the only one of its Node with its number. -/
theorem row_eq_of_sequence {store : UsageStore} (h : Keyed store) {a b : Row}
    (ha : a ∈ store.snapshots) (hb : b ∈ store.snapshots) (hnode : a.nodeId = b.nodeId)
    (hsequence : a.sequence = b.sequence) : a = b := by
  have hnodup : (store.snapshots.map fun row => (row.nodeId, row.sequence)).Nodup := by
    refine List.pairwise_map.mpr (h.numbered.imp fun hgrow hsame => ?_)
    have hpair := Prod.mk.inj hsame
    have hlt := hgrow hpair.1
    omega
  exact List.inj_on_of_nodup_map hnodup ha hb (Prod.ext hnode hsequence)

/-- The order in which rows are exported does not change the order in which they are read. -/
theorem sort_export {store : UsageStore} (h : Keyed store)
    (hnodes : ∀ a ∈ store.snapshots, ∀ b ∈ store.snapshots,
      toUtf8 a.nodeId = toUtf8 b.nodeId → a.nodeId = b.nodeId) :
    (store.snapshots.mergeSort rowLe).mergeSort readBefore =
      store.snapshots.mergeSort readBefore := by
  have hsorted (rows : List Row) :
      (rows.mergeSort readBefore).Pairwise fun a b => readBefore a b := by
    rw [readBefore_eq]
    exact List.pairwise_mergeSort (nodeOrder_trans timeOrder_trans)
      (nodeOrder_total timeOrder_total) rows
  have hperm : ((store.snapshots.mergeSort rowLe).mergeSort readBefore).Perm
      (store.snapshots.mergeSort readBefore) :=
    (List.mergeSort_perm _ _).trans
      ((List.mergeSort_perm _ _).trans (List.mergeSort_perm _ _).symm)
  refine List.Perm.eq_of_pairwise (fun a b ha hb hab hba => ?_) (hsorted _) (hsorted _) hperm
  have ha' : a ∈ store.snapshots := List.mem_mergeSort.mp (List.mem_mergeSort.mp ha)
  have hb' : b ∈ store.snapshots := List.mem_mergeSort.mp hb
  rw [readBefore_eq] at hab hba
  unfold nodeOrder at hab hba
  by_cases hnode : toUtf8 a.nodeId = toUtf8 b.nodeId
  · rw [if_pos hnode, timeOrder_iff] at hab
    rw [if_pos hnode.symm, timeOrder_iff] at hba
    exact row_eq_of_sequence h ha' hb' (hnodes a ha' b hb' hnode) (by omega)
  · rw [if_neg hnode] at hab
    rw [if_neg (Ne.symm hnode)] at hba
    exact absurd (textLe_antisymm hab hba) hnode


/-- An old record, without the number of its row. -/
def unnumbered (legacy : HermesScope × Row) : HermesScope × (Text × UsageSnapshot) :=
  (legacy.1, legacy.2.pair)

/-- The old records by what is read of their rows. -/
theorem legacyScopes_pairs (metadata : Table SessionKey UsageStreamMetadata) (rows : List Row) :
    (legacyScopes metadata rows).map unnumbered =
      ((rows.map Row.pair).filter fun p =>
        p.2.accounting.source = HERMES_LEGACY_USAGE_SOURCE &&
          (metadata.get (p.1, p.2.sessionId)).any fun owner => owner.backend = .hermes).map
            fun p => ((p.1, p.2.accounting.counterId), p) := by
  unfold legacyScopes
  rw [List.filter_map, List.map_map, List.map_map]
  rfl

/-- Two stores of which a report reads the same: the same sessions, and the same snapshots. -/
structure Alike (all all' : Table SessionKey UsageStreamMetadata) (rows rows' : List Row) :
    Prop where
  metadata : ∀ key, all'.get key = all.get key
  visits : visits all' rows' = visits all rows
  pairs : (rows'.map Row.pair).Perm (rows.map Row.pair)

namespace Alike

variable {all all' : Table SessionKey UsageStreamMetadata} {rows rows' : List Row}
  (h : Alike all all' rows rows') (day : Int → Text) (query : UsageReportQuery)

include h

theorem selected_get (key : SessionKey) :
    (selectedMetadata query all').get key = (selectedMetadata query all).get key := by
  unfold selectedMetadata
  rw [Table.get_keep, Table.get_keep, h.metadata]

theorem selected_values :
    (selectedMetadata query all').values.Perm (selectedMetadata query all).values :=
  (Table.entries_perm (h.selected_get query)).map Prod.snd

theorem selected_size : (selectedMetadata query all').size = (selectedMetadata query all).size :=
  (Table.entries_perm (h.selected_get query)).length_eq

/-- The old records are the same, but for the numbers of their rows. -/
theorem legacy_perm :
    ((legacyRows query all' rows').map unnumbered).Perm
      ((legacyRows query all rows).map unnumbered) := by
  unfold legacyRows
  rw [(h.selected_values query).any_eq]
  split
  · rw [legacyScopes_pairs, legacyScopes_pairs]
    simp only [h.metadata]
    exact (h.pairs.filter _).map _
  · exact .refl _

theorem selectedLegacy_perm :
    ((selectedLegacyHermes query all' rows').map unnumbered).Perm
      ((selectedLegacyHermes query all rows).map unnumbered) := by
  have hfilter (all : Table SessionKey UsageStreamMetadata) (rows : List Row) :
      ((selectedLegacyHermes query all rows).map unnumbered) =
        ((legacyRows query all rows).map unnumbered).filter
          fun p => ((selectedMetadata query all).get (p.2.1, p.2.2.sessionId)).isSome &&
            query.before p.2.2.accounting.observedAt.time := by
    rw [List.filter_map]
    rfl
  rw [hfilter, hfilter]
  simp only [h.selected_get]
  exact (h.legacy_perm query).filter _

/-- What a report makes of the same readings in the same order is the same. -/
theorem tally_eq : tally day query all' rows' = tally day query all rows := by
  have hscopes : ((legacyRows query all' rows').map (·.1)).Perm
      ((legacyRows query all rows).map (·.1)) := by
    have hfirst := (h.legacy_perm query).map Prod.fst
    rw [List.map_map, List.map_map] at hfirst
    exact hfirst
  have hstep : visitSnapshot day query ((legacyRows query all' rows').map (·.1)) =
      visitSnapshot day query ((legacyRows query all rows).map (·.1)) := by
    funext tallied visit
    -- Only which old records there are matters.
    unfold visitSnapshot rememberOrigin originOf Visit.origin
    rw [hscopes.contains_eq]
  unfold tally
  dsimp only
  rw [h.selected_size, h.visits, hstep]

end Alike

/-- The sessions of some old records, each once. -/
theorem sessions_length {left right : List (HermesScope × Row)}
    (h : (left.map unnumbered).Perm (right.map unnumbered)) :
    (left.map (·.2.key)).dedup.length = (right.map (·.2.key)).dedup.length := by
  have hkeys := (h.map fun p => ((p.2.1, p.2.2.sessionId) : SessionKey)).dedup.length_eq
  rw [List.map_map, List.map_map] at hkeys
  exact hkeys

/-- Of the same records, those of scopes that meet a condition. -/
theorem pending_perm {left right : List (HermesScope × Row)}
    (h : (left.map unnumbered).Perm (right.map unnumbered)) (p : HermesScope → Bool) :
    ((left.filter fun legacy => p legacy.1).map unnumbered).Perm
      ((right.filter fun legacy => p legacy.1).map unnumbered) := by
  have hfilter := h.filter fun q => p q.1
  rw [List.filter_map, List.filter_map] at hfilter
  exact hfilter

/-- Whatever is asked, what is said is the same. -/
structure SaysSame (result result' : UsageReport) : Prop where
  totals : result'.totals = result.totals
  rows : result'.rows = result.rows
  coverage : result'.coverage = result.coverage
  legacyHermesSessions : result'.legacyHermesSessions = result.legacyHermesSessions
  pendingHermesSessions : result'.pendingHermesSessions = result.pendingHermesSessions

theorem report_alike (day : Int → Text) (query : UsageReportQuery)
    (localeLe : RowKey → RowKey → Bool) (current : List UsageStreamMetadata)
    {store restored : UsageStore}
    (h : Alike (allMetadata current store) (allMetadata current restored) store.snapshots
      restored.snapshots) :
    SaysSame (report day query localeLe current store)
      (report day query localeLe current restored) := by
  have htally := h.tally_eq day query
  have hlegacy := h.selectedLegacy_perm query
  have hnone : selectedLegacyHermes query (allMetadata current restored) restored.snapshots = [] ↔
      selectedLegacyHermes query (allMetadata current store) store.snapshots = [] := by
    have hlength := hlegacy.length_eq
    rw [List.length_map, List.length_map] at hlength
    rw [← List.length_eq_zero_iff, hlength, List.length_eq_zero_iff]
  constructor
  · unfold report
    dsimp only
    rw [htally]
  · unfold report
    dsimp only
    rw [htally]
  · unfold report
    dsimp only
    rw [htally]
  · unfold report
    dsimp only
    simp only [hnone, sessions_length hlegacy]
  · unfold report
    dsimp only
    have hpending := sessions_length (pending_perm hlegacy fun scope =>
      !(tally day query (allMetadata current store)
        store.snapshots).coverage.correctedHermesScopes.contains scope)
    simp only [hnone, htally, hpending]

/-- A store that was moved through a backup is read as it was. -/
theorem alike_restored {store restored : UsageStore} (h : Keyed store) (hrestored : Keyed restored)
    (hget : ∀ key, restored.streams.get key = store.streams.get key)
    (hpairs : restored.snapshots.map Row.pair = (store.snapshots.mergeSort rowLe).map Row.pair)
    (hnodes : ∀ a ∈ store.snapshots, ∀ b ∈ store.snapshots,
      toUtf8 a.nodeId = toUtf8 b.nodeId → a.nodeId = b.nodeId)
    (current : List UsageStreamMetadata) :
    Alike (allMetadata current store) (allMetadata current restored) store.snapshots
      restored.snapshots := by
  have hmetadata (key : SessionKey) :
      (allMetadata current restored).get key = (allMetadata current store).get key := by
    rw [allMetadata_get hrestored, allMetadata_get h, hget]
  refine ⟨hmetadata, ?_, ?_⟩
  · have hsame := sort_pairs hpairs.symm (export_numbered h) hrestored.numbered
      fun a ha b hb => hnodes a (List.mem_mergeSort.mp ha) b (List.mem_mergeSort.mp hb)
    rw [visits_pairs, visits_pairs, ← hsame, sort_export h hnodes]
    simp only [hmetadata]
  · rw [hpairs]
    exact (List.mergeSort_perm _ _).map _

/-- A store that was moved through a backup answers every question as before, after whatever
    happened to it. -/
theorem restored_same (ops : List Op)
    (hwf : ∀ row ∈ (Run.final step {} ops).snapshots, wellFormed row.nodeId) :
    ∃ restored, importBackup (exportBackup (Run.final step {} ops)) = .ok restored ∧
      ∀ (day : Int → Text) (localeLe : RowKey → RowKey → Bool) (query : UsageReportQuery)
        (current : List UsageStreamMetadata),
        SaysSame (report day query localeLe current (Run.final step {} ops))
          (report day query localeLe current restored) := by
  have hkeyed := keyed_of_run ops
  rcases importBackup_exportBackup hkeyed with ⟨restored, hok, hrestored, hget, hpairs⟩
  refine ⟨restored, hok, fun day localeLe query current => ?_⟩
  refine report_alike day query localeLe current
    (alike_restored hkeyed hrestored hget hpairs (fun a ha b hb hnode => ?_) current)
  exact toUtf8_injective (hwf a ha) (hwf b hb) hnode

/-- A session as it is told to a Host by its Node and its id. -/
def known (nodeId sessionId : Text) : Except String (Option UsageStreamMetadata) :=
  .ok (some {
    nodeId, nodeName := [], sessionId, sessionName := [], backend := .copilot, role := .worker
    taskId := [], taskName := [] })

/-- A reading of tokens and credits. -/
def counted (id counterId : String) (time : Int) (count : Nat) (credits : ℚ≥0) : UsageSnapshot where
  id := ofString id
  sequence := 1
  sessionId := ofString counterId
  accounting := {
    nativeSessionId := [], counterId := ofString counterId, source := []
    observedAt := { text := [], time }
    amounts := { aiCredits := some credits, totalTokens := some count } }

/-- Three counters that were read at one time, the later Node first. -/
def atOnce : List Op :=
  [.ingest known [2] [counted "c" "z" 0 7 (1 / 10)],
   .ingest known [1] [counted "a" "x" 0 (2 ^ 53 - 1) (1 / 10), counted "b" "y" 0 1 (1 / 5)],
   .ingest known [1] [counted "d" "x" 0 (2 ^ 53 - 1) (3 / 10)]]

/-- A store with several readings of one time is moved. -/
theorem restored_same_atOnce :
    ∃ restored, importBackup (exportBackup (Run.final step {} atOnce)) = .ok restored ∧
      ∀ day localeLe query current,
        SaysSame (report day query localeLe current (Run.final step {} atOnce))
          (report day query localeLe current restored) := by
  rcases restored_same atOnce (by decide +kernel) with ⟨restored, hok, hsame⟩
  exact ⟨restored, hok, hsame⟩

example : (Run.final step {} atOnce).snapshots.length = 4 := by decide +kernel

end Usage

end CopilotFleet
