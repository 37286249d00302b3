import CopilotFleet.Host.ProjectionRuns
import Mathlib.Algebra.Order.BigOperators.Group.List
import Mathlib.Algebra.Order.Group.Nat

/-!
# What the Projections Retain

Every projection is counted with the bytes of its blocks when it is built, and
with the bytes of each change after that, so its count never falls below what
its blocks take. The counts add up to the total that is compared with the
limit. Each projection that is dropped is subtracted with the count it was
added with, and no session has a projection and a build at once, or a build
that ends would put its projection over one that is still counted.

Dropping ends: each round removes a projection, and none is left to remove
only where the one that is kept is the last. So after any run the total is
within the limit, or a single projection is left.

## Main definitions

* `Counted`: The counts add up, and cover the blocks.
* `Bounded`: The total is within the limit, or one projection is left.

## Theorems

* `write_bytes`: A change adds at most its own bytes.
* `evict_bounded`: Dropping ends within the limit, or with one projection.
* `Retained.applied`, `Retained.requested`, `Retained.turned`: One step.
* `retained_bounds`: Throughout a run, what is retained is counted and bounded.
-/

namespace CopilotFleet

namespace Transcript

open Utf16

/-! ### Bytes of blocks -/

theorem blocksBytes_append (xs ys : List TerminalBlock) :
    blocksBytes (xs ++ ys) = blocksBytes xs + blocksBytes ys := by
  unfold blocksBytes
  rw [List.map_append, List.sum_append]

theorem blocksBytes_set {blocks : List TerminalBlock} {index : Nat} {old : TerminalBlock}
    (h : blocks[index]? = some old) (block : TerminalBlock) :
    blocksBytes (blocks.set index block) + blockBytes old =
      blocksBytes blocks + blockBytes block := by
  induction blocks generalizing index with
  | nil => simp at h
  | cons first rest ih =>
      unfold blocksBytes at ih ⊢
      cases index with
      | zero =>
          simp only [List.getElem?_cons_zero, Option.some.injEq] at h
          rw [h]
          simp only [List.set_cons_zero, List.map_cons, List.sum_cons]
          omega
      | succ index =>
          have hrest := @ih index (by simpa using h)
          simp only [List.set_cons_succ, List.map_cons, List.sum_cons]
          omega

theorem blockBytes_text (block : TerminalBlock) (text : Text) :
    blockBytes { block with text := block.text ++ text } = blockBytes block + text.length * 2 := by
  unfold blockBytes
  simp only [List.length_append]
  omega

/-- A change adds at most its own bytes. -/
theorem write_bytes (blocks : List TerminalBlock) (change : TranscriptChange) :
    blocksBytes (Replica.write blockEdits blocks change) ≤
      blocksBytes blocks + changeBytes change := by
  cases change with
  | append index text =>
      cases hold : blocks[index]? with
      | none =>
          simp only [Replica.write, blockEdits, TranscriptChange.index, changedBlock, hold]
          exact Nat.le_add_right _ _
      | some old =>
          have hset := blocksBytes_set hold { old with text := old.text ++ text }
          have hbytes := blockBytes_text old text
          rw [@Replica.write_of_lt _ _ blockEdits blocks (.append index text)
            { old with text := old.text ++ text } (by
              simp [blockEdits, TranscriptChange.index, changedBlock, hold])
            (List.getElem?_eq_some_iff.mp hold).1]
          simp only [blockEdits, TranscriptChange.index, changeBytes]
          omega
  | block index block =>
      by_cases hlt : index < blocks.length
      · have hset := blocksBytes_set (List.getElem?_eq_getElem hlt) block
        rw [@Replica.write_of_lt _ _ blockEdits blocks (.block index block) block rfl hlt]
        simp only [blockEdits, TranscriptChange.index, changeBytes]
        omega
      · simp only [Replica.write, blockEdits, TranscriptChange.index, changedBlock, changeBytes,
          hlt, if_false, blocksBytes_append]
        exact Nat.le_of_eq rfl

/-! ### The counts -/

/-- The counts add up to the total and cover the blocks, and no session is built while it has a
    projection. -/
structure Counted (t : TranscriptProjections) : Prop where
  total : ((t.ready.total ReadyProjection.bytes : Nat) : Int) = t.bytes
  covers : ∀ id p, t.ready.get id = some p →
    blocksBytes p.projection.projector.blocks ≤ p.bytes
  apart : ∀ id, t.ready.get id = none ∨ t.builds.get id = none

/-- The total is within the limit, or one projection is left. -/
def Bounded (limits : TranscriptProjectionLimits) (t : TranscriptProjections) : Prop :=
  t.bytes ≤ limits.maxBytes ∨ t.ready.size ≤ 1

structure Retained (limits : TranscriptProjectionLimits) (t : TranscriptProjections) : Prop where
  counted : Counted t
  bounded : Bounded limits t

section

variable {limits : TranscriptProjectionLimits} {t next : TranscriptProjections} {sessionId : Text}

/-- One projection is written, and the total moves by what its count does. -/
theorem Counted.written (h : Counted t) {q : ReadyProjection}
    (hready : next.ready = t.ready.set sessionId q)
    (hbytes : next.bytes =
      t.bytes + q.bytes - (((t.ready.get sessionId).map ReadyProjection.bytes).getD 0 : Nat))
    (hcovers : blocksBytes q.projection.projector.blocks ≤ q.bytes)
    (hfree : next.builds.get sessionId = none)
    (hbuilds : ∀ id, id ≠ sessionId → next.builds.get id = t.builds.get id) : Counted next := by
  refine ⟨?_, fun id p hp => ?_, fun id => ?_⟩
  · have htotal := t.ready.total_set sessionId q ReadyProjection.bytes
    have hold := h.total
    rw [hready]
    omega
  · rw [hready] at hp
    rcases Table.get_set_some hp with ⟨_, rfl⟩ | ⟨_, hp⟩
    · exact hcovers
    · exact h.covers id p hp
  · by_cases hid : id = sessionId
    · rw [hid]
      exact .inr hfree
    · rw [hready, Table.get_set_ne _ _ hid, hbuilds id hid]
      exact h.apart id

theorem Counted.invalidated (h : Counted t) (sessionId : Text) :
    Counted (t.invalidate sessionId) := by
  have hless := t.invalidate_less sessionId
  refine ⟨?_, fun id p hp => h.covers id p (hless.ready id p hp), fun id => ?_⟩
  · have herase := t.ready.total_erase sessionId ReadyProjection.bytes
    have htotal := h.total
    unfold TranscriptProjections.invalidate
    cases hready : t.ready.get sessionId with
    | none => exact htotal
    | some p =>
        rw [hready] at herase
        simp only [Option.map_some, Option.getD_some] at herase ⊢
        omega
  · rcases h.apart id with hnone | hnone
    · refine .inl ?_
      rw [Option.eq_none_iff_forall_ne_some]
      intro p hp
      rw [hless.ready id p hp] at hnone
      cases hnone
    · rw [hless.builds]
      exact .inr hnone

theorem invalidate_size (t : TranscriptProjections) (sessionId : Text) :
    (t.invalidate sessionId).ready.size ≤ t.ready.size ∧
      (t.invalidate sessionId).bytes ≤ t.bytes := by
  unfold TranscriptProjections.invalidate
  cases h : t.ready.get sessionId with
  | none => exact ⟨Nat.le_refl _, Int.le_refl _⟩
  | some p =>
      exact ⟨Nat.le_of_lt (t.ready.size_erase_lt h), Int.sub_le_self _ (Int.natCast_nonneg _)⟩

theorem Retained.invalidated (h : Retained limits t) (sessionId : Text) :
    Retained limits (t.invalidate sessionId) := by
  have hle := invalidate_size t sessionId
  refine ⟨h.counted.invalidated sessionId, ?_⟩
  rcases h.bounded with hbytes | hsize
  · exact .inl (Int.le_trans hle.2 hbytes)
  · exact .inr (Nat.le_trans hle.1 hsize)

/-! ### Dropping -/

theorem Counted.evicted (h : Counted t) (keep : Text) :
    Counted (t.evict limits keep) := by
  have hrounds : ∀ (rounds : Nat) (t : TranscriptProjections), Counted t →
      Counted (TranscriptProjections.evictRounds limits keep rounds t) := by
    intro rounds
    induction rounds with
    | zero => exact fun t h => h
    | succ rounds ih =>
        intro t h
        unfold TranscriptProjections.evictRounds
        split
        · exact h
        · split
          · exact h
          · exact ih _ (h.invalidated _)
  exact hrounds _ t h

/-- Where every projection is to be kept, there is one. -/
theorem size_le_one {keep : Text} (h : ∀ entry ∈ t.ready.entries, entry.1 = keep) :
    t.ready.size ≤ 1 := by
  unfold Table.size
  have hnodup := t.ready.nodup
  cases hentries : t.ready.entries with
  | nil => exact Nat.zero_le _
  | cons first rest =>
      cases rest with
      | nil => exact Nat.le_refl _
      | cons second rest =>
          rw [hentries] at h hnodup
          have hfirst := h first List.mem_cons_self
          have hsecond := h second (List.mem_cons_of_mem _ List.mem_cons_self)
          simp [hfirst, hsecond] at hnodup

/-- Dropping ends within the limit, or with one projection. -/
theorem evict_bounded (limits : TranscriptProjectionLimits) (t : TranscriptProjections)
    (keep : Text) : Bounded limits (t.evict limits keep) := by
  have hrounds : ∀ (rounds : Nat) (t : TranscriptProjections), t.ready.size ≤ rounds →
      Bounded limits (TranscriptProjections.evictRounds limits keep rounds t) := by
    intro rounds
    induction rounds with
    | zero =>
        intro t hsize
        exact .inr (Nat.le_trans hsize (Nat.zero_le 1))
    | succ rounds ih =>
        intro t hsize
        unfold TranscriptProjections.evictRounds
        by_cases hdone : (decide (t.bytes ≤ limits.maxBytes) || decide (t.ready.size ≤ 1)) = true
        · rw [if_pos hdone]
          rw [Bool.or_eq_true, decide_eq_true_eq, decide_eq_true_eq] at hdone
          exact hdone
        · rw [if_neg hdone]
          cases hfound : t.oldest keep with
          | none => exact .inr (size_le_one ((t.oldest_spec keep).missing hfound))
          | some found =>
              refine ih _ ?_
              -- What was found is there, so that one less is left.
              have hmem := ((t.oldest_spec keep).found found hfound).1
              have hget := (t.ready.mem_entries_iff found.1 found.2).mp hmem
              have hlt := t.ready.size_erase_lt hget
              unfold TranscriptProjections.invalidate
              rw [hget]
              exact Nat.le_of_lt_succ (Nat.lt_of_lt_of_le hlt hsize)
  exact hrounds _ t (Nat.le_refl _)

end

/-! ### One step -/

section

variable {parseFleetControl : Text → Option FleetControl} {limits : TranscriptProjectionLimits}
variable {t : TranscriptProjections}

/-- A projection that is there is written with the count it had. -/
theorem Retained.rewritten (h : Retained limits t) {sessionId : Text} {p q : ReadyProjection}
    {clock : Nat} (hready : t.ready.get sessionId = some p) (hbytes : q.bytes = p.bytes)
    (hblocks : q.projection.projector.blocks = p.projection.projector.blocks) :
    Retained limits { t with ready := t.ready.set sessionId q, clock } := by
  have hfree : t.builds.get sessionId = none := by
    rcases h.counted.apart sessionId with hnone | hnone
    · rw [hready] at hnone
      cases hnone
    · exact hnone
  refine ⟨h.counted.written rfl ?_ ?_ hfree fun _ _ => rfl, ?_⟩
  · rw [hready, hbytes]
    simp only [Option.map_some, Option.getD_some]
    omega
  · rw [hblocks, hbytes]
    exact h.counted.covers sessionId p hready
  · rcases h.bounded with hle | hsize
    · exact .inl hle
    · refine .inr ?_
      rw [t.ready.size_set_of_get q hready]
      exact hsize

theorem advance_blocks (p : Projection) (event : SessionEvent) :
    Writes p.projector.blocks ((p.advance parseFleetControl event).1.map TranscriptUpdate.change)
      (p.advance parseFleetControl event).2.projector.blocks := by
  have hwrites := p.projector.apply_spec parseFleetControl event
  unfold Projection.advance
  simp only
  cases hchange : (p.projector.apply parseFleetControl event).1 with
  | none =>
      rw [hchange] at hwrites
      exact hwrites
  | some change =>
      rw [hchange] at hwrites
      exact hwrites

theorem Retained.advanced (h : Retained limits t) {p : ReadyProjection} {event : SessionEvent}
    (hready : t.ready.get event.sessionId = some p) :
    Retained limits (t.advance parseFleetControl limits p event).2 := by
  have hwrites := @advance_blocks parseFleetControl p.projection event
  unfold TranscriptProjections.advance
  simp only
  cases hupdate : (p.projection.advance parseFleetControl event).1 with
  | none =>
      rw [hupdate] at hwrites
      exact h.rewritten hready rfl hwrites
  | some update =>
      rw [hupdate] at hwrites
      have hfree : t.builds.get event.sessionId = none := by
        rcases h.counted.apart event.sessionId with hnone | hnone
        · rw [hready] at hnone
          cases hnone
        · exact hnone
      refine ⟨Counted.evicted ?_ _, evict_bounded _ _ _⟩
      refine h.counted.written rfl ?_ ?_ hfree fun _ _ => rfl
      · rw [hready]
        simp only [Option.map_some, Option.getD_some]
        omega
      · have hcovers := h.counted.covers event.sessionId p hready
        have hgrown := write_bytes p.projection.projector.blocks update.change
        have hblocks : (p.projection.advance parseFleetControl event).2.projector.blocks =
            Replica.write blockEdits p.projection.projector.blocks update.change := hwrites.2
        simp only [hblocks]
        omega

theorem Retained.applied (h : Retained limits t) (event : SessionEvent) :
    Retained limits (t.apply parseFleetControl limits event).2 := by
  unfold TranscriptProjections.apply
  cases hbuild : t.builds.get event.sessionId with
  | some build =>
      simp only
      split
      · refine ⟨⟨h.counted.total, h.counted.covers, fun id => ?_⟩, h.bounded⟩
        by_cases hid : id = event.sessionId
        · -- Where there is a build, there is no projection.
          rcases h.counted.apart event.sessionId with hnone | hnone
          · exact .inl (hid ▸ hnone)
          · rw [hbuild] at hnone
            cases hnone
        · simp only [Table.get_set_ne _ _ hid]
          exact h.counted.apart id
      · exact h
  | none =>
      simp only
      cases hready : t.ready.get event.sessionId with
      | none => exact h
      | some p =>
          simp only
          have hcounted : Retained limits { t with
              ready := t.ready.set event.sessionId { p with writes := p.writes + 1 } } :=
            h.rewritten hready rfl rfl
          split
          · split
            · exact hcounted.invalidated event.sessionId
            · exact hcounted
          · exact h.advanced hready

theorem Retained.finished (h : Retained limits t) (store : EventStore) {sessionId : Text}
    (generation : Text) (build : Build) (hready : t.ready.get sessionId = none) :
    Retained limits (t.finish limits store sessionId generation build) := by
  unfold TranscriptProjections.finish
  refine ⟨Counted.evicted ?_ _, evict_bounded _ _ _⟩
  refine h.counted.written rfl ?_ (Nat.le_refl _) (Table.get_erase_self _ _)
    fun id hid => Table.get_erase_ne _ hid
  rw [hready]
  simp only [Option.map_none, Option.getD_none]
  omega

theorem Retained.turned (h : Retained limits t) (store : EventStore) {sessionId : Text}
    (generation : Text) (build : Build) (hready : t.ready.get sessionId = none) :
    Retained limits (t.turn parseFleetControl limits store sessionId generation build) := by
  have hyielded : ∀ next, Retained limits { t with builds := t.builds.set sessionId next } := by
    intro next
    refine ⟨⟨h.counted.total, h.counted.covers, fun id => ?_⟩, h.bounded⟩
    by_cases hid : id = sessionId
    · exact .inl (hid ▸ hready)
    · simp only [Table.get_set_ne _ _ hid]
      exact h.counted.apart id
  unfold TranscriptProjections.turn
  simp only
  split
  · exact hyielded _
  · split
    · split
      · exact hyielded _
      · exact h.finished store generation _ hready
    · exact h.finished store generation _ hready

theorem Retained.requested (h : Retained limits t) (store : EventStore)
    (sessionId generation : Text) :
    Retained limits (t.request parseFleetControl limits store sessionId generation) := by
  unfold TranscriptProjections.request
  cases hready : t.ready.get sessionId with
  | some p =>
      simp only
      split
      · exact h.rewritten hready rfl rfl
      · split
        · exact h.invalidated sessionId
        · exact (h.invalidated sessionId).turned store generation _ (t.invalidate_get sessionId)
  | none =>
      simp only
      split
      · exact h
      · exact h.turned store generation _ hready

theorem Retained.cleared (h : Retained limits t) : Retained limits t.clear := by
  have hdropped : ∀ (ids : List Text) (t : TranscriptProjections), Retained limits t →
      Retained limits (ids.foldl TranscriptProjections.invalidate t) := by
    intro ids
    induction ids with
    | nil => exact fun t h => h
    | cons id rest ih => exact fun t h => ih _ (h.invalidated id)
  have hkept := hdropped (t.ready.entries.map Prod.fst) t h
  refine ⟨⟨hkept.counted.total, hkept.counted.covers, fun id => .inl (t.clear_ready id)⟩,
    hkept.bounded⟩

end

/-! ### Every run -/

namespace TranscriptRuns

open HostTranscripts

variable {parseFleetControl : Text → Option FleetControl} {limits : TranscriptProjectionLimits}

theorem retained_empty : Retained limits HostTranscripts.empty.projections := by
  refine ⟨⟨rfl, fun id p hp => ?_, fun id => .inl rfl⟩, .inr (Nat.zero_le 1)⟩
  cases hp

theorem retained_foldl (events : List SessionEvent) (s : HostTranscripts)
    (h : Retained limits s.projections) :
    Retained limits (events.foldl (applied parseFleetControl limits) s).projections := by
  induction events generalizing s with
  | nil => exact h
  | cons event rest ih => exact ih _ (h.applied event)

theorem retained_step (s : HostTranscripts) (op : Op) (h : Retained limits s.projections) :
    Retained limits (step parseFleetControl limits s op).projections := by
  cases op with
  | store event positive =>
      change Retained limits (s.stored parseFleetControl limits event positive).projections
      unfold stored
      simp only
      split
      · exact h.applied event
      · exact h
  | bypass event positive => exact h
  | importNativeSession sessionId events =>
      change Retained limits (s.imported parseFleetControl limits sessionId events).projections
      unfold imported
      simp only
      split
      · exact h.invalidated sessionId
      · exact retained_foldl _ _ h
  | delete sessionId => exact h
  | restore store => exact h.cleared
  | request sessionId generation =>
      change Retained limits (s.noted sessionId generation _).projections
      rw [(noted_projections _ _ _ _).1]
      exact h.requested s.store sessionId generation
  | turn sessionId generation =>
      rcases step_turn s sessionId generation with ⟨_, hsame⟩ | ⟨build, hbuild, hturn⟩
      · rw [hsame]
        exact h
      · rw [hturn, (noted_projections _ _ _ _).1]
        refine h.turned s.store generation build ?_
        rcases h.counted.apart sessionId with hnone | hnone
        · exact hnone
        · rw [hbuild] at hnone
          cases hnone

theorem retained_of_run (ops : List Op) :
    Retained limits (Run.final (step parseFleetControl limits) .empty ops).projections :=
  Run.invariant (step parseFleetControl limits) (fun s => Retained limits s.projections)
    retained_step ops .empty retained_empty

/-- The retained total is the sum of the counts of the projections there are, each of which
    covers its blocks; and it is within the limit, or a single projection is left. -/
theorem retained_bounds (ops : List Op) :
    let t := (Run.final (step parseFleetControl limits) .empty ops).projections
    ((t.ready.total ReadyProjection.bytes : Nat) : Int) = t.bytes ∧
      (∀ id p, t.ready.get id = some p →
        blocksBytes p.projection.projector.blocks ≤ p.bytes) ∧
      ((t.ready.total fun p => blocksBytes p.projection.projector.blocks : Nat) : Int) ≤ t.bytes ∧
      (t.bytes ≤ limits.maxBytes ∨ t.ready.size ≤ 1) := by
  have h := @retained_of_run parseFleetControl limits ops
  refine ⟨h.counted.total, h.counted.covers, ?_, h.bounded⟩
  rw [← h.counted.total]
  refine Int.ofNat_le.mpr (List.sum_le_sum fun p hp => ?_)
  rcases (Table.mem_values_iff _ p).mp hp with ⟨id, hget⟩
  exact h.counted.covers id p hget

end TranscriptRuns

end Transcript

end CopilotFleet
