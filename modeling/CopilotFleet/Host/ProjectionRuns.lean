import CopilotFleet.Host.TranscriptProjections
import CopilotFleet.Lib.Run

/-!
# Projections against the Stored Events

Runs of a Host that stores events and answers pages of transcripts: events
stored by the service or around it, imports of what a terminal wrote, deleted
sessions, restored archives, pages asked for, and builds that go on batch by
batch in between. Beside it goes a history of what was published.

A projection whose count is the session's is the fold of everything stored
(`Reflects`), and so is what a build has read, up to its cursor (`BuildOk`).
Every write the service applies keeps that, in any order. A write around the
service moves the count of a ready projection, but a build has no count before
it ends. One that lands behind the cursor of a build is missed for good, which
is what `Announced` excludes; an import too long to be pushed is such a write.

## Main definitions

* `HostTranscripts`: The stored events, the projections and what was published.
* `Op`, `step`: What happens next.
* `Announced`: No write lands behind a build without its being told.
* `Exact`: Projections and builds are folds of what is stored.
* `Answered`: A page that was asked for can be answered, or a build is under way.
* `Shows`: A page is the slice that was asked for.

## Theorems

* `Exact.stored`, `Exact.bypassed`: One write, through the service and around it.
* `exact_of_run`: Throughout a run, a projection of the right count is exact.
* `request_answered`, `turn_answered`: What asking for a page leaves.
* `pages_exact`: A page is a slice of the fold of all that is stored.
-/

namespace CopilotFleet

namespace Transcript

open Utf16

/-! ### The system -/

/-- An event of an import, whose number may be left to the Host. -/
structure ImportedEvent where
  eventId : Text
  payload : SessionEventPayload
  createdAt : Text
  sequence : Option Nat
  positive : ∀ n, sequence = some n → 0 < n

def NATIVE_IMPORT_LIVE_LIMIT : Nat := 64

namespace EventStore

/-- The event an import stores, behind everything else where it has no number. -/
def importedEvent (store : EventStore) (sessionId : Text) (input : ImportedEvent) :
    SessionEvent where
  eventId := input.eventId
  sessionId
  sequence := input.sequence.getD (store.maxEventSequence sessionId + 1)
  payload := input.payload
  createdAt := input.createdAt

theorem importedEvent_positive (store : EventStore) (sessionId : Text) (input : ImportedEvent) :
    0 < (store.importedEvent sessionId input).sequence := by
  unfold importedEvent
  cases hsequence : input.sequence with
  | none => exact Nat.succ_pos _
  | some n => exact input.positive n hsequence

/-- One event of an import: skipped where its id is known, and reported where it was stored. -/
def appendImported (sessionId : Text) (state : EventStore × List SessionEvent)
    (input : ImportedEvent) : EventStore × List SessionEvent :=
  if state.1.rows.any fun row => row.eventId = input.eventId then state
  else
    let event := state.1.importedEvent sessionId input
    let appended := state.1.appendEvent event (state.1.importedEvent_positive sessionId input)
    (appended.1, if appended.2.stored then state.2 ++ [event] else state.2)

def appendImportedEvents (store : EventStore) (sessionId : Text) (inputs : List ImportedEvent) :
    EventStore × List SessionEvent :=
  inputs.foldl (appendImported sessionId) (store, [])

end EventStore

/-- The stored events, the projections, what was published, and what each generation
    was built as. -/
structure HostTranscripts where
  store : EventStore
  projections : TranscriptProjections
  published : List TranscriptUpdate
  bases : Table Text (List TerminalBlock)

def HostTranscripts.empty : HostTranscripts where
  store := .empty
  projections := .empty
  published := []
  bases := .empty

namespace HostTranscripts

variable (parseFleetControl : Text → Option FleetControl) (limits : TranscriptProjectionLimits)

/-- One stored event, applied and published. -/
def applied (s : HostTranscripts) (event : SessionEvent) : HostTranscripts :=
  let result := s.projections.apply parseFleetControl limits event
  { s with projections := result.2, published := s.published ++ result.1.toList }

/-- One event stored by the service, which applies it where it is new. -/
def stored (s : HostTranscripts) (event : SessionEvent) (hpositive : 0 < event.sequence) :
    HostTranscripts :=
  let appended := s.store.appendEvent event hpositive
  let next := { s with store := appended.1 }
  if appended.2.stored then next.applied parseFleetControl limits event else next

/-- All of an import is stored and then, unless there is too much of it, applied. -/
def imported (s : HostTranscripts) (sessionId : Text) (events : List ImportedEvent) :
    HostTranscripts :=
  let appended := s.store.appendImportedEvents sessionId events
  let next := { s with store := appended.1 }
  if NATIVE_IMPORT_LIVE_LIMIT < appended.2.length then
    { next with projections := next.projections.invalidate sessionId }
  else appended.2.foldl (applied parseFleetControl limits) next

/-- What a projection that was built just now starts from. -/
def noted (s : HostTranscripts) (sessionId generation : Text)
    (projections : TranscriptProjections) : HostTranscripts :=
  match projections.ready.get sessionId with
  | some p =>
      if p.projection.generation = generation then
        { s with
          projections
          bases := s.bases.set generation p.projection.projector.blocks }
      else { s with projections }
  | none => { s with projections }

end HostTranscripts

namespace TranscriptRuns

open HostTranscripts

inductive Op where
  | store (event : SessionEvent) (positive : 0 < event.sequence)
  | bypass (event : SessionEvent) (positive : 0 < event.sequence)
  | importNativeSession (sessionId : Text) (events : List ImportedEvent)
  | delete (sessionId : Text)
  | restore (store : EventStore)
  | request (sessionId generation : Text)
  | turn (sessionId generation : Text)

variable (parseFleetControl : Text → Option FleetControl) (limits : TranscriptProjectionLimits)

def step (s : HostTranscripts) : Op → HostTranscripts
  | .store event positive => s.stored parseFleetControl limits event positive
  | .bypass event positive => { s with store := (s.store.appendEvent event positive).1 }
  | .importNativeSession sessionId events => s.imported parseFleetControl limits sessionId events
  | .delete sessionId => { s with store := s.store.deleteSessionRecords sessionId }
  | .restore store => { s with store, projections := s.projections.clear }
  | .request sessionId generation =>
      s.noted sessionId generation
        (s.projections.request parseFleetControl limits s.store sessionId generation)
  | .turn sessionId generation =>
      match s.projections.builds.get sessionId with
      | some build =>
          s.noted sessionId generation
            (s.projections.turn parseFleetControl limits s.store sessionId generation build)
      | none => s

end TranscriptRuns

/-! ### Projections are folds of what is stored -/

section

variable (parseFleetControl : Text → Option FleetControl)

/-- A projector with these events folded in. -/
def projectorOf (events : List SessionEvent) : TranscriptProjector :=
  events.foldl (fun (p : TranscriptProjector) event => (p.apply parseFleetControl event).2)
    TranscriptProjector.new

theorem projectorOf_append (xs ys : List SessionEvent) :
    projectorOf parseFleetControl (xs ++ ys) =
      ys.foldl (fun (p : TranscriptProjector) event => (p.apply parseFleetControl event).2)
        (projectorOf parseFleetControl xs) :=
  List.foldl_append

/-- An event of no transcript leaves a projector as it is. -/
theorem apply_unseen {event : SessionEvent} (h : isTranscriptEvent event = false)
    (p : TranscriptProjector) : p.apply parseFleetControl event = (none, p) := by
  unfold isTranscriptEvent at h
  unfold TranscriptProjector.apply
  cases hpayload : event.payload with
  | agentSession | commands | config | usage => rfl
  | agentText | agentThought | tool | permission | permissionResult | turnComplete | error | system
    | state =>
      rw [hpayload] at h
      cases h

/-- So all of a session's events fold to its transcript. -/
theorem projectorOf_eventsOf (store : EventStore) (sessionId : Text) :
    projectorOf parseFleetControl (store.eventsOf sessionId) =
      projectorOf parseFleetControl (store.transcriptOf sessionId) := by
  have hfilter : ∀ (events : List SessionEvent) (p : TranscriptProjector),
      events.foldl (fun (p : TranscriptProjector) event => (p.apply parseFleetControl event).2) p =
        (events.filter isTranscriptEvent).foldl
          (fun (p : TranscriptProjector) event => (p.apply parseFleetControl event).2) p := by
    intro events
    induction events with
    | nil => exact fun p => rfl
    | cons event rest ih =>
        intro p
        by_cases hseen : isTranscriptEvent event = true
        · rw [List.filter_cons_of_pos hseen]
          exact ih _
        · rw [List.filter_cons_of_neg hseen, List.foldl_cons,
            apply_unseen parseFleetControl (Bool.eq_false_of_not_eq_true hseen)]
          exact ih p
  unfold projectorOf EventStore.transcriptOf EventStore.eventsOf
  rw [hfilter, List.filter_filter]
  congr 1
  refine List.filter_congr fun row _ => ?_
  rw [Bool.and_comm]

/-- A projection is not ahead of the count, and one of the right count is everything stored. -/
structure Reflects (store : EventStore) (sessionId : Text) (p : ReadyProjection) : Prop where
  writes : p.writes ≤ store.eventWrites sessionId
  folded : p.writes = store.eventWrites sessionId →
    p.projection.projector = projectorOf parseFleetControl (store.transcriptOf sessionId) ∧
      ∀ row ∈ store.transcriptOf sessionId, row.sequence ≤ p.maxSequence

/-- A build nothing was stored behind has folded everything up to its cursor. -/
def BuildOk (store : EventStore) (sessionId : Text) (build : Build) : Prop :=
  build.lateFill = false → build.projector = projectorOf parseFleetControl
    (OrderedLog.upTo SessionEvent.sequence build.cursor (store.transcriptOf sessionId))

/-- What is kept of one session. -/
structure ExactAt (store : EventStore) (sessionId : Text) (ready : Option ReadyProjection)
    (build : Option Build) : Prop where
  ready : ∀ p, ready = some p → Reflects parseFleetControl store sessionId p
  build : ∀ b, build = some b → BuildOk parseFleetControl store sessionId b

/-- What is kept of every session. -/
def Exact (store : EventStore) (t : TranscriptProjections) : Prop :=
  ∀ sessionId, ExactAt parseFleetControl store sessionId (t.ready.get sessionId)
    (t.builds.get sessionId)

end

section

variable {parseFleetControl : Text → Option FleetControl} {limits : TranscriptProjectionLimits}
variable {store : EventStore} {t : TranscriptProjections}

theorem Exact.less (h : Exact parseFleetControl store t) {less : TranscriptProjections}
    (hless : TranscriptProjections.Less less t) : Exact parseFleetControl store less := by
  intro sessionId
  refine ⟨fun p hp => (h sessionId).ready p (hless.ready sessionId p hp), fun b hb => ?_⟩
  rw [hless.builds] at hb
  exact (h sessionId).build b hb

/-- One session changes, and of the others nothing. -/
theorem Exact.update (h : Exact parseFleetControl store t) {next : TranscriptProjections}
    {sessionId : Text}
    (hready : ∀ id, id ≠ sessionId → ∀ p, next.ready.get id = some p → t.ready.get id = some p)
    (hbuilds : ∀ id, id ≠ sessionId → next.builds.get id = t.builds.get id)
    (hself : ExactAt parseFleetControl store sessionId (next.ready.get sessionId)
      (next.builds.get sessionId)) : Exact parseFleetControl store next := by
  intro id
  by_cases hid : id = sessionId
  · rw [hid]
    exact hself
  · refine ⟨fun p hp => (h id).ready p (hready id hid p hp), fun b hb => ?_⟩
    rw [hbuilds id hid] at hb
    exact (h id).build b hb

/-- A write moves the count past every projection, so that none is taken for what is stored. -/
theorem Reflects.passed {next : EventStore} {sessionId : Text} {p : ReadyProjection}
    (h : Reflects parseFleetControl store sessionId p)
    (hwrites : store.eventWrites sessionId < next.eventWrites sessionId) :
    Reflects parseFleetControl next sessionId p := by
  have hle := h.writes
  refine ⟨by omega, fun heq => ?_⟩
  omega

variable {event : SessionEvent} (hpositive : 0 < event.sequence)
variable (hdup : store.duplicate event = none)

/-- Another session sees nothing of a write. -/
theorem ExactAt.inserted_other {sessionId : Text} (hne : sessionId ≠ event.sessionId)
    {ready : Option ReadyProjection} {build : Option Build}
    (h : ExactAt parseFleetControl store sessionId ready build) :
    ExactAt parseFleetControl (store.inserted event hpositive hdup) sessionId ready build := by
  have hrows : (store.inserted event hpositive hdup).transcriptOf sessionId =
      store.transcriptOf sessionId :=
    EventStore.transcriptOf_unseen hpositive hdup (by simp [Ne.symm hne])
  have hwrites : (store.inserted event hpositive hdup).eventWrites sessionId =
      store.eventWrites sessionId := by
    rw [EventStore.eventWrites_inserted, if_neg hne, Nat.add_zero]
  refine ⟨fun p hp => ?_, fun b hb => ?_⟩
  · have hold := h.ready p hp
    refine ⟨by rw [hwrites]; exact hold.writes, fun heq => ?_⟩
    rw [hrows]
    rw [hwrites] at heq
    exact hold.folded heq
  · unfold BuildOk
    rw [hrows]
    exact h.build b hb

/-- A build that an event does not land behind still has what is up to its cursor. -/
theorem BuildOk.inserted {sessionId : Text} {build : Build}
    (h : BuildOk parseFleetControl store sessionId build)
    (hbehind : isTranscriptEvent event = true → build.lateFill = false →
      build.cursor < event.sequence) :
    BuildOk parseFleetControl (store.inserted event hpositive hdup) sessionId build := by
  intro hlate
  rw [h hlate]
  by_cases hseen : isTranscriptEvent event = true
  · rw [EventStore.upTo_past hpositive hdup (hbehind hseen hlate)]
  · rw [EventStore.transcriptOf_unseen hpositive hdup (by simp [hseen])]

/-- A write around the service, which lands behind no build. -/
theorem Exact.bypassed (h : Exact parseFleetControl store t)
    (hannounced : ∀ b, t.builds.get event.sessionId = some b → isTranscriptEvent event = true →
      b.lateFill = false → b.cursor < event.sequence) :
    Exact parseFleetControl (store.inserted event hpositive hdup) t := by
  intro sessionId
  by_cases hid : sessionId = event.sessionId
  · subst hid
    refine ⟨fun p hp => ?_, fun b hb =>
      ((h _).build b hb).inserted hpositive hdup (hannounced b hb)⟩
    refine ((h _).ready p hp).passed ?_
    rw [EventStore.eventWrites_inserted, if_pos rfl]
    omega
  · exact (h sessionId).inserted_other hpositive hdup hid

end

/-! ### What an applied event does -/

section

variable (parseFleetControl : Text → Option FleetControl) (limits : TranscriptProjectionLimits)

theorem advance_projector (p : Projection) (event : SessionEvent) :
    (p.advance parseFleetControl event).2.projector =
      (p.projector.apply parseFleetControl event).2 := by
  unfold Projection.advance
  simp only
  cases (p.projector.apply parseFleetControl event).1 with
  | none => rfl
  | some change => rfl

/-- An event in order is folded into the projection, and others may be dropped for it. -/
theorem advance_cases (t : TranscriptProjections) (p : ReadyProjection) (event : SessionEvent) :
    (t.advance parseFleetControl limits p event).1 =
        (p.projection.advance parseFleetControl event).1 ∧
      ∃ more q, TranscriptProjections.Less (t.advance parseFleetControl limits p event).2 more ∧
        more.ready = t.ready.set event.sessionId q ∧ more.builds = t.builds ∧
        q.projection = (p.projection.advance parseFleetControl event).2 ∧
        q.writes = p.writes + 1 ∧ q.maxSequence = event.sequence := by
  unfold TranscriptProjections.advance
  simp only
  cases (p.projection.advance parseFleetControl event).1 with
  | none => exact ⟨rfl, _, _, .refl _, rfl, rfl, rfl, rfl, rfl⟩
  | some update =>
      exact ⟨rfl, _, _, TranscriptProjections.evict_less _ _ _, rfl, rfl, rfl, rfl, rfl⟩

end

section

variable {parseFleetControl : Text → Option FleetControl} {limits : TranscriptProjectionLimits}
variable {store : EventStore} {t : TranscriptProjections} {event : SessionEvent}

/-- What a projection of everything stored is once the next event is folded in. -/
theorem Reflects.advanced (hpositive : 0 < event.sequence) (hdup : store.duplicate event = none)
    {p q : ReadyProjection}
    (h : Reflects parseFleetControl store event.sessionId p)
    (horder : p.maxSequence ≤ event.sequence)
    (hprojection : q.projection = (p.projection.advance parseFleetControl event).2)
    (hwrites : q.writes = p.writes + 1) (hmax : q.maxSequence = event.sequence) :
    Reflects parseFleetControl (store.inserted event hpositive hdup) event.sessionId q := by
  have hcount : (store.inserted event hpositive hdup).eventWrites event.sessionId =
      store.eventWrites event.sessionId + 1 := by
    rw [EventStore.eventWrites_inserted, if_pos rfl]
  have hle := h.writes
  refine ⟨by omega, fun heq => ?_⟩
  rcases h.folded (by omega) with ⟨hprojector, hrows⟩
  rw [hprojection, advance_projector, hprojector, hmax]
  by_cases hseen : isTranscriptEvent event = true
  · rw [EventStore.transcriptOf_next hpositive hdup hseen fun row hrow =>
      Nat.le_trans (hrows row hrow) horder, projectorOf_append]
    exact ⟨rfl, Run.forall_snoc (fun row hrow => Nat.le_trans (hrows row hrow) horder)
      (Nat.le_refl _)⟩
  · rw [EventStore.transcriptOf_unseen hpositive hdup (by simp [hseen]),
      apply_unseen parseFleetControl (Bool.eq_false_of_not_eq_true hseen)]
    exact ⟨rfl, fun row hrow => Nat.le_trans (hrows row hrow) horder⟩

/-- What a projection of everything stored is once a late event that is not shown is counted. -/
theorem Reflects.counted (hpositive : 0 < event.sequence) (hdup : store.duplicate event = none)
    {p : ReadyProjection}
    (h : Reflects parseFleetControl store event.sessionId p)
    (hunseen : isTranscriptEvent event = false) :
    Reflects parseFleetControl (store.inserted event hpositive hdup) event.sessionId
      { p with writes := p.writes + 1 } := by
  have hcount : (store.inserted event hpositive hdup).eventWrites event.sessionId =
      store.eventWrites event.sessionId + 1 := by
    rw [EventStore.eventWrites_inserted, if_pos rfl]
  have hle := h.writes
  refine ⟨by rw [hcount]; exact Nat.succ_le_succ hle, fun heq => ?_⟩
  rw [EventStore.transcriptOf_unseen hpositive hdup (by simp [hunseen])]
  rw [hcount] at heq
  exact h.folded (Nat.succ_injective heq)

/-- Every session but the event's is as it was. -/
theorem Exact.stored_self (hpositive : 0 < event.sequence) (hdup : store.duplicate event = none)
    (h : Exact parseFleetControl store t) {next : TranscriptProjections}
    (hready : ∀ id, id ≠ event.sessionId → ∀ p, next.ready.get id = some p →
      t.ready.get id = some p)
    (hbuilds : ∀ id, id ≠ event.sessionId → next.builds.get id = t.builds.get id)
    (hself : ExactAt parseFleetControl (store.inserted event hpositive hdup) event.sessionId
      (next.ready.get event.sessionId) (next.builds.get event.sessionId)) :
    Exact parseFleetControl (store.inserted event hpositive hdup) next := by
  intro id
  by_cases hid : id = event.sessionId
  · rw [hid]
    exact hself
  · have hother := (h id).inserted_other hpositive hdup hid
    refine ⟨fun p hp => hother.ready p (hready id hid p hp), fun b hb => ?_⟩
    rw [hbuilds id hid] at hb
    exact hother.build b hb

/-- One event stored and applied. -/
theorem Exact.stored (hpositive : 0 < event.sequence) (hdup : store.duplicate event = none)
    (h : Exact parseFleetControl store t) :
    Exact parseFleetControl (store.inserted event hpositive hdup)
      (t.apply parseFleetControl limits event).2 := by
  have hcount : store.eventWrites event.sessionId <
      (store.inserted event hpositive hdup).eventWrites event.sessionId := by
    rw [EventStore.eventWrites_inserted, if_pos rfl]
    omega
  have hold := h event.sessionId
  unfold TranscriptProjections.apply
  cases hbuild : t.builds.get event.sessionId with
  | some build =>
      simp only
      by_cases hlate : (isTranscriptEvent event && decide (event.sequence ≤ build.cursor)) = true
      · -- The build will start over.
        rw [if_pos hlate]
        refine h.stored_self hpositive hdup (fun _ _ _ hp => hp)
          (fun id hid => Table.get_set_ne _ _ hid) ⟨?_, ?_⟩
        · exact fun p hp => (hold.ready p hp).passed hcount
        · intro b hb hfalse
          rw [Table.get_set_self, Option.some.injEq] at hb
          rw [← hb] at hfalse
          cases hfalse
      · rw [if_neg hlate]
        -- The build has not come so far, and will read the event from the store.
        refine h.bypassed hpositive hdup fun b hb hseen _ => ?_
        rw [hbuild, Option.some.injEq] at hb
        rw [hseen, Bool.true_and, decide_eq_true_eq, Nat.not_le, hb] at hlate
        exact hlate
  | none =>
      simp only
      -- Without a build only what is ready has to reflect the event.
      have hnobuild : ∀ (ready : Option ReadyProjection),
          (∀ p, ready = some p →
            Reflects parseFleetControl (store.inserted event hpositive hdup) event.sessionId p) →
          ExactAt parseFleetControl (store.inserted event hpositive hdup) event.sessionId ready
            (t.builds.get event.sessionId) := by
        intro ready hready
        refine ⟨hready, fun b hb => ?_⟩
        rw [hbuild] at hb
        cases hb
      cases hready : t.ready.get event.sessionId with
      | none =>
          refine h.bypassed hpositive hdup fun b hb => ?_
          rw [hbuild] at hb
          cases hb
      | some p =>
          simp only
          by_cases horder : event.sequence < p.maxSequence
          · rw [if_pos horder]
            by_cases hseen : isTranscriptEvent event = true
            · rw [if_pos hseen]
              -- An event out of order drops the projection.
              have hless := TranscriptProjections.invalidate_less { t with
                ready := t.ready.set event.sessionId { p with writes := p.writes + 1 }
                } event.sessionId
              refine h.stored_self hpositive hdup (fun id hid q hq => ?_)
                (fun id _ => by rw [hless.builds]) ?_
              · have hq := hless.ready id q hq
                rw [Table.get_set_ne _ _ hid] at hq
                exact hq
              · rw [hless.builds, TranscriptProjections.invalidate_get]
                refine hnobuild _ fun q hq => ?_
                cases hq
            · rw [if_neg hseen]
              refine h.stored_self hpositive hdup (fun id hid q hq => ?_) (fun _ _ => rfl)
                (hnobuild _ fun q hq => ?_)
              · rw [Table.get_set_ne _ _ hid] at hq
                exact hq
              rw [Table.get_set_self, Option.some.injEq] at hq
              rw [← hq]
              -- It is not of the transcript, so the blocks stay right and the write is counted.
              exact (hold.ready p hready).counted hpositive hdup
                (Bool.eq_false_of_not_eq_true hseen)
          · rw [if_neg horder]
            rcases (advance_cases parseFleetControl limits t p event).2 with
              ⟨more, q, hless, hmore, hbuilds, hprojection, hwrites, hmax⟩
            -- Advancing may evict others, which takes nothing away from those that stay.
            refine Exact.less ?_ hless
            refine h.stored_self hpositive hdup (fun id hid r hr => ?_)
              (fun id _ => by rw [hbuilds]) ?_
            · rw [hmore, Table.get_set_ne _ _ hid] at hr
              exact hr
            · rw [hbuilds, hmore, Table.get_set_self]
              refine hnobuild _ fun r hr => ?_
              rw [← Option.some.inj hr]
              exact (hold.ready p hready).advanced hpositive hdup (Nat.not_lt.mp horder) hprojection
                hwrites hmax

end

/-! ### Builds -/

section

variable {parseFleetControl : Text → Option FleetControl} {limits : TranscriptProjectionLimits}
variable {store : EventStore} {t : TranscriptProjections}

open TranscriptProjections

theorem BuildOk.started (sessionId : Text) : BuildOk parseFleetControl store sessionId started := by
  intro _
  have hnone : OrderedLog.upTo SessionEvent.sequence 0 (store.transcriptOf sessionId) = [] := by
    refine List.filter_eq_nil_iff.mpr fun row hrow hle => ?_
    have hpos := store.positive row (EventStore.mem_transcriptOf.mp hrow).1
    have hle' : row.sequence ≤ 0 := of_decide_eq_true hle
    omega
  change TranscriptProjector.new = projectorOf parseFleetControl
    (OrderedLog.upTo SessionEvent.sequence 0 (store.transcriptOf sessionId))
  rw [hnone]
  rfl

/-- A batch takes a build from one cursor to the next. -/
theorem BuildOk.read {sessionId : Text} {build : Build}
    (h : BuildOk parseFleetControl store sessionId build) (limit : Nat) :
    BuildOk parseFleetControl store sessionId
      (readBatch parseFleetControl build
        (store.listTranscriptRows sessionId build.cursor limit)) := by
  intro hlate
  unfold readBatch
  simp only
  rw [h hlate, ← projectorOf_append]
  unfold EventStore.listTranscriptRows
  rw [← OrderedLog.upTo_batch _ _ _ (store.transcriptOf_sorted sessionId)]

/-- A build becomes a projection of what its cursor covers. -/
theorem Exact.finished (h : Exact parseFleetControl store t) {sessionId generation : Text}
    {build : Build} (hlate : build.lateFill = false)
    (hok : BuildOk parseFleetControl store sessionId build)
    (hall : OrderedLog.upTo SessionEvent.sequence build.cursor (store.transcriptOf sessionId) =
      store.transcriptOf sessionId) :
    Exact parseFleetControl store (t.finish limits store sessionId generation build) := by
  unfold finish
  refine Exact.less ?_ (evict_less _ _ _)
  refine h.update (fun id hid p hp => ?_) (fun id hid => Table.get_erase_ne _ hid) ⟨?_, ?_⟩
  · rw [Table.get_set_ne _ _ hid] at hp
    exact hp
  · intro p hp
    rw [Table.get_set_self, Option.some.injEq] at hp
    rw [← hp]
    refine ⟨Nat.le_refl _, fun _ => ⟨?_, fun row hrow => ?_⟩⟩
    · have hprojector := hok hlate
      rw [hall] at hprojector
      exact hprojector
    · rw [← hall] at hrow
      exact of_decide_eq_true (List.mem_filter.mp hrow).2
  · intro b hb
    rw [Table.get_erase_self] at hb
    cases hb

/-- A build that yields is kept. -/
theorem Exact.yielded (h : Exact parseFleetControl store t) {sessionId : Text} {build : Build}
    (hok : BuildOk parseFleetControl store sessionId build) :
    Exact parseFleetControl store { t with builds := t.builds.set sessionId build } := by
  refine h.update (fun _ _ _ hp => hp) (fun id hid => Table.get_set_ne _ _ hid) ⟨?_, ?_⟩
  · exact (h sessionId).ready
  · intro b hb
    rw [Table.get_set_self, Option.some.injEq] at hb
    rw [← hb]
    exact hok

theorem Exact.turned (h : Exact parseFleetControl store t) {sessionId : Text} (generation : Text)
    {build : Build} (hok : BuildOk parseFleetControl store sessionId build) :
    Exact parseFleetControl store
      (t.turn parseFleetControl limits store sessionId generation build) := by
  have hshort : ∀ cursor, (store.listTranscriptRows sessionId cursor limits.batchSize).length <
      limits.batchSize → OrderedLog.upTo SessionEvent.sequence (OrderedLog.cursor
        SessionEvent.sequence cursor (store.listTranscriptRows sessionId cursor limits.batchSize))
          (store.transcriptOf sessionId) = store.transcriptOf sessionId := fun cursor hlt =>
    OrderedLog.upTo_of_short _ (store.transcriptOf_sorted sessionId) hlt
  unfold turn
  simp only
  by_cases hfull : limits.batchSize ≤
      (store.listTranscriptRows sessionId build.cursor limits.batchSize).length
  · rw [if_pos hfull]
    exact h.yielded (hok.read limits.batchSize)
  rw [if_neg hfull]
  by_cases hlate : (readBatch parseFleetControl build
      (store.listTranscriptRows sessionId build.cursor limits.batchSize)).lateFill = true
  · rw [if_pos hlate]
    -- It starts over with a build that has read nothing.
    have hagain := (@BuildOk.started parseFleetControl store sessionId).read limits.batchSize
    by_cases hfull' : limits.batchSize ≤
        (store.listTranscriptRows sessionId 0 limits.batchSize).length
    · rw [if_pos hfull']
      exact h.yielded hagain
    · rw [if_neg hfull']
      exact h.finished rfl hagain (hshort 0 (Nat.not_le.mp hfull'))
  · rw [if_neg hlate]
    exact h.finished (Bool.eq_false_of_not_eq_true hlate) (hok.read limits.batchSize)
      (hshort build.cursor (Nat.not_le.mp hfull))

theorem Exact.requested (h : Exact parseFleetControl store t) (sessionId generation : Text) :
    Exact parseFleetControl store
      (t.request parseFleetControl limits store sessionId generation) := by
  unfold request
  cases hready : t.ready.get sessionId with
  | some p =>
      simp only
      by_cases hcount : store.eventWrites sessionId = p.writes
      · rw [if_pos hcount]
        refine h.update (fun id hid q hq => ?_) (fun _ _ => rfl) ⟨fun q hq => ?_,
          (h sessionId).build⟩
        · rw [Table.get_set_ne _ _ hid] at hq
          exact hq
        · rw [Table.get_set_self, Option.some.injEq] at hq
          have hold := (h sessionId).ready p hready
          rw [← hq]
          exact ⟨hold.writes, hold.folded⟩
      · rw [if_neg hcount]
        have hdropped := h.less (t.invalidate_less sessionId)
        split
        · exact hdropped
        · exact hdropped.turned generation (BuildOk.started sessionId)
  | none =>
      simp only
      split
      · exact h
      · exact h.turned generation (BuildOk.started sessionId)

theorem exact_cleared (store : EventStore) (t : TranscriptProjections) :
    Exact parseFleetControl store t.clear := by
  intro sessionId
  refine ⟨fun p hp => ?_, fun b hb hlate => ?_⟩
  · rw [t.clear_ready sessionId] at hp
    cases hp
  · rw [clear_builds hb] at hlate
    cases hlate

/-- The rows of a session are gone, and no build of it goes on as if they were not. -/
theorem Exact.deleted (h : Exact parseFleetControl store t) {sessionId : Text}
    (hannounced : ∀ b, t.builds.get sessionId = some b → b.lateFill = true) :
    Exact parseFleetControl (store.deleteSessionRecords sessionId) t := by
  intro id
  have hwrites : (store.deleteSessionRecords sessionId).eventWrites id =
      store.eventWrites id + if id = sessionId then 1 else 0 :=
    EventStore.eventWrites_note store.writes sessionId id
  by_cases hid : id = sessionId
  · subst hid
    rw [if_pos rfl] at hwrites
    refine ⟨fun p hp => ((h id).ready p hp).passed (by omega), fun b hb hlate => ?_⟩
    rw [hannounced b hb] at hlate
    cases hlate
  · rw [if_neg hid, Nat.add_zero] at hwrites
    have hrows : (store.deleteSessionRecords sessionId).transcriptOf id =
        store.transcriptOf id := by
      unfold EventStore.transcriptOf EventStore.deleteSessionRecords
      rw [List.filter_filter]
      refine List.filter_congr fun row _ => ?_
      by_cases hrow : row.sessionId = id
      · simp [hrow, hid]
      · simp [hrow]
    refine ⟨fun p hp => ?_, fun b hb => ?_⟩
    · have hold := (h id).ready p hp
      refine ⟨by rw [hwrites]; exact hold.writes, fun heq => ?_⟩
      rw [hrows]
      rw [hwrites] at heq
      exact hold.folded heq
    · unfold BuildOk
      rw [hrows]
      exact (h id).build b hb

end

/-! ### Every step -/

section

variable {parseFleetControl : Text → Option FleetControl} {limits : TranscriptProjectionLimits}

/-- An event is stored where nothing stands in its place, and otherwise nothing is. -/
theorem EventStore.appendEvent_cases (store : EventStore) (event : SessionEvent)
    (hpositive : 0 < event.sequence) :
    ((store.appendEvent event hpositive).1 = store ∧
      (store.appendEvent event hpositive).2.stored = false) ∨
    ∃ hdup, (store.appendEvent event hpositive).1 = store.inserted event hpositive hdup ∧
      (store.appendEvent event hpositive).2.stored = true := by
  unfold appendEvent
  split
  · exact .inl ⟨rfl, rfl⟩
  · exact .inr ⟨by assumption, rfl, rfl⟩

theorem EventStore.appendImported_cases (sessionId : Text) (state : EventStore × List SessionEvent)
    (input : ImportedEvent) :
    EventStore.appendImported sessionId state input = state ∨
    ∃ event hpositive hdup, EventStore.appendImported sessionId state input =
      (state.1.inserted event hpositive hdup, state.2 ++ [event]) := by
  unfold appendImported
  by_cases hknown : (state.1.rows.any fun row => decide (row.eventId = input.eventId)) = true
  · rw [if_pos hknown]
    exact .inl rfl
  · rw [if_neg hknown]
    rcases state.1.appendEvent_cases (state.1.importedEvent sessionId input)
      (state.1.importedEvent_positive sessionId input) with
      ⟨hstore, hstored⟩ | ⟨hdup, hstore, hstored⟩
    · simp only [hstore, hstored]
      exact .inl rfl
    · refine .inr ⟨state.1.importedEvent sessionId input,
        state.1.importedEvent_positive sessionId input, hdup, ?_⟩
      simp only [hstore, hstored]
      rfl

namespace HostTranscripts

/-- What is applied one after the other is folded into the projections in that order. -/
theorem foldl_applied (events : List SessionEvent) (s : HostTranscripts) :
    (events.foldl (applied parseFleetControl limits) s).projections =
        events.foldl (fun (t : TranscriptProjections) event =>
          (t.apply parseFleetControl limits event).2) s.projections ∧
      (events.foldl (applied parseFleetControl limits) s).store = s.store := by
  induction events generalizing s with
  | nil => exact ⟨rfl, rfl⟩
  | cons event rest ih => exact ih _

/-- An import that is applied is one event stored and applied after the other: storing does not
    look at the projections, nor applying at the store. -/
theorem exact_import (t : TranscriptProjections) (sessionId : Text) (inputs : List ImportedEvent)
    (state : EventStore × List SessionEvent)
    (h : Exact parseFleetControl state.1 (state.2.foldl (fun (t : TranscriptProjections) event =>
      (t.apply parseFleetControl limits event).2) t)) :
    let appended := inputs.foldl (EventStore.appendImported sessionId) state
    Exact parseFleetControl appended.1 (appended.2.foldl
      (fun (t : TranscriptProjections) event =>
        (t.apply parseFleetControl limits event).2) t) := by
  induction inputs generalizing state with
  | nil => exact h
  | cons input rest ih =>
      refine ih _ ?_
      rcases EventStore.appendImported_cases sessionId state input with
        hsame | ⟨event, hpositive, hdup, happended⟩
      · rw [hsame]
        exact h
      · rw [happended, List.foldl_append]
        exact Exact.stored hpositive hdup h

theorem imported_mono (sessionId : Text) (inputs : List ImportedEvent)
    (state : EventStore × List SessionEvent) {event : SessionEvent} (h : event ∈ state.2) :
    event ∈ (inputs.foldl (EventStore.appendImported sessionId) state).2 := by
  induction inputs generalizing state with
  | nil => exact h
  | cons input rest ih =>
      refine ih _ ?_
      rcases EventStore.appendImported_cases sessionId state input with
        hsame | ⟨_, _, _, happended⟩
      · rw [hsame]
        exact h
      · rw [happended]
        exact List.mem_append_left _ h

/-- One that is not applied lands behind no build. -/
theorem exact_backlog (t : TranscriptProjections) (sessionId : Text) (inputs : List ImportedEvent)
    (state : EventStore × List SessionEvent) (h : Exact parseFleetControl state.1 t)
    (hannounced : ∀ event ∈ (inputs.foldl (EventStore.appendImported sessionId) state).2,
      ∀ b, t.builds.get event.sessionId = some b → isTranscriptEvent event = true →
        b.lateFill = false → b.cursor < event.sequence) :
    Exact parseFleetControl (inputs.foldl (EventStore.appendImported sessionId) state).1 t := by
  induction inputs generalizing state with
  | nil => exact h
  | cons input rest ih =>
      refine ih _ ?_ hannounced
      rcases EventStore.appendImported_cases sessionId state input with
        hsame | ⟨event, hpositive, hdup, happended⟩
      · rw [hsame]
        exact h
      · rw [happended]
        refine h.bypassed hpositive hdup (hannounced event ?_)
        refine imported_mono sessionId rest _ ?_
        rw [happended]
        exact List.mem_append_right _ List.mem_cons_self

end HostTranscripts

end

namespace TranscriptRuns

open HostTranscripts

variable {parseFleetControl : Text → Option FleetControl} {limits : TranscriptProjectionLimits}

/-- An event that a build has passed, and was not told of. -/
def Behind (t : TranscriptProjections) (event : SessionEvent) : Prop :=
  ∃ b ∈ t.builds.get event.sessionId, isTranscriptEvent event = true ∧ b.lateFill = false ∧
    event.sequence ≤ b.cursor

/-- What is written around the service lands behind no build, and a session is not deleted under
    one. -/
def Announced (s : HostTranscripts) : Op → Prop
  | .bypass event _ => s.store.duplicate event = none → ¬Behind s.projections event
  | .importNativeSession sessionId events =>
      NATIVE_IMPORT_LIVE_LIMIT < (s.store.appendImportedEvents sessionId events).2.length →
        ∀ event ∈ (s.store.appendImportedEvents sessionId events).2, ¬Behind s.projections event
  | .delete sessionId => ∀ b ∈ s.projections.builds.get sessionId, b.lateFill = true
  | _ => True

theorem not_behind {t : TranscriptProjections} {event : SessionEvent} (h : ¬Behind t event)
    (b : Build) (hb : t.builds.get event.sessionId = some b)
    (hseen : isTranscriptEvent event = true) (hlate : b.lateFill = false) :
    b.cursor < event.sequence :=
  Nat.not_le.mp fun hle => h ⟨b, hb, hseen, hlate, hle⟩

theorem noted_projections (s : HostTranscripts) (sessionId generation : Text)
    (projections : TranscriptProjections) :
    (s.noted sessionId generation projections).projections = projections ∧
      (s.noted sessionId generation projections).store = s.store ∧
      (s.noted sessionId generation projections).published = s.published := by
  unfold noted
  split
  · split
    · exact ⟨rfl, rfl, rfl⟩
    · exact ⟨rfl, rfl, rfl⟩
  · exact ⟨rfl, rfl, rfl⟩

/-- A build that is under way goes on. -/
theorem step_turn (s : HostTranscripts) (sessionId generation : Text) :
    (s.projections.builds.get sessionId = none ∧
      step parseFleetControl limits s (.turn sessionId generation) = s) ∨
    ∃ build, s.projections.builds.get sessionId = some build ∧
      step parseFleetControl limits s (.turn sessionId generation) = s.noted sessionId generation
        (s.projections.turn parseFleetControl limits s.store sessionId generation build) := by
  cases hbuild : s.projections.builds.get sessionId with
  | none => exact .inl ⟨rfl, by simp only [step, hbuild]⟩
  | some build => exact .inr ⟨build, rfl, by simp only [step, hbuild]⟩

theorem exact_step (s : HostTranscripts) (op : Op)
    (h : Exact parseFleetControl s.store s.projections) (hok : Announced s op) :
    Exact parseFleetControl (step parseFleetControl limits s op).store
      (step parseFleetControl limits s op).projections := by
  cases op with
  | store event positive =>
      change Exact parseFleetControl (s.stored parseFleetControl limits event positive).store
        (s.stored parseFleetControl limits event positive).projections
      unfold stored
      rcases s.store.appendEvent_cases event positive with
        ⟨hstore, hstored⟩ | ⟨hdup, hstore, hstored⟩
      · simp only [hstore, hstored]
        exact h
      · simp only [hstore, hstored]
        exact h.stored positive hdup
  | bypass event positive =>
      change Exact parseFleetControl (s.store.appendEvent event positive).1 s.projections
      rcases s.store.appendEvent_cases event positive with ⟨hstore, _⟩ | ⟨hdup, hstore, _⟩
      · rw [hstore]
        exact h
      · rw [hstore]
        exact h.bypassed positive hdup (not_behind (hok hdup))
  | importNativeSession sessionId events =>
      change Exact parseFleetControl (s.imported parseFleetControl limits sessionId events).store
        (s.imported parseFleetControl limits sessionId events).projections
      unfold imported
      by_cases hbacklog :
          NATIVE_IMPORT_LIVE_LIMIT < (s.store.appendImportedEvents sessionId events).2.length
      · -- A long import drops the copy instead of applying it.
        rw [if_pos hbacklog]
        refine Exact.less ?_ (TranscriptProjections.invalidate_less _ _)
        exact exact_backlog s.projections sessionId events (s.store, []) h fun event hevent =>
          not_behind (hok hbacklog event hevent)
      · rw [if_neg hbacklog]
        rw [(foldl_applied _ _).1, (foldl_applied _ _).2]
        exact exact_import s.projections sessionId events (s.store, []) h
  | delete sessionId => exact h.deleted hok
  | restore store => exact exact_cleared store s.projections
  | request sessionId generation =>
      change Exact parseFleetControl (s.noted sessionId generation _).store
        (s.noted sessionId generation _).projections
      rw [(noted_projections _ _ _ _).1, (noted_projections _ _ _ _).2.1]
      exact h.requested sessionId generation
  | turn sessionId generation =>
      rcases step_turn s sessionId generation with ⟨_, hsame⟩ | ⟨build, hbuild, hturn⟩
      · rw [hsame]
        exact h
      · rw [hturn, (noted_projections _ _ _ _).1, (noted_projections _ _ _ _).2.1]
        exact h.turned generation ((h sessionId).build build hbuild)

theorem exact_empty :
    Exact parseFleetControl HostTranscripts.empty.store HostTranscripts.empty.projections := by
  intro sessionId
  refine ⟨fun p hp => ?_, fun b hb => ?_⟩
  · cases hp
  · cases hb

/-- Throughout a run, what is kept is the fold of what is stored. -/
theorem exact_of_run (ops : List Op)
    (hok : Run.Admits (step parseFleetControl limits) Announced .empty ops) :
    Exact parseFleetControl (Run.final (step parseFleetControl limits) .empty ops).store
      (Run.final (step parseFleetControl limits) .empty ops).projections :=
  Run.invariant_of_admits (step parseFleetControl limits) Announced
    (fun s => Exact parseFleetControl s.store s.projections) exact_step ops .empty
    exact_empty hok

end TranscriptRuns

/-! ### Pages -/

/-- A request leaves a build under way, or a projection with the count of the session. -/
def Answered (store : EventStore) (t : TranscriptProjections) (sessionId : Text) : Prop :=
  t.builds.get sessionId = none →
    ∃ p, t.ready.get sessionId = some p ∧ p.writes = store.eventWrites sessionId

section

variable {parseFleetControl : Text → Option FleetControl} {limits : TranscriptProjectionLimits}

namespace TranscriptProjections

theorem finish_answered (t : TranscriptProjections) (store : EventStore)
    (sessionId generation : Text) (build : Build) :
    Answered store (t.finish limits store sessionId generation build) sessionId := by
  intro _
  unfold finish
  rw [evict_keeps, Table.get_set_self]
  exact ⟨_, rfl, rfl⟩

theorem turn_answered (t : TranscriptProjections) (store : EventStore)
    (sessionId generation : Text) (build : Build) :
    Answered store (t.turn parseFleetControl limits store sessionId generation build)
      sessionId := by
  have hyielded : ∀ next, Answered store { t with builds := t.builds.set sessionId next }
      sessionId := by
    intro next hnone
    rw [Table.get_set_self] at hnone
    cases hnone
  unfold turn
  simp only
  split
  · exact hyielded _
  · split
    · split
      · exact hyielded _
      · exact finish_answered t store sessionId generation _
    · exact finish_answered t store sessionId generation _

theorem request_answered (t : TranscriptProjections) (store : EventStore)
    (sessionId generation : Text) :
    Answered store (t.request parseFleetControl limits store sessionId generation)
      sessionId := by
  have hbuilding : ∀ {t : TranscriptProjections} {build : Build},
      t.builds.get sessionId = some build → Answered store t sessionId := by
    intro t build hbuild hnone
    rw [hbuild] at hnone
    cases hnone
  unfold request
  cases hready : t.ready.get sessionId with
  | some p =>
      simp only
      by_cases hcount : store.eventWrites sessionId = p.writes
      · rw [if_pos hcount]
        intro _
        exact ⟨_, Table.get_set_self _ _ _, hcount.symm⟩
      · rw [if_neg hcount]
        split
        · rename_i build hbuild
          exact hbuilding hbuild
        · exact turn_answered _ store sessionId generation _
  | none =>
      simp only
      split
      · rename_i build hbuild
        exact hbuilding hbuild
      · exact turn_answered t store sessionId generation _

end TranscriptProjections

/-- The blocks up to where a page ends, by default all of them. -/
def pageEnd (total : Nat) (before : Option Nat) : Nat := min (before.getD total) total

/-- How many blocks a page is asked to have: at least one, by default two hundred. -/
def pageSize (limit : Option Nat) : Nat :=
  min (max (limit.getD TRANSCRIPT_PAGE_LIMIT) 1) TRANSCRIPT_PAGE_MAX

/-- Where the page of so many blocks starts. Fewer than a page and a quarter are one page. -/
def pageFrom (last size : Nat) : Nat := if last < size + size / 4 then 0 else last - size

/-- A page is the slice of these blocks that was asked for, and counts all of them. -/
structure Shows (projector : TranscriptProjector) (before limit : Option Nat)
    (page : TranscriptPage) : Prop where
  total : page.total = projector.blocks.length
  start : page.start = pageFrom (pageEnd projector.blocks.length before) (pageSize limit)
  blocks : page.blocks =
    projector.blocks.extract page.start (pageEnd projector.blocks.length before)
  prompts : page.prompts = if before.isNone then some projector.prompts else none

theorem pageStart_eq_pageFrom (last size : Nat) :
    Projection.pageStart last size = pageFrom last size := by
  unfold Projection.pageStart pageFrom
  split <;> split <;> omega

theorem page_shows (p : Projection) (before limit : Option Nat) :
    Shows p.projector before limit (p.page before limit) := by
  refine ⟨rfl, pageStart_eq_pageFrom _ _, ?_, rfl⟩
  rw [List.extract_eq_take_drop, ← List.drop_take]
  rfl

end

namespace TranscriptRuns

open HostTranscripts

variable {parseFleetControl : Text → Option FleetControl} {limits : TranscriptProjectionLimits}

/-- A page of the session is asked for, or a build of it goes on. -/
def Asks (s : HostTranscripts) (sessionId : Text) : Op → Prop
  | .request id _ => id = sessionId
  | .turn id _ => id = sessionId ∧ s.projections.builds.get sessionId ≠ none
  | _ => False

theorem answered_step (s : HostTranscripts) (op : Op) {sessionId : Text}
    (hasks : Asks s sessionId op) :
    Answered (step parseFleetControl limits s op).store
      (step parseFleetControl limits s op).projections sessionId := by
  cases op with
  | request id generation =>
      have hid : id = sessionId := hasks
      subst hid
      change Answered (s.noted id generation _).store (s.noted id generation _).projections id
      rw [(noted_projections _ _ _ _).1, (noted_projections _ _ _ _).2.1]
      exact TranscriptProjections.request_answered s.projections s.store id generation
  | turn id generation =>
      rcases hasks with ⟨rfl, hbuilding⟩
      rcases step_turn s id generation with ⟨hnone, _⟩ | ⟨build, _, hturn⟩
      · exact absurd hnone hbuilding
      · rw [hturn, (noted_projections _ _ _ _).1, (noted_projections _ _ _ _).2.1]
        exact TranscriptProjections.turn_answered s.projections s.store id generation build
  | store event positive => exact hasks.elim
  | bypass event positive => exact hasks.elim
  | importNativeSession id events => exact hasks.elim
  | delete id => exact hasks.elim
  | restore store => exact hasks.elim

/-- Whatever is stored in between, a page is a slice of the blocks of all of it. -/
theorem pages_exact (ops : List Op) (op : Op) (sessionId : Text)
    (hok : Run.Admits (step parseFleetControl limits) Announced .empty (ops ++ [op]))
    (hasks : Asks (Run.final (step parseFleetControl limits) .empty ops) sessionId op)
    (hdone : (Run.final (step parseFleetControl limits) .empty
      (ops ++ [op])).projections.builds.get sessionId = none) :
    ∃ p, (Run.final (step parseFleetControl limits) .empty
        (ops ++ [op])).projections.ready.get sessionId = some p ∧
      ∀ before limit, Shows (projectorOf parseFleetControl
        ((Run.final (step parseFleetControl limits) .empty (ops ++ [op])).store.eventsOf sessionId))
          before limit (p.projection.page before limit) := by
  have hexact := exact_of_run (ops ++ [op]) hok
  have hanswered := @answered_step parseFleetControl limits _ op sessionId hasks
  rw [Run.final_append] at hdone hexact ⊢
  rcases hanswered hdone with ⟨p, hready, hwrites⟩
  refine ⟨p, hready, fun before limit => ?_⟩
  have hprojector := (((hexact sessionId).ready p hready).folded hwrites).1
  rw [projectorOf_eventsOf, ← hprojector]
  exact page_shows p.projection before limit

/-- Two events of one agent, with a page asked for in between and read event by event. -/
def exampleText (sequence : Nat) (text : String) : SessionEvent where
  eventId := ofString text
  sessionId := ofString "s"
  sequence
  payload := .agentText (some (some (ofString text)))
  createdAt := []

def exampleOps : List Op :=
  [.store (exampleText 1 "a") (by decide), .request (ofString "s") (ofString "g"),
    .store (exampleText 2 "b") (by decide), .turn (ofString "s") (ofString "g")]

def exampleLimits : TranscriptProjectionLimits where
  batchSize := 1
  maxBytes := 0

theorem pages_exact_between : ∃ p,
    (Run.final (step (fun _ => none) exampleLimits) .empty
      (exampleOps ++ [.turn (ofString "s") (ofString "g")])).projections.ready.get
        (ofString "s") = some p ∧
      (p.projection.page none none).total = 1 := by
  rcases @pages_exact (fun _ => none) exampleLimits exampleOps
    (.turn (ofString "s") (ofString "g")) (ofString "s")
    ⟨trivial, trivial, trivial, trivial, trivial, trivial⟩ ⟨rfl, by decide +kernel⟩
    (by decide +kernel) with ⟨p, hp, hshows⟩
  exact ⟨p, hp, (hshows none none).total.trans (by decide +kernel)⟩

end TranscriptRuns

end Transcript

end CopilotFleet
