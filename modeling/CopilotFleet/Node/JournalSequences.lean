import CopilotFleet.Lib.Run
import CopilotFleet.Node.JournalLedger
import Mathlib.Data.List.Induction

/-!
# Sequences and Identities in the Session Journal

The journal numbers events against a buffered watermark, a committed one and
whatever number the caller brings, flushes in the middle of an `append`, and
lets the observer of that flush call it again. A crash drops the buffer, a
trimming the bodies, a retirement the rows.

Through all of it every input is some moves of a ledger, or a crash and some
moves (`Linked.input`), so what a ledger promises the journal promises
(`sequences_and_identities`). Two things it does not promise, both by design:
a number that was only buffered is given again after a crash, and the ids of a
retired session are free for another one (`sequences_reused`).

## Main definitions

* `Tame`: What is asked of the inputs.
* `knownAs`: An event as the journal knows it.
* `Reappended`: What appending a known event comes to.

## Theorems

* `Linked.input`: What any tame input does.
* `append_known`: Appending an event whose id is known.
* `sequences_and_identities`: What the journal promises.
-/

namespace CopilotFleet

namespace Journal

open Utf16 Ledgers

section

variable {platform : Platform} {s s' : State}

/-! ### What each call does -/

variable {choice : Choice}

/-- A flush reaches what it commits, or what goes on without it. -/
theorem Linked.flush (h : Linked platform s) (hout : outbox s.stack = []) {kont : Kont}
    (hready : kont.Ready platform (ledger platform s))
    (hapart : ∀ event, kont.suspended = some event →
      event.eventId ∉ (suspended s.stack).map SessionEvent.eventId)
    {rest : State → State}
    (hrest : ∀ s', Reaches platform s s' → Alike s s' → Reaches platform s (rest s')) :
    Reaches platform s (flush platform choice s kont rest) := by
  refine flush_elim platform (fun s' hs' => h.halted hs') (fun _ => ?_)
    (fun db hdb => h.flushed hout hready hapart hdb)
  have ha : Alike s { s with timer := false } := ⟨rfl, rfl, rfl, rfl, rfl, rfl⟩
  exact hrest _ (h.alike ha h.returned) ha

/-- Tables that are refreshed, and an outcome. -/
theorem Linked.refreshed (h : Linked platform s) (hout : outbox s.stack = []) {db : Db}
    (hdb : Db.Like s.db db ∧ db.Tidy) {outcome : Outcome}
    (houtcome : ∀ event, outcome ≠ .returned event) :
    Reaches platform s (State.finished { s with db } outcome) := by
  have hreach := h.like hout hdb.1 hdb.2
  exact hreach.trans platform (hreach.linked.finished houtcome)

/-- A record is saved over the one that was read. -/
theorem Linked.saved (h : Linked platform s) (hout : outbox s.stack = [])
    {record prior : StoredSession} {sessionId : Text}
    (hprior : s.db.stored sessionId = some prior) (hid : record.session.id = sessionId)
    (hwater : record.highWater = prior.highWater)
    (hsequence : record.acknowledgedSequence ≤ record.highWater)
    (hepoch : record.acknowledgedControlEpoch ≤ record.controlEpoch) :
    Reaches platform s
      (State.finished { s with db := s.db.putSession platform record } .done) := by
  have hrefreshes := Db.Refreshes.of_stored hprior hid hwater hsequence hepoch
  exact h.refreshed hout ⟨hrefreshes.like platform, hrefreshes.tidy platform h.tidy⟩ (by simp)

theorem Linked.checkpoint (h : Linked platform s) (choice : Choice) :
    Reaches platform s (checkpoint choice s) := by
  unfold Journal.checkpoint
  cases choice.lateFault with
  | none => exact h.finished (by simp)
  | some error => exact h.halted (fail_halted s error)

theorem Linked.finishEnable (h : Linked platform s) (hout : outbox s.stack = [])
    (hostId grantId : Text) (session : JournalSession) (controlEpoch sequenceOffset : Nat) :
    Reaches platform s
      (finishEnable platform choice hostId grantId session controlEpoch sequenceOffset s) := by
  unfold Journal.finishEnable
  refine reading_elim (fun s' hs' => h.halted hs') ?_
  by_cases hretired : (s.db.retiredHighWater session.id).isSome
  · rw [if_pos hretired]
    exact h.halted (throwing_halted s _)
  rw [if_neg hretired]
  by_cases hconflict : conflicts platform (s.db.stored session.id) hostId grantId session
  · rw [if_pos hconflict]
    exact h.halted (throwing_halted s _)
  rw [if_neg hconflict]
  refine transaction_elim (fun s' hs' => h.halted hs') fun db hdb => ?_
  cases hdb
  cases hprior : s.db.stored session.id with
  | none =>
      -- The first time, the prefix the Host already has counts as acknowledged.
      have hlive : s.db.retiredHighWater session.id = none := by simpa using hretired
      have hreach := h.enroll hout
        (enabledRecord choice none hostId grantId session controlEpoch sequenceOffset)
        hprior hlive (Nat.le_refl _) (by simp [enabledRecord])
      exact hreach.trans platform (hreach.linked.finished (by simp))
  | some prior =>
      have hack := h.tidy.acknowledged session.id prior hprior
      refine h.saved hout hprior rfl rfl hack.1 ?_
      simp only [enabledRecord, Option.map_some, Option.getD_some]
      omega

theorem Linked.finishUpdate (h : Linked platform s) (hout : outbox s.stack = [])
    (session : JournalSession) : Reaches platform s (finishUpdate platform choice session s) := by
  unfold Journal.finishUpdate
  refine requiring_elim (fun s' hs' => h.halted hs') fun record hrecord => ?_
  have hack := h.tidy.acknowledged session.id record hrecord
  split
  · exact h.halted (throwing_halted s _)
  · refine transaction_elim (fun s' hs' => h.halted hs') fun db hdb => ?_
    cases hdb
    exact h.saved hout hrecord rfl rfl hack.1 hack.2

theorem Linked.acknowledge (h : Linked platform s) (hout : outbox s.stack = [])
    (sessionId : Text) (throughSequence : Nat) :
    Reaches platform s (acknowledge platform choice sessionId throughSequence s) := by
  unfold Journal.acknowledge
  refine writing_elim (fun s' hs' => h.halted hs') ?_
  refine safely_elim (fun s' hs' => h.halted hs') ?_
  refine requiring_elim (fun s' hs' => h.halted hs') fun record hrecord => ?_
  have hack := h.tidy.acknowledged sessionId record hrecord
  have hkeyed := h.tidy.keyed sessionId record hrecord
  split
  · exact h.halted (throwing_halted s _)
  · rename_i hbound
    split
    · exact h.finished (by simp)
    · refine transaction_elim (fun s' hs' => h.halted hs') fun db hdb => ?_
      cases hdb
      refine h.saved hout hrecord hkeyed rfl ?_ hack.2
      simp only
      omega

theorem Linked.acknowledgeControl (h : Linked platform s) (hout : outbox s.stack = [])
    (sessionId : Text) (throughEpoch : Nat) :
    Reaches platform s (acknowledgeControl platform choice sessionId throughEpoch s) := by
  unfold Journal.acknowledgeControl
  refine writing_elim (fun s' hs' => h.halted hs') ?_
  refine safely_elim (fun s' hs' => h.halted hs') ?_
  refine requiring_elim (fun s' hs' => h.halted hs') fun record hrecord => ?_
  have hack := h.tidy.acknowledged sessionId record hrecord
  have hkeyed := h.tidy.keyed sessionId record hrecord
  split
  · exact h.halted (throwing_halted s _)
  · rename_i hbound
    split
    · exact h.finished (by simp)
    · refine transaction_elim (fun s' hs' => h.halted hs') fun db hdb => ?_
      cases hdb
      refine h.saved hout hrecord hkeyed rfl hack.1 ?_
      simp only
      omega

/-- What `acknowledgeBatch` has collected can be saved. -/
def Collected (db : Db) (changed : Table Text StoredSession) : Prop :=
  ∀ sessionId record, changed.get sessionId = some record →
    record.session.id = sessionId ∧ db.Refreshes record

theorem acknowledgeOne_collected {db : Db} (htidy : db.Tidy)
    {changed changed' : Table Text StoredSession} {acknowledgement : Acknowledgement}
    (hcollected : Collected db changed)
    (h : acknowledgeOne db changed acknowledgement = .ok changed') : Collected db changed' := by
  unfold acknowledgeOne at h
  split at h
  · cases h
  · split at h
    · cases h
    · rename_i record hrecord
      split at h
      · cases h
      · rename_i hbound
        -- Whether collected before or read just now, the record refreshes its session.
        have hrefreshes : record.session.id = acknowledgement.sessionId ∧
            db.Refreshes record := by
          rcases Option.or_eq_some_iff.mp hrecord with hmem | ⟨_, hmem⟩
          · exact hcollected _ _ hmem
          · have hack := htidy.acknowledged _ record hmem
            have hkeyed := htidy.keyed _ record hmem
            exact ⟨hkeyed, Db.Refreshes.of_stored hmem hkeyed rfl hack.1 hack.2⟩
        split at h
        · cases h
          exact hcollected
        · cases h
          intro sessionId record' hrecord'
          rw [Table.get_set] at hrecord'
          split at hrecord'
          · rename_i hid
            cases hrecord'
            refine ⟨hrefreshes.1.trans hid.symm, hrefreshes.2.present, hrefreshes.2.water, ?_, ?_⟩
            · have := hrefreshes.2.sequence
              simp only [acknowledgedRecord]
              omega
            · have := hrefreshes.2.epoch
              simp only [acknowledgedRecord]
              omega
          · exact hcollected sessionId record' hrecord'

theorem acknowledgeAll_collected {db : Db} (htidy : db.Tidy)
    {changed changed' : Table Text StoredSession} {acknowledgements : List Acknowledgement}
    (hcollected : Collected db changed)
    (h : acknowledgeAll db changed acknowledgements = .ok changed') : Collected db changed' := by
  induction acknowledgements generalizing changed with
  | nil =>
      cases h
      exact hcollected
  | cons acknowledgement rest ih =>
      unfold acknowledgeAll at h
      split at h
      · cases h
      · rename_i changed₁ hone
        exact ih (acknowledgeOne_collected htidy hcollected hone) h

theorem Linked.acknowledgeBatch (h : Linked platform s) (hout : outbox s.stack = [])
    (acknowledgements : List Acknowledgement) :
    Reaches platform s (acknowledgeBatch platform choice acknowledgements s) := by
  unfold Journal.acknowledgeBatch
  refine writing_elim (fun s' hs' => h.halted hs') ?_
  refine reading_elim (fun s' hs' => h.halted hs') ?_
  split
  · exact h.halted (throwing_halted s _)
  · rename_i changed hall
    have hcollected : Collected s.db changed := by
      refine acknowledgeAll_collected h.tidy ?_ hall
      intro sessionId record hrecord
      cases hrecord
    split
    · exact h.finished (by simp)
    · refine transaction_elim (fun s' hs' => h.halted hs') fun db hdb => ?_
      cases hdb
      refine h.refreshed hout (refreshes_saves platform _ _ h.tidy ?_) (by simp)
      intro record hrecord
      rcases (changed.mem_values_iff record).mp hrecord with ⟨k, hk⟩
      exact (hcollected k record hk).2

/-- An operation is saved with the control epoch it takes its session to. -/
theorem Linked.saveControlled (h : Linked platform s) (hout : outbox s.stack = [])
    {sessionId : Text} {record : StoredSession} (hrecord : s.db.stored sessionId = some record)
    (operation : LocalSessionOperation) (hepoch : record.controlEpoch ≤ operation.controlEpoch)
    {outcome : Outcome} (houtcome : ∀ event, outcome ≠ .returned event) {db : Db}
    (hdb : saveControlled platform record operation s.db = .ok db) :
    Reaches platform s (State.finished { s with db } outcome) := by
  cases hdb
  have hack := h.tidy.acknowledged sessionId record hrecord
  have hrefreshes : s.db.Refreshes { record with controlEpoch := operation.controlEpoch } :=
    Db.Refreshes.of_stored hrecord (h.tidy.keyed sessionId record hrecord) rfl hack.1
      (Nat.le_trans hack.2 hepoch)
  refine h.refreshed hout ⟨(hrefreshes.like platform).trans (putOperation_like platform _ _), ?_⟩
    houtcome
  exact (hrefreshes.tidy platform h.tidy).putOperation platform operation

theorem Linked.finishAccept (h : Linked platform s) (hout : outbox s.stack = [])
    (id sessionId : Text) (action : OperationAction) (payload : Text) (queued : Bool)
    (origin : OperationOrigin) :
    Reaches platform s
      (finishAccept platform choice id sessionId action payload queued origin s) := by
  unfold Journal.finishAccept
  refine requiring_elim (fun s' hs' => h.halted hs') fun record hrecord => ?_
  simp only []
  split
  · split
    · exact h.halted (throwing_halted s _)
    · exact h.finished (by simp)
  · refine safely_elim (fun s' hs' => h.halted hs') ?_
    refine transaction_elim (fun s' hs' => h.halted hs') fun db hdb => ?_
    refine h.saveControlled hout hrecord _ ?_ (by simp) hdb
    simp only [acceptedOperation]
    split
    · exact Nat.le_refl _
    · exact Nat.le_succ _

theorem Linked.finishBegin (h : Linked platform s) (hout : outbox s.stack = []) (id : Text) :
    Reaches platform s (finishBegin platform choice id s) := by
  unfold Journal.finishBegin
  refine reading_elim (fun s' hs' => h.halted hs') ?_
  split
  · exact h.halted (throwing_halted s _)
  · split
    · exact h.halted (throwing_halted s _)
    · refine requiring_elim (fun s' hs' => h.halted hs') fun record hrecord => ?_
      refine safely_elim (fun s' hs' => h.halted hs') ?_
      refine transaction_elim (fun s' hs' => h.halted hs') fun db hdb => ?_
      exact h.saveControlled hout hrecord _ (Nat.le_succ _) (by simp) hdb

theorem Linked.prioritizeOperation (h : Linked platform s) (hout : outbox s.stack = [])
    (id : Text) : Reaches platform s (prioritizeOperation platform choice id s) := by
  unfold Journal.prioritizeOperation
  refine writing_elim (fun s' hs' => h.halted hs') ?_
  refine reading_elim (fun s' hs' => h.halted hs') ?_
  split
  · exact h.halted (throwing_halted s _)
  · split
    · exact h.halted (throwing_halted s _)
    · split
      · exact h.finished (by simp)
      · refine safely_elim (fun s' hs' => h.halted hs') ?_
        refine transaction_elim (fun s' hs' => h.halted hs') fun db hdb => ?_
        cases hdb
        exact h.refreshed hout ⟨putOperation_like platform _ _, h.tidy.putOperation platform _⟩
          (by simp)

theorem Linked.finishSettle (h : Linked platform s) (hout : outbox s.stack = [])
    (id : Text) (state : OperationState) (error : Option Text) :
    Reaches platform s (finishSettle platform choice id state error s) := by
  unfold Journal.finishSettle
  refine reading_elim (fun s' hs' => h.halted hs') ?_
  split
  · exact h.halted (throwing_halted s _)
  · split
    · exact h.finished (by simp)
    · split
      · exact h.halted (throwing_halted s _)
      · refine transaction_elim (fun s' hs' => h.halted hs') fun db hdb => ?_
        cases hdb
        exact h.refreshed hout ⟨putOperation_like platform _ _, h.tidy.putOperation platform _⟩
          (by simp)

theorem Linked.trimAcknowledged (h : Linked platform s) (hout : outbox s.stack = [])
    (sessionId : Text) (throughSequence : Nat) :
    Reaches platform s (trimAcknowledged platform choice sessionId throughSequence s) := by
  unfold Journal.trimAcknowledged
  refine writing_elim (fun s' hs' => h.halted hs') ?_
  refine safely_elim (fun s' hs' => h.halted hs') ?_
  refine requiring_elim (fun s' hs' => h.halted hs') fun record hrecord => ?_
  split
  · exact h.halted (throwing_halted s _)
  · refine transaction_elim (fun s' hs' => h.halted hs') fun db hdb => ?_
    have hlike := trimEvents_like s.db sessionId throughSequence
    have htidy := h.tidy.trimEvents sessionId throughSequence
    have hreach : Reaches platform s { s with db } := by
      cases hdb
      split
      · exact h.like hout hlike htidy
      · have hack := h.tidy.acknowledged sessionId record hrecord
        have hrefreshes : (s.db.trimEvents sessionId throughSequence).Refreshes
            { record with generation := choice.uuid, revision := 0 } :=
          Db.Refreshes.of_stored hrecord
            (h.tidy.keyed sessionId record hrecord) rfl hack.1 hack.2
        exact h.like hout (hlike.trans (hrefreshes.like platform))
          (hrefreshes.tidy platform htidy)
    exact hreach.trans platform (hreach.linked.checkpoint choice)

theorem Linked.finishRetire (h : Linked platform s) (hout : outbox s.stack = [])
    (sessionId : Text) : Reaches platform s (finishRetire choice sessionId s) := by
  unfold Journal.finishRetire
  refine reading_elim (fun s' hs' => h.halted hs') ?_
  split
  · exact h.finished (by simp)
  · rename_i record hrecord
    split
    · exact h.halted (throwing_halted s _)
    · refine transaction_elim (fun s' hs' => h.halted hs') fun db hdb => ?_
      have hreach := h.retire hout hrecord hdb
      exact hreach.trans platform (hreach.linked.checkpoint choice)

/-! ### Appending -/

theorem Linked.highWater (h : Linked platform s) {sessionId : Text} {n : Nat}
    (hahead : (ledger platform s).ahead sessionId = some n) : n ≤ s.highWater sessionId := by
  rw [h.ahead] at hahead
  unfold State.highWater
  cases hpending : s.pendingWater.get sessionId with
  | some m =>
      rw [hpending, Option.some_or, Option.some.injEq] at hahead
      rw [Option.getD_some, hahead]
      exact Nat.le_max_right _ _
  | none =>
      rw [hpending, Option.none_or] at hahead
      unfold Db.water at hahead
      rw [hahead, Option.getD_some]
      exact Nat.le_max_left _ _

/-- The end of `append`, for a new event numbered above its session. -/
theorem Linked.enqueue (h : Linked platform s) (hout : outbox s.stack = []) (event : SessionEvent)
    (hnew : (ledger platform s).identity event.eventId = none) (n : Nat)
    (hahead : (ledger platform s).ahead event.sessionId = some n) (hn : n < event.sequence)
    (hapart : event.eventId ∉ (suspended s.stack).map SessionEvent.eventId) :
    Reaches platform s (enqueue platform choice event (eventDigest platform event) s) := by
  unfold Journal.enqueue
  refine writing_elim (fun s' hs' => h.halted hs') ?_
  refine reading_elim (fun s' hs' => h.halted hs') ?_
  split
  · exact h.halted (fail_halted s _)
  have hreach := h.buffer event hnew n hahead hn hapart hout
  have hidentity : (ledger platform (s.buffer platform event (eventDigest platform event))).identity
      event.eventId = some (entryOf platform event) := by
    have hget := Table.get_set_self s.pending event.eventId
      { event, digest := eventDigest platform event, bytes := entryBytes platform event }
    unfold Ledger.identity
    rw [hreach.linked.buffered hget, Option.some_or]
  have hready : (Kont.appended event).Ready platform
      (ledger platform (s.buffer platform event (eventDigest platform event))) :=
    fun _ => hidentity
  simp only []
  split
  · refine hreach.trans platform (hreach.linked.flush hout hready (by simp [Kont.suspended])
      fun s' hs' ha' => ?_)
    refine hs'.trans platform (hs'.linked.alike ⟨rfl, rfl, rfl, rfl, rfl, rfl⟩ ?_)
    intro event' hevent' _
    simp only [State.finished, Option.some.injEq, Outcome.returned.injEq] at hevent'
    rw [ha'.ledger platform, ← hevent']
    exact hidentity
  · refine hreach.trans platform (hreach.linked.alike ⟨rfl, rfl, rfl, rfl, rfl, rfl⟩ ?_)
    intro event' hevent' _
    simp only [State.finished, Option.some.injEq, Outcome.returned.injEq] at hevent'
    rw [← hevent']
    exact hidentity

/-- `append` after its flush: the buffer may have been filled again meanwhile. -/
theorem Linked.renumber (h : Linked platform s) (hout : outbox s.stack = []) (event : SessionEvent)
    (hready : (Kont.appendMid event (eventDigest platform event)).Ready platform
      (ledger platform s))
    (hapart : event.eventId ∉ (suspended s.stack).map SessionEvent.eventId) :
    Reaches platform s (renumber platform choice event (eventDigest platform event) s) := by
  unfold Journal.renumber
  refine reading_elim (fun s' hs' => h.halted hs') ?_
  refine safely_elim (fun s' hs' => h.halted hs') ?_
  rcases Option.isSome_iff_exists.mp hready.2.2 with ⟨n, hn⟩
  rcases h.sound.water_le_ahead hn with ⟨m, hm, _⟩
  have hhigh := h.highWater hm
  refine h.enqueue hout
    { event with sequence := max event.sequence (s.highWater event.sessionId + 1) }
    hready.2.1 m hm ?_ hapart
  simp only
  omega

/-- An append that is tame keeps the journal linked, whether or not the buffer has to go first. -/
theorem Linked.append (h : Linked platform s) (hout : outbox s.stack = []) (event : SessionEvent)
    (hapart : event.eventId ∉ (suspended s.stack).map SessionEvent.eventId) :
    Reaches platform s (append platform choice event s) := by
  unfold Journal.append
  refine writing_elim (fun s' hs' => h.halted hs') ?_
  split
  · exact h.halted (throwing_halted s _)
  refine requiring_elim (fun s' hs' => h.halted hs') fun record hrecord => ?_
  have hidentity := h.identity event.eventId
  split
  · rename_i known hknown
    rw [hknown, Option.map_some] at hidentity
    split
    · exact h.halted (throwing_halted s _)
    · -- The event is known: it is returned with the number it has.
      rename_i hsame
      refine h.alike ⟨rfl, rfl, rfl, rfl, rfl, rfl⟩ fun event' hevent' _ => ?_
      simp only [State.finished, Option.some.injEq, Outcome.returned.injEq] at hevent'
      rw [not_or, not_not, not_not] at hsame
      rw [← hevent', hidentity]
      unfold KnownEvent.entry entryOf
      rw [hsame.1, hsame.2]
      rfl
  · rename_i hnone
    rw [hnone, Option.map_none] at hidentity
    refine safely_elim (fun s' hs' => h.halted hs') ?_
    have hwater : s.db.water event.sessionId = some record.highWater := by
      unfold Db.water
      rw [hrecord]
      rfl
    -- The last number of a session is one that waits in the buffer, or the stored one.
    have hahead : (ledger platform s).ahead event.sessionId =
        some ((s.pendingWater.get event.sessionId).getD record.highWater) := by
      rw [h.ahead, hwater]
      cases s.pendingWater.get event.sessionId with
      | none => rfl
      | some n => rfl
    have hnumber : (s.pendingWater.get event.sessionId).getD record.highWater <
        (numbered s record event).sequence := by
      simp only [numbered]
      omega
    have hready : (Kont.appendMid (numbered s record event) (eventDigest platform event)).Ready
        platform (ledger platform s) :=
      ⟨rfl, hidentity, Option.isSome_iff_exists.mpr ⟨_, hwater⟩⟩
    simp only []
    split
    · refine h.flush hout hready ?_ fun s' hs' ha' => ?_
      · intro event' hevent'
        cases hevent'
        exact hapart
      · -- Events may have been numbered while the observer ran, so it is numbered again.
        refine hs'.trans platform (hs'.linked.renumber (by rw [ha'.stack]; exact hout)
          (numbered s record event) ?_ (by rw [ha'.stack]; exact hapart))
        rw [ha'.ledger platform]
        exact hready
    · exact h.enqueue hout (numbered s record event) hidentity _ hahead hnumber hapart

/-! ### One input -/

theorem Linked.finish (h : Linked platform s) (hout : outbox s.stack = []) (operation : Operation)
    (hpurges : ¬operation.purges) : Reaches platform s (finish platform choice operation s) := by
  cases operation with
  | enable hostId grantId session controlEpoch sequenceOffset =>
      exact h.finishEnable hout hostId grantId session controlEpoch sequenceOffset
  | updateSession session => exact h.finishUpdate hout session
  | acceptOperation id sessionId action payload queued origin =>
      exact h.finishAccept hout id sessionId action payload queued origin
  | beginOperation id => exact h.finishBegin hout id
  | settleOperation id state error => exact h.finishSettle hout id state error
  | retire sessionId => exact h.finishRetire hout sessionId
  | purge hostId allowUnacknowledged => exact absurd rfl hpurges
  | close =>
      have hreach : Reaches platform s (s.finished .done) := h.finished (by simp)
      exact hreach.trans platform (hreach.linked.shut choice (by simp [State.finished]))
  | append event => exact h.finished (by simp)
  | flush => exact h.finished (by simp)
  | acknowledge sessionId throughSequence => exact h.finished (by simp)
  | acknowledgeControl sessionId throughEpoch => exact h.finished (by simp)
  | acknowledgeBatch acknowledgements => exact h.finished (by simp)
  | prioritizeOperation id => exact h.finished (by simp)
  | trimAcknowledged sessionId throughSequence => exact h.finished (by simp)

theorem Linked.flushing (h : Linked platform s) (hout : outbox s.stack = [])
    (operation : Operation) (hpurges : ¬operation.purges) :
    Reaches platform s (flushing platform choice operation s) := by
  have hready : (Kont.operation operation).Ready platform (ledger platform s) := hpurges
  refine h.flush hout hready (by simp [Kont.suspended]) fun s' hs' ha' => ?_
  exact hs'.trans platform
    (hs'.linked.finish (by rw [ha'.stack]; exact hout) operation hpurges)

theorem Linked.close (h : Linked platform s) (hout : outbox s.stack = []) :
    Reaches platform s (close platform choice s) := by
  unfold Journal.close
  split
  · exact h.finished (by simp)
  have hready : (Kont.operation .close).Ready platform (ledger platform s) := Bool.false_ne_true
  have hflush : Reaches platform s
        (Journal.flush platform choice s (.operation .close) (State.finished · .done)) ∧
      ∀ event, (Journal.flush platform choice s (.operation .close)
        (State.finished · .done)).result ≠ some (.returned event) := by
    refine flush_elim platform (P := fun s' => Reaches platform s s' ∧
      ∀ event, s'.result ≠ some (.returned event)) ?_ ?_ ?_
    · intro s' hhalt
      rcases hhalt with ⟨ha, error, hresult⟩
      exact ⟨h.halted ⟨ha, error, hresult⟩, by simp [hresult]⟩
    · intro _
      exact ⟨h.alike ⟨rfl, rfl, rfl, rfl, rfl, rfl⟩ (by simp [State.finished]),
        by simp [State.finished]⟩
    · intro db hdb
      exact ⟨h.flushed hout hready (by simp [Kont.suspended]) hdb, by simp [State.flushed]⟩
  simp only []
  split
  · exact hflush.1
  · exact hflush.1.trans platform (hflush.1.linked.shut choice hflush.2)

/-- An observer that appends the event whose `append` it was called from. -/
def Operation.echoes (s : State) : Operation → Bool
  | .append event => event.eventId ∈ (suspended s.stack).map SessionEvent.eventId
  | _ => false

/-- What the results below ask of the inputs of a run: that no Host is purged, and
    that no observer echoes an `append` which waits for it. -/
def Tame (s : State) : Input → Prop
  | .call operation _ => ¬operation.purges ∧ ¬operation.echoes s
  | _ => True

instance (s : State) (input : Input) : Decidable (Tame s input) :=
  match input with
  | .call operation _ => inferInstanceAs (Decidable (¬operation.purges ∧ ¬operation.echoes s))
  | .publish => isTrue trivial
  | .observerReturns _ => isTrue trivial
  | .observerThrows _ _ => isTrue trivial
  | .timerFires _ => isTrue trivial
  | .reopen _ _ => isTrue trivial

/-- Every tame call, up to its first flush. -/
theorem Linked.call (h : Linked platform s) (hout : outbox s.stack = []) (operation : Operation)
    (htame : Tame s (.call operation choice)) :
    Reaches platform s (call platform choice operation s) := by
  cases operation with
  | append event =>
      have hechoes := htame.2
      simp only [Operation.echoes, decide_eq_true_eq] at hechoes
      exact h.append hout event hechoes
  | acknowledge sessionId throughSequence => exact h.acknowledge hout sessionId throughSequence
  | acknowledgeControl sessionId throughEpoch =>
      exact h.acknowledgeControl hout sessionId throughEpoch
  | acknowledgeBatch acknowledgements => exact h.acknowledgeBatch hout acknowledgements
  | prioritizeOperation id => exact h.prioritizeOperation hout id
  | trimAcknowledged sessionId throughSequence =>
      exact h.trimAcknowledged hout sessionId throughSequence
  | close => exact h.close hout
  | enable hostId grantId session controlEpoch sequenceOffset =>
      unfold Journal.call
      refine writing_elim (fun s' hs' => h.halted hs') ?_
      split
      · exact h.halted (throwing_halted s _)
      · split
        · exact h.halted (throwing_halted s _)
        · refine safely_elim (fun s' hs' => h.halted hs') ?_
          refine safely_elim (fun s' hs' => h.halted hs') ?_
          exact h.flushing hout _ htame.1
  | updateSession session =>
      unfold Journal.call
      refine writing_elim (fun s' hs' => h.halted hs') ?_
      split
      · exact h.halted (throwing_halted s _)
      · exact h.flushing hout _ htame.1
  | acceptOperation id sessionId action payload queued origin =>
      unfold Journal.call
      refine writing_elim (fun s' hs' => h.halted hs') ?_
      split
      · exact h.halted (throwing_halted s _)
      · exact h.flushing hout _ htame.1
  | settleOperation id state error =>
      unfold Journal.call
      refine writing_elim (fun s' hs' => h.halted hs') ?_
      split
      · exact h.halted (throwing_halted s _)
      · exact h.flushing hout _ htame.1
  | flush => exact h.flushing hout _ htame.1
  | beginOperation id => exact h.flushing hout _ htame.1
  | retire sessionId => exact h.flushing hout _ htame.1
  | purge hostId allowUnacknowledged => exact absurd rfl htame.1

/-- The newest call no longer waits. -/
theorem Linked.pop (h : Linked platform s) {frame : Frame} {rest : List Frame}
    (hstack : s.stack = frame :: rest) (hframe : outbox [frame] = []) :
    Reaches platform s { s with stack := rest } ∧ outbox rest = [] ∧
      frame.kont.Ready platform (ledger platform { s with stack := rest }) ∧
      ∀ event, frame.kont.suspended = some event →
        event.eventId ∉ (suspended rest).map SessionEvent.eventId := by
  -- Only the newest call can be handing over.
  have hrest : outbox rest = [] := by
    cases rest with
    | nil => rfl
    | cons next rest' =>
        have hnext := h.below next (by rw [hstack]; exact List.mem_cons_self)
        cases next with
        | publish batch kont => exact hnext
        | observing kont => rfl
  have hout : outbox s.stack = [] := by
    rw [hstack]
    cases frame with
    | publish batch kont => exact hframe
    | observing kont => rfl
  have hledger : ledger platform { s with stack := rest } = ledger platform s := by
    unfold Journal.ledger
    rw [hrest, hout]
    rfl
  have hready := h.ready frame (by rw [hstack]; exact List.mem_cons_self)
  have hapart := h.apart
  rw [hstack, suspended_cons, List.map_append, List.nodup_append] at hapart
  refine ⟨⟨by rw [hledger], ?_, rfl⟩, hrest, by rw [hledger]; exact hready, ?_⟩
  · exact
      { tidy := h.tidy
        sound := by
          rw [hledger]
          exact h.sound
        item := h.item
        marks := by
          rw [hledger]
          exact h.marks
        below := by
          intro next hnext
          refine h.below next ?_
          rw [hstack]
          exact List.mem_of_mem_tail hnext
        durable := by simp [hrest]
        ready := by
          intro next hnext
          rw [hledger]
          exact h.ready next (by rw [hstack]; exact List.mem_cons_of_mem frame hnext)
        apart := hapart.2.1
        returned := by
          rw [hledger]
          exact h.returned }
  · intro event hevent hmem
    rw [hevent] at hapart
    -- No two calls that wait are about the same event.
    exact hapart.2.2 event.eventId (by simp) event.eventId hmem rfl

/-- A call goes on after its flush, where what it has kept is still so. -/
theorem Linked.resume (h : Linked platform s) (hout : outbox s.stack = []) (kont : Kont)
    (hready : kont.Ready platform (ledger platform s))
    (hapart : ∀ event, kont.suspended = some event →
      event.eventId ∉ (suspended s.stack).map SessionEvent.eventId) :
    Reaches platform s (resume platform choice kont s) := by
  cases kont with
  | appendMid event digest =>
      have hdigest : digest = eventDigest platform event := hready.1
      subst hdigest
      exact h.renumber hout event hready (hapart event rfl)
  | appended event =>
      refine h.alike ⟨rfl, rfl, rfl, rfl, rfl, rfl⟩ fun event' hevent' hlive => ?_
      simp only [Journal.resume, State.finished, Option.some.injEq, Outcome.returned.injEq]
        at hevent'
      rw [← hevent'] at hlive ⊢
      exact hready hlive
  | operation operation => exact h.finish hout operation hready
  | timer => exact h.finished (by simp)

/-- A call is given up when the observer throws. -/
theorem Linked.unwind (h : Linked platform s) (kont : Kont)
    (hreturned : ∀ event, s.result ≠ some (.returned event)) :
    Reaches platform s (unwind choice kont s) := by
  cases kont with
  | operation operation =>
      cases operation with
      | close => exact h.shut choice hreturned
      | _ => exact Reaches.refl platform h
  | _ => exact Reaches.refl platform h

/-- Handing over is a move of the ledger. -/
theorem Linked.publish (h : Linked platform s) {batch : List SessionEvent} {kont : Kont}
    {rest : List Frame} (hstack : s.stack = .publish batch kont :: rest) :
    Moves (ledger platform s) (ledger platform
        { s with stack := .observing kont :: rest, handed := s.handed ++ batch }) ∧
      Linked platform
        { s with stack := .observing kont :: rest, handed := s.handed ++ batch } := by
  -- On the ledger, handing a batch over empties its outbox.
  have hledger : ledger platform
        { s with stack := .observing kont :: rest, handed := s.handed ++ batch } =
      { ledger platform s with
        outbox := []
        handed := (ledger platform s).handed ++ (ledger platform s).outbox } := by
    unfold Journal.ledger
    simp only [hstack, outbox, List.map_append]
    rfl
  have hmoves : Moves (ledger platform s) (ledger platform
      { s with stack := .observing kont :: rest, handed := s.handed ++ batch }) := by
    rw [hledger]
    exact Relation.ReflTransGen.single (Move.hand (ledger platform s))
  refine
    ⟨hmoves,
      { tidy := h.tidy
        sound := h.sound.moves hmoves
        item := h.item
        marks := by
          rw [hledger]
          exact h.marks
        below := by
          intro frame hframe
          exact h.below frame (by rw [hstack]; exact hframe)
        durable := by simp [outbox]
        ready := ?_
        apart := by
          have hapart := h.apart
          rw [hstack, suspended_cons] at hapart
          rw [suspended_cons]
          exact hapart
        returned := by
          rw [hledger]
          exact h.returned }⟩
  intro frame hframe
  rw [hledger]
  have hready : ∀ frame ∈ s.stack, frame.kont.Ready platform (ledger platform s) := h.ready
  rw [hstack] at hready
  -- What waits below keeps what it waits for; the frame on top goes on with its own.
  rcases List.mem_cons.mp hframe with rfl | hframe
  · have hkont := hready _ List.mem_cons_self
    cases kont with
    | appendMid event digest => exact hkont
    | appended event => exact hkont
    | operation operation => exact hkont
    | timer => trivial
  · have hkont := hready frame (List.mem_cons_of_mem _ hframe)
    cases hk : frame.kont with
    | appendMid event digest =>
        rw [hk] at hkont
        exact hkont
    | appended event =>
        rw [hk] at hkont
        exact hkont
    | operation operation =>
        rw [hk] at hkont
        exact hkont
    | timer => trivial

/-! ### Every input -/

theorem callable_outbox (h : s.callable) : outbox s.stack = [] := by
  unfold State.callable at h
  split at h
  · cases h
  · rename_i hstack
    cases hs : s.stack with
    | nil => rfl
    | cons frame rest =>
        cases frame with
        | publish batch kont => exact absurd hs (hstack batch kont rest)
        | observing kont => rfl

def Input.reopens : Input → Prop
  | .reopen _ _ => True
  | _ => False

/-- An input within the life of an instance hands over what is in the outbox, if it
    hands over anything. -/
theorem Linked.step (h : Linked platform s) (input : Input) (htame : Tame s input)
    (hreopens : ¬input.reopens) :
    Reaches platform s (step platform s input) ∨
      Moves (ledger platform s) (ledger platform (step platform s input)) ∧
        Linked platform (step platform s input) ∧
        (step platform s input).handed = s.handed ++ outbox s.stack := by
  cases input with
  | call operation choice =>
      left
      simp only [Journal.step]
      by_cases hcallable : s.callable
      · rw [if_pos hcallable]
        exact h.call (callable_outbox hcallable) operation htame
      · rw [if_neg hcallable]
        exact Reaches.refl platform h
  | publish =>
      simp only [Journal.step]
      split
      · rename_i batch kont rest hstack
        right
        rw [hstack]
        exact ⟨(h.publish hstack).1, (h.publish hstack).2, rfl⟩
      · exact .inl (Reaches.refl platform h)
  | observerReturns choice =>
      left
      simp only [Journal.step]
      split
      · rename_i kont rest hstack
        rcases h.pop hstack rfl with ⟨hreach, hout, hready, hapart⟩
        exact hreach.trans platform (hreach.linked.resume hout kont hready hapart)
      · exact Reaches.refl platform h
  | observerThrows error choice =>
      left
      simp only [Journal.step]
      split
      · rename_i kont rest hstack
        have hreach := (h.pop hstack rfl).1
        -- The failure is remembered before the call is taken apart.
        have hfail := hreach.linked.halted (fail_halted { s with stack := rest } error)
        exact (hreach.trans platform hfail).trans platform
          (hfail.linked.unwind kont (by simp [State.fail]))
      · exact Reaches.refl platform h
  | timerFires choice =>
      left
      simp only [Journal.step]
      split
      · rename_i hfires
        have hready : Kont.timer.Ready platform (ledger platform s) := trivial
        refine h.flush (by rw [hfires.1]; rfl) hready (by simp [Kont.suspended])
          fun s' hs' _ => hs'.trans platform (hs'.linked.finished (by simp))
      · exact Reaches.refl platform h
  | reopen options choice => exact absurd trivial hreopens

theorem recoverOperations_like (operations : List LocalSessionOperation) (db : Db)
    (htidy : db.Tidy) (f : LocalSessionOperation → LocalSessionOperation) :
    Db.Like db (operations.foldl (fun db operation => db.putOperation platform (f operation)) db) ∧
      (operations.foldl (fun db operation => db.putOperation platform (f operation)) db).Tidy := by
  induction operations generalizing db with
  | nil => exact ⟨Db.Like.refl db, htidy⟩
  | cons operation rest ih =>
      have hrest := ih (db.putOperation platform (f operation))
        (htidy.putOperation platform (f operation))
      exact ⟨(putOperation_like platform db (f operation)).trans hrest.1, hrest.2⟩

/-- Reopening is a crash and then some moves. -/
theorem Linked.reopen (h : Linked platform s) (options : Options) (choice : Choice) :
    Moves (ledger platform s).crash (ledger platform (reopen platform options choice s)) ∧
      Linked platform (reopen platform options choice s) ∧
      (reopen platform options choice s).handed = s.handed := by
  -- Whatever was in memory is gone, which is what a crash is.
  have hfresh : ∀ closed : Bool,
      let fresh : State :=
        { options, db := s.db, pending := Table.empty, pendingWater := Table.empty
          pendingBytes := 0, timer := false, closed, failure := none, stack := []
          result := some .done, stored := s.stored, handed := s.handed }
      ledger platform fresh = (ledger platform s).crash ∧ Linked platform fresh := by
    intro closed
    refine ⟨rfl, ?_⟩
    exact
      { tidy := h.tidy
        sound := h.sound.crash
        item := by
          intro eventId item hitem
          cases hitem
        marks := fun _ => rfl
        below := by simp
        durable := by simp [outbox]
        ready := by simp
        apart := List.nodup_nil
        returned := by
          intro event hevent
          cases hevent }
  unfold Journal.reopen
  simp only []
  split
  · have hclosed := hfresh true
    have hreach := hclosed.2.halted (throwing_halted _ integerError)
    refine ⟨?_, hreach.linked, hreach.handed⟩
    rw [← hclosed.1]
    exact hreach.moves
  · split
    · rename_i error _
      have hclosed := hfresh true
      have hreach := hclosed.2.halted (fail_halted _ error)
      refine ⟨?_, hreach.linked, hreach.handed⟩
      rw [← hclosed.1]
      exact hreach.moves
    · rename_i db hcommitted
      have hopen := hfresh false
      have hdb : recoverOperations platform s.db = .ok db := by
        unfold committed at hcommitted
        split at hcommitted
        · cases hcommitted
        · split at hcommitted
          · cases hcommitted
          · rename_i db' hbody
            split at hcommitted
            · cases hcommitted
            · cases hcommitted
              exact hbody
      -- Recovery writes operations only.
      have hlike : Db.Like s.db db ∧ db.Tidy := by
        cases hdb
        exact recoverOperations_like _ s.db h.tidy _
      have hreach := hopen.2.like rfl hlike.1 hlike.2
      refine ⟨?_, hreach.linked, hreach.handed⟩
      rw [← hopen.1]
      exact hreach.moves

theorem linked_initial : Linked platform State.initial where
  tidy :=
    { keyed := by
        intro sessionId record hrecord
        cases hrecord
      exclusive := by
        intro sessionId hretired
        cases hretired
      acknowledged := by
        intro sessionId record hrecord
        cases hrecord }
  sound :=
    { row_id := by
        intro id e he
        cases he
      log_ordered := List.Pairwise.nil
      log_below := by simp [ledger, State.initial]
      row_below := by
        intro id e he
        cases he
      buffer_ordered := List.Pairwise.nil
      buffer_above := by simp [ledger, State.initial, State.buffered, Table.values, Table.empty]
      buffer_nodup := List.nodup_nil
      buffer_new := by simp [ledger, State.initial, State.buffered, Table.values, Table.empty]
      log_kept := by simp [ledger, State.initial]
      handed_log := List.Sublist.refl _ }
  item := by
    intro eventId item hitem
    cases hitem
  marks := fun _ => rfl
  below := by simp [State.initial]
  durable := by simp [State.initial, outbox]
  ready := by simp [State.initial]
  apart := List.nodup_nil
  returned := by
    intro event hevent
    cases hevent

/-- What any tame input does. -/
theorem Linked.input (h : Linked platform s) (input : Input) (htame : Tame s input) :
    Linked platform (Journal.step platform s input) ∧
      (Moves (ledger platform s) (ledger platform (Journal.step platform s input)) ∨
        input.reopens ∧
          Moves (ledger platform s).crash (ledger platform (Journal.step platform s input))) ∧
      ((Journal.step platform s input).handed = s.handed ∨
        (Journal.step platform s input).handed = s.handed ++ outbox s.stack) := by
  by_cases hreopens : input.reopens
  · cases input with
    | reopen options choice =>
        have hreopen := h.reopen options choice
        exact ⟨hreopen.2.1, .inr ⟨trivial, hreopen.1⟩, .inl hreopen.2.2⟩
    | _ => exact hreopens.elim
  · rcases h.step input htame hreopens with hreach | ⟨hmoves, hlinked, hhanded⟩
    · exact ⟨hreach.linked, .inl hreach.moves, .inl hreach.handed⟩
    · exact ⟨hlinked, .inl hmoves, .inr hhanded⟩

/-- The link holds wherever a run of tame inputs ends. -/
theorem linked_run (inputs : List Input) (hs : Linked platform s)
    (h : Run.Admits (step platform) Tame s inputs) :
    Linked platform (Run.final (step platform) s inputs) :=
  Run.invariant_of_admits (step platform) Tame (Linked platform)
    (fun _ input hs htame => (hs.input input htame).1) inputs s hs h

end

/-! ### What the journal promises -/

section

variable (platform : Platform)

/-- Events of one session come in the order of their numbers. -/
def Increasing (events : List SessionEvent) : Prop :=
  events.Pairwise fun a b => a.sessionId = b.sessionId → a.sequence < b.sequence

/-- No number of a session is given twice. -/
def Distinct (events : List SessionEvent) : Prop :=
  events.Pairwise fun a b => ¬(a.sessionId = b.sessionId ∧ a.sequence = b.sequence)

/-- An event as the journal knows it. -/
def knownAs (event : SessionEvent) : KnownEvent where
  sessionId := event.sessionId
  sequence := event.sequence
  digest := eventDigest platform event

/-- An event is committed, body and identity. -/
def Db.Holds (db : Db) (event : SessionEvent) : Prop :=
  ∃ row, db.events.get event.eventId = some row ∧ row.data = some event ∧
    row.sessionId = event.sessionId ∧ row.sequence = event.sequence ∧
    row.digest = eventDigest platform event

/-- Whether a call of `append` gets as far as the identity of its event. -/
structure Admissible (s : State) (choice : Choice) (event : SessionEvent) : Prop where
  writable : s.blocked = none
  readable : choice.readFault = none
  valid : platform.validEvent event
  enabled : (s.db.stored event.sessionId).isSome

/-- What `append` comes to for an event whose id is known. -/
structure Reappended (s : State) (choice : Choice) (event : SessionEvent) (known : KnownEvent)
    (s' : State) : Prop where
  /-- Nothing is stored, buffered or handed over. -/
  unchanged : Alike s s'
  equal : known.sessionId = event.sessionId ∧ known.digest = eventDigest platform event →
    s'.result = some (.returned { event with sequence := known.sequence }) ∨
      ∃ error, s'.result = some (.threw error)
  returns : Admissible platform s choice event →
    known.sessionId = event.sessionId ∧ known.digest = eventDigest platform event →
      s'.result = some (.returned { event with sequence := known.sequence })
  conflicting : ¬(known.sessionId = event.sessionId ∧
      known.digest = eventDigest platform event) → ∃ error, s'.result = some (.threw error)

theorem append_known (s : State) (choice : Choice) (event : SessionEvent) (known : KnownEvent)
    (hcallable : s.callable) (hknown : s.identity event.eventId = some known) :
    Reappended platform s choice event known (step platform s (.call (.append event) choice)) := by
  have hstep : step platform s (.call (.append event) choice) = append platform choice event s := by
    simp only [step, hcallable, if_true]
    rfl
  rw [hstep]
  -- Either the call is given up, which an admissible one is not, or it sees the identity.
  have hcases : (Halted s (append platform choice event s) ∧
        ¬Admissible platform s choice event) ∨
      append platform choice event s =
        if known.sessionId ≠ event.sessionId ∨ known.digest ≠ eventDigest platform event then
          s.throwing conflictError
        else s.finished (.returned { event with sequence := known.sequence }) := by
    unfold append State.writing
    cases hblocked : s.blocked with
    | some error =>
        refine .inl ⟨throwing_halted s error, fun h => ?_⟩
        rw [h.writable] at hblocked
        cases hblocked
    | none =>
        simp only []
        by_cases hvalid : platform.validEvent event
        · rw [if_neg (by simp [hvalid])]
          unfold State.requiring State.reading
          have hopen : ¬s.closed := by
            intro hclosed
            unfold State.blocked at hblocked
            rw [if_pos hclosed] at hblocked
            cases hblocked
          rw [if_neg hopen]
          cases hfault : choice.readFault with
          | some error =>
              refine .inl ⟨fail_halted s error, fun h => ?_⟩
              rw [h.readable] at hfault
              cases hfault
          | none =>
              simp only []
              cases hrecord : s.db.stored event.sessionId with
              | none =>
                  refine .inl ⟨throwing_halted s _, fun h => ?_⟩
                  have := h.enabled
                  rw [hrecord] at this
                  cases this
              | some record =>
                  right
                  simp only [hknown]
        · rw [if_pos (by simp [hvalid])]
          exact .inl ⟨throwing_halted s _, fun h => hvalid h.valid⟩
  rcases hcases with ⟨hhalt, hnot⟩ | heq
  · exact ⟨hhalt.1, fun _ => .inr hhalt.2, fun h => absurd h hnot, fun _ => hhalt.2⟩
  · by_cases hsame : known.sessionId = event.sessionId ∧ known.digest = eventDigest platform event
    · rw [if_neg (by rw [not_or, not_not, not_not]; exact hsame)] at heq
      rw [heq]
      exact ⟨⟨rfl, rfl, rfl, rfl, rfl, rfl⟩, fun _ => .inl rfl, fun _ _ => rfl,
        fun h => absurd hsame h⟩
    · rw [if_pos (by rw [← not_and_or]; exact hsame)] at heq
      rw [heq]
      exact ⟨⟨rfl, rfl, rfl, rfl, rfl, rfl⟩, fun h => absurd h hsame, fun _ h => absurd h hsame,
        fun _ => ⟨conflictError, rfl⟩⟩

/-- Whenever the journal is reopened in a run, an event is committed. -/
def Survives (s : State) (eventId : Text) (inputs : List Input) : Prop :=
  ∀ before options choice after, inputs = before ++ .reopen options choice :: after →
    ((Run.final (step platform) s before).db.events.get eventId).isSome

section

variable {platform} {s : State}

/-- A known identity stays, unless its session is retired or a crash loses it. -/
theorem Linked.identity_survives (hs : Linked platform s) {eventId : Text}
    {e : Entry Text Text EventIdentity} (inputs : List Input)
    (h : Run.Admits (Journal.step platform) Tame s inputs)
    (hidentity : (ledger platform s).identity eventId = some e)
    (hsurvives : Survives platform s eventId inputs)
    (hlive : ¬(ledger platform (Run.final (Journal.step platform) s inputs)).retired e.stream) :
    (ledger platform (Run.final (Journal.step platform) s inputs)).identity eventId = some e := by
  induction inputs using List.reverseRecOn with
  | nil => exact hidentity
  | append_singleton before input ih =>
      rw [Run.admits_append] at h
      rw [Run.final_append] at hlive ⊢
      have hbefore := linked_run before hs h.1
      have hinput := (hbefore.input input h.2.1).2.1
      have hlive' : ¬(ledger platform (Run.final (Journal.step platform) s before)).retired e.stream := by
        intro hretired
        rcases hinput with hmoves | ⟨_, hmoves⟩
        · exact hlive (hmoves.retired hretired)
        · exact hlive (hmoves.retired hretired)
      have hsurvives' : Survives platform s eventId before := by
        intro mid options choice after hmid
        refine hsurvives mid options choice (after ++ [input]) ?_
        rw [hmid, List.append_assoc, List.cons_append]
      have hknown := ih h.1 hsurvives' hlive'
      rcases hinput with hmoves | ⟨hreopens, hmoves⟩
      · exact hmoves.identity_kept hknown hlive
      · -- The crash finds the event among the rows, so it is known as that row.
        cases input with
        | reopen options choice =>
            have hrow := hsurvives before options choice [] rfl
            rcases Option.isSome_iff_exists.mp hrow with ⟨row, hrow⟩
            have hrows : (ledger platform (Run.final (Journal.step platform) s before)).rows eventId =
                some (rowEntry eventId row) := by
              change Option.map (rowEntry eventId) _ = _
              rw [hrow]
              rfl
            have hnone : (ledger platform (Run.final (Journal.step platform) s before)).buffered eventId =
                none := by
              cases hbuffered :
                  (ledger platform (Run.final (Journal.step platform) s before)).buffered eventId with
              | none => rfl
              | some e' =>
                  have hmem := Sound.buffered_id hbuffered
                  have hnew := hbefore.sound.buffer_new e' hmem.1
                  rw [hmem.2, hrows] at hnew
                  cases hnew
            unfold Ledger.identity at hknown
            rw [hnone, Option.none_or] at hknown
            exact hmoves.identity_kept (identity_crash hknown) hlive
        | _ => exact hreopens.elim

/-- A retired session stays retired. -/
theorem Linked.retired_run (hs : Linked platform s) (inputs : List Input)
    (h : Run.Admits (Journal.step platform) Tame s inputs) {sessionId : Text}
    (hretired : (ledger platform s).retired sessionId) :
    (ledger platform (Run.final (Journal.step platform) s inputs)).retired sessionId := by
  induction inputs generalizing s with
  | nil => exact hretired
  | cons input rest ih =>
      have hinput := hs.input input h.1
      refine ih hinput.1 h.2 ?_
      rcases hinput.2.1 with hmoves | ⟨_, hmoves⟩
      · exact hmoves.retired hretired
      · exact hmoves.retired hretired

theorem Linked.known_of_entry (h : Linked platform s) {event : SessionEvent}
    (hidentity : (ledger platform s).identity event.eventId = some (entryOf platform event)) :
    s.identity event.eventId = some (knownAs platform event) := by
  rw [h.identity, Option.map_eq_some_iff] at hidentity
  rcases hidentity with ⟨known, hknown, heq⟩
  rw [hknown]
  unfold KnownEvent.entry entryOf at heq
  rw [Entry.mk.injEq] at heq
  cases known
  simp only at heq
  rw [heq.2.1, heq.2.2.1, heq.2.2.2]
  rfl

end

/-- Whatever happens to the journal, with every flush, re-entrant observer, crash,
    trimming and retirement. The numbers a session is seen with increase, and what
    is handed over was committed before. No number is given twice among what was
    committed or is buffered, and each of these events is known as what it is until
    its session is retired; so is an event that `append` returned, unless a crash
    loses it. Appending a known id again returns the number it has, changing
    nothing, and with other content or for another session throws. And nothing is
    acknowledged beyond the watermarks. -/
theorem sequences_and_identities (inputs : List Input)
    (h : Run.Admits (step platform) Tame State.initial inputs) :
    let s := Run.final (step platform) State.initial inputs
    Increasing s.handed ∧
      (∀ input, Tame s input → ∃ batch, (step platform s input).handed = s.handed ++ batch ∧
        ∀ event ∈ batch, s.db.Holds platform event) ∧
      Distinct (s.stored ++ s.buffered) ∧
      (∀ event ∈ s.stored ++ s.buffered, s.db.retired.get event.sessionId = none →
        s.identity event.eventId = some (knownAs platform event)) ∧
      (∀ before after event, inputs = before ++ after →
        (Run.final (step platform) State.initial before).result = some (.returned event) →
        Survives platform (Run.final (step platform) State.initial before) event.eventId after →
        s.db.retired.get event.sessionId = none →
          s.identity event.eventId = some (knownAs platform event)) ∧
      (∀ choice event known, s.callable → s.identity event.eventId = some known →
        Reappended platform s choice event known
          (step platform s (.call (.append event) choice))) ∧
      ∀ sessionId record, s.db.stored sessionId = some record →
        record.acknowledgedSequence ≤ record.highWater ∧
          record.acknowledgedControlEpoch ≤ record.controlEpoch := by
  intro s
  have hs : Linked platform s := linked_run inputs linked_initial h
  have hnotRetired : ∀ sessionId, s.db.retired.get sessionId = none →
      ¬(ledger platform s).retired sessionId := by
    intro sessionId hnone hretired
    change (s.db.retired.get sessionId).isSome at hretired
    rw [hnone] at hretired
    cases hretired
  refine ⟨?_, ?_, ?_, ?_, ?_, ?_, hs.tidy.acknowledged⟩
  · exact List.pairwise_map.mp hs.sound.handed_ordered
  · intro input htame
    rcases (hs.input input htame).2.2 with hsame | hgrown
    · exact ⟨[], by rw [hsame, List.append_nil], by simp⟩
    · refine ⟨outbox s.stack, hgrown, fun event hevent => ?_⟩
      rcases hs.durable event hevent with ⟨row, hrow, hdata, hentry⟩
      unfold rowEntry entryOf at hentry
      rw [Entry.mk.injEq] at hentry
      exact ⟨row, hrow, hdata, hentry.2⟩
  · have hdistinct := hs.sound.distinct
    rw [show (ledger platform s).log ++ (ledger platform s).buffer =
      (s.stored ++ s.buffered).map (entryOf platform) from List.map_append.symm] at hdistinct
    exact List.pairwise_map.mp hdistinct
  · intro event hevent hnone
    refine hs.known_of_entry (hs.sound.identity_of_mem (e := entryOf platform event) ?_
      (hnotRetired _ hnone))
    rw [show (ledger platform s).log ++ (ledger platform s).buffer =
      (s.stored ++ s.buffered).map (entryOf platform) from List.map_append.symm]
    exact List.mem_map_of_mem hevent
  · intro before after event hinputs hreturned hsurvives hnone
    rw [hinputs, Run.admits_append] at h
    have hbefore := linked_run before linked_initial h.1
    have hfinal : s = Run.final (step platform)
        (Run.final (step platform) State.initial before) after := by
      rw [← Run.final_append, ← hinputs]
    have hlive := hnotRetired event.sessionId hnone
    rw [hfinal] at hlive
    -- The session is not retired at the end, so it was not when the event was returned.
    have hnil : ¬(ledger platform (Run.final (step platform) State.initial before)).retired
        event.sessionId := by
      intro hretired
      exact hlive (hbefore.retired_run after h.2 hretired)
    have hidentity := hbefore.returned event hreturned hnil
    have hsurvived := hbefore.identity_survives after h.2 hidentity hsurvives hlive
    rw [← hfinal] at hsurvived
    exact hs.known_of_entry hsurvived
  · intro choice event known hcallable hknown
    exact append_known platform s choice event known hcallable hknown

end

/-! ### Sample runs -/

namespace Sample

/-- A platform whose payloads have one key. -/
def platform : Platform where
  validEvent := fun _ => true
  validSession := fun _ => true
  canonical := fun payload => payload
  applyMetadata := fun metadata _ => metadata
  requestId := fun _ => none
  eventBytes := fun event => 120 + event.payload.length
  sessionBytes := fun _ => 400
  operationBytes := fun _ => 300

def session (id : String) : JournalSession where
  id := ofString id
  nodeId := ofString "node"
  workspaceId := ofString "workspace"
  placementId := ofString "placement"

def event (id sessionId : String) : SessionEvent where
  eventId := ofString id
  sessionId := ofString sessionId
  sequence := 0
  type := .agentText
  payload := ofString "{}"
  createdAt := ofString "2025-01-01T00:00:00.000Z"

def call (operation : Operation) : Input := .call operation {}

def enable (id : String) : Input :=
  call (.enable (ofString "host") (ofString "grant") (session id) 0 0)

def append (id sessionId : String) : Input := call (.append (event id sessionId))

/-- What a run comes to. -/
def outcome (inputs : List Input) : Option Outcome :=
  (Run.final (step platform) State.initial inputs).result

/-- An event that is buffered when the process stops. -/
def lost : List Input := [.reopen {} {}, enable "s", append "a" "s", .reopen {} {}]

/-- An event whose session is retired. -/
def retired : List Input :=
  [.reopen {} {}, enable "s", append "a" "s", call .flush, .publish, .observerReturns {},
    call (.acknowledge (ofString "s") 1), call (.retire (ofString "s")), enable "t"]

/-- An observer that appends, a trimming, and the event again. -/
def busy : List Input :=
  [.reopen {} {}, enable "s", append "a" "s", call .flush, .publish, append "b" "s",
    .observerReturns {}, call (.acknowledge (ofString "s") 1),
    call (.trimAcknowledged (ofString "s") 1), append "a" "s"]

end Sample

/-- A run in which the journal makes its promises good. -/
theorem sequences_and_identities_busy :
    (Run.final (step Sample.platform) State.initial Sample.busy).result =
        some (.returned { Sample.event "a" "s" with sequence := 1 }) ∧
      Increasing (Run.final (step Sample.platform) State.initial Sample.busy).handed :=
  ⟨by decide +kernel,
    (sequences_and_identities Sample.platform Sample.busy (by decide +kernel)).1⟩

/-- A crash makes the journal give the number of a buffered event again, to another
    event, and this event another number; and the id of an event whose session is
    retired is taken for another session without an error. -/
theorem sequences_reused :
    (Sample.outcome [.reopen {} {}, Sample.enable "s", Sample.append "a" "s"] =
        some (.returned { Sample.event "a" "s" with sequence := 1 }) ∧
      Sample.outcome (Sample.lost ++ [Sample.append "b" "s"]) =
        some (.returned { Sample.event "b" "s" with sequence := 1 }) ∧
      Sample.outcome (Sample.lost ++ [Sample.append "b" "s", Sample.append "a" "s"]) =
        some (.returned { Sample.event "a" "s" with sequence := 2 })) ∧
    (Sample.event "a" "s" ∈
        (Run.final (step Sample.platform) State.initial Sample.retired).handed.map
          (fun event => { event with sequence := 0 }) ∧
      Sample.outcome (Sample.retired ++ [Sample.append "a" "t"]) =
        some (.returned { Sample.event "a" "t" with sequence := 1 })) := by
  decide +kernel

end Journal

end CopilotFleet
