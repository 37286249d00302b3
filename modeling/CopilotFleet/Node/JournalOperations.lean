import CopilotFleet.Lib.Once
import CopilotFleet.Node.JournalSequences

/-!
# Operations in the Session Journal

A session operation is admitted at once or queued and begun later, may be asked
for again with the same content, and may find the Node reopened between its
commit and the native call it licenses. The journal keeps one state per
operation, and what it promises rests on that state only moving forward:
queued, accepted, uncertain, completed.

Every call commits at most one transaction, so what an input does to the tables
is one `Advances`. A run of inputs that retires and purges nothing releases an
operation at most once (`operations_released_once`); retiring a session forgets
its operations, and their ids with them.

## Main definitions

* `releases`: The operations an input licenses a native call for.
* `Db.Advances`: Operations move forward, and control epochs with them.
* `Lasting`: No retirement and no purge goes on.

## Theorems

* `Advanced.input`: What an input does.
* `recoverOperations_operation`: What reopening does to an operation.
* `operations_released_once`: What the journal promises about operations.
-/

namespace CopilotFleet

namespace Journal

open Utf16

/-! ### What is released -/

/-- How far an operation has come. -/
def OperationState.phase : OperationState → Nat
  | .queued => 0
  | .accepted => 1
  | .uncertain => 2
  | .settled | .rejected => 3

/-- How far the operation with an id has come; one that is not known, not at all. -/
def Db.phase (db : Db) (id : Text) : Nat :=
  (db.operation id).elim 0 fun operation => operation.state.phase

/-- The operation an outcome licenses a native call for. -/
def Outcome.released : Outcome → List Text
  | .accepted operation true => [operation.id]
  | .begun operation => [operation.id]
  | _ => []

/-- Whether an input does anything: a call with someone to make it, an observer that
    ends with one being called, the timer that was set. -/
def Input.applies (s : State) : Input → Bool
  | .call _ _ => s.callable
  | .publish => false
  | .observerReturns _ | .observerThrows _ _ =>
      match s.stack with
      | .observing _ :: _ => true
      | _ => false
  | .timerFires _ => decide (s.stack = []) && s.timer
  | .reopen _ _ => true

/-- The operations released by what an input comes to. -/
def releases (platform : Platform) (s : State) (input : Input) : List Text :=
  if input.applies s then ((step platform s input).result.map Outcome.released).getD [] else []

/-- An operation that takes rows away, retired sessions apart. -/
def Operation.deletes : Operation → Bool
  | .retire _ => true
  | .purge _ _ => true
  | _ => false

/-- Where a flush goes on with such an operation. -/
def Kont.deletes : Kont → Bool
  | .operation op => op.deletes
  | _ => false

/-- No retirement and no purge goes on: none is called, and none waits for the
    observer that returns. -/
def Lasting (s : State) (input : Input) : Prop :=
  (match input, s.stack with
  | .call operation _, _ => operation.deletes
  | .observerReturns _, .observing kont :: _ => kont.deletes
  | _, _ => false) = false

instance (s : State) (input : Input) : Decidable (Lasting s input) :=
  inferInstanceAs (Decidable (_ = false))

/-! ### What an input does to the tables -/

/-- Sessions and operations are kept under their own ids. -/
structure Db.Keyed (db : Db) : Prop where
  sessions : ∀ sessionId record, db.stored sessionId = some record →
    record.session.id = sessionId
  operations : ∀ id operation, db.operation id = some operation → operation.id = id

/-- The outcome of an operation that does not change any more. -/
def OperationState.completed (state : OperationState) : Bool :=
  state = .settled || state = .rejected

/-- A local operation that is new, or one that leaves the queue. -/
def Db.Takes (db db' : Db) (operation : LocalSessionOperation) : Prop :=
  db'.operation operation.id = some operation ∧
    ((db.operation operation.id = none ∧ operation.origin = .local) ∨
      ∃ prior, db.operation operation.id = some prior ∧ prior.state = .queued ∧
        operation.state = .accepted)

/-- Operations move forward, and control epochs with them. -/
structure Db.Advances (db db' : Db) : Prop where
  keyed : db'.Keyed
  phase : ∀ id, db.phase id ≤ db'.phase id
  completed : ∀ id operation, db.operation id = some operation → operation.state.completed →
    db'.operation id = some operation
  epoch : ∀ sessionId record, db.stored sessionId = some record →
    ∃ record', db'.stored sessionId = some record' ∧ record.controlEpoch ≤ record'.controlEpoch
  takes : ∀ operation, db.Takes db' operation →
    ∃ record record', db.stored operation.sessionId = some record ∧
      db'.stored operation.sessionId = some record' ∧
      record.controlEpoch < record'.controlEpoch ∧
      operation.controlEpoch = record'.controlEpoch

theorem Db.phase_of {db : Db} {id : Text} {operation : LocalSessionOperation}
    (h : db.operation id = some operation) : db.phase id = operation.state.phase := by
  unfold Db.phase
  rw [h]
  rfl

/-- Nothing is taken where the operations stay. -/
theorem Db.Takes.absurd {db db' : Db} {operation : LocalSessionOperation}
    (h : db.Takes db' operation) (hsame : db'.operation operation.id = db.operation operation.id) :
    False := by
  rcases h with ⟨hnew, hcases⟩
  rw [hsame] at hnew
  rcases hcases with ⟨hnone, _⟩ | ⟨prior, hprior, hqueued, haccepted⟩
  · rw [hnone] at hnew
    cases hnew
  · rw [hprior, Option.some.injEq] at hnew
    rw [hnew, haccepted] at hqueued
    cases hqueued

/-- Tables whose operations are the same, and whose sessions keep their epochs. -/
theorem Db.Advances.of_operations {db db' : Db} (hkeyed : db.Keyed)
    (hoperations : db'.operations = db.operations)
    (hsessions : ∀ sessionId record, db'.stored sessionId = some record →
      record.session.id = sessionId)
    (hepoch : ∀ sessionId record, db.stored sessionId = some record →
      ∃ record', db'.stored sessionId = some record' ∧
        record.controlEpoch ≤ record'.controlEpoch) : db.Advances db' := by
  have hsame : ∀ id, db'.operation id = db.operation id := by
    intro id
    unfold Db.operation
    rw [hoperations]
  exact
    { keyed := ⟨hsessions, fun id operation h => hkeyed.operations id operation (by rw [← hsame, h])⟩
      phase := fun id => Nat.le_of_eq (by unfold Db.phase; rw [hsame])
      completed := fun id operation h _ => by rw [hsame, h]
      epoch := hepoch
      takes := fun operation h => (h.absurd (hsame operation.id)).elim }

theorem Db.Advances.refl {db : Db} (h : db.Keyed) : db.Advances db :=
  Db.Advances.of_operations h rfl h.sessions fun _ record hrecord =>
    ⟨record, hrecord, Nat.le_refl _⟩

section

variable (platform : Platform)

/-- A record saved over the one of its session, with an epoch no lower. -/
theorem Db.Advances.putSession {db : Db} (h : db.Keyed) {record : StoredSession}
    (hepoch : ∀ prior, db.stored record.session.id = some prior →
      prior.controlEpoch ≤ record.controlEpoch) :
    db.Advances (db.putSession platform record) := by
  refine Db.Advances.of_operations h rfl ?_ ?_
  · intro sessionId record' hrecord'
    rw [stored_putSession] at hrecord'
    split at hrecord'
    · rename_i hid
      cases hrecord'
      exact hid.symm
    · exact h.sessions sessionId record' hrecord'
  · intro sessionId prior hprior
    rw [stored_putSession]
    by_cases hid : sessionId = record.session.id
    · rw [hid] at hprior
      exact ⟨record, if_pos hid, hepoch prior hprior⟩
    · exact ⟨prior, by rw [if_neg hid, hprior], Nat.le_refl _⟩

theorem operation_putOperation (db : Db) (operation : LocalSessionOperation) (id : Text) :
    (db.putOperation platform operation).operation id =
      if id = operation.id then some operation else db.operation id := by
  unfold Db.putOperation Db.operation
  rw [Table.get_set]
  split
  · rfl
  · rfl

/-- An operation in its next state, taken from the queue or not, with its session
    brought to the epoch it takes. -/
theorem Db.Advances.putOperation {db db₁ : Db} (h : db.Keyed) (h₁ : db.Advances db₁)
    (hsame : db₁.operations = db.operations) (operation : LocalSessionOperation)
    (hphase : ∀ prior, db.operation operation.id = some prior →
      prior.state.phase ≤ operation.state.phase ∧ prior.state.completed = false)
    (htakes : db.Takes (db₁.putOperation platform operation) operation →
      ∃ record record', db.stored operation.sessionId = some record ∧
        db₁.stored operation.sessionId = some record' ∧
        record.controlEpoch < record'.controlEpoch ∧
        operation.controlEpoch = record'.controlEpoch) :
    db.Advances (db₁.putOperation platform operation) := by
  have hget : ∀ id, (db₁.putOperation platform operation).operation id =
      if id = operation.id then some operation else db.operation id := by
    intro id
    rw [operation_putOperation]
    unfold Db.operation
    rw [hsame]
  refine
    { keyed := ⟨h₁.keyed.sessions, ?_⟩
      phase := ?_
      completed := ?_
      epoch := h₁.epoch
      takes := ?_ }
  · intro id operation' hoperation'
    rw [hget] at hoperation'
    split at hoperation'
    · rename_i hid
      cases hoperation'
      exact hid.symm
    · exact h.operations id operation' hoperation'
  · intro id
    unfold Db.phase
    rw [hget]
    by_cases hid : id = operation.id
    · rw [if_pos hid, hid]
      cases hprior : db.operation operation.id with
      | none => exact Nat.zero_le _
      | some prior => exact (hphase prior hprior).1
    · exact Nat.le_of_eq (by rw [if_neg hid])
  · intro id prior hprior hcompleted
    rw [hget]
    by_cases hid : id = operation.id
    · rw [hid] at hprior
      rw [(hphase prior hprior).2] at hcompleted
      cases hcompleted
    · rw [if_neg hid, hprior]
  · -- Only the row that was put can take the session.
    intro operation' htaken
    have hnew := hget operation'.id
    by_cases hid : operation'.id = operation.id
    · rw [if_pos hid, htaken.1, Option.some.injEq] at hnew
      rw [hnew] at htaken ⊢
      exact htakes htaken
    · rw [if_neg hid] at hnew
      exact (htaken.absurd hnew).elim

/-- A session and an operation are saved in one transaction. -/
theorem saveControlled_advances {db db' : Db} (h : db.Keyed) {record : StoredSession}
    {operation : LocalSessionOperation}
    (hrecord : db.stored operation.sessionId = some record)
    (hepoch : record.controlEpoch ≤ operation.controlEpoch)
    (hphase : ∀ prior, db.operation operation.id = some prior →
      prior.state.phase ≤ operation.state.phase ∧ prior.state.completed = false)
    (hlocal : operation.origin = .local → record.controlEpoch < operation.controlEpoch)
    (hqueued : ∀ prior, db.operation operation.id = some prior →
      record.controlEpoch < operation.controlEpoch)
    (hdb : saveControlled platform record operation db = .ok db') : db.Advances db' := by
  cases hdb
  have hid := h.sessions operation.sessionId record hrecord
  have h₁ : db.Advances
      (db.putSession platform { record with controlEpoch := operation.controlEpoch }) := by
    refine Db.Advances.putSession platform h fun prior hprior => ?_
    change db.stored record.session.id = some prior at hprior
    rw [hid, hrecord, Option.some.injEq] at hprior
    rw [← hprior]
    exact hepoch
  refine h₁.putOperation platform h rfl operation hphase fun htaken => ?_
  refine ⟨record, { record with controlEpoch := operation.controlEpoch }, hrecord, ?_, ?_, rfl⟩
  · rw [stored_putSession]
    exact if_pos hid.symm
  · rcases htaken.2 with ⟨_, hlocal'⟩ | ⟨prior, hprior, _⟩
    · exact hlocal hlocal'
    · exact hqueued prior hprior

theorem saveControlled_operation {db db' : Db} {record : StoredSession}
    {operation : LocalSessionOperation}
    (hdb : saveControlled platform record operation db = .ok db') :
    db'.operation operation.id = some operation := by
  cases hdb
  rw [operation_putOperation, if_pos rfl]

/-! ### What a call does -/

/-- A call that settles does not wait with a state it may not settle to. -/
def Kont.settles : Kont → Prop
  | .operation (.settleOperation _ state _) => state ≠ .queued ∧ state ≠ .accepted
  | _ => True

/-- The calls that wait are those from before, and perhaps the newest. -/
def Stacked (before after : List Frame) : Prop :=
  after = before ∨ ∃ batch kont, after = .publish batch kont :: before ∧ kont.settles

/-- What a piece of a call comes to, seen from the tables and the waiting calls it
    began with. -/
structure Advanced (db : Db) (stack : List Frame) (s' : State) : Prop where
  advances : db.Advances s'.db
  stacked : Stacked stack s'.stack
  crosses : ∀ id ∈ (s'.result.map Outcome.released).getD [],
    db.phase id < 1 ∧ 1 ≤ s'.db.phase id
  single : ((s'.result.map Outcome.released).getD []).Nodup

variable {platform} {db : Db} {stack : List Frame} {s s' : State} {choice : Choice}

/-- A call that releases nothing. -/
theorem Advanced.quiet (h : db.Advances s'.db) (hstacked : Stacked stack s'.stack)
    (hresult : (s'.result.map Outcome.released).getD [] = []) : Advanced db stack s' where
  advances := h
  stacked := hstacked
  crosses := by simp [hresult]
  single := by simp [hresult]

/-- A call that releases the operation it stores as accepted. -/
theorem Advanced.releasing {operation : LocalSessionOperation} (h : db.Advances s'.db)
    (hstacked : Stacked stack s'.stack)
    (hresult : (s'.result.map Outcome.released).getD [] = [operation.id])
    (hbefore : db.phase operation.id = 0) (hstored : s'.db.operation operation.id = some operation)
    (haccepted : operation.state = .accepted) : Advanced db stack s' where
  advances := h
  stacked := hstacked
  crosses := by
    intro id hid
    rw [hresult, List.mem_singleton] at hid
    rw [hid, hbefore, Db.phase_of hstored, haccepted]
    exact ⟨Nat.one_pos, Nat.le_refl _⟩
  single := by
    rw [hresult]
    exact List.nodup_singleton _

theorem Advanced.halted (h : s.db.Keyed) (hhalt : Halted s s') : Advanced s.db s.stack s' := by
  rcases hhalt with ⟨ha, error, hresult⟩
  refine Advanced.quiet ?_ (.inl ha.stack) (by rw [hresult]; rfl)
  rw [ha.db]
  exact Db.Advances.refl h

theorem Advanced.done (h : db.Advances s.db) : Advanced db s.stack (s.finished .done) :=
  Advanced.quiet h (.inl rfl) rfl

/-- One transaction that releases nothing. -/
theorem Advanced.transaction (h : s.db.Keyed) {body : Db → Except Text Db}
    (hbody : ∀ db, body s.db = .ok db → s.db.Advances db) :
    Advanced s.db s.stack (s.transaction choice body (State.finished · .done)) :=
  transaction_elim (fun _ hs' => Advanced.halted h hs')
    fun db hdb => Advanced.done (s := { s with db }) (hbody db hdb)

/-- A flush commits the buffer, which moves no operation and no epoch, or what
    comes after it goes on with the tables as they were. -/
theorem Advanced.flush (h : s.db.Keyed) {kont : Kont} (hkont : kont.settles)
    {rest : State → State}
    (hrest : ∀ s', s'.db = s.db → s'.stack = s.stack → Advanced s.db s.stack (rest s')) :
    Advanced s.db s.stack (flush platform choice s kont rest) := by
  refine flush_elim platform (fun s' hs' => Advanced.halted h hs') (fun _ => hrest _ rfl rfl)
    fun db hdb => Advanced.quiet ?_ (.inr ⟨_, kont, rfl, hkont⟩) rfl
  have hcommitted := commitBatch_ok platform h.sessions hdb
  refine Db.Advances.of_operations h hcommitted.operations ?_ ?_
  · intro sessionId record hrecord
    rcases hcommitted.stored sessionId record hrecord with ⟨prior, _, _, hprior, _, heq⟩
    rw [heq]
    exact h.sessions sessionId prior hprior
  · intro sessionId prior hprior
    rcases hcommitted.present sessionId prior hprior with ⟨record, hrecord⟩
    rcases hcommitted.stored sessionId record hrecord with ⟨prior', _, _, hprior', _, heq⟩
    rw [hprior, Option.some.injEq] at hprior'
    refine ⟨record, hrecord, Nat.le_of_eq ?_⟩
    rw [heq, hprior']

theorem Advanced.finishEnable (h : s.db.Keyed) (hostId grantId : Text)
    (session : JournalSession) (controlEpoch sequenceOffset : Nat) :
    Advanced s.db s.stack
      (finishEnable platform choice hostId grantId session controlEpoch sequenceOffset s) := by
  unfold Journal.finishEnable
  refine reading_elim (fun s' hs' => Advanced.halted h hs') ?_
  split
  · exact Advanced.halted h (throwing_halted s _)
  · split
    · exact Advanced.halted h (throwing_halted s _)
    · refine Advanced.transaction h fun db hdb => ?_
      cases hdb
      refine Db.Advances.putSession platform h fun prior hprior => ?_
      change s.db.stored session.id = some prior at hprior
      rw [hprior]
      exact Nat.le_max_left _ _

theorem Advanced.finishUpdate (h : s.db.Keyed) (session : JournalSession) :
    Advanced s.db s.stack (finishUpdate platform choice session s) := by
  unfold Journal.finishUpdate
  refine requiring_elim (fun s' hs' => Advanced.halted h hs') fun record hrecord => ?_
  split
  · exact Advanced.halted h (throwing_halted s _)
  · refine Advanced.transaction h fun db hdb => ?_
    cases hdb
    refine Db.Advances.putSession platform h fun prior hprior => ?_
    change s.db.stored session.id = some prior at hprior
    rw [hrecord, Option.some.injEq] at hprior
    exact Nat.le_of_eq (by rw [hprior])

/-- A record that was read, saved again at its epoch. -/
theorem saved_advances (h : s.db.Keyed) {sessionId : Text} {prior record : StoredSession}
    (hprior : s.db.stored sessionId = some prior) (hid : record.session.id = sessionId)
    (hepoch : record.controlEpoch = prior.controlEpoch) :
    s.db.Advances (s.db.putSession platform record) := by
  refine Db.Advances.putSession platform h fun prior' hprior' => ?_
  rw [hid, hprior, Option.some.injEq] at hprior'
  exact Nat.le_of_eq (by rw [hepoch, hprior'])

theorem Advanced.acknowledge (h : s.db.Keyed) (sessionId : Text) (throughSequence : Nat) :
    Advanced s.db s.stack (acknowledge platform choice sessionId throughSequence s) := by
  unfold Journal.acknowledge
  refine writing_elim (fun s' hs' => Advanced.halted h hs') ?_
  refine safely_elim (fun s' hs' => Advanced.halted h hs') ?_
  refine requiring_elim (fun s' hs' => Advanced.halted h hs') fun record hrecord => ?_
  split
  · exact Advanced.halted h (throwing_halted s _)
  · split
    · exact Advanced.done (Db.Advances.refl h)
    · refine Advanced.transaction h fun db hdb => ?_
      cases hdb
      exact saved_advances h hrecord (h.sessions sessionId record hrecord) rfl

theorem Advanced.acknowledgeControl (h : s.db.Keyed) (sessionId : Text) (throughEpoch : Nat) :
    Advanced s.db s.stack (acknowledgeControl platform choice sessionId throughEpoch s) := by
  unfold Journal.acknowledgeControl
  refine writing_elim (fun s' hs' => Advanced.halted h hs') ?_
  refine safely_elim (fun s' hs' => Advanced.halted h hs') ?_
  refine requiring_elim (fun s' hs' => Advanced.halted h hs') fun record hrecord => ?_
  split
  · exact Advanced.halted h (throwing_halted s _)
  · split
    · exact Advanced.done (Db.Advances.refl h)
    · refine Advanced.transaction h fun db hdb => ?_
      cases hdb
      exact saved_advances h hrecord (h.sessions sessionId record hrecord) rfl

/-- What `acknowledgeBatch` has collected is at the epochs of the sessions. -/
def AtEpoch (db : Db) (changed : Table Text StoredSession) : Prop :=
  ∀ sessionId record, changed.get sessionId = some record →
    record.session.id = sessionId ∧
      ∃ prior, db.stored sessionId = some prior ∧ record.controlEpoch = prior.controlEpoch

theorem acknowledgeOne_atEpoch (hdb : db.Keyed) {changed changed' : Table Text StoredSession}
    {acknowledgement : Acknowledgement} (hcollected : AtEpoch db changed)
    (h : acknowledgeOne db changed acknowledgement = .ok changed') : AtEpoch db changed' := by
  unfold acknowledgeOne at h
  split at h
  · cases h
  · split at h
    · cases h
    · rename_i record hrecord
      have hat : record.session.id = acknowledgement.sessionId ∧
          ∃ prior, db.stored acknowledgement.sessionId = some prior ∧
            record.controlEpoch = prior.controlEpoch := by
        rcases Option.or_eq_some_iff.mp hrecord with hmem | ⟨_, hmem⟩
        · exact hcollected _ _ hmem
        · exact ⟨hdb.sessions _ record hmem, record, hmem, rfl⟩
      split at h
      · cases h
      · split at h
        · cases h
          exact hcollected
        · cases h
          intro sessionId record' hrecord'
          rw [Table.get_set] at hrecord'
          split at hrecord'
          · rename_i hid
            cases hrecord'
            rw [hid]
            exact hat
          · exact hcollected sessionId record' hrecord'

theorem acknowledgeAll_atEpoch (hdb : db.Keyed) {changed changed' : Table Text StoredSession}
    {acknowledgements : List Acknowledgement} (hcollected : AtEpoch db changed)
    (h : acknowledgeAll db changed acknowledgements = .ok changed') : AtEpoch db changed' := by
  induction acknowledgements generalizing changed with
  | nil =>
      cases h
      exact hcollected
  | cons acknowledgement rest ih =>
      unfold acknowledgeAll at h
      split at h
      · cases h
      · rename_i changed₁ hone
        exact ih (acknowledgeOne_atEpoch hdb hcollected hone) h

theorem Advanced.acknowledgeBatch (h : s.db.Keyed) (acknowledgements : List Acknowledgement) :
    Advanced s.db s.stack (acknowledgeBatch platform choice acknowledgements s) := by
  unfold Journal.acknowledgeBatch
  refine writing_elim (fun s' hs' => Advanced.halted h hs') ?_
  refine reading_elim (fun s' hs' => Advanced.halted h hs') ?_
  split
  · exact Advanced.halted h (throwing_halted s _)
  · rename_i changed hall
    have hcollected : AtEpoch s.db changed := by
      refine acknowledgeAll_atEpoch h ?_ hall
      intro sessionId record hrecord
      cases hrecord
    split
    · exact Advanced.done (Db.Advances.refl h)
    · refine Advanced.transaction h fun db hdb => ?_
      cases hdb
      have hstored := stored_saves_table platform changed s.db
        fun sessionId record hrecord => (hcollected sessionId record hrecord).1
      refine Db.Advances.of_operations h (saves_others platform _ _).2.2 ?_ ?_
      · intro sessionId record hrecord
        rw [hstored] at hrecord
        rcases Option.or_eq_some_iff.mp hrecord with hmem | ⟨_, hmem⟩
        · exact (hcollected sessionId record hmem).1
        · exact h.sessions sessionId record hmem
      · intro sessionId prior hprior
        rw [hstored, hprior]
        cases hget : changed.get sessionId with
        | none => exact ⟨prior, rfl, Nat.le_refl _⟩
        | some record =>
            rcases (hcollected sessionId record hget).2 with ⟨prior', hprior', hepoch⟩
            rw [hprior, Option.some.injEq] at hprior'
            exact ⟨record, rfl, Nat.le_of_eq (by rw [hepoch, hprior'])⟩

theorem Advanced.finishAccept (h : s.db.Keyed) (id sessionId : Text) (action : OperationAction)
    (payload : Text) (queued : Bool) (origin : OperationOrigin) :
    Advanced s.db s.stack
      (finishAccept platform choice id sessionId action payload queued origin s) := by
  unfold Journal.finishAccept
  refine requiring_elim (fun s' hs' => Advanced.halted h hs') fun record hrecord => ?_
  simp only []
  split
  · split
    · exact Advanced.halted h (throwing_halted s _)
    · exact Advanced.quiet (Db.Advances.refl h) (.inl rfl) rfl
  · rename_i hnone
    refine safely_elim (fun s' hs' => Advanced.halted h hs') ?_
    refine transaction_elim (fun s' hs' => Advanced.halted h hs') fun db hdb => ?_
    set operation := acceptedOperation choice record id
      { sessionId, action, payload := platform.canonical payload } payload queued origin
      (if origin = .host then record.controlEpoch else record.controlEpoch + 1) with hoperation
    have hadvances : s.db.Advances db := by
      refine saveControlled_advances platform h hrecord ?_ ?_ ?_ ?_ hdb
      · simp only [hoperation, acceptedOperation]
        split
        · exact Nat.le_refl _
        · exact Nat.le_succ _
      · intro prior hprior
        rw [show operation.id = id from rfl, hnone] at hprior
        cases hprior
      · intro hlocal
        rw [show operation.origin = origin from rfl] at hlocal
        simp [hoperation, acceptedOperation, hlocal]
      · intro prior hprior
        rw [show operation.id = id from rfl, hnone] at hprior
        cases hprior
    cases queued with
    | true => exact Advanced.quiet hadvances (.inl rfl) rfl
    | false =>
        refine Advanced.releasing hadvances (.inl rfl) rfl ?_
          (saveControlled_operation platform hdb) rfl
        unfold Db.phase
        rw [show operation.id = id from rfl, hnone]
        rfl

theorem Advanced.finishBegin (h : s.db.Keyed) (id : Text) :
    Advanced s.db s.stack (finishBegin platform choice id s) := by
  unfold Journal.finishBegin
  refine reading_elim (fun s' hs' => Advanced.halted h hs') ?_
  split
  · exact Advanced.halted h (throwing_halted s _)
  · rename_i operation hfound
    split
    · exact Advanced.halted h (throwing_halted s _)
    · rename_i hqueued
      rw [not_or, not_not, not_not] at hqueued
      refine requiring_elim (fun s' hs' => Advanced.halted h hs') fun record hrecord => ?_
      refine safely_elim (fun s' hs' => Advanced.halted h hs') ?_
      refine transaction_elim (fun s' hs' => Advanced.halted h hs') fun db hdb => ?_
      have hid := h.operations id operation hfound
      have hprior : ∀ prior, s.db.operation (begunOperation record operation).id = some prior →
          prior = operation := by
        intro prior hprior
        rw [show (begunOperation record operation).id = id from hid, hfound] at hprior
        exact (Option.some.inj hprior).symm
      have hadvances : s.db.Advances db := by
        refine @saveControlled_advances platform _ _ h _ (begunOperation record operation) hrecord
          (Nat.le_succ _) ?_ (fun _ => Nat.lt_succ_self _) (fun _ _ => Nat.lt_succ_self _) hdb
        intro prior hprior'
        rw [hprior prior hprior', hqueued.1]
        exact ⟨Nat.zero_le _, rfl⟩
      refine Advanced.releasing hadvances (.inl rfl) rfl ?_
        (saveControlled_operation platform hdb) rfl
      rw [show (begunOperation record operation).id = id from hid, Db.phase_of hfound, hqueued.1]
      rfl

/-- An operation in a later state, taken from nowhere. -/
theorem rewritten_advances (h : s.db.Keyed) {id : Text} {operation next : LocalSessionOperation}
    (hfound : s.db.operation id = some operation) (hid : next.id = operation.id)
    (hphase : operation.state.phase ≤ next.state.phase)
    (hcompleted : operation.state.completed = false)
    (hstate : next.state = .accepted → operation.state ≠ .queued) :
    s.db.Advances (s.db.putOperation platform next) := by
  have hkey := h.operations id operation hfound
  refine (Db.Advances.refl h).putOperation platform h rfl next ?_ ?_
  · intro prior hprior
    rw [hid, hkey, hfound, Option.some.injEq] at hprior
    rw [← hprior]
    exact ⟨hphase, hcompleted⟩
  · rintro ⟨_, ⟨hnone, _⟩ | ⟨prior, hprior, hqueued, haccepted⟩⟩
    · rw [hid, hkey, hfound] at hnone
      cases hnone
    · rw [hid, hkey, hfound, Option.some.injEq] at hprior
      rw [← hprior] at hqueued
      exact absurd hqueued (hstate haccepted)

theorem Advanced.prioritizeOperation (h : s.db.Keyed) (id : Text) :
    Advanced s.db s.stack (prioritizeOperation platform choice id s) := by
  unfold Journal.prioritizeOperation
  refine writing_elim (fun s' hs' => Advanced.halted h hs') ?_
  refine reading_elim (fun s' hs' => Advanced.halted h hs') ?_
  split
  · exact Advanced.halted h (throwing_halted s _)
  · rename_i operation hfound
    split
    · exact Advanced.halted h (throwing_halted s _)
    · rename_i hqueued
      rw [not_not] at hqueued
      split
      · exact Advanced.done (Db.Advances.refl h)
      · refine safely_elim (fun s' hs' => Advanced.halted h hs') ?_
        refine Advanced.transaction h fun db hdb => ?_
        cases hdb
        refine rewritten_advances h hfound rfl (Nat.le_refl _) ?_ ?_
        · rw [hqueued]
          rfl
        · intro haccepted
          exact absurd (hqueued.symm.trans haccepted) (by decide)

theorem Advanced.finishSettle (h : s.db.Keyed) (id : Text) {state : OperationState}
    (hstate : state ≠ .queued ∧ state ≠ .accepted) (error : Option Text) :
    Advanced s.db s.stack (finishSettle platform choice id state error s) := by
  unfold Journal.finishSettle
  refine reading_elim (fun s' hs' => Advanced.halted h hs') ?_
  split
  · exact Advanced.halted h (throwing_halted s _)
  · rename_i operation hfound
    split
    · exact Advanced.done (Db.Advances.refl h)
    · split
      · exact Advanced.halted h (throwing_halted s _)
      · rename_i hcompleted
        refine Advanced.transaction h fun db hdb => ?_
        cases hdb
        have hnot : operation.state.completed = false := by
          simpa [OperationState.completed] using hcompleted
        refine rewritten_advances h hfound rfl ?_ hnot (fun haccepted => absurd haccepted hstate.2)
        -- What is not completed is at most uncertain, and no call goes back from there.
        have hlow : operation.state.phase ≤ 2 := by
          cases hop : operation.state <;> simp_all [OperationState.completed, OperationState.phase]
        have hhigh : 2 ≤ state.phase := by
          cases hst : state <;> simp_all [OperationState.phase]
        exact Nat.le_trans hlow hhigh

theorem checkpoint_done (choice : Choice) (h : db.Advances s.db) :
    Advanced db s.stack (checkpoint choice s) := by
  unfold checkpoint
  cases choice.lateFault with
  | none => exact Advanced.done h
  | some error => exact Advanced.quiet h (.inl rfl) rfl

theorem Advanced.trimAcknowledged (h : s.db.Keyed) (sessionId : Text) (throughSequence : Nat) :
    Advanced s.db s.stack (trimAcknowledged platform choice sessionId throughSequence s) := by
  unfold Journal.trimAcknowledged
  refine writing_elim (fun s' hs' => Advanced.halted h hs') ?_
  refine safely_elim (fun s' hs' => Advanced.halted h hs') ?_
  refine requiring_elim (fun s' hs' => Advanced.halted h hs') fun record hrecord => ?_
  split
  · exact Advanced.halted h (throwing_halted s _)
  · refine transaction_elim (fun s' hs' => Advanced.halted h hs') fun db hdb => ?_
    refine checkpoint_done (s := { s with db }) choice ?_
    cases hdb
    -- Trimming touches events only, and the record is saved at its epoch.
    have htrim : s.db.Advances (s.db.trimEvents sessionId throughSequence) :=
      Db.Advances.of_operations h rfl h.sessions
        fun _ prior hprior => ⟨prior, hprior, Nat.le_refl _⟩
    split
    · exact htrim
    · refine Db.Advances.of_operations h rfl ?_ ?_
      · exact (Db.Advances.putSession platform htrim.keyed (by
          intro prior hprior
          change s.db.stored record.session.id = some prior at hprior
          rw [h.sessions sessionId record hrecord, hrecord, Option.some.injEq] at hprior
          exact Nat.le_of_eq (by rw [hprior]))).keyed.sessions
      · have hsaved : s.db.Advances (s.db.putSession platform
            { record with generation := choice.uuid, revision := 0 }) :=
          saved_advances h hrecord (h.sessions sessionId record hrecord) rfl
        exact hsaved.epoch

/-! ### Appending -/

theorem Advanced.enqueue (h : s.db.Keyed) (event : SessionEvent) (digest : EventIdentity) :
    Advanced s.db s.stack (enqueue platform choice event digest s) := by
  unfold Journal.enqueue
  refine writing_elim (fun s' hs' => Advanced.halted h hs') ?_
  refine reading_elim (fun s' hs' => Advanced.halted h hs') ?_
  split
  · exact Advanced.halted h (fail_halted s _)
  · simp only []
    split
    · refine Advanced.flush (s := s.buffer platform event digest) h (by trivial)
        fun s' hdb hstack => Advanced.quiet ?_ (.inl hstack) rfl
      change s.db.Advances s'.db
      rw [hdb]
      exact Db.Advances.refl h
    · exact Advanced.quiet (Db.Advances.refl h) (.inl rfl) rfl

theorem Advanced.renumber (h : s.db.Keyed) (event : SessionEvent) (digest : EventIdentity) :
    Advanced s.db s.stack (renumber platform choice event digest s) := by
  unfold Journal.renumber
  refine reading_elim (fun s' hs' => Advanced.halted h hs') ?_
  exact safely_elim (fun s' hs' => Advanced.halted h hs') (Advanced.enqueue h _ digest)

theorem Advanced.append (h : s.db.Keyed) (event : SessionEvent) :
    Advanced s.db s.stack (append platform choice event s) := by
  unfold Journal.append
  refine writing_elim (fun s' hs' => Advanced.halted h hs') ?_
  split
  · exact Advanced.halted h (throwing_halted s _)
  refine requiring_elim (fun s' hs' => Advanced.halted h hs') fun record _ => ?_
  split
  · split
    · exact Advanced.halted h (throwing_halted s _)
    · exact Advanced.quiet (Db.Advances.refl h) (.inl rfl) rfl
  · refine safely_elim (fun s' hs' => Advanced.halted h hs') ?_
    simp only []
    split
    · refine Advanced.flush h (by trivial) fun s' hdb hstack => ?_
      rw [← hdb] at h ⊢
      rw [← hstack]
      exact Advanced.renumber h _ _
    · exact Advanced.enqueue h _ _

/-! ### One input -/

theorem Advanced.shut (choice : Choice) (h : Advanced db stack s)
    (hresult : (s.result.map Outcome.released).getD [] = []) :
    Advanced db stack (shut choice s) := by
  unfold Journal.shut
  cases choice.lateFault with
  | none => exact Advanced.quiet h.advances h.stacked hresult
  | some error => exact Advanced.quiet h.advances h.stacked rfl

theorem Advanced.finish (h : s.db.Keyed) (operation : Operation)
    (hdeletes : operation.deletes = false) (hsettles : (Kont.operation operation).settles) :
    Advanced s.db s.stack (finish platform choice operation s) := by
  have hdone : Advanced s.db s.stack (s.finished .done) := Advanced.done (Db.Advances.refl h)
  cases operation with
  | enable hostId grantId session controlEpoch sequenceOffset =>
      exact Advanced.finishEnable h hostId grantId session controlEpoch sequenceOffset
  | updateSession session => exact Advanced.finishUpdate h session
  | acceptOperation id sessionId action payload queued origin =>
      exact Advanced.finishAccept h id sessionId action payload queued origin
  | beginOperation id => exact Advanced.finishBegin h id
  | settleOperation id state error => exact Advanced.finishSettle h id hsettles error
  | retire sessionId => cases hdeletes
  | purge hostId allowUnacknowledged => cases hdeletes
  | close => exact hdone.shut choice rfl
  | append event => exact hdone
  | flush => exact hdone
  | acknowledge sessionId throughSequence => exact hdone
  | acknowledgeControl sessionId throughEpoch => exact hdone
  | acknowledgeBatch acknowledgements => exact hdone
  | prioritizeOperation id => exact hdone
  | trimAcknowledged sessionId throughSequence => exact hdone

theorem Advanced.flushing (h : s.db.Keyed) (operation : Operation)
    (hdeletes : operation.deletes = false) (hsettles : (Kont.operation operation).settles) :
    Advanced s.db s.stack (flushing platform choice operation s) := by
  refine Advanced.flush h hsettles fun s' hdb hstack => ?_
  rw [← hdb] at h ⊢
  rw [← hstack]
  exact Advanced.finish h operation hdeletes hsettles

theorem Advanced.close (h : s.db.Keyed) : Advanced s.db s.stack (close platform choice s) := by
  unfold Journal.close
  split
  · exact Advanced.done (Db.Advances.refl h)
  have hflush : Advanced s.db s.stack
        (Journal.flush platform choice s (.operation .close) (State.finished · .done)) ∧
      ((Journal.flush platform choice s (.operation .close)
        (State.finished · .done)).result.map Outcome.released).getD [] = [] := by
    refine ⟨Advanced.flush h (by trivial) fun s' hdb hstack => ?_, ?_⟩
    · rw [← hdb] at h ⊢
      rw [← hstack]
      exact Advanced.done (Db.Advances.refl h)
    · refine flush_elim platform
        (P := fun s' => (s'.result.map Outcome.released).getD [] = []) ?_ (fun _ => rfl)
        (fun _ _ => rfl)
      rintro s' ⟨_, error, hresult⟩
      rw [hresult]
      rfl
  simp only []
  split
  · exact hflush.1
  · exact hflush.1.shut choice hflush.2

/-- Every call that deletes nothing advances the journal, up to its first flush. -/
theorem Advanced.call (h : s.db.Keyed) (operation : Operation)
    (hdeletes : operation.deletes = false) :
    Advanced s.db s.stack (call platform choice operation s) := by
  cases operation with
  | append event => exact Advanced.append h event
  | acknowledge sessionId throughSequence => exact Advanced.acknowledge h sessionId throughSequence
  | acknowledgeControl sessionId throughEpoch =>
      exact Advanced.acknowledgeControl h sessionId throughEpoch
  | acknowledgeBatch acknowledgements => exact Advanced.acknowledgeBatch h acknowledgements
  | prioritizeOperation id => exact Advanced.prioritizeOperation h id
  | trimAcknowledged sessionId throughSequence =>
      exact Advanced.trimAcknowledged h sessionId throughSequence
  | close => exact Advanced.close h
  -- What writes flushes first, and the operation itself waits on the stack.
  | enable hostId grantId session controlEpoch sequenceOffset =>
      unfold Journal.call
      refine writing_elim (fun s' hs' => Advanced.halted h hs') ?_
      split
      · exact Advanced.halted h (throwing_halted s _)
      · split
        · exact Advanced.halted h (throwing_halted s _)
        · refine safely_elim (fun s' hs' => Advanced.halted h hs') ?_
          refine safely_elim (fun s' hs' => Advanced.halted h hs') ?_
          exact Advanced.flushing h _ rfl trivial
  | updateSession session =>
      unfold Journal.call
      refine writing_elim (fun s' hs' => Advanced.halted h hs') ?_
      split
      · exact Advanced.halted h (throwing_halted s _)
      · exact Advanced.flushing h _ rfl trivial
  | acceptOperation id sessionId action payload queued origin =>
      unfold Journal.call
      refine writing_elim (fun s' hs' => Advanced.halted h hs') ?_
      split
      · exact Advanced.halted h (throwing_halted s _)
      · exact Advanced.flushing h _ rfl trivial
  | settleOperation id state error =>
      unfold Journal.call
      refine writing_elim (fun s' hs' => Advanced.halted h hs') ?_
      split
      · exact Advanced.halted h (throwing_halted s _)
      · rename_i hstate
        exact Advanced.flushing h _ rfl (not_or.mp hstate)
  | flush => exact Advanced.flushing h _ rfl trivial
  | beginOperation id => exact Advanced.flushing h _ rfl trivial
  | retire sessionId => cases hdeletes
  | purge hostId allowUnacknowledged => cases hdeletes

theorem Advanced.resume (h : s.db.Keyed) (kont : Kont) (hdeletes : kont.deletes = false)
    (hsettles : kont.settles) : Advanced s.db s.stack (resume platform choice kont s) := by
  cases kont with
  | appendMid event digest => exact Advanced.renumber h event digest
  | appended event => exact Advanced.quiet (Db.Advances.refl h) (.inl rfl) rfl
  | operation operation => exact Advanced.finish h operation hdeletes hsettles
  | timer => exact Advanced.done (Db.Advances.refl h)

theorem Advanced.unwind (h : s.db.Keyed) (error : Text) (kont : Kont) :
    Advanced s.db s.stack (unwind choice kont (s.fail error)) := by
  have hfail := Advanced.halted h (fail_halted s error)
  cases kont with
  | operation operation =>
      cases operation with
      | close => exact hfail.shut choice rfl
      | _ => exact hfail
  | _ => exact hfail

/-! ### Reopening -/

/-- An operation as reopening leaves it. -/
def recovered (operation : LocalSessionOperation) : LocalSessionOperation :=
  if operation.state = .accepted then
    { operation with state := .uncertain, error := some reopenError }
  else operation

theorem mem_operations (db : Db) {id : Text} {operation : LocalSessionOperation}
    (h : db.operation id = some operation) :
    operation ∈ db.operations.values.map OperationRow.operation := by
  unfold Db.operation at h
  rw [Option.map_eq_some_iff] at h
  rcases h with ⟨row, hrow, rfl⟩
  exact List.mem_map_of_mem ((db.operations.mem_values_iff row).mpr ⟨id, hrow⟩)

theorem operation_of_mem {operation : LocalSessionOperation} (h : db.Keyed)
    (hmem : operation ∈ db.operations.values.map OperationRow.operation) :
    db.operation operation.id = some operation := by
  rcases List.mem_map.mp hmem with ⟨row, hrow, rfl⟩
  rcases (db.operations.mem_values_iff row).mp hrow with ⟨id, hid⟩
  have hfound : db.operation id = some row.operation := by
    unfold Db.operation
    rw [hid]
    rfl
  rw [h.operations id _ hfound]
  exact hfound

/-- Reopening leaves sessions alone, and what was accepted uncertain. -/
theorem recoverOperations_operation (h : db.Keyed) {db' : Db}
    (hdb : recoverOperations platform db = .ok db') :
    db'.sessions = db.sessions ∧ ∀ id, db'.operation id = (db.operation id).map recovered := by
  cases hdb
  set accepted := (db.operations.values.map OperationRow.operation).filter fun operation =>
    operation.state = .accepted with haccepted
  -- Of the operations still to visit only the accepted ones are not recovered yet.
  have hvisits := Run.foldl_visits
    (f := fun (db : Db) (operation : LocalSessionOperation) => db.putOperation platform
      { operation with state := .uncertain, error := some reopenError })
    (fun rest t => t.sessions = db.sessions ∧
      (∀ operation ∈ rest, operation ∈ accepted) ∧
      ∀ id, t.operation id = (db.operation id).map recovered ∨
        ∃ operation ∈ rest, operation.id = id ∧ t.operation id = some operation)
    (by
      rintro operation rest t ⟨hsessions, hmem, hvisited⟩
      refine ⟨hsessions, fun o ho => hmem o (List.mem_cons_of_mem _ ho), fun id => ?_⟩
      rw [operation_putOperation]
      by_cases hid : id = operation.id
      · left
        have hin := hmem operation List.mem_cons_self
        rw [haccepted, List.mem_filter] at hin
        rw [hid, operation_of_mem h hin.1, Option.map_some]
        simp only [decide_eq_true_eq] at hin
        rw [if_pos rfl, recovered, if_pos hin.2]
      · rw [if_neg hid]
        rcases hvisited id with hdone | ⟨o, ho, hoid, hstored⟩
        · exact .inl hdone
        · rcases List.mem_cons.mp ho with rfl | ho
          · exact absurd hoid.symm hid
          · exact .inr ⟨o, ho, hoid, hstored⟩)
    accepted db ⟨rfl, fun _ ho => ho, fun id => by
      cases hop : db.operation id with
      | none => exact .inl rfl
      | some operation =>
          by_cases hstate : operation.state = .accepted
          · refine .inr ⟨operation, ?_, h.operations id operation hop, rfl⟩
            rw [haccepted, List.mem_filter]
            exact ⟨mem_operations db hop, by simpa using hstate⟩
          · left
            rw [Option.map_some, recovered, if_neg hstate]⟩
  refine ⟨hvisits.1, fun id => ?_⟩
  rcases hvisits.2.2 id with hdone | ⟨o, ho, _⟩
  · exact hdone
  · cases ho

/-- Recovery makes what had begun unknown, which goes back on nothing. -/
theorem recovered_advances (h : db.Keyed) {db' : Db}
    (hdb : recoverOperations platform db = .ok db') : db.Advances db' := by
  rcases recoverOperations_operation h hdb with ⟨hsessions, hoperation⟩
  have hstored : ∀ sessionId, db'.stored sessionId = db.stored sessionId := by
    intro sessionId
    unfold Db.stored
    rw [hsessions]
  refine
    { keyed := ⟨?_, ?_⟩
      phase := ?_
      completed := ?_
      epoch := fun sessionId record hrecord => ⟨record, by rw [hstored, hrecord], Nat.le_refl _⟩
      takes := ?_ }
  · intro sessionId record hrecord
    rw [hstored] at hrecord
    exact h.sessions sessionId record hrecord
  · intro id operation hfound
    rw [hoperation, Option.map_eq_some_iff] at hfound
    rcases hfound with ⟨prior, hprior, rfl⟩
    unfold recovered
    split
    · exact h.operations id prior hprior
    · exact h.operations id prior hprior
  · intro id
    unfold Db.phase
    rw [hoperation]
    cases db.operation id with
    | none => exact Nat.le_refl _
    | some prior =>
        simp only [Option.map_some, Option.elim_some, recovered]
        split
        · rename_i hstate
          -- What had begun is past that for good.
          rw [hstate]
          exact Nat.le_succ 1
        · exact Nat.le_refl _
  · intro id operation hfound hcompleted
    rw [hoperation, hfound, Option.map_some, recovered, if_neg]
    intro hstate
    rw [hstate] at hcompleted
    cases hcompleted
  · rintro operation ⟨hnew, hcases⟩
    rw [hoperation, Option.map_eq_some_iff] at hnew
    rcases hnew with ⟨prior, hprior, hrecovered⟩
    -- Recovery accepts nothing: no row is new, and what waits in the queue stays there.
    rcases hcases with ⟨hnone, _⟩ | ⟨prior', hprior', hqueued, haccepted⟩
    · rw [hnone] at hprior
      cases hprior
    · rw [hprior, Option.some.injEq] at hprior'
      rw [hprior', recovered, if_neg (by rw [hqueued]; decide)] at hrecovered
      rw [← hrecovered, hqueued] at haccepted
      cases haccepted

/-- Reopening leaves no call waiting; it is refused, or recovers every operation. -/
theorem reopen_cases (s : State) (options : Options) (choice : Choice) :
    (reopen platform options choice s).stack = [] ∧
      ((reopen platform options choice s).result.map Outcome.released).getD [] = [] ∧
      ((reopen platform options choice s).db = s.db ∧
          (reopen platform options choice s).closed = true ∨
        recoverOperations platform s.db = .ok (reopen platform options choice s).db) := by
  unfold reopen
  simp only []
  split
  · exact ⟨rfl, rfl, .inl ⟨rfl, rfl⟩⟩
  · split
    · exact ⟨rfl, rfl, .inl ⟨rfl, rfl⟩⟩
    · rename_i db hcommitted
      refine ⟨rfl, rfl, .inr ?_⟩
      unfold committed at hcommitted
      split at hcommitted
      · cases hcommitted
      · split at hcommitted
        · cases hcommitted
        · rename_i db' hbody
          split at hcommitted
          · cases hcommitted
          · cases hcommitted
            exact hbody

/-! ### Runs -/

/-- What holds in every reachable state. -/
structure Kept (s : State) : Prop where
  keyed : s.db.Keyed
  settles : ∀ frame ∈ s.stack, frame.kont.settles

/-- What an input does, as long as no retirement and no purge goes on. -/
structure Inputs (platform : Platform) (s : State) (input : Input) : Prop where
  advances : s.db.Advances (step platform s input).db
  settles : ∀ frame ∈ (step platform s input).stack, frame.kont.settles
  crosses : ∀ id ∈ releases platform s input,
    s.db.phase id < 1 ∧ 1 ≤ (step platform s input).db.phase id
  single : (releases platform s input).Nodup

theorem Stacked.settles {before after : List Frame} (h : Stacked before after)
    (hbefore : ∀ frame ∈ before, frame.kont.settles) : ∀ frame ∈ after, frame.kont.settles := by
  rcases h with rfl | ⟨batch, kont, rfl, hkont⟩
  · exact hbefore
  · intro frame hframe
    rcases List.mem_cons.mp hframe with rfl | hframe
    · exact hkont
    · exact hbefore frame hframe

/-- An input that does nothing. -/
theorem Inputs.nothing (h : Kept s) {input : Input} (hstep : step platform s input = s)
    (happlies : input.applies s = false) : Inputs platform s input := by
  have hreleases : releases platform s input = [] := by
    unfold releases
    rw [happlies]
    rfl
  refine ⟨?_, ?_, by simp [hreleases], by simp [hreleases]⟩
  · rw [hstep]
    exact Db.Advances.refl h.keyed
  · rw [hstep]
    exact h.settles

/-- An input that takes a call further. -/
theorem Inputs.of_advanced {input : Input} (hbefore : ∀ frame ∈ stack, frame.kont.settles)
    (happlies : input.applies s = true)
    (h : Advanced s.db stack (step platform s input)) : Inputs platform s input := by
  have hreleases : releases platform s input =
      ((step platform s input).result.map Outcome.released).getD [] := by
    unfold releases
    rw [happlies]
    rfl
  refine ⟨h.advances, h.stacked.settles hbefore, ?_, ?_⟩
  · rw [hreleases]
    exact h.crosses
  · rw [hreleases]
    exact h.single

/-- Every input advances the journal, as long as no retirement and no purge goes on. -/
theorem Advanced.input (h : Kept s) (input : Input) (hlasting : Lasting s input) :
    Inputs platform s input := by
  cases input with
  | call operation choice =>
      by_cases hcallable : s.callable
      · refine Inputs.of_advanced h.settles hcallable ?_
        simp only [step, hcallable, if_true]
        exact Advanced.call h.keyed operation hlasting
      · exact Inputs.nothing h (if_neg hcallable) (Bool.eq_false_iff.mpr hcallable)
  | publish =>
      -- Before the observer returns, nothing is given out.
      have hreleases : releases platform s .publish = [] := rfl
      refine ⟨?_, ?_, by simp [hreleases], by simp [hreleases]⟩
      · simp only [step]
        split
        · exact Db.Advances.refl h.keyed
        · exact Db.Advances.refl h.keyed
      · simp only [step]
        split
        · rename_i batch kont rest hstack
          intro frame hframe
          rcases List.mem_cons.mp hframe with rfl | hframe
          · exact h.settles (.publish batch kont) (by rw [hstack]; exact List.mem_cons_self)
          · exact h.settles frame (by rw [hstack]; exact List.mem_cons_of_mem _ hframe)
        · exact h.settles
  | observerReturns choice =>
      cases hstack : s.stack with
      | nil =>
          exact Inputs.nothing h (by simp [step, hstack]) (by simp [Input.applies, hstack])
      | cons frame rest =>
          cases frame with
          | publish batch kont =>
              exact Inputs.nothing h (by simp [step, hstack]) (by simp [Input.applies, hstack])
          | observing kont =>
              -- The call that waited goes on, on the stack below it.
              have hrest : ∀ frame ∈ rest, frame.kont.settles := fun frame hframe =>
                h.settles frame (by rw [hstack]; exact List.mem_cons_of_mem _ hframe)
              refine Inputs.of_advanced hrest (by simp [Input.applies, hstack]) ?_
              simp only [step, hstack]
              simp only [Lasting, hstack] at hlasting
              exact Advanced.resume (s := { s with stack := rest }) h.keyed kont hlasting
                (h.settles (.observing kont) (by rw [hstack]; exact List.mem_cons_self))
  | observerThrows error choice =>
      cases hstack : s.stack with
      | nil =>
          exact Inputs.nothing h (by simp [step, hstack]) (by simp [Input.applies, hstack])
      | cons frame rest =>
          cases frame with
          | publish batch kont =>
              exact Inputs.nothing h (by simp [step, hstack]) (by simp [Input.applies, hstack])
          | observing kont =>
              have hrest : ∀ frame ∈ rest, frame.kont.settles := fun frame hframe =>
                h.settles frame (by rw [hstack]; exact List.mem_cons_of_mem _ hframe)
              refine Inputs.of_advanced hrest (by simp [Input.applies, hstack]) ?_
              simp only [step, hstack]
              exact Advanced.unwind (s := { s with stack := rest }) h.keyed error kont
  | timerFires choice =>
      by_cases hfires : s.stack = [] ∧ s.timer
      · refine Inputs.of_advanced h.settles (by simp [Input.applies, hfires.1, hfires.2]) ?_
        rw [show step platform s (.timerFires choice) =
          Journal.flush platform choice s .timer (State.finished · .done) from if_pos hfires]
        have hkont : Kont.timer.settles := trivial
        refine Advanced.flush h.keyed hkont fun s' hdb hstack => ?_
        rw [← hdb, ← hstack]
        exact Advanced.done (Db.Advances.refl (by rw [hdb]; exact h.keyed))
      · exact Inputs.nothing h (if_neg hfires) (by simpa [Input.applies] using hfires)
  | reopen options choice =>
      -- The calls are gone with the instance, and only the database is left.
      have hreopen := @reopen_cases platform s options choice
      have hadvances : s.db.Advances (reopen platform options choice s).db := by
        rcases hreopen.2.2 with ⟨hsame, _⟩ | hrecover
        · rw [hsame]
          exact Db.Advances.refl h.keyed
        · exact recovered_advances h.keyed hrecover
      have hquiet : Advanced s.db [] (reopen platform options choice s) :=
        Advanced.quiet hadvances (.inl hreopen.1) hreopen.2.1
      exact Inputs.of_advanced (by simp) rfl hquiet

/-! Retiring and purging take rows away, and leave the others under their ids. -/

theorem Db.Keyed.deleteSession (h : db.Keyed) (sessionId : Text) :
    (db.deleteSession sessionId).Keyed where
  sessions := by
    intro other record hrecord
    unfold Db.deleteSession Db.stored at hrecord
    rw [Table.get_erase] at hrecord
    split at hrecord
    · cases hrecord
    · exact h.sessions other record hrecord
  operations := by
    intro id operation hoperation
    unfold Db.deleteSession Db.operation at hoperation
    rw [Table.get_keep, Option.map_eq_some_iff] at hoperation
    rcases hoperation with ⟨row, hrow, rfl⟩
    refine h.operations id row.operation ?_
    unfold Db.operation
    rw [(Option.filter_eq_some_iff.mp hrow).1]
    rfl

theorem Db.Keyed.purgeHost (h : db.Keyed) (hostId : Text) : (db.purgeHost hostId).Keyed := by
  have hdeleted := Run.foldl_visits (f := Db.deleteSession) (fun _ t => t.Keyed)
    (fun sessionId _ t ht => ht.deleteSession sessionId)
    ((db.sessions.entries.filter fun entry => entry.2.record.hostId = hostId).map Prod.fst) db h
  exact ⟨hdeleted.sessions, hdeleted.operations⟩

/-- Tables that keep rows under their ids, and calls that wait as before. -/
def Tidied (stack : List Frame) (s' : State) : Prop := s'.db.Keyed ∧ Stacked stack s'.stack

theorem Advanced.tidied (h : Advanced db stack s') : Tidied stack s' :=
  ⟨h.advances.keyed, h.stacked⟩

theorem Tidied.halted (h : s.db.Keyed) (hhalt : Halted s s') : Tidied s.stack s' :=
  (Advanced.halted h hhalt).tidied

theorem Tidied.checkpoint (h : s.db.Keyed) : Tidied s.stack (checkpoint choice s) :=
  (checkpoint_done choice (Db.Advances.refl h)).tidied

theorem Tidied.finishRetire (h : s.db.Keyed) (sessionId : Text) :
    Tidied s.stack (finishRetire choice sessionId s) := by
  unfold Journal.finishRetire
  refine reading_elim (fun s' hs' => Tidied.halted h hs') ?_
  split
  · exact (Advanced.done (Db.Advances.refl h)).tidied
  · split
    · exact Tidied.halted h (throwing_halted s _)
    · refine transaction_elim (fun s' hs' => Tidied.halted h hs') fun db hdb => ?_
      refine Tidied.checkpoint (s := { s with db }) ?_
      unfold retirement Db.insertRetired at hdb
      split at hdb
      · cases hdb
      · rename_i hok
        split at hok
        · cases hok
        · cases hok
          cases hdb
          have hkept := h.deleteSession sessionId
          exact ⟨hkept.sessions, hkept.operations⟩

theorem Tidied.finishPurge (h : s.db.Keyed) (hostId : Text) (allowUnacknowledged : Bool) :
    Tidied s.stack (finishPurge choice hostId allowUnacknowledged s) := by
  unfold Journal.finishPurge
  refine reading_elim (fun s' hs' => Tidied.halted h hs') ?_
  split
  · exact Tidied.halted h (throwing_halted s _)
  · refine transaction_elim (fun s' hs' => Tidied.halted h hs') fun db hdb => ?_
    cases hdb
    exact Tidied.checkpoint (s := { s with db := s.db.purgeHost hostId }) (h.purgeHost hostId)

theorem Tidied.finish (h : s.db.Keyed) (operation : Operation)
    (hsettles : (Kont.operation operation).settles) :
    Tidied s.stack (finish platform choice operation s) := by
  cases hdeletes : operation.deletes with
  | false => exact (Advanced.finish h operation hdeletes hsettles).tidied
  | true =>
      cases operation with
      | retire sessionId => exact Tidied.finishRetire h sessionId
      | purge hostId allowUnacknowledged => exact Tidied.finishPurge h hostId allowUnacknowledged
      | _ => cases hdeletes

theorem Tidied.call (h : s.db.Keyed) (operation : Operation) :
    Tidied s.stack (call platform choice operation s) := by
  cases hdeletes : operation.deletes with
  | false => exact (Advanced.call h operation hdeletes).tidied
  | true =>
      have hflushing : (Kont.operation operation).settles →
          Tidied s.stack (flushing platform choice operation s) := by
        intro hsettles
        refine flush_elim platform (fun s' hs' => Tidied.halted h hs')
          (fun _ => Tidied.finish (s := { s with timer := false }) h operation hsettles) ?_
        intro db hdb
        refine ⟨?_, .inr ⟨_, _, rfl, hsettles⟩⟩
        have hcommitted := commitBatch_ok platform h.sessions hdb
        refine ⟨fun sessionId record hrecord => ?_, fun id operation' hoperation => ?_⟩
        · rcases hcommitted.stored sessionId record hrecord with ⟨prior, _, _, hprior, _, heq⟩
          rw [heq]
          exact h.sessions sessionId prior hprior
        · refine h.operations id operation' ?_
          unfold Db.operation
          rw [← hcommitted.operations]
          exact hoperation
      cases operation with
      | retire sessionId => exact hflushing trivial
      | purge hostId allowUnacknowledged => exact hflushing trivial
      | _ => cases hdeletes

/-- What holds in every reachable state is kept by every input, retirements and
    purges as well. -/
theorem Kept.step (h : Kept s) (input : Input) : Kept (Journal.step platform s input) := by
  by_cases hlasting : Lasting s input
  · have hinputs : Inputs platform s input := Advanced.input h input hlasting
    exact ⟨hinputs.advances.keyed, hinputs.settles⟩
  · cases input with
    | call operation choice =>
        by_cases hcallable : s.callable
        · have htidied : Tidied s.stack (Journal.call platform choice operation s) :=
            Tidied.call h.keyed operation
          simp only [Journal.step, hcallable, if_true]
          exact ⟨htidied.1, htidied.2.settles h.settles⟩
        · simp only [Journal.step, hcallable]
          exact h
    | observerReturns choice =>
        cases hstack : s.stack with
        | nil => exact absurd (by simp [Lasting, hstack]) hlasting
        | cons frame rest =>
            cases frame with
            | publish batch kont => exact absurd (by simp [Lasting, hstack]) hlasting
            | observing kont =>
                have hrest : ∀ frame ∈ rest, frame.kont.settles := fun frame hframe =>
                  h.settles frame (by rw [hstack]; exact List.mem_cons_of_mem _ hframe)
                have hkont : kont.settles :=
                  h.settles (.observing kont) (by rw [hstack]; exact List.mem_cons_self)
                cases kont with
                | operation operation =>
                    have htidied : Tidied rest
                        (Journal.finish platform choice operation { s with stack := rest }) :=
                      @Tidied.finish platform { s with stack := rest } choice h.keyed operation hkont
                    simp only [Journal.step, hstack]
                    exact ⟨htidied.1, htidied.2.settles hrest⟩
                | _ => exact absurd (by simp [Lasting, hstack, Kont.deletes]) hlasting
    | _ => exact absurd rfl hlasting

theorem kept_initial : Kept State.initial where
  keyed := by
    constructor
    · intro sessionId record hrecord
      cases hrecord
    · intro id operation hoperation
      cases hoperation
  settles := by simp [State.initial]

variable (platform) in
/-- Operations only move forward, and are released as they are first accepted. -/
theorem operations_forward : Once.Forward (Journal.step platform) (releases platform) Kept Lasting
    (fun s id => s.db.phase id) 1 where
  keeps := fun _ input h _ => h.step input
  grows := fun _ input id h hlasting => (Advanced.input h input hlasting).advances.phase id
  crosses := fun _ input id h hlasting hid => (Advanced.input h input hlasting).crosses id hid
  single := fun _ input h hlasting => (Advanced.input h input hlasting).single

/-- What lasting inputs do to a completed operation and to a control epoch. -/
theorem Kept.lasting (h : Kept s) (inputs : List Input)
    (hlasting : Run.Admits (Journal.step platform) Lasting s inputs) :
    (∀ id operation, s.db.operation id = some operation → operation.state.completed →
        (Run.final (Journal.step platform) s inputs).db.operation id = some operation) ∧
      ∀ sessionId record, s.db.stored sessionId = some record →
        ∃ record', (Run.final (Journal.step platform) s inputs).db.stored sessionId =
          some record' ∧ record.controlEpoch ≤ record'.controlEpoch := by
  induction inputs generalizing s with
  | nil => exact ⟨fun _ _ hfound _ => hfound, fun _ record hrecord => ⟨record, hrecord, Nat.le_refl _⟩⟩
  | cons input rest ih =>
      have hinputs : Inputs platform s input := Advanced.input h input hlasting.1
      have hinput := hinputs.advances
      have hrest := ih (h.step input) hlasting.2
      refine ⟨fun id operation hfound hcompleted => ?_, fun sessionId record hrecord => ?_⟩
      · exact hrest.1 id operation (hinput.completed id operation hfound hcompleted) hcompleted
      · rcases hinput.epoch sessionId record hrecord with ⟨record₁, hrecord₁, hle₁⟩
        rcases hrest.2 sessionId record₁ hrecord₁ with ⟨record₂, hrecord₂, hle₂⟩
        exact ⟨record₂, hrecord₂, Nat.le_trans hle₁ hle₂⟩

/-- What an operation comes to that reopening finds accepted. -/
structure Orphaned (platform : Platform) (s s' : State) : Prop where
  uncertain : ∀ id operation, s.db.operation id = some operation → operation.state = .accepted →
    ∃ operation', s'.db.operation id = some operation' ∧ operation'.state = .uncertain
  withheld : ∀ id operation, s.db.operation id = some operation → operation.state = .accepted →
    ∀ later, Run.Admits (Journal.step platform) Lasting s' later →
      id ∉ Once.released (Journal.step platform) (releases platform) s' later

theorem Kept.orphaned (h : Kept s) (options : Options) (choice : Choice)
    (hopen : (Journal.step platform s (.reopen options choice)).closed = false) :
    Orphaned platform s (Journal.step platform s (.reopen options choice)) := by
  have hrecover : recoverOperations platform s.db =
      .ok (Journal.step platform s (.reopen options choice)).db := by
    rcases (@reopen_cases platform s options choice).2.2 with ⟨_, hclosed⟩ | hrecover
    · exact absurd (hopen.symm.trans hclosed) Bool.false_ne_true
    · exact hrecover
  have hoperation := (recoverOperations_operation h.keyed hrecover).2
  have hfound : ∀ id operation, s.db.operation id = some operation →
      operation.state = .accepted →
      (Journal.step platform s (.reopen options choice)).db.operation id =
        some { operation with state := .uncertain, error := some reopenError } := by
    intro id operation hprior hstate
    rw [hoperation, hprior, Option.map_some, recovered, if_pos hstate]
  refine ⟨fun id operation hprior hstate => ⟨_, hfound id operation hprior hstate, rfl⟩, ?_⟩
  intro id operation hprior hstate later hlater hreleased
  have hbefore := ((operations_forward platform).past_of_released id later _
    (h.step (.reopen options choice)) hlater hreleased).1
  simp only [Db.phase_of (hfound id operation hprior hstate), OperationState.phase] at hbefore
  omega

/-- After any inputs at all, while no retirement and no purge goes on: no operation
    is released twice; what a reopening finds accepted is uncertain from then on and
    not released again; a completed operation keeps its outcome; the control epoch of
    a session never falls; and every local operation that is newly accepted, at once
    or from the queue, raises it. -/
theorem operations_released_once (platform : Platform) (before inputs : List Input)
    (hlasting : Run.Admits (step platform) Lasting
      (Run.final (step platform) State.initial before) inputs) :
    let s := Run.final (step platform) State.initial before
    let t := Run.final (step platform) s inputs
    (Once.released (step platform) (releases platform) s inputs).Nodup ∧
      (∀ options choice, (step platform t (.reopen options choice)).closed = false →
        Orphaned platform t (step platform t (.reopen options choice))) ∧
      (∀ id operation, s.db.operation id = some operation → operation.state.completed →
        t.db.operation id = some operation) ∧
      (∀ sessionId record, s.db.stored sessionId = some record →
        ∃ record', t.db.stored sessionId = some record' ∧
          record.controlEpoch ≤ record'.controlEpoch) ∧
      ∀ input, Lasting t input → ∀ operation, t.db.Takes (step platform t input).db operation →
        ∃ record record', t.db.stored operation.sessionId = some record ∧
          (step platform t input).db.stored operation.sessionId = some record' ∧
          record.controlEpoch < record'.controlEpoch ∧
          operation.controlEpoch = record'.controlEpoch := by
  intro s t
  have hs : Kept s := Run.invariant (step platform) Kept (fun _ input h => h.step input)
    before State.initial kept_initial
  have ht : Kept t := (operations_forward platform).keeps_run inputs s hs hlasting
  have hkept := hs.lasting inputs hlasting
  refine ⟨(operations_forward platform).released_nodup inputs s hs hlasting, ?_, hkept.1,
    hkept.2, ?_⟩
  · intro options choice hopen
    exact ht.orphaned options choice hopen
  · intro input hinput operation htaken
    exact (Advanced.input ht input hinput).advances.takes operation htaken

namespace Sample

/-- An operation of the session `s`. -/
def prompt (id : String) (queued : Bool) : Input :=
  call (.acceptOperation (ofString id) (ofString "s") .prompt (ofString "{}") queued .local)

/-- One operation is admitted and asked for again, another is queued, moved up and
    begun, and the Node is reopened. -/
def operated : List Input :=
  [enable "s", prompt "a" false, prompt "a" false, prompt "b" true,
    call (.prioritizeOperation (ofString "b")), call (.beginOperation (ofString "b")),
    call (.settleOperation (ofString "a") .settled none), .reopen {} {}, prompt "b" true,
    call (.beginOperation (ofString "b"))]

end Sample

theorem operations_released_once_operated :
    Once.released (step Sample.platform) (releases Sample.platform)
        (step Sample.platform State.initial (.reopen {} {})) Sample.operated =
      [ofString "a", ofString "b"] ∧
    (Once.released (step Sample.platform) (releases Sample.platform)
      (Run.final (step Sample.platform) State.initial [.reopen {} {}]) Sample.operated).Nodup :=
  ⟨by decide +kernel,
    (operations_released_once Sample.platform [.reopen {} {}] Sample.operated
      (by decide +kernel)).1⟩

end

end Journal

end CopilotFleet
