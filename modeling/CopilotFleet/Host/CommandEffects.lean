import CopilotFleet.Host.CommandMoves

/-!
# What the Parts of an Operation Do

The statements an operation is made of, each with what it does to what is in
view. Sending anything but a start, and writing a tombstone or a clock, is
quiet. A transaction counts for what it returns; when it throws, all that may
be left of it is numbers that were drawn and messages that were sent.

## Main definitions

* `Quiet`: Nothing in view changes.
* `Local`: What is not in the tables is left alone.
* `Acts`: A number of moves, whether it throws or not.

## Theorems

* `Acts.atomically`: What a transaction returns is all it does.
* `returns_update`: A change of the row that was read.
* `send_quiet`: A message that is not a start.
-/

namespace CopilotFleet

namespace Commands

open Utf16 Effect

variable {α β : Type} (w : World)

/-- Nothing in view changes, whether it throws or not. -/
def Quiet (m : Host α) : Prop := (moves False).Silent m

/-- A number of moves, whether it throws or not. -/
abbrev Acts (careful : Prop) (P : Core → Prop) (m : Host α) (Q : α → Core → Prop) : Prop :=
  (moves careful).Refines P m Q

/-- Outside the tables, numbers may be drawn and nothing else. -/
structure Outside (c c' : Core) : Prop where
  nextId : c.nextId ≤ c'.nextId
  observations : c'.observations = c.observations
  starts : c'.starts = c.starts
  acks : c'.acks = c.acks

def Local (m : Host α) : Prop := ∀ s, Outside s.core (m s).2.core

section

variable {careful : Prop} {P : Core → Prop} {Q : α → Core → Prop} {m : Host α}

theorem Outside.refl (c : Core) : Outside c c := ⟨le_rfl, rfl, rfl, rfl⟩

theorem Outside.trans {c₁ c₂ c₃ : Core} (h : Outside c₁ c₂) (h' : Outside c₂ c₃) :
    Outside c₁ c₃ :=
  ⟨h.nextId.trans h'.nextId, h'.observations.trans h.observations, h'.starts.trans h.starts,
    h'.acks.trans h.acks⟩

theorem Quiet.local (h : Quiet m) : Local m := by
  intro s
  rw [show (m s).2.core = s.core from h s]
  exact Outside.refl _

theorem Local.pure {a : α} : Local (pure a : Host α) := fun s => Outside.refl s.core

theorem Local.raise {e : Failure} : Local (raise e : Host α) := fun s => Outside.refl s.core

theorem Local.reads {f : State → α} : Local (reads f : Host α) := fun s => Outside.refl s.core

theorem Local.bind {f : α → Host β} (hm : Local m) (hf : ∀ a, Local (f a)) : Local (m >>= f) := by
  intro s
  have hs := hm s
  rcases outcome m s with ⟨a, s₁, heq⟩ | ⟨e, s₁, heq⟩
  · rw [heq] at hs
    rw [bind_ok heq]
    exact hs.trans (hf a s₁)
  · rw [heq] at hs
    rw [bind_error heq]
    exact hs

theorem Local.each {f : β → Host Unit} {xs : List β} (h : ∀ x, Local (f x)) :
    Local (each xs f) := by
  induction xs with
  | nil => exact Local.pure
  | cons x rest ih => exact Local.bind (h x) fun _ => ih

theorem Local.whenever {c : Bool} {m : Host Unit} (h : Local m) : Local (whenever c m) := by
  unfold Effect.whenever
  split
  · exact h
  · exact Local.pure

theorem Local.changeDb {f : Db → Db} : Local (changeDb f) := fun _ => ⟨le_rfl, rfl, rfl, rfl⟩

theorem Local.drawId : Local drawId := fun _ => ⟨Nat.le_succ _, rfl, rfl, rfl⟩

theorem Local.writeAtomically (h : Local m) : Local (writeAtomically m) := by
  intro s
  have hs := h s
  unfold Commands.writeAtomically transaction
  rcases outcome m s with ⟨a, s₁, heq⟩ | ⟨e, s₁, heq⟩
  · rw [heq] at hs ⊢
    exact hs
  · rw [heq] at hs ⊢
    exact ⟨hs.nextId, hs.observations, hs.starts, hs.acks⟩

theorem Acts.imp {P' : Core → Prop} {Q' : α → Core → Prop} (h : Acts careful P m Q)
    (hP : ∀ c, c.Keyed → P' c → P c) (hQ : ∀ a c, c.Keyed → Q a c → Q' a c) :
    Acts careful P' m Q' := Abstraction.Refines.imp h hP hQ

theorem Acts.bind {f : α → Host β} {Q' : β → Core → Prop} (hm : Acts careful P m Q)
    (hf : ∀ a, Acts careful (Q a) (f a) Q') : Acts careful P (m >>= f) Q' :=
  Abstraction.Refines.bind hm hf

theorem Acts.pure {a : α} (h : ∀ c, c.Keyed → P c → Q a c) :
    Acts careful P (pure a : Host α) Q := Abstraction.Refines.pure h

theorem Acts.done {a : α} : Acts careful P (Pure.pure a : Host α) fun _ _ => True :=
  Abstraction.Refines.pure fun _ _ _ => trivial

theorem Acts.raise {e : Failure} : Acts careful P (raise e : Host α) Q :=
  Abstraction.Refines.raise

theorem Acts.reads {f : State → α} (h : ∀ s : State, s.core.Keyed → P s.core → Q (f s) s.core) :
    Acts careful P (reads f : Host α) Q := Abstraction.Refines.reads h

theorem Acts.asks {f : State → α} {g : α → Host β} {Q' : β → Core → Prop}
    (h : ∀ a, Acts careful P (g a) Q') : Acts careful P (Effect.reads f >>= g) Q' :=
  Abstraction.Refines.asks h

/-- A read whose answer is known of afterwards. -/
theorem Acts.reading {f : State → α} {g : α → Host β} {Q' : β → Core → Prop}
    (hread : ∀ s : State, s.core.Keyed → P s.core → Q (f s) s.core)
    (h : ∀ a, Acts careful (Q a) (g a) Q') : Acts careful P (Effect.reads f >>= g) Q' :=
  Acts.bind (Acts.reads hread) h

theorem Acts.stable {P' : Core → Prop} (h : Acts careful P m Q)
    (hP' : (moves careful).Stable P') (hP : ∀ c, P' c → P c) :
    Acts careful P' m fun a c => Q a c ∧ P' c := Abstraction.Refines.stable h hP' hP

theorem Acts.discard (h : Acts careful P m Q) :
    Acts careful P (discard m) fun _ _ => True := Acts.bind h fun _ => Acts.done

theorem Acts.whenever {c : Bool} {m : Host Unit} {P : Core → Prop}
    (h : c = true → Acts careful P m fun _ => P) : Acts careful P (whenever c m) fun _ => P := by
  unfold Effect.whenever
  split
  · next hc => exact h hc
  · exact Acts.pure fun _ _ hc => hc

theorem Acts.quiet (h : Quiet m) (hQ : ∀ a c, c.Keyed → P c → Q a c) : Acts careful P m Q :=
  Abstraction.Refines.silent (A := moves careful) h hQ

/-- Where it throws, the tables are what they were. -/
def Restores (m : Host α) : Prop := ∀ s e s', m s = (.error e, s') → s'.db = s.db

theorem restores_writeAtomically (m : Host α) : Restores (writeAtomically m) := by
  intro s e s' heq
  unfold Commands.writeAtomically transaction at heq
  rcases outcome m s with ⟨a, s₁, hm⟩ | ⟨e₁, s₁, hm⟩
  · rw [hm] at heq
    cases (Prod.mk.inj heq).1
  · rw [hm] at heq
    rw [← (Prod.mk.inj heq).2]

/-- Where it throws, there may be numbers that were drawn and nothing else. -/
theorem thrown_steps (hrestores : Restores m) (hlocal : Local m) {s s' : State} {e : Failure}
    (heq : m s = (.error e, s')) : (moves careful).Steps s.core s'.core := by
  have hout := hlocal s
  have hdb := hrestores s e s' heq
  rw [heq] at hout
  have hcore : s'.core = { s.core with nextId := s'.core.nextId } := by
    unfold State.core
    have hobs := hout.observations
    have hstarts := hout.starts
    have hacks := hout.acks
    unfold State.core at hobs hstarts hacks
    simp only at hobs hstarts hacks
    simp only [hobs, hstarts, hacks, hdb]
  rw [hcore]
  exact .single (.draw _ hout.nextId)

/-- What it returns is all it does. -/
theorem Acts.restoring (hrestores : Restores m) (hlocal : Local m)
    (hret : (moves careful).Yields P m Q) : Acts careful P m Q := by
  intro s hs
  change (moves careful).Steps s.core (m s).2.core ∧
    ∀ a s', Returns m s a s' → s'.core.Keyed ∧ Q a s'.core
  rcases outcome m s with ⟨a, s', heq⟩ | ⟨e, s', heq⟩
  · rcases hret s a s' hs.1 hs.2 heq with ⟨hsteps, hq⟩
    rw [heq]
    refine ⟨hsteps, fun b s₂ h => ?_⟩
    have hpair := Prod.mk.inj (heq.symm.trans h)
    rw [← hpair.2, ← Except.ok.inj hpair.1]
    exact ⟨Abstraction.Steps.keeps _ hsteps hs.1, hq⟩
  · rw [heq]
    refine ⟨thrown_steps hrestores hlocal heq, fun b s₂ h => ?_⟩
    cases (Prod.mk.inj (heq.symm.trans h)).1

/-- What a transaction returns is all it does. -/
theorem Acts.atomically (hlocal : Local m) (hret : (moves careful).Yields P m Q) :
    Acts careful P (writeAtomically m) Q :=
  Acts.restoring (restores_writeAtomically m) hlocal.writeAtomically fun s a s' hinv hs ha =>
    hret s a s' hinv hs (returns_transaction.mp ha)

end

/-! ### Statements that return -/

theorem returns_changeDb {f : Db → Db} {s s' : State} {a : Unit} :
    Returns (changeDb f) s a s' ↔ { s with db := f s.db } = s' := returns_writes

theorem returns_drawId {s s' : State} {id : Nat} :
    Returns drawId s id s' ↔ s.nextId = id ∧ { s with nextId := s.nextId + 1 } = s' := by
  unfold drawId
  constructor
  · intro h
    rcases returns_bind.mp h with ⟨a, s₁, ha, hrest⟩
    rcases returns_reads.mp ha with ⟨rfl, rfl⟩
    rcases returns_bind.mp hrest with ⟨_, s₂, hw, hpure⟩
    rcases returns_pure.mp hpure with ⟨rfl, rfl⟩
    exact ⟨rfl, returns_writes.mp hw⟩
  · rintro ⟨rfl, rfl⟩
    rfl

theorem returns_check {failure : Option Failure} {s s' : State} {a : Unit} :
    Returns (check failure) s a s' ↔ failure = none ∧ s = s' := by
  unfold check
  cases failure with
  | none => simp [returns_pure]
  | some e => simp [not_returns_raise]

theorem check_quiet (failure : Option Failure) : Quiet (check failure) := by
  unfold check
  cases failure with
  | none => exact Abstraction.Silent.pure
  | some e => exact Abstraction.Silent.raise

/-- The tables with one execution written. -/
def State.put (s : State) (e : Execution) : State :=
  { s with db := { s.db with executions := s.db.executions.set e.id e } }

theorem get_set_eq_update {κ ν : Type} [DecidableEq κ] (t : Table κ ν) (k : κ) (v : ν) :
    (t.set k v).get = Function.update t.get k (some v) := by
  ext1 j
  rw [Table.get_set, Function.update_apply]

@[simp] theorem State.put_core (s : State) (e : Execution) : (s.put e).core = s.core.put e := by
  unfold State.put State.core Core.put
  simp only [get_set_eq_update]

/-- A change is of the row that was decided on. -/
theorem returns_update {id version : Nat} {patch : Execution → Execution} {s s' : State}
    {e' : Execution} (h : Returns (update id version patch) s e' s') :
    ∃ row, s.core.executions id = some row ∧ row.version = version ∧
      e' = { patch row with
        id
        version := version + 1 } ∧ s' = s.put e' := by
  unfold update at h
  rcases returns_bind.mp h with ⟨row, s₁, hread, hrest⟩
  rcases returns_reads.mp hread with ⟨hrow, rfl⟩
  cases row with
  | none => exact (not_returns_raise hrest).elim
  | some current =>
      simp only at hrest
      split at hrest
      · exact (not_returns_raise hrest).elim
      · next hversion =>
          split at hrest
          · exact (not_returns_raise hrest).elim
          · rcases returns_bind.mp hrest with ⟨_, s₂, hput, hpure⟩
            rcases returns_pure.mp hpure with ⟨rfl, rfl⟩
            refine ⟨current, hrow, of_not_not hversion, rfl, ?_⟩
            exact (returns_changeDb.mp hput).symm

theorem update_local (id version : Nat) (patch : Execution → Execution) :
    Local (update id version patch) := by
  unfold update
  refine Local.bind Local.reads fun row => ?_
  cases row with
  | none => exact Local.raise
  | some current =>
      simp only
      split
      · exact Local.raise
      · split
        · exact Local.raise
        · exact Local.bind Local.changeDb fun _ => Local.pure

/-- Acknowledging is a move where what is acknowledged is accounted for. -/
theorem transmit_ack {careful : Prop} {P : Core → Prop} (nodeId : Text) {message : HostMessage}
    (hack : message.isAck = true) (hstart : message.isStart = false)
    (h : ∀ s : State, s.core.Keyed → P s.core →
      Sent.Acknowledges { nodeId, message, tables := s.db } s.core) :
    Acts careful P (transmit w nodeId message) fun _ _ => True := by
  unfold transmit
  refine Abstraction.Refines.asks fun delivered => ?_
  split
  · refine Abstraction.Refines.bind (Q := fun _ _ => True)
      (Abstraction.Refines.writes (fun s hkeyed hs => ?_) fun _ _ _ => trivial) fun _ =>
        Abstraction.Refines.pure fun _ _ _ => trivial
    have hcore : ({ s with outbox := s.outbox ++ [{ nodeId, message, tables := s.db }] } :
        State).core =
          { s.core with acks := s.core.acks ++ [{ nodeId, message, tables := s.db }] } := by
      unfold State.core
      simp [hack, hstart]
    change Move careful s.core _
    rw [show (moves careful).view = State.core from rfl, hcore]
    exact .ack _ hack (h s hkeyed hs)
  · exact Abstraction.Refines.pure fun _ _ _ => trivial

theorem Known.put {c : Core} {e : Execution} (h : e.id < c.nextId) : Known e (c.put e) := by
  refine ⟨h, fun row hget => ?_⟩
  rw [Core.put_executions_self, Option.some.injEq] at hget
  rw [← hget]
  exact Execution.Since.refl e

/-- One row changes, when it is still the row that was read. -/
theorem update_acts {careful : Prop} (e : Execution) (patch : Execution → Execution)
    (hchange : Change e { patch e with
      id := e.id
      version := e.version + 1 }) :
    Acts careful (Known e) (update e.id e.version patch) fun e' c =>
      e' = { patch e with
        id := e.id
        version := e.version + 1 } ∧ Known e' c := by
  unfold update
  refine Abstraction.Refines.bind (Q := fun row c => Known e c ∧ row = c.executions e.id)
    (Abstraction.Refines.reads fun s _ hknown => ⟨hknown, rfl⟩) fun row => ?_
  cases row with
  | none => exact Abstraction.Refines.raise
  | some current =>
      simp only
      by_cases hversion : current.version ≠ e.version
      · rw [if_pos hversion]
        exact Abstraction.Refines.raise
      · rw [if_neg hversion]
        split
        · exact Abstraction.Refines.raise
        · -- The row is the one that was read.
          have hsame : ∀ c, Known e c ∧ some current = c.executions e.id →
              current = e ∧ c.executions e.id = some e := by
            rintro c ⟨hknown, hrow⟩
            have heq := hknown.row hrow.symm (of_not_not hversion)
            exact ⟨heq, hrow.symm.trans (congrArg some heq)⟩
          refine Abstraction.Refines.bind (Q := fun _ c => Known { patch e with
              id := e.id
              version := e.version + 1 } c ∧ current = e)
            (Abstraction.Refines.writes (fun s _ hs => ?_) fun s _ hs => ?_) fun _ => ?_
          · rcases hsame _ hs with ⟨rfl, hrow⟩
            change Move careful s.core (s.put _).core
            rw [State.put_core]
            exact .change current _ hrow hchange
          · rcases hsame _ hs with ⟨rfl, hrow⟩
            refine ⟨?_, rfl⟩
            change Known _ (s.put _).core
            rw [State.put_core]
            exact Known.put hs.1.1
          · refine Abstraction.Refines.pure fun c _ hs => ?_
            rw [hs.2]
            exact ⟨rfl, hs.1⟩

/-! ### Quiet statements -/

section

variable {m : Host α}

theorem Quiet.pure {a : α} : Quiet (pure a : Host α) := Abstraction.Silent.pure

theorem Quiet.raise {e : Failure} : Quiet (raise e : Host α) := Abstraction.Silent.raise

theorem Quiet.reads {f : State → α} : Quiet (reads f : Host α) := Abstraction.Silent.reads

theorem Quiet.writes {f : State → State} (h : ∀ s, (f s).core = s.core) :
    Quiet (writes f : Host Unit) := h

theorem Quiet.bind {f : α → Host β} (hm : Quiet m) (hf : ∀ a, Quiet (f a)) : Quiet (m >>= f) :=
  Abstraction.Silent.bind hm hf

theorem Quiet.asks {f : State → α} {g : α → Host β} (h : ∀ a, Quiet (g a)) :
    Quiet (Effect.reads f >>= g) := Quiet.bind Quiet.reads h

theorem Quiet.discard (h : Quiet m) : Quiet (discard m) := Quiet.bind h fun _ => Quiet.pure

theorem Quiet.whenever {c : Bool} {m : Host Unit} (h : Quiet m) : Quiet (whenever c m) := by
  unfold Effect.whenever
  split
  · exact h
  · exact Quiet.pure

theorem Quiet.each {f : β → Host Unit} {xs : List β} (h : ∀ x, Quiet (f x)) :
    Quiet (each xs f) := Abstraction.Silent.each fun x _ => h x

theorem Quiet.returns (h : Quiet m) {s s' : State} {a : α} (ha : Returns m s a s') :
    s'.core = s.core := by
  have hs := h s
  rw [show m s = (.ok a, s') from ha] at hs
  exact hs

end

theorem putAttempt_quiet (id : Nat) (attempt : Attempt) : Quiet (putAttempt id attempt) :=
  Quiet.writes fun _ => rfl

theorem markCancel_quiet (e : Execution) : Quiet (markCancel e) := by
  unfold markCancel
  refine Quiet.asks fun row => ?_
  cases row with
  | none => exact putAttempt_quiet _ _
  | some row => exact putAttempt_quiet _ _

theorem recordReceipt_quiet (id : Nat) (receipt : Receipt) : Quiet (recordReceipt id receipt) := by
  unfold recordReceipt
  refine Quiet.asks fun row => ?_
  cases row with
  | none => exact Quiet.pure
  | some row => exact putAttempt_quiet _ _

theorem markStart_quiet (e : Execution) : Quiet (markStart e) := by
  unfold markStart
  cases e.descriptor with
  | none => exact Quiet.raise
  | some descriptor =>
      refine Quiet.asks fun absent =>
        Quiet.bind (Quiet.whenever (putAttempt_quiet _ _)) fun _ => Quiet.asks fun row => ?_
      cases row with
      | none => exact Quiet.raise
      | some row =>
          simp only
          split
          · exact Quiet.raise
          · exact Quiet.pure

/-- The attempt that begins has its tombstone, and it is not cancelled. -/
theorem returns_markStart {e : Execution} {s s' : State} {a : Unit}
    (h : Returns (markStart e) s a s') :
    ∃ attempt, s'.db.attempts.get e.id = some attempt ∧ attempt.startVersion = some e.version ∧
      attempt.cancelled = false := by
  unfold markStart at h
  cases hd : e.descriptor with
  | none =>
      rw [hd] at h
      exact (not_returns_raise h).elim
  | some descriptor =>
      rw [hd] at h
      rcases returns_bind.mp h with ⟨_, _, _, h⟩
      rcases returns_bind.mp h with ⟨_, s₁, _, h⟩
      rcases returns_bind.mp h with ⟨row, s₂, hread, h⟩
      rcases returns_reads.mp hread with ⟨hrow, rfl⟩
      cases row with
      | none => exact (not_returns_raise h).elim
      | some row =>
          simp only at h
          split at h
          · exact (not_returns_raise h).elim
          · next hgood =>
              rcases returns_pure.mp h with ⟨_, rfl⟩
              simp only [Bool.or_eq_true, decide_eq_true_eq, not_or, ne_eq, not_not,
                Bool.not_eq_true] at hgood
              exact ⟨row, hrow, hgood.2, hgood.1⟩

theorem revokeSessionGrants_quiet (leadId : Option Text) : Quiet (revokeSessionGrants leadId) :=
  Quiet.writes fun _ => rfl

theorem recordPreparationSend_quiet (id : Nat) (hostTime : Int) :
    Quiet (recordPreparationSend id hostTime) := by
  unfold recordPreparationSend
  refine Quiet.asks fun known => ?_
  split
  · exact Quiet.raise
  · exact Quiet.writes fun _ => rfl

theorem acceptPreparationClock_quiet (id : Nat) (hostTime acceptedAt : Int) (elapsedMs : Rat) :
    Quiet (acceptPreparationClock id hostTime acceptedAt elapsedMs) := by
  unfold acceptPreparationClock
  refine Quiet.asks fun clock => ?_
  cases clock with
  | none => exact Quiet.raise
  | some clock =>
      simp only
      split
      · exact Quiet.writes fun _ => rfl
      · exact Quiet.raise

/-! ### Messages -/

theorem transmit_quiet (nodeId : Text) {message : HostMessage} (h : message.isStart = false)
    (h' : message.isAck = false) :
    Quiet (transmit w nodeId message) := by
  unfold transmit
  refine Quiet.asks fun delivered => ?_
  split
  · refine Quiet.bind (Quiet.writes fun s => ?_) fun _ => Quiet.pure
    unfold State.core
    simp [h, h']
  · exact Quiet.pure

theorem sendRevocations_quiet (nodeId : Text) (targets : List (Text × Text)) :
    Quiet (sendRevocations w nodeId targets) := by
  induction targets with
  | nil => exact Quiet.pure
  | cons target rest ih =>
      unfold sendRevocations
      refine Quiet.asks fun told => ?_
      split
      · exact ih
      · refine Quiet.asks fun able => ?_
        split
        · exact Quiet.pure
        · refine Quiet.bind (transmit_quiet w nodeId rfl rfl) fun sent => ?_
          split
          · refine Quiet.bind (Quiet.writes fun s => ?_) fun _ => ih
            cases s.peers.get nodeId <;> rfl
          · exact Quiet.pure

theorem sendSessionRevocations_quiet (nodeId : Text) : Quiet (sendSessionRevocations w nodeId) := by
  unfold sendSessionRevocations
  refine Quiet.asks fun able => ?_
  split
  · exact Quiet.pure
  · exact Quiet.asks fun targets => sendRevocations_quiet w nodeId targets

theorem send_quiet (nodeId : Text) {message : HostMessage} (h : message.isStart = false)
    (h' : message.isAck = false) :
    Quiet (send w nodeId message) := by
  unfold send
  refine Quiet.asks fun blocked => ?_
  split
  · exact Quiet.pure
  · split
    · refine Quiet.asks fun able => ?_
      split
      · exact transmit_quiet w nodeId h h'
      · exact Quiet.pure
    · refine Quiet.asks fun able => ?_
      split
      · exact Quiet.pure
      · split
        · exact transmit_quiet w nodeId h h'
        · refine Quiet.bind (sendSessionRevocations_quiet w nodeId) fun told => ?_
          split
          · exact Quiet.pure
          · refine Quiet.asks fun ready => ?_
            split
            · exact Quiet.pure
            · exact transmit_quiet w nodeId h h'

theorem sendCancel_quiet (e : Execution) (revokePreparation : Bool) :
    Quiet (sendCancel w e revokePreparation) := by
  unfold sendCancel
  split
  · exact Quiet.discard (send_quiet w _ rfl rfl)
  · exact Quiet.pure

theorem publish_quiet (e : Execution) : Quiet (publish w e) := by
  unfold publish
  split
  · exact sendCancel_quiet w e true
  · exact Quiet.pure

theorem resendRevocations_quiet (leadId : Option Text) : Quiet (resendRevocations w leadId) := by
  unfold resendRevocations
  refine Quiet.asks fun peers => Quiet.each fun nodeId => ?_
  refine Quiet.bind (Quiet.writes fun s => ?_) fun _ =>
    Quiet.discard (sendSessionRevocations_quiet w nodeId)
  cases s.peers.get nodeId <;> rfl

theorem reconcileSessionGrants_quiet : Quiet (reconcileSessionGrants w) := by
  unfold reconcileSessionGrants
  refine Quiet.asks fun leads => Quiet.bind (Quiet.each fun leadId => ?_) fun _ =>
    Quiet.asks fun peers => Quiet.each fun nodeId =>
      Quiet.discard (sendSessionRevocations_quiet w nodeId)
  refine Quiet.asks fun dead => ?_
  split
  · exact revokeSessionGrants_quiet _
  · exact Quiet.pure

theorem sendReconcile_quiet (nodeId hostId : Text) (fuel : Nat)
    (executions : List (Nat × Nat × Nat)) :
    Quiet (sendReconcile w nodeId hostId fuel executions) := by
  induction fuel generalizing executions with
  | zero => exact Quiet.pure
  | succ fuel ih =>
      cases executions with
      | nil => exact Quiet.pure
      | cons first rest =>
          exact Quiet.bind (Quiet.discard (send_quiet w nodeId rfl rfl)) fun _ => ih _

/-! ### Statements that never throw -/

/-- It returns, whatever the state. -/
def Total (m : Host α) : Prop := ∀ s, ∃ a s', m s = (.ok a, s')

section

variable {m : Host α}

theorem Total.pure {a : α} : Total (pure a : Host α) := fun s => ⟨a, s, rfl⟩

theorem Total.writes {f : State → State} : Total (writes f : Host Unit) := fun s => ⟨(), f s, rfl⟩

theorem Total.bind {f : α → Host β} (hm : Total m) (hf : ∀ a, Total (f a)) : Total (m >>= f) := by
  intro s
  rcases hm s with ⟨a, s₁, heq⟩
  rw [bind_ok heq]
  exact hf a s₁

theorem Total.asks {f : State → α} {g : α → Host β} (h : ∀ a, Total (g a)) :
    Total (Effect.reads f >>= g) := Total.bind (fun s => ⟨f s, s, rfl⟩) h

theorem Total.discard (h : Total m) : Total (discard m) := Total.bind h fun _ => Total.pure

end

theorem transmit_total (nodeId : Text) (message : HostMessage) :
    Total (transmit w nodeId message) := by
  unfold transmit
  refine Total.asks fun delivered => ?_
  split
  · exact Total.bind Total.writes fun _ => Total.pure
  · exact Total.pure

theorem sendRevocations_total (nodeId : Text) (targets : List (Text × Text)) :
    Total (sendRevocations w nodeId targets) := by
  induction targets with
  | nil => exact Total.pure
  | cons target rest ih =>
      unfold sendRevocations
      refine Total.asks fun told => ?_
      split
      · exact ih
      · refine Total.asks fun able => ?_
        split
        · exact Total.pure
        · refine Total.bind (transmit_total w nodeId _) fun sent => ?_
          split
          · exact Total.bind Total.writes fun _ => ih
          · exact Total.pure

theorem sendSessionRevocations_total (nodeId : Text) : Total (sendSessionRevocations w nodeId) := by
  unfold sendSessionRevocations
  refine Total.asks fun able => ?_
  split
  · exact Total.pure
  · exact Total.asks fun targets => sendRevocations_total w nodeId targets

theorem send_total (nodeId : Text) (message : HostMessage) : Total (send w nodeId message) := by
  unfold send
  refine Total.asks fun blocked => ?_
  split
  · exact Total.pure
  · split
    · refine Total.asks fun able => ?_
      split
      · exact transmit_total w nodeId message
      · exact Total.pure
    · refine Total.asks fun able => ?_
      split
      · exact Total.pure
      · split
        · exact transmit_total w nodeId message
        · refine Total.bind (sendSessionRevocations_total w nodeId) fun told => ?_
          split
          · exact Total.pure
          · refine Total.asks fun ready => ?_
            split
            · exact Total.pure
            · exact transmit_total w nodeId message

theorem publish_total (e : Execution) : Total (publish w e) := by
  unfold publish
  split
  · unfold sendCancel
    split
    · exact Total.discard (send_total w _ _)
    · exact Total.pure
  · exact Total.pure

/-- A change of the row as it is goes through. -/
theorem update_ok {s : State} {id : Nat} {row : Execution} (patch : Execution → Execution)
    (hrow : s.core.executions id = some row)
    (hsame : (patch row).attemptId = row.attemptId ∧
      (patch row).requestDigest = row.requestDigest ∧
        (patch row).leadSessionId = row.leadSessionId ∧ (patch row).nodeId = row.nodeId) :
    update id row.version patch s = (.ok { patch row with
      id
      version := row.version + 1 }, s.put { patch row with
      id
      version := row.version + 1 }) := by
  unfold update
  have hread : (reads (·.execution id) : Host (Option Execution)) s = (.ok (some row), s) := by
    rw [← hrow]
    rfl
  rw [bind_ok hread]
  simp only [ne_eq, not_true_eq_false, if_false, hsame.1, hsame.2.1, hsame.2.2.1, hsame.2.2.2,
    decide_false, Bool.or_self, Bool.false_eq_true]
  rfl

/-! ### A start that is sent -/

/-- The tables alone. -/
def tables : Effect.Abstraction State Db where
  view := State.db
  Step := fun _ _ => False
  Inv := fun _ => True
  keeps := fun _ _ _ _ => trivial

theorem transmit_tables (nodeId : Text) (message : HostMessage) :
    tables.Silent (transmit w nodeId message) := by
  unfold transmit
  refine Abstraction.Silent.bind Abstraction.Silent.reads fun delivered => ?_
  split
  · exact Abstraction.Silent.bind (Abstraction.Silent.writes fun _ => rfl) fun _ =>
      Abstraction.Silent.pure
  · exact Abstraction.Silent.pure

theorem sendRevocations_tables (nodeId : Text) (targets : List (Text × Text)) :
    tables.Silent (sendRevocations w nodeId targets) := by
  induction targets with
  | nil => exact Abstraction.Silent.pure
  | cons target rest ih =>
      unfold sendRevocations
      refine Abstraction.Silent.bind Abstraction.Silent.reads fun told => ?_
      split
      · exact ih
      · refine Abstraction.Silent.bind Abstraction.Silent.reads fun able => ?_
        split
        · exact Abstraction.Silent.pure
        · refine Abstraction.Silent.bind (transmit_tables w nodeId _) fun sent => ?_
          split
          · refine Abstraction.Silent.bind (Abstraction.Silent.writes fun s => ?_) fun _ => ih
            cases s.peers.get nodeId <;> rfl
          · exact Abstraction.Silent.pure

theorem sendSessionRevocations_tables (nodeId : Text) :
    tables.Silent (sendSessionRevocations w nodeId) := by
  unfold sendSessionRevocations
  refine Abstraction.Silent.bind Abstraction.Silent.reads fun able => ?_
  split
  · exact Abstraction.Silent.pure
  · exact Abstraction.Silent.bind Abstraction.Silent.reads fun targets =>
      sendRevocations_tables w nodeId targets

/-- At most one message was sent, from the tables `db`. -/
def SentFrom (nodeId : Text) (message : HostMessage) (db : Db) (c c' : Core) : Prop :=
  ∃ sent, c' = { c with starts := c.starts ++ sent } ∧
    (sent = [] ∨ sent = [{ nodeId, message, tables := db }])

theorem SentFrom.none (nodeId : Text) (message : HostMessage) (db : Db) (c : Core) :
    SentFrom nodeId message db c c :=
  ⟨[], by rw [List.append_nil], .inl rfl⟩

theorem transmit_start (nodeId : Text) {message : HostMessage} (hstart : message.isStart = true)
    (hack : message.isAck = false) (s : State) :
    SentFrom nodeId message s.db s.core (transmit w nodeId message s).2.core := by
  unfold transmit
  rw [bind_ok (show (reads (w.delivers · nodeId message) : Host Bool) s = (.ok _, s) from rfl)]
  split
  · refine ⟨[{ nodeId, message, tables := s.db }], ?_, .inr rfl⟩
    change ({ s with outbox := s.outbox ++ [{ nodeId, message, tables := s.db }] } : State).core = _
    unfold State.core
    simp [hstart, hack]
  · exact SentFrom.none ..

/-- A start is sent at most once, and from the tables as they are. -/
theorem send_start (nodeId : Text) {message : HostMessage} (hstart : message.isStart = true)
    (hack : message.isAck = false) (hlead : message.isDelivery = false) (s : State) :
    SentFrom nodeId message s.db s.core (send w nodeId message s).2.core := by
  unfold send
  rw [bind_ok (show (reads (w.blocked · nodeId) : Host Bool) s = (.ok _, s) from rfl)]
  split
  · exact SentFrom.none ..
  · rw [hlead, if_neg Bool.false_ne_true, bind_ok (show
      (reads (·.commandProtocol w nodeId) : Host Bool) s = (.ok _, s) from rfl)]
    split
    · exact SentFrom.none ..
    · cases message.shell with
      | none => exact transmit_start w nodeId hstart hack s
      | some shell =>
        -- What is revoked first leaves the tables as they are.
        simp only
        rcases sendSessionRevocations_total w nodeId s with ⟨told, s₁, hrun⟩
        have hcore : s₁.core = s.core := (sendSessionRevocations_quiet w nodeId).returns hrun
        have hdb : s₁.db = s.db := by
          have h := sendSessionRevocations_tables w nodeId s
          rw [hrun] at h
          exact h
        rw [bind_ok hrun, ← hcore, ← hdb]
        split
        · exact SentFrom.none ..
        · rw [bind_ok (show (reads (·.ready w nodeId _) : Host Bool) s₁ = (.ok _, s₁) from rfl)]
          split
          · exact SentFrom.none ..
          · exact transmit_start w nodeId hstart hack s₁

/-! ### Output -/

theorem Core.put_same {c : Core} {e : Execution} (h : c.executions e.id = some e) : c.put e = c := by
  unfold Core.put
  rw [← h, Function.update_eq_self]

theorem State.mem_sequences (s : State) (id n : Nat) :
    n ∈ s.sequences id ↔ (s.core.events (id, n)).isSome = true := by
  unfold State.sequences State.core
  rw [List.mem_insertionSort, List.mem_map]
  constructor
  · rintro ⟨⟨⟨id', n'⟩, event⟩, hmem, rfl⟩
    rw [List.mem_filter, decide_eq_true_eq] at hmem
    rcases hmem with ⟨hmem, hid⟩
    change id' = id at hid
    subst hid
    exact Option.isSome_iff_exists.mpr ⟨event, (Table.mem_entries_iff _ _ _).mp hmem⟩
  · intro h
    rcases Option.isSome_iff_exists.mp h with ⟨event, hevent⟩
    refine ⟨((id, n), event), ?_, rfl⟩
    rw [List.mem_filter]
    exact ⟨(Table.mem_entries_iff _ _ _).mpr hevent, by simp⟩

/-- A number is reached when everything up to it is accounted for. -/
theorem State.le_throughSeq (s : State) (e : Execution) (final : Nat) :
    final ≤ s.throughSeq e ↔ ∀ n, 1 ≤ n → n ≤ final → s.core.Accounted e.id e.gaps n := by
  unfold State.throughSeq
  rw [Ranges.le_reach (Ranges.sorted_first _)]
  refine forall_congr' fun n => ?_
  have hcovers : Ranges.Covers
      ((e.gaps ++ (s.sequences e.id).map fun n => { first := n, last := n : Range }).insertionSort
        fun a b => a.first ≤ b.first) n ↔ s.core.Accounted e.id e.gaps n := by
    have hperm := List.perm_insertionSort (fun a b : Range => a.first ≤ b.first)
      (e.gaps ++ (s.sequences e.id).map fun n => { first := n, last := n : Range })
    have hkept : Ranges.Covers ((s.sequences e.id).map fun n => { first := n, last := n : Range }) n ↔
        (s.core.events (e.id, n)).isSome = true := by
      rw [← State.mem_sequences]
      unfold Ranges.Covers
      constructor
      · rintro ⟨r, hr, hfirst, hlast⟩
        rcases List.mem_map.mp hr with ⟨m, hm, rfl⟩
        rwa [Nat.le_antisymm hlast hfirst]
      · intro hn
        exact ⟨_, List.mem_map_of_mem hn, le_rfl, le_rfl⟩
    unfold Core.Accounted
    rw [← hkept, or_comm, ← Ranges.covers_append]
    exact ⟨fun h => h.perm hperm, fun h => h.perm hperm.symm⟩
  rw [hcovers]
  rfl

theorem refreshOutput_local (e : Execution) : Local (refreshOutput e) := by
  unfold refreshOutput
  refine Local.bind Local.reads fun through => ?_
  extract_lets complete
  split
  · exact Local.pure
  · exact update_local _ _ _

/-- The flag is brought up to date, and nothing else. -/
theorem returns_refreshOutput {e e' : Execution} {s s' : State}
    (h : Returns (refreshOutput e) s e' s') (hrow : s.core.executions e.id = some e) :
    e' = { e with
      version := e'.version
      outputComplete := e'.outputComplete } ∧ e.version ≤ e'.version ∧ s.core.Flagged e' ∧
        s'.core = s.core.put e' := by
  unfold refreshOutput at h
  rcases returns_bind.mp h with ⟨through, s₁, hread, h⟩
  rcases returns_reads.mp hread with ⟨rfl, rfl⟩
  extract_lets complete at h
  have hcomplete : complete = true ↔ ∃ final, e.finalOutputSeq = some final ∧
      ∀ n, 1 ≤ n → n ≤ final → s.core.Accounted e.id e.gaps n := by
    simp only [complete]
    cases e.finalOutputSeq with
    | none => simp
    | some final => simp [State.le_throughSeq]
  by_cases hsame : complete = e.outputComplete
  · rw [if_pos hsame] at h
    rcases returns_pure.mp h with ⟨rfl, rfl⟩
    have hflagged : s.core.Flagged e := by
      rw [hsame] at hcomplete
      exact hcomplete
    exact ⟨rfl, le_rfl, hflagged, (Core.put_same hrow).symm⟩
  · rw [if_neg hsame] at h
    rcases returns_update h with ⟨row, hget, _, rfl, rfl⟩
    rw [hrow, Option.some.injEq] at hget
    subst hget
    exact ⟨rfl, Nat.le_succ _, hcomplete, State.put_core ..⟩

/-- A row that changes and then has its flag brought up to date. -/
theorem Core.put_put (c : Core) {e e' : Execution} (h : e'.id = e.id) : (c.put e).put e' = c.put e' := by
  unfold Core.put
  simp only [h, Function.update_idem]

/-- A change of the row that was read, after which the flag is brought up to date. -/
theorem returns_refreshed {e e₁ e₂ : Execution} {patch : Execution → Execution}
    {s s₁ s₂ s₃ : State} (hknown : Known e s.core)
    (hupdate : Returns (update e.id e.version patch) s e₁ s₁)
    (hexecutions : s₂.core.executions = s₁.core.executions)
    (hevents : s₂.core.events = s₁.core.events)
    (hrefresh : Returns (refreshOutput e₁) s₂ e₂ s₃) :
    s.core.executions e.id = some e ∧
      e₁ = { patch e with
        id := e.id
        version := e.version + 1 } ∧
        e₂ = { e₁ with
          version := e₂.version
          outputComplete := e₂.outputComplete } ∧
          e.version < e₂.version ∧ s.core.Flagged e₂ ∧ s₁.core = s.core.put e₁ ∧
            s₃.core = s₂.core.put e₂ := by
  rcases returns_update hupdate with ⟨row, hrow, hversion, hmade, rfl⟩
  have hsame := hknown.row hrow hversion
  subst hsame
  have hrow₁ : s₂.core.executions e₁.id = some e₁ := by
    rw [hexecutions, State.put_core, Core.put_executions_self]
  rcases returns_refreshOutput hrefresh hrow₁ with ⟨hmade₂, hversion₂, hflagged, hcore⟩
  have hnext : e₁.version = row.version + 1 := by rw [hmade]
  refine ⟨hrow, hmade, hmade₂, by omega, ?_, State.put_core .., hcore⟩
  have hsame : ∀ n, s₂.core.Accounted e₂.id e₂.gaps n ↔ s.core.Accounted e₂.id e₂.gaps n := by
    intro n
    unfold Core.Accounted
    rw [hevents, State.put_core]
    rfl
  unfold Core.Flagged at hflagged ⊢
  simp only [hsame] at hflagged
  exact hflagged

end Commands

end CopilotFleet
