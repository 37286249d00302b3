import CopilotFleet.Host.CommandEffects

/-!
# Every Operation is a Number of Moves

For each function of the service, that it does nothing but moves, and what its
caller has to know for that. What a function has read of an execution stays
`Known` while others are at work, and is still the row exactly when the version
is, which is what every change checks.

The moves of one operation are those of all the parts it ran through before it
returned or threw. The operations that begin with a message of a Node come after.

## Theorems

* `finish_acts`: An execution that never started is over.
* `cancel_acts`: It is not wanted any more.
* `startExecution_acts`: A queued command begins and is sent once.
* `decide_acts`, `prepared_acts`: A decision, and the Node's answer to it.
* `tick_acts`: All that is due.
-/

namespace CopilotFleet

namespace Commands

open Utf16 Effect

variable {α β : Type} (w : World) {careful : Prop}

/-! ### Before a start -/

section

variable {P : Core → Prop} {Q : β → Core → Prop} {m : Host α}

/-- What is quiet comes first, and changes nothing that is known. -/
theorem Acts.quietly {f : α → Host β} (h : Quiet m) (hf : ∀ a, Acts careful P (f a) Q) :
    Acts careful P (m >>= f) Q := Acts.bind (Acts.quiet h fun _ _ _ hc => hc) hf

theorem Yields.quietly {f : α → Host β} (h : Quiet m)
    (hf : ∀ a, (moves careful).Yields P (f a) Q) : (moves careful).Yields P (m >>= f) Q :=
  Abstraction.Yields.bind (Acts.quiet (Q := fun _ => P) h fun _ _ _ hc => hc).yields hf

/-- What is known of an answer and not of the tables need not be carried along. -/
theorem Acts.assuming {fact : Prop} {Q : α → Core → Prop} (h : fact → Acts careful P m Q) :
    Acts careful (fun c => fact ∧ P c) m Q := by
  intro s hs
  exact h hs.2.1 s ⟨hs.1, hs.2.2⟩

theorem Acts.quiet_done (h : Quiet m) : Acts careful P m fun _ _ => True :=
  Acts.quiet h fun _ _ _ _ => trivial

theorem Acts.true_pre {Q : α → Core → Prop} (h : Acts careful (fun _ => True) m Q) :
    Acts careful P m Q := h.imp (fun _ _ _ => trivial) fun _ _ _ hc => hc

end

theorem finish_local (e : Execution) (state : ExecutionState) (reasonCode : Text)
    (patch : Execution → Execution) : Local (finish w e state reasonCode patch) := by
  unfold finish
  refine Local.writeAtomically (Local.bind (markCancel_quiet e).local fun _ => ?_)
  exact Local.bind Local.reads fun now => update_local _ _ _

/-- An execution that never started is over. -/
theorem finish_acts (e : Execution) (state : ExecutionState) (reasonCode : Text)
    (patch : Execution → Execution)
    (hchange : ∀ now, Change e { patch { e with
      state
      reasonCode
      ownership := .notStarted
      settledAt := some now
      finalOutputSeq := some 0
      outputComplete := true
      delivery := .pending } with
        id := e.id
        version := e.version + 1 }) :
    Acts careful (Known e) (finish w e state reasonCode patch) fun e' c => Known e' c := by
  unfold finish
  refine Acts.atomically ?_ ?_
  · exact Local.bind (markCancel_quiet e).local fun _ =>
      Local.bind Local.reads fun now => update_local _ _ _
  · refine Yields.quietly (markCancel_quiet e) fun _ => Abstraction.Yields.asks fun now => ?_
    exact (Acts.imp (update_acts e _ (hchange now)) (fun _ _ h => h) fun _ _ _ h => h.2).yields

theorem fail_acts (e : Execution) (reasonCode : Text) (hwaits : e.state.terminal = false)
    (hidle : e.state.active = false) :
    Acts careful (Known e) (fail w e reasonCode) fun _ _ => True := by
  unfold fail
  refine Acts.bind (finish_acts w e .failed reasonCode id fun now => ?_) fun e' =>
    Acts.quiet_done (publish_quiet w e')
  exact .retire _ _ _ _ _ _ _ _ _ _ (Nat.lt_succ_self _) hwaits hidle rfl (.inl rfl) (.inl rfl)

theorem sendPreparation_acts (e : Execution) (hwaits : e.state.terminal = false)
    (hidle : e.state.active = false) :
    Acts careful (Known e) (sendPreparation w e) fun _ _ => True := by
  unfold sendPreparation
  refine Acts.asks fun able => ?_
  split
  · exact fail_acts w e _ hwaits hidle
  · refine Acts.asks fun now => Acts.quietly (recordPreparationSend_quiet _ _) fun _ => ?_
    refine Acts.reading (Q := fun message c =>
      (message.isStart = false ∧ message.isAck = false) ∧ Known e c)
      (fun s _ hc => ⟨⟨rfl, rfl⟩, hc⟩) fun message => Acts.assuming fun hkind => ?_
    refine Acts.quietly (send_quiet w _ hkind.1 hkind.2) fun sent => ?_
    split
    · exact fail_acts w e _ hwaits hidle
    · exact Acts.done

theorem found_acts {P : Core → Prop} (id : Nat) : Acts careful P (found id) fun _ _ => True := by
  unfold found
  refine Acts.asks fun row => ?_
  cases row with
  | none => exact Acts.raise
  | some e => exact Acts.done

theorem requestAgain_quiet (leadId key : Text) (digest : Digest) (now : Int) :
    Quiet (requestAgain leadId key digest now) := by
  unfold requestAgain
  refine Quiet.asks fun row => ?_
  cases row with
  | none => exact Quiet.pure
  | some row =>
      simp only
      split
      · exact Quiet.raise
      · split
        · exact Quiet.raise
        · refine Quiet.asks fun execution => ?_
          cases execution with
          | none => exact Quiet.raise
          | some execution => exact Quiet.pure

theorem assertAdmission_quiet (leadId nodeId : Text) : Quiet (assertAdmission w leadId nodeId) := by
  unfold assertAdmission
  refine Quiet.asks fun pending => ?_
  split
  · exact Quiet.raise
  · refine Quiet.asks fun full => ?_
    split
    · exact Quiet.raise
    · exact Quiet.pure

theorem insert_local (e : Execution) : Local (insert w e) := by
  unfold insert
  refine Local.writeAtomically (Local.bind (assertAdmission_quiet w _ _).local fun _ => ?_)
  refine Local.bind Local.reads fun used => ?_
  split
  · exact Local.raise
  · exact Local.bind Local.changeDb fun _ => Local.bind Local.changeDb fun _ => Local.pure

theorem returns_insert {e e' : Execution} {s s' : State} (h : Returns (insert w e) s e' s') :
    e' = e ∧ s'.core = s.core.put e := by
  unfold insert at h
  rcases returns_bind.mp (returns_transaction.mp h) with ⟨_, s₁, hadmit, h⟩
  have hquiet := (assertAdmission_quiet w _ _).returns hadmit
  rcases returns_bind.mp h with ⟨used, s₂, hread, h⟩
  rcases returns_reads.mp hread with ⟨_, rfl⟩
  split at h
  · exact (not_returns_raise h).elim
  · rcases returns_bind.mp h with ⟨_, s₃, hrequest, h⟩
    rcases returns_bind.mp h with ⟨_, s₄, hput, h⟩
    rcases returns_pure.mp h with ⟨rfl, rfl⟩
    have h₃ := returns_changeDb.mp hrequest
    have h₄ := returns_changeDb.mp hput
    refine ⟨rfl, ?_⟩
    rw [← h₄]
    change (s₃.put e).core = _
    rw [State.put_core, ← h₃]
    change s₁.core.put e = _
    rw [hquiet]

/-- A lead asks for a command. -/
theorem request_acts (leadId : Text) (run : RunCommand) (now : Int) :
    Acts careful (fun _ => True) (request w leadId run now) fun _ _ => True := by
  unfold request
  refine Acts.asks fun live => Acts.quietly (check_quiet live) fun _ => ?_
  refine Acts.quietly (requestAgain_quiet _ _ _ _) fun again => ?_
  cases again with
  | some duplicate => exact Acts.done
  | none =>
      refine Acts.asks fun durable => ?_
      split
      · exact Acts.raise
      · refine Acts.asks fun target => ?_
        cases target with
        | error e => exact Acts.raise
        | ok target =>
            rcases target with ⟨nodeId, path, taskId⟩
            refine Acts.asks fun ready => Acts.quietly (check_quiet ready) fun _ =>
              Acts.asks fun hostId => ?_
            cases hostId with
            | none => exact Acts.raise
            | some hostId =>
                -- The row is inserted in one transaction, under an id nobody has drawn.
                refine Acts.bind (Q := fun e c => e.state = .preparing ∧ Known e c)
                  (Acts.atomically ?_ ?_) fun e => ?_
                · refine Local.bind Local.drawId fun id => Local.bind Local.drawId fun attemptId =>
                    Local.bind (insert_local w _) fun e => Local.bind Local.reads fun bound =>
                      Local.bind (check_quiet _).local fun _ => Local.pure
                · intro s e s' hkeyed _ h
                  rcases returns_bind.mp h with ⟨id, s₁, hid, h⟩
                  rcases returns_drawId.mp hid with ⟨rfl, rfl⟩
                  rcases returns_bind.mp h with ⟨attemptId, s₂, hattempt, h⟩
                  rcases returns_drawId.mp hattempt with ⟨rfl, rfl⟩
                  rcases returns_bind.mp h with ⟨inserted, s₃, hinsert, h⟩
                  rcases returns_insert w hinsert with ⟨rfl, hcore⟩
                  rcases returns_bind.mp h with ⟨bound, s₄, hread, h⟩
                  rcases returns_reads.mp hread with ⟨_, rfl⟩
                  rcases returns_bind.mp h with ⟨_, s₅, hcheck, h⟩
                  rcases returns_check.mp hcheck with ⟨_, rfl⟩
                  rcases returns_pure.mp h with ⟨rfl, rfl⟩
                  change (moves careful).Steps s.core s₃.core ∧ _ ∧ Known _ s₃.core
                  rw [hcore]
                  refine ⟨.single (Move.request _ (s.nextId + 2)
                    ⟨rfl, rfl, rfl, rfl, rfl, rfl, rfl, rfl, rfl⟩ le_rfl ?_), rfl, ?_⟩
                  · exact Nat.lt_add_of_pos_right Nat.two_pos
                  · exact Known.put (Nat.lt_add_of_pos_right Nat.two_pos)
                · refine Acts.assuming fun hstate => Acts.quietly (publish_quiet w e) fun _ => ?_
                  refine Acts.bind (sendPreparation_acts w e ?_ ?_) fun _ => found_acts _
                  · rw [hstate]
                    rfl
                  · rw [hstate]
                    rfl

/-! ### Cancellation -/

/-- What is found in the table is known. -/
theorem known_of_execution {s : State} (hkeyed : s.core.Keyed) {id : Nat} {e : Execution}
    (h : s.execution id = some e) : e.id = id ∧ Known e s.core :=
  ⟨(hkeyed.execution id e h).1, Known.of_row hkeyed h⟩

/-- It is not wanted any more. -/
theorem cancel_acts (id : Nat) (leadId : Option Text) :
    Acts careful (fun _ => True) (cancel w id leadId) fun _ _ => True := by
  unfold cancel
  refine Acts.asks fun live => Acts.quietly (check_quiet live) fun _ => ?_
  refine Acts.reading (Q := fun row c => ∀ e, row = some e → e.id = id ∧ Known e c)
    (fun s hkeyed _ e he => known_of_execution hkeyed he) fun row => ?_
  cases row with
  | none => exact Acts.raise
  | some current =>
      simp only
      split
      · exact Acts.raise
      · split
        · exact Acts.done
        · next hwaits =>
            have hwaits' : current.state.terminal = false := Bool.eq_false_iff.mpr hwaits
            refine Acts.bind (Q := fun _ _ => True) (Acts.atomically ?_ ?_) fun e =>
              Acts.quietly (publish_quiet w e) fun _ =>
                Acts.quietly (sendCancel_quiet w e false) fun _ => Acts.done
            · refine Local.bind (markCancel_quiet current).local fun _ => ?_
              split
              · exact update_local _ _ _
              · exact finish_local w _ _ _ _
            · refine Yields.quietly (markCancel_quiet current) fun _ => ?_
              refine Abstraction.Yields.imp (P := fun c => current.id = id ∧ Known current c)
                (Q := fun _ _ => True) (Acts.assuming fun hid => ?_ : Acts careful _ _ _).yields
                (fun c _ hc => hc current rfl) fun _ _ _ h => h
              subst hid
              split
              · next hbusy =>
                  exact Acts.imp (update_acts current _ (.withdraw _ hbusy)) (fun _ _ h => h)
                    fun _ _ _ _ => trivial
              · next hidle =>
                  refine Acts.imp (finish_acts w current .cancelled _ _ fun now => ?_)
                    (fun _ _ h => h) fun _ _ _ _ => trivial
                  exact .retire _ _ _ _ _ _ _ _ _ _ (Nat.lt_succ_self _) hwaits'
                    (Bool.eq_false_iff.mpr hidle) rfl (.inl rfl) (.inl rfl)

/-- A loop whose turns need to know nothing. -/
theorem Acts.each_true {f : β → Host Unit} {xs : List β}
    (h : ∀ x, Acts careful (fun _ => True) (f x) fun _ _ => True) :
    Acts careful (fun _ => True) (each xs f) fun _ _ => True :=
  Abstraction.Refines.each (A := moves careful) fun x _ => h x

theorem revokeAllSessionGrants_quiet : Quiet (revokeAllSessionGrants w) :=
  Quiet.bind (revokeSessionGrants_quiet none) fun _ => resendRevocations_quiet w none

theorem revokeTask_acts (taskId : Text) :
    Acts careful (fun _ => True) (revokeTask w taskId) fun _ _ => True := by
  unfold revokeTask
  exact Acts.asks fun unsettled => Acts.each_true fun e => Acts.discard (cancel_acts w e.id none)

/-! ### Prompts -/

@[simp] theorem PromptRecord.retained_deliveryId (p : PromptRecord) :
    p.retained.delivery.deliveryId = p.delivery.deliveryId := by
  unfold PromptRecord.retained
  split <;> rfl

@[simp] theorem PromptRecord.retained_state (p : PromptRecord) : p.retained.state = p.state := by
  unfold PromptRecord.retained
  split <;> rfl

theorem PromptRecord.retained_follows (p : PromptRecord) : p.retained.Follows p := by
  unfold PromptRecord.retained
  split
  · exact ⟨rfl, rfl, rfl⟩
  · exact ⟨rfl, rfl, rfl⟩

theorem PromptRecord.Follows.trans {p p' p'' : PromptRecord} (h : p''.Follows p')
    (h' : p'.Follows p) : p''.Follows p :=
  ⟨h.deliveryId.trans h'.deliveryId, h.key.trans h'.key, h.executions.trans h'.executions⟩

/-- The tables with one prompt written. -/
def State.withPrompt (s : State) (p : PromptRecord) : State :=
  { s with db := { s.db with prompts := s.db.prompts.set p.delivery.deliveryId p } }

@[simp] theorem State.withPrompt_core (s : State) (p : PromptRecord) :
    (s.withPrompt p).core = s.core.putPrompt p := by
  unfold State.withPrompt State.core Core.putPrompt
  simp only [get_set_eq_update]

/-- A prompt stands in the tables as it was read. -/
def Stands (p : PromptRecord) (c : Core) : Prop := c.prompts p.delivery.deliveryId = some p

theorem putPrompt_acts (p p' : PromptRecord) (hfollows : p'.Follows p)
    (hstill : p'.state.retired = p.state.retired) :
    Acts careful (Stands p) (putPrompt p') fun _ c => Stands p' c := by
  refine Abstraction.Refines.writes (fun s _ hs => ?_) fun s _ hs => ?_
  · change Move careful s.core (s.withPrompt p').core
    rw [State.withPrompt_core]
    exact .revise p p' hs hfollows hstill
  · change Stands p' (s.withPrompt p').core
    rw [State.withPrompt_core]
    exact Function.update_self ..

/-- A prompt moves on, and is owed or retired as before. -/
theorem updatePrompt_acts (p p' : PromptRecord) (hfollows : p'.Follows p)
    (hstill : p'.state.retired = p.state.retired) :
    Acts careful (Stands p) (updatePrompt p') fun _ c => Stands p'.retained c :=
  putPrompt_acts p p'.retained (p'.retained_follows.trans hfollows)
    (by rw [PromptRecord.retained_state]; exact hstill)

theorem stands_of_prompt {s : State} (hkeyed : s.core.Keyed) {id : Nat} {p : PromptRecord}
    (h : s.db.prompts.get id = some p) : Stands p s.core := by
  unfold Stands
  rw [(hkeyed.prompt id p h).1]
  exact h

theorem prioritizePrompt_acts (id : Nat) :
    Acts careful (fun _ => True) (prioritizePrompt w id) fun _ _ => True := by
  unfold prioritizePrompt
  refine Acts.asks fun now => ?_
  refine Acts.reading (Q := fun row c => ∀ p, row = some p → Stands p c)
    (fun s hkeyed _ p hp => stands_of_prompt hkeyed hp) fun row => ?_
  cases row with
  | none => exact Acts.done
  | some p =>
      exact Acts.imp (putPrompt_acts p _ ⟨rfl, rfl, rfl⟩ rfl) (fun _ _ hc => hc p rfl)
        fun _ _ _ _ => trivial

theorem enqueuePrompt_local (record : PromptRecord) : Local (enqueuePrompt w record) := by
  unfold enqueuePrompt
  refine Local.writeAtomically (Local.bind Local.reads fun existing => ?_)
  cases existing with
  | some existing => exact Local.pure
  | none =>
      refine Local.bind Local.reads fun pending => ?_
      split
      · exact Local.raise
      · refine Local.bind Local.drawId fun id => Local.bind Local.reads fun full => ?_
        cases full with
        | some code => exact Local.raise
        | none => exact Local.bind Local.changeDb fun _ => Local.pure

/-- A prompt is enqueued, or there already under its key. -/
theorem returns_enqueuePrompt {record p : PromptRecord} {s s' : State} (hkeyed : s.core.Keyed)
    (h : Returns (enqueuePrompt w record) s p s') :
    (Stands p s.core ∧ p.key = record.key ∧ s'.core = s.core) ∨
      (p.delivery.deliveryId = s.core.nextId ∧ p.key = record.key ∧
        p.executions = record.executions ∧ p.state = .pending ∧
          s'.core = { s.core.putPrompt p with nextId := s.core.nextId + 1 }) := by
  unfold enqueuePrompt at h
  rcases returns_bind.mp (returns_transaction.mp h) with ⟨existing, s₁, hread, h⟩
  rcases returns_reads.mp hread with ⟨hfind, rfl⟩
  cases existing with
  | some existing =>
      rcases returns_pure.mp h with ⟨rfl, rfl⟩
      have hkey := List.find?_some hfind
      simp only [Bool.and_eq_true, decide_eq_true_eq] at hkey
      rcases (Table.mem_values_iff _ _).mp (List.mem_of_find?_eq_some hfind) with ⟨id, hget⟩
      exact .inl ⟨stands_of_prompt hkeyed hget, hkey.2, rfl⟩
  | none =>
      rcases returns_bind.mp h with ⟨pending, s₂, hpending, h⟩
      rcases returns_reads.mp hpending with ⟨_, rfl⟩
      split at h
      · exact (not_returns_raise h).elim
      · rcases returns_bind.mp h with ⟨id, s₃, hid, h⟩
        rcases returns_drawId.mp hid with ⟨rfl, rfl⟩
        rcases returns_bind.mp h with ⟨full, s₄, hfull, h⟩
        rcases returns_reads.mp hfull with ⟨_, rfl⟩
        cases full with
        | some code => exact (not_returns_raise h).elim
        | none =>
            rcases returns_bind.mp h with ⟨_, s₅, hput, h⟩
            rcases returns_pure.mp h with ⟨rfl, rfl⟩
            have hs₅ := returns_changeDb.mp hput
            refine .inr ⟨rfl, rfl, rfl, rfl, ?_⟩
            rw [← hs₅]
            exact State.withPrompt_core { s with nextId := s.nextId + 1 } _

theorem queueLeadPrompt_local (leadId prompt : Text) (key : PromptKey) (executions : List Nat)
    (binding : Option Text) (attachments : List Attachment) :
    Local (queueLeadPrompt w leadId prompt key executions binding attachments) := by
  unfold queueLeadPrompt
  refine Local.bind Local.reads fun live => Local.bind (check_quiet live).local fun _ => ?_
  refine Local.bind Local.reads fun durable => ?_
  split
  · exact Local.raise
  · exact Local.bind Local.reads fun now => Local.bind Local.reads fun nodeId =>
      enqueuePrompt_local w _

theorem returns_queueLeadPrompt {leadId prompt : Text} {key : PromptKey} {executions : List Nat}
    {binding : Option Text} {attachments : List Attachment} {p : PromptRecord} {s s' : State}
    (hkeyed : s.core.Keyed)
    (h : Returns (queueLeadPrompt w leadId prompt key executions binding attachments) s p s') :
    (Stands p s.core ∧ p.key = key ∧ s'.core = s.core) ∨
      (p.delivery.deliveryId = s.core.nextId ∧ p.key = key ∧ p.executions = executions ∧
        p.state = .pending ∧ s'.core = { s.core.putPrompt p with nextId := s.core.nextId + 1 }) := by
  unfold queueLeadPrompt at h
  rcases returns_bind.mp h with ⟨live, s₁, hread, h⟩
  rcases returns_reads.mp hread with ⟨_, rfl⟩
  rcases returns_bind.mp h with ⟨_, s₂, hcheck, h⟩
  rcases returns_check.mp hcheck with ⟨_, rfl⟩
  rcases returns_bind.mp h with ⟨durable, s₃, hread, h⟩
  rcases returns_reads.mp hread with ⟨_, rfl⟩
  split at h
  · exact (not_returns_raise h).elim
  · rcases returns_bind.mp h with ⟨now, s₄, hread, h⟩
    rcases returns_reads.mp hread with ⟨_, rfl⟩
    rcases returns_bind.mp h with ⟨nodeId, s₅, hread, h⟩
    rcases returns_reads.mp hread with ⟨_, rfl⟩
    exact returns_enqueuePrompt w hkeyed h

/-- A prompt that reports no execution is enqueued. -/
theorem queueLeadPrompt_acts (leadId prompt key : Text) (binding : Option Text)
    (attachments : List Attachment) :
    Acts careful (fun _ => True)
      (queueLeadPrompt w leadId prompt (.other key) [] binding attachments) fun _ _ => True := by
  unfold queueLeadPrompt
  refine Acts.asks fun live => Acts.quietly (check_quiet live) fun _ => Acts.asks fun durable => ?_
  split
  · exact Acts.raise
  · refine Acts.asks fun now => Acts.asks fun nodeId => ?_
    refine Acts.restoring (restores_writeAtomically _) (enqueuePrompt_local w _) ?_
    intro s p s' hkeyed _ h
    refine ⟨?_, trivial⟩
    change (moves careful).Steps s.core s'.core
    rcases returns_enqueuePrompt w hkeyed h with ⟨_, _, hcore⟩ | ⟨hid, hkey, hnone, _, hcore⟩
    · rw [hcore]
      exact Relation.ReflTransGen.refl
    · rw [hcore]
      refine .single (Move.enqueue p _ hid.ge ?_ hnone fun id => ?_)
      · rw [hid]
        exact Nat.lt_succ_self _
      · rw [hkey]
        exact fun heq => by cases heq

theorem queueCompletion_acts (e : Execution) (howed : e.delivery = .pending) :
    Acts careful (Known e) (queueCompletion w e) fun _ _ => True := by
  unfold queueCompletion
  refine Acts.asks fun dead => ?_
  split
  · exact Acts.bind (update_acts e _ (.orphan howed)) fun e' => Acts.quiet_done (publish_quiet w e')
  · refine Acts.asks fun durable => ?_
    split
    · refine Acts.atomically ?_ ?_
      · exact Local.bind (queueLeadPrompt_local w _ _ _ _ _ _) fun p =>
          Local.bind (update_local _ _ _) fun e' => (publish_quiet w e').local
      · intro s _ s' hkeyed hknown h
        refine ⟨?_, trivial⟩
        change (moves careful).Steps s.core s'.core
        rcases returns_bind.mp h with ⟨p, s₁, hqueue, h⟩
        rcases returns_bind.mp h with ⟨e', s₂, hupdate, h⟩
        rw [(publish_quiet w e').returns h]
        rcases returns_update hupdate with ⟨row, hrow, hversion, rfl, rfl⟩
        rw [State.put_core]
        rcases returns_queueLeadPrompt w hkeyed hqueue with
          ⟨hthere, hkey, hcore⟩ | ⟨hid, hkey, hreports, hwaits, hcore⟩
        · rw [hcore] at hrow ⊢
          have hsame := hknown.row hrow hversion
          subst hsame
          exact .single (.completeAgain row _ p hrow howed hthere hkey rfl)
        · rw [hcore] at hrow ⊢
          have hsame := hknown.row hrow hversion
          subst hsame
          refine .single (.complete row _ p (s.core.nextId + 1) hrow howed hid.ge ?_ hwaits hkey
            hreports rfl)
          rw [hid]
          exact Nat.lt_succ_self _
    · exact Acts.done

/-- The prompts that are owed stand in the tables, each once. -/
theorem stands_of_mem_prompts {s : State} (hkeyed : s.core.Keyed) {p : PromptRecord}
    (h : p ∈ s.prompts) : Stands p s.core ∧ p.state.retired = false := by
  unfold State.prompts at h
  rw [List.mem_insertionSort, List.mem_filter] at h
  rcases (Table.mem_values_iff _ _).mp h.1 with ⟨id, hget⟩
  exact ⟨stands_of_prompt hkeyed hget, by simpa using h.2⟩

theorem stands_of_mem_promptsOf {s : State} (hkeyed : s.core.Keyed) {leadId : Text}
    {p : PromptRecord} (h : p ∈ s.promptsOf leadId) : Stands p s.core ∧ p.state.retired = false :=
  stands_of_mem_prompts hkeyed (List.mem_of_mem_filter h)

theorem pumpLead_acts (leadId : Text) :
    Acts careful (fun _ => True) (pumpLead w leadId) fun _ _ => True := by
  unfold pumpLead
  refine Acts.asks fun held => ?_
  split
  · exact Acts.done
  · refine Acts.reading (Q := fun due c => ∀ p, due = some p → p.state.retired = false ∧ Stands p c)
      (fun s hkeyed _ p hp => (stands_of_mem_promptsOf hkeyed (List.mem_of_find?_eq_some hp)).symm)
      fun due => ?_
    cases due with
    | none => exact Acts.done
    | some p =>
        refine Acts.imp (P := fun c => p.state.retired = false ∧ Stands p c) (Q := fun _ _ => True)
          (Acts.assuming fun hwaits => ?_) (fun _ _ hc => hc p rfl) fun _ _ _ h => h
        refine Acts.bind (updatePrompt_acts p _ ⟨rfl, rfl, rfl⟩ hwaits.symm) fun _ => ?_
        refine Acts.asks fun nodeId => Acts.quietly (send_quiet w nodeId rfl rfl) fun sent => ?_
        split
        · refine Acts.imp (updatePrompt_acts { p with state := .reserved } _ ⟨rfl, rfl, rfl⟩ rfl)
            (fun _ _ hc => hc) fun _ _ _ _ => trivial
        · exact Acts.done

/-! ### What became of a prompt -/

theorem Delivered.nil {delivery : DeliveryState} (x : Nat → Option Execution) :
    Delivered [] delivery x x := by
  intro id
  cases x id with
  | none => rfl
  | some e =>
      simp only
      rw [if_neg List.not_mem_nil]
      trivial

/-- An execution that heard of it is the same otherwise. -/
theorem Delivered.row {ids : List Nat} {delivery : DeliveryState} {x y : Nat → Option Execution}
    (h : Delivered ids delivery x y) {j : Nat} {e' : Execution} (he' : y j = some e') :
    ∃ e, x j = some e ∧ e'.id = e.id := by
  have hj := h j
  cases hx : x j with
  | none =>
      simp only [hx] at hj
      rw [hj] at he'
      cases he'
  | some e =>
      simp only [hx] at hj
      split at hj
      · rcases hj with ⟨v, _, hy⟩
        rw [hy, Option.some.injEq] at he'
        exact ⟨e, rfl, by rw [← he']⟩
      · rw [hj, Option.some.injEq] at he'
        exact ⟨e, rfl, by rw [← he']⟩

/-- One execution after the other hears of it. -/
theorem Delivered.cons {id : Nat} {ids : List Nat} {delivery : DeliveryState}
    {x y z : Nat → Option Execution} (h : Delivered [id] delivery x y)
    (h' : Delivered ids delivery y z) : Delivered (id :: ids) delivery x z := by
  intro j
  have hj := h j
  have hj' := h' j
  cases hx : x j with
  | none =>
      simp only [hx] at hj
      rw [hj] at hj'
      exact hj'
  | some e =>
      simp only [hx, List.mem_singleton] at hj
      by_cases heq : j = id
      · rw [if_pos heq] at hj
        rcases hj with ⟨v, hv, hy⟩
        simp only [hy] at hj'
        simp only
        rw [if_pos (List.mem_cons.mpr (.inl heq))]
        split at hj'
        · rcases hj' with ⟨v', hv', hz⟩
          exact ⟨v', hv.trans hv', hz⟩
        · exact ⟨v, hv, hj'⟩
      · rw [if_neg heq] at hj
        simp only [hj] at hj'
        simp only [List.mem_cons, heq, false_or]
        exact hj'

/-- Telling an execution goes through, and changes nothing but that it was told. -/
theorem tell_ok (delivery : DeliveryState) (id : Nat) {s : State}
    (hkeyed : ∀ id e, s.core.executions id = some e → e.id = id) :
    ∃ s' x, tell w delivery id s = (.ok (), s') ∧ s'.core = { s.core with executions := x } ∧
      Delivered [id] delivery s.core.executions x := by
  cases hrow : s.core.executions id with
  | none =>
      -- There is no row: nothing is told, and no row changes.
      refine ⟨s, s.core.executions, ?_, rfl, fun j => ?_⟩
      · have hread : (reads (·.execution id) : Host (Option Execution)) s = (.ok none, s) := by
          rw [← hrow]
          rfl
        exact bind_ok hread
      · cases hj : s.core.executions j with
        | none => rfl
        | some e =>
            simp only [List.mem_singleton]
            split
            · next heq =>
                rw [heq, hrow] at hj
                cases hj
            · trivial
  | some row =>
      have hid := hkeyed id row hrow
      have hread : (reads (·.execution id) : Host (Option Execution)) s = (.ok (some row), s) := by
        rw [← hrow]
        rfl
      -- Only the delivery state differs, so the update cannot be refused.
      have hupdate := update_ok (fun e => { e with delivery }) hrow ⟨rfl, rfl, rfl, rfl⟩
      rcases publish_total w { row with
        delivery
        id
        version := row.version + 1 } (s.put { row with
          delivery
          id
          version := row.version + 1 }) with ⟨_, s', hpublish⟩
      refine ⟨s', (s'.core).executions, ?_, ?_, ?_⟩
      · unfold tell
        rw [bind_ok hread]
        exact (bind_ok hupdate).trans hpublish
      · have hcore := (publish_quiet w _).returns hpublish
        rw [State.put_core] at hcore
        rw [hcore]
        rfl
      · have hcore := (publish_quiet w _).returns hpublish
        rw [State.put_core] at hcore
        rw [hcore]
        intro j
        rw [Core.put_executions]
        cases hj : s.core.executions j with
        | none =>
            simp only
            rw [if_neg fun heq => by rw [heq, hrow] at hj; cases hj]
        | some e =>
            simp only [List.mem_singleton]
            by_cases heq : j = id
            · rw [if_pos heq, if_pos heq]
              rw [heq, hrow, Option.some.injEq] at hj
              refine ⟨row.version + 1, by rw [← hj]; exact Nat.lt_succ_self _, ?_⟩
              rw [← hj, ← hid]
            · rw [if_neg heq, if_neg heq]

theorem each_tell_ok (delivery : DeliveryState) (ids : List Nat) {s : State}
    (hkeyed : ∀ id e, s.core.executions id = some e → e.id = id) :
    ∃ s' x, each ids (tell w delivery) s = (.ok (), s') ∧
      s'.core = { s.core with executions := x } ∧ Delivered ids delivery s.core.executions x := by
  induction ids generalizing s with
  | nil => exact ⟨s, s.core.executions, rfl, rfl, Delivered.nil _⟩
  | cons id rest ih =>
      rcases tell_ok w delivery id hkeyed with ⟨s₁, x, htell, hcore, htold⟩
      have hkeyed₁ : ∀ id e, s₁.core.executions id = some e → e.id = id := by
        intro j e' he'
        rw [hcore] at he'
        rcases htold.row he' with ⟨e, he, hid⟩
        rw [hid]
        exact hkeyed j e he
      rcases ih hkeyed₁ with ⟨s₂, y, hrest, hcore₂, htold₂⟩
      refine ⟨s₂, y, (bind_ok htell).trans hrest, ?_, ?_⟩
      · rw [hcore₂, hcore]
      · rw [hcore] at htold₂
        exact htold.cons htold₂

/-- A prompt that was owed moves on, and all it reports hear of it. -/
theorem deliver_move {p p' : PromptRecord} {delivery : DeliveryState} {s s₁ s' : State}
    {x : Nat → Option Execution} (hput : s₁.core = s.core.putPrompt p'.retained)
    (hstands : Stands p s.core) (hwaits : p.state.retired = false) (hfollows : p'.Follows p)
    (hstill : delivery.live = true → p'.state.retired = false)
    (hover : delivery ≠ .none ∧ delivery ≠ .pending)
    (hcore : s'.core = { s₁.core with executions := x })
    (htold : Delivered p.executions delivery s₁.core.executions x) :
    Move careful s.core s'.core := by
  rw [hput] at htold hcore
  rw [hcore]
  refine .deliver p p'.retained delivery x hstands hwaits (p'.retained_follows.trans hfollows) ?_
    hover htold
  rw [PromptRecord.retained_state]
  exact hstill

theorem returns_updatePrompt {p : PromptRecord} {s s' : State} {a : Unit}
    (h : Returns (updatePrompt p) s a s') : s'.core = s.core.putPrompt p.retained := by
  unfold updatePrompt putPrompt at h
  rw [← returns_changeDb.mp h]
  exact State.withPrompt_core s p.retained

theorem LeadPromptReceiptState.delivery_over (state : LeadPromptReceiptState) :
    state.delivery ≠ .none ∧ state.delivery ≠ .pending := by
  cases state <;> exact ⟨by decide, by decide⟩

/-- A delivery that is still under way has a prompt that is still owed. -/
theorem LeadPromptReceiptState.still_owed (state : LeadPromptReceiptState)
    (h : state.delivery.live = true) : state.prompt.retired = false := by
  cases state <;> first | rfl | cases h

theorem tell_local (delivery : DeliveryState) (id : Nat) : Local (tell w delivery id) := by
  unfold tell
  refine Local.bind Local.reads fun row => ?_
  cases row with
  | none => exact Local.pure
  | some e => exact Local.bind (update_local _ _ _) fun e' => (publish_quiet w e').local

/-- A Node says how a prompt was taken. -/
theorem promptReceipt_acts (nodeId : Text) (receipt : LeadPromptReceipt) :
    Acts careful (fun _ => True) (promptReceipt w nodeId receipt) fun _ _ => True := by
  unfold promptReceipt
  refine Acts.asks fun able => ?_
  split
  · exact Acts.done
  · refine Acts.reading (Q := fun row c => ∀ p, row = some p → Stands p c)
      (fun s hkeyed _ p hp => stands_of_prompt hkeyed hp) fun row => ?_
    cases row with
    | none => exact Acts.done
    | some p =>
        refine Acts.imp (P := Stands p) (Q := fun _ _ => True) ?_ (fun _ _ hc => hc p rfl)
          fun _ _ _ h => h
        simp only
        split
        · exact Acts.done
        · split
          · exact Acts.done
          · split
            · -- Its lead is gone: only the receipt is written.
              exact Acts.bind (updatePrompt_acts p _ ⟨rfl, rfl, rfl⟩ rfl) fun _ => Acts.done
            · split
              · exact Acts.done
              · next howed =>
                  have hwaits : p.state.retired = false := by
                    simp only [Bool.or_eq_true, not_or, Bool.not_eq_true] at howed
                    exact howed.1
                  split
                  · exact Acts.done
                  · split
                    · exact Acts.done
                    · refine Acts.atomically ?_ ?_
                      · refine Local.bind Local.reads fun now => Local.bind Local.reads fun seq => ?_
                        exact Local.bind Local.changeDb fun _ =>
                          Local.bind (Local.each (tell_local w _)) fun _ => Local.pure
                      · intro s _ s' hkeyed hstands h
                        refine ⟨?_, trivial⟩
                        rcases returns_bind.mp h with ⟨now, s₁, hread, h⟩
                        rcases returns_reads.mp hread with ⟨_, rfl⟩
                        rcases returns_bind.mp h with ⟨seq, s₂, hread, h⟩
                        rcases returns_reads.mp hread with ⟨_, rfl⟩
                        rcases returns_bind.mp h with ⟨_, s₃, hupdate, h⟩
                        rcases returns_bind.mp h with ⟨_, s₅, htells, h⟩
                        rcases returns_pure.mp h with ⟨_, rfl⟩
                        have hput := returns_updatePrompt hupdate
                        have hrows : ∀ id e, s₃.core.executions id = some e → e.id = id := by
                          rw [hput]
                          exact fun id e he => (hkeyed.execution id e he).1
                        -- Telling the executions cannot fail, so the receipt and their delivery go
                        -- together.
                        rcases each_tell_ok w receipt.state.delivery p.executions hrows with
                          ⟨s₄, x, htell, hcore, htold⟩
                        have hsame := Prod.mk.inj (htell.symm.trans htells)
                        refine .single ?_
                        change Move careful s.core s₅.core
                        rw [← hsame.2]
                        exact deliver_move hput hstands hwaits ⟨rfl, rfl, rfl⟩
                          receipt.state.still_owed receipt.state.delivery_over hcore htold

/-- Different prompts of a list have different numbers. -/
def Apart (prompts : List PromptRecord) : Prop :=
  prompts.Pairwise fun p q => p.delivery.deliveryId ≠ q.delivery.deliveryId

theorem State.prompts_apart {s : State} (hkeyed : s.core.Keyed) : Apart s.prompts := by
  have hvalues : Apart s.db.prompts.values := by
    have hkeys := List.pairwise_map.mp s.db.prompts.nodup
    unfold Apart Table.values
    rw [List.pairwise_map]
    refine hkeys.imp_of_mem fun {a b} ha hb hne heq => hne ?_
    have ha' := (hkeyed.prompt a.1 a.2 ((Table.mem_entries_iff _ _ _).mp ha)).1
    have hb' := (hkeyed.prompt b.1 b.2 ((Table.mem_entries_iff _ _ _).mp hb)).1
    rw [← ha', ← hb', heq]
  unfold State.prompts
  refine List.Perm.pairwise (List.perm_insertionSort _ _).symm (hvalues.filter _) ?_
  exact fun h => h.symm

/-- The prompts that are still to be visited stand as they were read. -/
def Remaining (prompts : List PromptRecord) (c : Core) : Prop :=
  Apart prompts ∧ ∀ p ∈ prompts, Stands p c ∧ p.state.retired = false

theorem remaining_prompts {s : State} (hkeyed : s.core.Keyed) : Remaining s.prompts s.core :=
  ⟨State.prompts_apart hkeyed, fun _ hp => stands_of_mem_prompts hkeyed hp⟩

theorem Remaining.filter {prompts : List PromptRecord} {c : Core} (h : Remaining prompts c)
    (keep : PromptRecord → Bool) : Remaining (prompts.filter keep) c :=
  ⟨h.1.filter _, fun p hp => h.2 p (List.mem_of_mem_filter hp)⟩

/-- A prompt was visited, and the others stand as they did. -/
theorem Remaining.visited {p : PromptRecord} {rest : List PromptRecord} {c c' : Core}
    (h : Remaining (p :: rest) c) (p' : PromptRecord) (hid : p'.delivery.deliveryId = p.delivery.deliveryId)
    (hprompts : c'.prompts = (c.putPrompt p').prompts) : Remaining rest c' := by
  have hapart := List.pairwise_cons.mp h.1
  refine ⟨hapart.2, fun q hq => ?_⟩
  rcases h.2 q (List.mem_cons_of_mem _ hq) with ⟨hstands, howed⟩
  refine ⟨?_, howed⟩
  unfold Stands
  rw [hprompts, Core.putPrompt_prompts, hid, if_neg (hapart.1 q hq).symm]
  exact hstands

theorem Remaining.skipped {p : PromptRecord} {rest : List PromptRecord} {c : Core}
    (h : Remaining (p :: rest) c) : Remaining rest c :=
  ⟨(List.pairwise_cons.mp h.1).2, fun q hq => h.2 q (List.mem_cons_of_mem _ hq)⟩

/-- The prompts of a lead that is gone go to nobody, and all they report hear of it. -/
theorem orphanPrompts_acts :
    Acts careful (fun _ => True) (orphanPrompts w) fun _ _ => True := by
  unfold orphanPrompts
  refine Acts.reading (Q := Remaining) (fun s hkeyed _ => remaining_prompts hkeyed) fun prompts => ?_
  refine Acts.imp (Q := fun _ => Remaining []) (Abstraction.Refines.each_rest (A := moves careful)
    (I := Remaining) fun p rest _ => ?_) (fun _ _ hc => hc) fun _ _ _ _ => trivial
  refine Acts.asks fun dead => ?_
  split
  · -- Nothing after the prompt is written can throw.
    intro s hs
    rcases hs with ⟨hkeyed, hremaining⟩
    rcases hremaining.2 p List.mem_cons_self with ⟨hstands, hwaits⟩
    have hput : (s.withPrompt ({ p with state := .orphaned } : PromptRecord).retained).core =
        s.core.putPrompt ({ p with state := .orphaned } : PromptRecord).retained :=
      State.withPrompt_core ..
    have hrows : ∀ id e, (s.withPrompt
        ({ p with state := .orphaned } : PromptRecord).retained).core.executions id = some e →
          e.id = id := by
      rw [hput]
      exact fun id e he => (hkeyed.execution id e he).1
    rcases each_tell_ok w .orphaned p.executions hrows with ⟨s', x, htell, hcore, htold⟩
    have hrun : (do
        updatePrompt { p with state := .orphaned }
        each p.executions (tell w .orphaned)) s = (.ok (), s') := htell
    have hmove : Move careful s.core s'.core := deliver_move hput hstands hwaits ⟨rfl, rfl, rfl⟩
      (fun h => by cases h) ⟨by decide, by decide⟩ hcore htold
    refine ⟨?_, fun a s₂ h => ?_⟩
    · rw [hrun]
      exact .single hmove
    · rw [← (Prod.mk.inj (hrun.symm.trans h)).2]
      refine ⟨hmove.keyed hkeyed, hremaining.visited
        ({ p with state := .orphaned } : PromptRecord).retained
        (PromptRecord.retained_deliveryId _) ?_⟩
      change s'.core.prompts = _
      rw [hcore, hput]
      rfl
  · exact Acts.pure fun c _ hc => hc.skipped

/-! ### A start -/

/-- Nobody else may have a process on the Node of a command. -/
def Alone (e : Execution) (c : Core) : Prop :=
  ∀ id row, c.executions id = some row → row.settledAt = none → row.nodeId = e.nodeId →
    row.state.active = true → id = e.id

theorem alone_of_nodeBusy {s : State} (hkeyed : s.core.Keyed) {e : Execution}
    (h : s.nodeBusy e = false) : Alone e s.core := by
  intro id row hrow hsettled hnode hactive
  by_contra hne
  unfold State.nodeBusy at h
  rw [List.any_eq_false] at h
  have hmem : row ∈ s.unsettled := by
    unfold State.unsettled
    rw [List.mem_filter]
    exact ⟨(Table.mem_values_iff _ _).mpr ⟨id, hrow⟩, by rw [hsettled]; rfl⟩
  have hid := (hkeyed.execution id row hrow).1
  refine h row hmem ?_
  simp only [Bool.and_eq_true, decide_eq_true_eq, ne_eq]
  exact ⟨⟨fun heq => hne (hid.symm.trans heq), hnode⟩, hactive⟩

/-- A target that is found again has no fence that is closed. -/
theorem State.recheckTarget_unfenced {s : State} {e : Execution}
    (h : s.recheckTarget w e = none) {taskId : Text} (hmanaged : e.managed = some taskId)
    {fence : Fence} (hfence : s.core.fences taskId = some fence) : fence.state.closed = false := by
  unfold Execution.managed at hmanaged
  -- The last check resolved the target again.
  have htarget : ∃ found, s.target w e.leadSessionId e.toRunCommand = .ok found := by
    unfold State.recheckTarget at h
    split at h
    · cases h
    · split at h
      · cases h
      · next heq => exact ⟨_, heq⟩
  rcases htarget with ⟨found, hfound⟩
  unfold State.target at hfound
  cases hkind : e.target with
  | placement placementId =>
      rw [hkind] at hmanaged
      cases hmanaged
  | worktree worktreeId generation =>
      rw [hkind] at hmanaged hfound
      change e.taskId = some taskId at hmanaged
      simp only [hmanaged] at hfound
      cases htree : w.workspace s worktreeId with
      | none =>
          rw [htree] at hfound
          cases hfound
      | some tree =>
          rw [htree] at hfound
          simp only at hfound
          by_cases hgeneration : tree.generation ≠ generation
          · rw [if_pos hgeneration] at hfound
            cases hfound
          · rw [if_neg hgeneration] at hfound
            by_cases howner : taskId ≠ tree.runId
            · rw [if_pos (by simpa using howner)] at hfound
              cases hfound
            · rw [if_neg (by simpa using howner)] at hfound
              have htask : taskId = tree.runId := of_not_not howner
              -- A worktree of a fenced run resolves to a refusal.
              by_cases hfenced : s.fenced tree.runId = true
              · change (if s.fenced tree.runId = true then _ else _) = _ at hfound
                rw [if_pos hfenced] at hfound
                cases hfound
              · rw [← htask] at hfenced
                unfold State.fenced at hfenced
                rw [show s.db.fences.get taskId = some fence from hfence] at hfenced
                exact Bool.eq_false_iff.mpr hfenced

theorem takeFence_local (e : Execution) (now : Int) : Local (takeFence e now) := by
  unfold takeFence
  cases e.managed with
  | none => exact Local.pure
  | some taskId => exact Local.bind Local.reads fun previous => Local.changeDb

/-- The fence of its task is taken, before anything else is written. -/
theorem returns_takeFence {e : Execution} {now : Int} {s s' : State} {a : Unit}
    (h : Returns (takeFence e now) s a s') :
    s'.core.executions = s.core.executions ∧ ∀ e' : Execution, e'.id = e.id →
      e'.managed = e.managed → s'.core.put e' = s.core.begun e' now := by
  unfold takeFence at h
  cases htask : e.managed with
  | none =>
      rw [htask] at h
      rcases returns_pure.mp h with ⟨_, rfl⟩
      refine ⟨rfl, fun e' _ hmanaged => ?_⟩
      unfold Core.begun
      rw [hmanaged]
  | some taskId =>
      rw [htask] at h
      rcases returns_bind.mp h with ⟨previous, s₁, hread, h⟩
      rcases returns_reads.mp hread with ⟨rfl, rfl⟩
      unfold putFence at h
      rw [← returns_changeDb.mp h]
      refine ⟨rfl, fun e' hid hmanaged => ?_⟩
      unfold Core.begun
      rw [hmanaged, hid]
      unfold State.core Core.putFence Core.put
      simp only [get_set_eq_update]

theorem begin_local (e : Execution) (now : Int) : Local (begin w e now) := by
  unfold begin
  refine Local.writeAtomically (Local.bind Local.reads fun live =>
    Local.bind (check_quiet live).local fun _ => Local.bind Local.reads fun checked =>
      Local.bind (check_quiet checked).local fun _ => Local.bind ?_ fun current => ?_)
  · unfold found
    refine Local.bind Local.reads fun row => ?_
    cases row with
    | none => exact Local.raise
    | some current => exact Local.pure
  · split
    · exact Local.raise
    · exact Local.bind (takeFence_local _ _) fun _ => Local.bind (update_local _ _ _) fun e' =>
        Local.bind (markStart_quiet e').local fun _ => Local.pure

/-- A command that has begun: what it was, what was checked, and what is written. -/
structure Begun (e e' : Execution) (now : Int) (s s' : State) : Prop where
  row : s.core.executions e.id = some e
  queued : e.state = .queued
  wanted : e.cancelRequested = false
  described : e.descriptor.isSome = true ∧ e.approvedBy.isSome = true ∧ e.approvedAt.isSome = true
  unfenced : ∀ taskId fence, e.managed = some taskId → s.core.fences taskId = some fence →
    fence.state.closed = false
  made : e' = { e with
    version := e.version + 1
    state := .starting
    ownership := .unknown }
  core : s'.core = s.core.begun e' now
  attempt : ∃ attempt, s'.db.attempts.get e'.id = some attempt ∧
    attempt.startVersion = some e'.version ∧ attempt.cancelled = false

theorem returns_begin {e e' : Execution} {now : Int} {s s' : State} (hkeyed : s.core.Keyed)
    (hknown : Known e s.core) (h : Returns (begin w e now) s e' s') :
    ∃ row, Begun row e' now s s' ∧ row.id = e.id ∧ row.nodeId = e.nodeId := by
  unfold begin at h
  rcases returns_bind.mp (returns_transaction.mp h) with ⟨live, s₁, hread, h⟩
  rcases returns_reads.mp hread with ⟨_, rfl⟩
  rcases returns_bind.mp h with ⟨_, s₂, hcheck, h⟩
  rcases returns_check.mp hcheck with ⟨_, rfl⟩
  rcases returns_bind.mp h with ⟨checked, s₃, hread, h⟩
  rcases returns_reads.mp hread with ⟨hrecheck, rfl⟩
  rcases returns_bind.mp h with ⟨_, s₄, hcheck, h⟩
  rcases returns_check.mp hcheck with ⟨hnone, rfl⟩
  rcases returns_bind.mp h with ⟨current, s₅, hfound, h⟩
  unfold found at hfound
  rcases returns_bind.mp hfound with ⟨row, s₆, hread, hfound⟩
  rcases returns_reads.mp hread with ⟨hrow, rfl⟩
  cases row with
  | none => exact (not_returns_raise hfound).elim
  | some row =>
      rcases returns_pure.mp hfound with ⟨rfl, rfl⟩
      have hid := (hkeyed.execution e.id row hrow).1
      -- The row under the lock is the one that was planned, or a later state of it.
      have hsince := hknown.2 row hrow
      split at h
      · exact (not_returns_raise h).elim
      · next hgood =>
          simp only [Bool.or_eq_true, decide_eq_true_eq, not_or, Bool.not_eq_true, ne_eq, not_not,
            Option.isNone_eq_false_iff] at hgood
          rcases returns_bind.mp h with ⟨_, s₇, hfence, h⟩
          rcases returns_bind.mp h with ⟨e₁, s₈, hupdate, h⟩
          rcases returns_bind.mp h with ⟨_, s₉, hmark, h⟩
          rcases returns_pure.mp h with ⟨rfl, rfl⟩
          have hquiet := (markStart_quiet e₁).returns hmark
          rcases returns_update hupdate with ⟨row', hrow', _, hmade, hput⟩
          rcases returns_takeFence hfence with ⟨hexecutions, hbegun⟩
          have hrow₁ : s.core.executions row.id = some row := by
            rw [hid]
            exact hrow
          rw [hexecutions, hrow₁, Option.some.injEq] at hrow'
          subst hrow'
          refine ⟨row, ⟨hrow₁, hgood.1.1.1.2, hgood.1.1.1.1, ⟨hgood.1.1.2, hgood.2, hgood.1.2⟩,
            fun taskId fence hmanaged hget => ?_, hmade, ?_, returns_markStart hmark⟩, hid,
            hsince.nodeId⟩
          · refine State.recheckTarget_unfenced w (hrecheck.trans hnone) ?_ hget
            rw [← hmanaged]
            unfold Execution.managed
            rw [hsince.run]
          · -- Marking the start changes no row the abstract machine sees.
            rw [hquiet, hput, State.put_core]
            refine hbegun e₁ ?_ ?_
            · rw [hmade]
            · rw [hmade]
              rfl

/-- A start that was not sent is known to be uncertain. -/
theorem startLost_acts (e : Execution) (hbusy : e.state.active = true) (sent : Bool) :
    Acts careful (Known e) (if !sent then do
        let uncertain ← update e.id e.version fun e => { e with
          state := .reconciliationRequired
          reasonCode := ofString "start_send_uncertain" }
        publish w uncertain
      else pure ()) fun _ _ => True := by
  split
  · exact Acts.bind (update_acts e _ (.lose _ _ hbusy)) fun e' => Acts.quiet_done (publish_quiet w e')
  · exact Acts.done

/-- A queued command begins, and the Node is told so once; what was begun and what
    was sent are one move. -/
theorem startExecution_acts (e : Execution) (now : Int) :
    Acts careful (fun c => Alone e c ∧ Known e c) (startExecution w e now) fun _ _ => True := by
  refine Abstraction.Refines.of (fun s hkeyed hs => ?_) fun _ _ _ _ _ _ => trivial
  rcases hs with ⟨halone, hknown⟩
  change (moves careful).Steps s.core (startExecution w e now s).2.core
  unfold startExecution
  rcases outcome (begin w e now) s with ⟨e', s₁, hbegin⟩ | ⟨failure, s₁, hbegin⟩
  · rw [bind_ok hbegin]
    rcases returns_begin w hkeyed hknown hbegin with ⟨row, hbegun, hid, hnode⟩
    have hstate : e'.state = .starting := by rw [hbegun.made]
    -- A row that starts is not over, so nothing is published about it.
    have hpublish : publish w e' = pure () := by
      unfold publish
      rw [hstate]
      exact if_neg (by simp [ExecutionState.terminal])
    rw [hpublish, bind_ok (show (pure () : Host Unit) s₁ = (.ok (), s₁) from rfl)]
    rcases Option.isSome_iff_exists.mp hbegun.described.1 with ⟨d, hd⟩
    rcases Option.isSome_iff_exists.mp hbegun.described.2.1 with ⟨approvedBy, hby⟩
    rcases Option.isSome_iff_exists.mp hbegun.described.2.2 with ⟨approvedAt, hat⟩
    have hd' : e'.descriptor = some d := by rw [hbegun.made]; exact hd
    have hby' : e'.approvedBy = some approvedBy := by rw [hbegun.made]; exact hby
    have hat' : e'.approvedAt = some approvedAt := by rw [hbegun.made]; exact hat
    rw [hd', hby', hat']
    simp only
    rw [bind_ok (show (reads (startMessage w · e' d approvedBy approvedAt) : Host HostMessage) s₁ =
      (.ok _, s₁) from rfl)]
    rcases send_total w e'.nodeId (startMessage w s₁ e' d approvedBy approvedAt) s₁ with
      ⟨told, s₂, hsend⟩
    have hsent := send_start w e'.nodeId
      (show (startMessage w s₁ e' d approvedBy approvedAt).isStart = true from rfl) rfl rfl s₁
    rw [hsend] at hsent
    rcases hsent with ⟨sent, hcore, honce⟩
    rw [bind_ok hsend]
    -- Writing the row and sending it are one move: what `begin` checked still stands.
    have hmove : Move careful s.core s₂.core := by
      rw [show s₂.core = _ from hcore, hbegun.core, Core.begun_starts]
      refine .start row e' now sent hbegun.row hbegun.queued hbegun.wanted ?_ hbegun.unfenced
        hbegun.made ?_
      · intro id other hother hsettled hsame hactive
        rw [halone id other hother hsettled (hsame.trans hnode) hactive, hid]
      · rcases honce with hnone | hone
        · exact .inl hnone
        · refine .inr ⟨_, hone, rfl, rfl, ?_, ?_, ?_, hbegun.attempt⟩
          · exact ⟨d, approvedBy, approvedAt, _, _, hd', hby', hat', rfl⟩
          · rw [← hbegun.core]
            rfl
          · rw [← hbegun.core]
            rfl
    have hknown' : Known e' s₂.core := by
      have hrow' : s₂.core.executions e'.id = some e' := by
        rw [show s₂.core = _ from hcore, hbegun.core]
        change (s.core.begun e' now).executions e'.id = some e'
        rw [Core.begun_executions, Core.put_executions_self]
      exact Known.of_row (hmove.keyed hkeyed) hrow'
    have hlost : Acts careful (Known e') _ _ := startLost_acts w e' (by rw [hstate]; rfl) told
    have htail := (hlost s₂ ⟨hmove.keyed hkeyed, hknown'⟩).1
    exact Relation.ReflTransGen.head hmove htail
  · rw [bind_error hbegin]
    -- Refused before it was sent: the transaction gives back what it wrote.
    exact thrown_steps (restores_writeAtomically _) (begin_local w e now) hbegin

/-! ### Time passes -/

/-- What a list of the service holds is known. -/
theorem known_of_mem_unsettled {s : State} (hkeyed : s.core.Keyed) {e : Execution}
    (h : e ∈ s.unsettled) : e.state.terminal = false ∧ Known e s.core := by
  unfold State.unsettled at h
  rw [List.mem_filter] at h
  rcases (Table.mem_values_iff _ _).mp h.1 with ⟨id, hget⟩
  refine ⟨?_, Known.of_row hkeyed hget⟩
  rw [← hkeyed.settled id e hget]
  cases hsettled : e.settledAt with
  | none => rfl
  | some settledAt =>
      rw [hsettled] at h
      cases h.2

theorem known_of_mem_list {s : State} (hkeyed : s.core.Keyed) {e : Execution} (h : e ∈ s.list) :
    Known e s.core ∧ (e.state.terminal = true → Settled e.id s.core) := by
  unfold State.list at h
  have hmem := List.mem_reverse.mp (List.mem_of_mem_take h)
  rcases (Table.mem_values_iff _ _).mp hmem with ⟨id, hget⟩
  have hkey := hkeyed.execution id e hget
  refine ⟨Known.of_row hkeyed hget, fun hover => ⟨?_, fun row hrow => ?_⟩⟩
  · rw [hkey.1]
    exact hkey.2
  · rw [hkey.1, show s.core.executions id = some e from hget, Option.some.injEq] at hrow
    rw [← hrow]
    exact hover

/-- A loop over what was found before. -/
theorem Acts.each_known {f : Execution → Host Unit} {xs : List Execution}
    {P : Execution → Prop} (h : ∀ e, P e → Acts careful (Known e) (f e) fun _ _ => True) :
    Acts careful (fun c => ∀ e ∈ xs, P e ∧ Known e c) (each xs f) fun _ _ => True := by
  refine Abstraction.Refines.each_stable (A := moves careful) (I := fun e c => P e ∧ Known e c)
    (fun e c c' hc hstep hs => ⟨hs.1, Known.stable careful e c c' hc hstep hs.2⟩) fun e => ?_
  exact Acts.assuming fun hfact => h e hfact

theorem tickExecution_acts (now : Int) (e : Execution) (hwaits : e.state.terminal = false) :
    Acts careful (Known e) (tickExecution w now e) fun _ _ => True := by
  unfold tickExecution
  refine Acts.asks fun blocked => ?_
  split
  · exact Acts.done
  · refine Acts.asks fun timing => ?_
    split
    · next hstate => exact fail_acts w e _ hwaits (by rw [hstate]; rfl)
    · split
      · -- Its approval ran out before it was given.
        next hexpired =>
          have hidle : e.state.active = false := by
            simp only [Bool.and_eq_true, Bool.not_eq_true'] at hexpired
            exact hexpired.1
          refine Acts.bind (finish_acts w e .expired _ id fun at' => ?_) fun e' =>
            Acts.quiet_done (publish_quiet w e')
          exact .retire _ _ _ _ _ _ _ _ _ _ (Nat.lt_succ_self _) hwaits hidle rfl (.inl rfl)
            (.inl rfl)
      · refine Acts.asks fun unwanted => ?_
        split
        · exact Acts.discard (Acts.true_pre (cancel_acts w e.id none))
        · split
          · exact Acts.done
          · next hqueued =>
              have hidle : e.state.active = false := by
                rw [of_not_not hqueued]
                rfl
              -- Nothing else runs on the Node: only then may it start.
              refine Acts.reading (Q := fun busy c => (busy = false → Alone e c) ∧ Known e c)
                (fun s hkeyed hknown => ⟨alone_of_nodeBusy hkeyed, hknown⟩) fun busy => ?_
              split
              · exact Acts.done
              · next hfree =>
                  refine Acts.imp (P := fun c => Alone e c ∧ Known e c) (Q := fun _ _ => True) ?_
                    (fun _ _ hc => ⟨hc.1 (Bool.eq_false_iff.mpr hfree), hc.2⟩) fun _ _ _ h => h
                  refine Acts.asks fun failure => ?_
                  cases failure with
                  | none =>
                      refine Acts.asks fun durable => ?_
                      split
                      · exact startExecution_acts w e now
                      · exact Acts.done
                  | some failure =>
                      refine Acts.asks fun offline => ?_
                      split
                      · exact Acts.done
                      · exact (fail_acts w e _ hwaits hidle).imp (fun _ _ hc => hc.2)
                          fun _ _ _ h => h

/-- A fresh look at a checkout is asked for while its fence waits for one. -/
theorem observe_acts (e : Execution) :
    Acts careful (fun _ => True) (observe w e) fun _ _ => True := by
  unfold observe
  split
  · next generation taskId _ _ =>
      refine Acts.reading (Q := fun row c => ∀ fence, row = some fence →
        c.fences fence.taskId = some fence) (fun s hkeyed _ fence hfence => ?_) fun row => ?_
      · rw [hkeyed.fence taskId fence hfence]
        exact hfence
      · cases row with
        | none => exact Acts.done
        | some fence =>
            refine Acts.imp (P := fun c => c.fences fence.taskId = some fence) (Q := fun _ _ => True)
              ?_ (fun _ _ hc => hc fence rfl) fun _ _ _ h => h
            refine Acts.asks fun asked => Acts.asks fun able => ?_
            split
            · exact Acts.done
            · next hgood =>
                simp only [Bool.or_eq_true, decide_eq_true_eq, not_or, ne_eq, not_not] at hgood
                refine Abstraction.Refines.writes (fun s _ hs => ?_) fun _ _ _ => trivial
                change Move careful s.core
                  ({ s with observations := s.observations.set e.id (fence, generation) } :
                    State).core
                have hcore : ({ s with observations := s.observations.set e.id (fence, generation) } :
                    State).core = { s.core with
                      observations :=
                        Function.update s.core.observations e.id (some (fence, generation)) } := by
                  unfold State.core
                  simp only [get_set_eq_update]
                rw [hcore]
                exact .observe e.id fence generation hs hgood.1.1.1 hgood.1.1.2
  · exact Acts.done

theorem tickOutcome_acts (e : Execution) :
    Acts careful (Known e) (tickOutcome w e) fun _ _ => True := by
  unfold tickOutcome
  refine Acts.bind (Q := fun _ => Known e) (Acts.imp (Acts.stable (observe_acts w e)
    (Known.stable careful e) fun _ _ => trivial) (fun _ _ h => h) fun _ _ _ h => h.2) fun _ => ?_
  split
  · next howed =>
      refine Abstraction.Refines.rescue (queueCompletion_acts w e howed) fun failure => ?_
      cases failure with
      | conflict code => exact Acts.done
      | other => exact Acts.raise
  · exact Acts.done

theorem missingRanges_valid {next final : Nat} {rows : List Nat} {r : Gap}
    (h : r ∈ missingRanges next final rows) : r.first ≤ r.last := by
  induction rows generalizing next with
  | nil =>
      unfold missingRanges at h
      split at h
      · next hle =>
          rw [List.mem_singleton.mp h]
          exact hle
      · exact absurd h List.not_mem_nil
  | cons sequence rest ih =>
      unfold missingRanges at h
      rcases List.mem_append.mp h with h | h
      · split at h
        · next hlt =>
            rw [List.mem_singleton.mp h]
            exact Nat.le_pred_of_lt hlt
        · exact absurd h List.not_mem_nil
      · exact ih h

/-- Output that has not come is lost, and the flag says so at once. -/
theorem closeReplay_yields (now : Int) (e : Execution) :
    (moves careful).Yields (fun c => Known e c) (closeReplay now e) fun _ _ => True := by
  unfold closeReplay
  cases e.finalOutputSeq with
  | none => exact Abstraction.Yields.pure fun _ _ _ => trivial
  | some final =>
      simp only
      split
      · intro s _ s' hkeyed hknown h
        refine ⟨?_, trivial⟩
        rcases returns_bind.mp h with ⟨rows, s₁, hread, h⟩
        rcases returns_reads.mp hread with ⟨_, rfl⟩
        rcases returns_bind.mp h with ⟨e₁, s₂, hupdate, h⟩
        rcases returns_bind.mp h with ⟨e₂, s₃, hrefresh, h⟩
        rcases returns_pure.mp h with ⟨_, rfl⟩
        rcases returns_refreshed hknown hupdate rfl rfl hrefresh with
          ⟨hrow, hmade, hmade₂, hlater, hflagged, hput, hcore⟩
        change (moves careful).Steps s.core s₃.core
        rw [hcore, hput, Core.put_put _ (by rw [hmade₂])]
        refine .single (.output e e₂ hrow ⟨?_, hlater, ?_⟩ hflagged)
        · rw [hmade₂, hmade]
        · rw [hmade₂, hmade]
          exact .inr ⟨_, fun r hr => missingRanges_valid hr, rfl⟩
      · exact Abstraction.Yields.pure fun _ _ _ => trivial

theorem forget_yields (now : Int) (e : Execution) :
    (moves careful).Yields (Settled e.id) (forget now e) fun _ _ => True := by
  unfold forget
  refine Abstraction.Yields.asks fun fence => ?_
  split
  · exact Abstraction.Yields.pure fun _ _ _ => trivial
  · intro s _ s' _ hsettled h
    refine ⟨.single ?_, trivial⟩
    rw [← returns_changeDb.mp h]
    have hexecutions : (s.db.executions.erase e.id).get =
        Function.update s.db.executions.get e.id none := by
      ext1 id
      rw [Table.get_erase, Function.update_apply]
    have hevents : (s.db.events.keep fun key _ => key.1 ≠ e.id).get =
        fun key => if key.1 = e.id then none else s.db.events.get key := by
      ext1 key
      rw [Table.get_keep]
      by_cases heq : key.1 = e.id
      · rw [if_pos heq]
        cases s.db.events.get key <;> simp [heq]
      · rw [if_neg heq]
        cases s.db.events.get key <;> simp [heq]
    have hmove : Move careful s.core _ := Move.sweep e.id hsettled.2
    unfold State.core at hmove
    simp only at hmove
    change Move careful s.core (State.core _)
    unfold State.core
    simp only
    rw [hexecutions, hevents]
    exact hmove

theorem sweepExecution_yields (now : Int) (e : Execution) :
    (moves careful).Yields (fun c => Known e c ∧ (e.state.terminal = true → Settled e.id c))
      (sweepExecution now e) fun _ _ => True := by
  unfold sweepExecution
  split
  · next hover =>
      simp only [Bool.and_eq_true] at hover
      refine Abstraction.Yields.bind (Q := fun _ => Settled e.id)
        (Abstraction.Yields.imp (Abstraction.Yields.stable (closeReplay_yields now e)
          (Abstraction.Stable.and (moves careful) (Known.stable careful e)
            (Settled.stable careful e.id)) fun _ hc => hc.1)
          (fun _ _ hc => ⟨hc.1, hc.2 hover.1⟩) fun _ _ _ hc => hc.2.2) fun _ => ?_
      unfold whenever
      split
      · exact forget_yields now e
      · exact Abstraction.Yields.pure fun _ _ _ => trivial
  · exact Abstraction.Yields.pure fun _ _ _ => trivial

theorem sweepExecution_local (now : Int) (e : Execution) : Local (sweepExecution now e) := by
  unfold sweepExecution
  split
  · refine Local.bind ?_ fun _ => Local.whenever ?_
    · unfold closeReplay
      cases e.finalOutputSeq with
      | none => exact Local.pure
      | some final =>
          simp only
          split
          · exact Local.bind Local.reads fun rows => Local.bind (update_local _ _ _) fun e₁ =>
              Local.bind (refreshOutput_local e₁) fun _ => Local.pure
          · exact Local.pure
    · unfold forget
      refine Local.bind Local.reads fun fence => ?_
      split
      · exact Local.pure
      · exact Local.changeDb
  · exact Local.pure

theorem sweep_acts (now : Int) : Acts careful (fun _ => True) (sweep now) fun _ _ => True := by
  unfold sweep
  refine Acts.atomically ?_ ?_
  · exact Local.bind Local.reads fun executions => Local.each (sweepExecution_local now)
  · refine Abstraction.Yields.bind (Q := fun executions c => ∀ e ∈ executions, Known e c ∧
      (e.state.terminal = true → Settled e.id c)) (Acts.reads fun s hkeyed _ e he =>
        known_of_mem_list hkeyed he : Acts careful _ _ _).yields fun executions => ?_
    refine Abstraction.Yields.each_stable (A := moves careful)
      (I := fun e c => Known e c ∧ (e.state.terminal = true → Settled e.id c))
      (fun e c c' hc hstep hs => ⟨Known.stable careful e c c' hc hstep hs.1, fun hover =>
        Settled.stable careful e.id c c' hc hstep (hs.2 hover)⟩) fun e => ?_
    exact sweepExecution_yields now e

/-- All that is due. -/
theorem tick_acts (now : Int) : Acts careful (fun _ => True) (tick w now) fun _ _ => True := by
  unfold tick
  refine Acts.quietly (reconcileSessionGrants_quiet w) fun _ => ?_
  refine Acts.bind (orphanPrompts_acts w) fun _ => ?_
  refine Acts.reading (Q := fun unsettled c => ∀ e ∈ unsettled, e.state.terminal = false ∧ Known e c)
    (fun s hkeyed _ e he => known_of_mem_unsettled hkeyed he) fun unsettled => ?_
  refine Acts.bind (Acts.each_known fun e hwaits => tickExecution_acts w now e hwaits) fun _ => ?_
  refine Acts.reading (Q := fun executions c => ∀ e ∈ executions, True ∧ Known e c)
    (fun s hkeyed _ e he => ⟨trivial, (known_of_mem_list hkeyed he).1⟩) fun executions => ?_
  refine Acts.bind (Acts.each_known fun e _ => tickOutcome_acts w e) fun _ => ?_
  refine Acts.asks fun leads => Acts.bind (Acts.each_true fun leadId => pumpLead_acts w leadId)
    fun _ => Acts.asks fun lastSweep => ?_
  split
  · exact Acts.bind (sweep_acts now) fun _ => Acts.quiet_done (Quiet.writes fun _ => rfl)
  · exact Acts.done

/-! ### Decisions -/

/-- A command is approved: it is written down, and its row says so. -/
theorem approve_yields (e : Execution) (d : Descriptor) (approvedBy : Text) (approvedAt : Int)
    (patch : Execution → Execution) (scope : ApprovalScope) (automatic : Bool)
    (hwaits : e.state = .preparing ∨ e.state = .awaitingApproval) (hdescribed : d.executionId = e.id)
    (hpatch : patch e = { e with
      descriptor := some d
      state := .queued
      approvedBy := some approvedBy
      approvedAt := some approvedAt
      approvalScope := some scope
      automaticApproval := automatic }) :
    (moves careful).Yields (Known e) (do
      happens (.approved e.id d approvedBy approvedAt)
      update e.id e.version patch) fun _ _ => True := by
  intro s e' s' hkeyed hknown h
  refine ⟨.single ?_, trivial⟩
  rcases returns_bind.mp h with ⟨_, s₁, hhappens, h⟩
  rcases returns_update h with ⟨row, hrow, hversion, hmade, hput⟩
  have hcore : s₁.core = s.core.happens (.approved e.id d approvedBy approvedAt) := by
    unfold happens at hhappens
    rw [← returns_changeDb.mp hhappens]
    rfl
  rw [hcore] at hrow
  have hsame := hknown.row hrow hversion
  subst hsame
  change Move careful s.core s'.core
  rw [hput, State.put_core, hcore]
  refine .approve row e' d approvedBy approvedAt scope automatic hrow hwaits hdescribed ?_
  rw [hmade, hpatch]

theorem decided_yields (e : Execution) (d : Descriptor) (decision : Decision) (actor : Text)
    (now : Int) (hwaits : e.state = .awaitingApproval) (hd : e.descriptor = some d)
    (hdescribed : d.executionId = e.id) :
    (moves careful).Yields (Known e) (decided w e d decision actor now) fun _ _ => True := by
  have hterminal : e.state.terminal = false := by rw [hwaits]; rfl
  have hidle : e.state.active = false := by rw [hwaits]; rfl
  unfold decided
  split
  · refine (Acts.imp (finish_acts w e .denied _ id fun at' => ?_) (fun _ _ h => h)
      fun _ _ _ _ => trivial : Acts careful _ _ _).yields
    exact .retire _ _ _ _ _ _ _ _ _ _ (Nat.lt_succ_self _) hterminal hidle rfl (.inl rfl) (.inl rfl)
  · refine Abstraction.Yields.asks fun barred => Yields.quietly (Quiet.whenever (check_quiet _))
      fun _ => Abstraction.Yields.asks fun failure => ?_
    cases failure with
    | some failure =>
        refine (Acts.imp (finish_acts w e .failed failure id fun at' => ?_) (fun _ _ h => h)
          fun _ _ _ _ => trivial : Acts careful _ _ _).yields
        exact .retire _ _ _ _ _ _ _ _ _ _ (Nat.lt_succ_self _) hterminal hidle rfl (.inl rfl)
          (.inl rfl)
    | none =>
        refine approve_yields e d actor now _ decision.scope false (.inr hwaits) hdescribed ?_
        rw [← hd]

theorem decided_local (e : Execution) (d : Descriptor) (decision : Decision) (actor : Text)
    (now : Int) : Local (decided w e d decision actor now) := by
  unfold decided
  split
  · exact finish_local w _ _ _ _
  · refine Local.bind Local.reads fun barred => Local.bind (Local.whenever (check_quiet _).local)
      fun _ => Local.bind Local.reads fun failure => ?_
    cases failure with
    | some failure => exact finish_local w _ _ _ _
    | none => exact Local.bind Local.changeDb fun _ => update_local _ _ _

/-- An operator allows or denies a command. -/
theorem decide_acts (id : Nat) (decision : Decision) (expectedVersion : Nat) (digest : Digest)
    (actor : Text) (now : Int) :
    Acts careful (fun _ => True) (decide w id decision expectedVersion digest actor now)
      fun _ _ => True := by
  unfold decide
  refine Acts.bind (Q := fun _ _ => True) (Acts.atomically ?_ ?_) fun e =>
    Acts.quietly (publish_quiet w e) fun _ => Acts.bind (tick_acts w now) fun _ => found_acts id
  · -- What is written stays in the database; nothing is sent yet.
    refine Local.bind Local.reads fun row => ?_
    cases row with
    | none => exact Local.raise
    | some current =>
        simp only
        split
        · exact Local.raise
        · split
          · exact Local.raise
          · split
            · exact finish_local w _ _ _ _
            · refine Local.bind Local.reads fun live => Local.bind (check_quiet live).local fun _ =>
                Local.bind Local.reads fun failure => ?_
              cases failure with
              | none => exact decided_local w _ _ _ _ _
              | some failure =>
                  refine Local.bind Local.reads fun late => ?_
                  split
                  · exact finish_local w _ _ _ _
                  · exact Local.raise
  · refine Abstraction.Yields.bind (Q := fun row c => ∀ e, row = some e → e.Described ∧ Known e c)
      (Acts.reads fun s hkeyed _ e he => ⟨hkeyed.described id e he, Known.of_row hkeyed he⟩ :
        Acts careful _ _ _).yields fun row => ?_
    cases row with
    | none => exact fun _ _ _ _ _ h => (not_returns_raise h).elim
    | some current =>
        simp only
        split
        · exact fun _ _ _ _ _ h => (not_returns_raise h).elim
        · next d hd =>
            split
            · exact fun _ _ _ _ _ h => (not_returns_raise h).elim
            · next hgood =>
                simp only [Bool.or_eq_true, decide_eq_true_eq, not_or, ne_eq, not_not] at hgood
                have hwaits : current.state = .awaitingApproval := hgood.1.1
                have hterminal : current.state.terminal = false := by rw [hwaits]; rfl
                have hidle : current.state.active = false := by rw [hwaits]; rfl
                -- Both late branches end the row the same way.
                have hexpired : Acts careful (Known current) (finish w current .expired
                    (ofString "approval_expired") fun e => e) fun _ _ => True := by
                  refine Acts.imp (finish_acts w current .expired _ _ fun at' => ?_) (fun _ _ h => h)
                    fun _ _ _ _ => trivial
                  exact .retire _ _ _ _ _ _ _ _ _ _ (Nat.lt_succ_self _) hterminal hidle rfl
                    (.inl rfl) (.inl rfl)
                refine Abstraction.Yields.imp (P := fun c => current.Described ∧ Known current c)
                  (Q := fun _ _ => True) ?_ (fun c _ hc => hc current rfl) fun _ _ _ h => h
                split
                · exact (hexpired.imp (fun _ _ hc => hc.2) fun _ _ _ h => h).yields
                · refine Abstraction.Yields.asks fun live => Yields.quietly (check_quiet live)
                    fun _ => Abstraction.Yields.asks fun failure => ?_
                  cases failure with
                  | none =>
                      intro s e' s' hkeyed hs h
                      exact decided_yields w current d decision actor now hwaits hd (hs.1 d hd) s e'
                        s' hkeyed hs.2 h
                  | some failure =>
                      refine Abstraction.Yields.asks fun late => ?_
                      split
                      · exact (hexpired.imp (fun _ _ hc => hc.2) fun _ _ _ h => h).yields
                      · exact fun _ _ _ _ _ h => (not_returns_raise h).elim

/-! ### Answers of a Node -/

theorem State.describes_executionId {s : State} {e : Execution} {d : Descriptor}
    (h : s.describes w e d = true) : d.executionId = e.id := by
  unfold State.describes at h
  simp only [Bool.and_eq_true, decide_eq_true_eq] at h
  have hprep := congrArg Preparation.executionId h.1.1.1
  exact hprep

theorem accept_acts (nodeId : Text) (e : Execution) (d : Descriptor) (receivedWall : Int)
    (elapsedMs : Rat) (hwaits : e.state = .preparing) (hdescribed : d.executionId = e.id) :
    Acts careful (Known e) (accept w nodeId e d receivedWall elapsedMs) fun _ _ => True := by
  unfold accept
  refine Acts.atomically ?_ ?_
  · refine Local.bind (acceptPreparationClock_quiet _ _ _ _).local fun _ =>
      Local.bind Local.reads fun approval => ?_
    cases approval with
    | none => exact update_local _ _ _
    | some approval => exact Local.bind Local.changeDb fun _ => update_local _ _ _
  · refine Yields.quietly (acceptPreparationClock_quiet _ _ _ _) fun _ =>
      Abstraction.Yields.asks fun approval => ?_
    cases approval with
    | none =>
        exact (Acts.imp (update_acts e _ (.prepare d hwaits hdescribed)) (fun _ _ h => h)
          fun _ _ _ _ => trivial : Acts careful _ _ _).yields
    | some approval =>
        exact approve_yields e d approval.1 receivedWall _ approval.2 true (.inl hwaits) hdescribed rfl

/-- A command that was refused or came too late is over. -/
theorem retireAnswer_acts (e : Execution) (state : ExecutionState) (reasonCode : Text)
    (patch : Execution → Execution)
    (hchange : ∀ now, Change e { patch { e with
      state
      reasonCode
      ownership := .notStarted
      settledAt := some now
      finalOutputSeq := some 0
      outputComplete := true
      delivery := .pending } with
        id := e.id
        version := e.version + 1 }) :
    Acts careful (Known e) (do
      let finished ← finish w e state reasonCode patch
      publish w finished
      pure true) fun _ _ => True :=
  Acts.bind (finish_acts w e state reasonCode patch hchange) fun e' =>
    Acts.quietly (publish_quiet w e') fun _ => Acts.done

theorem preparedLive_acts (nodeId : Text) (e : Execution) (d : Descriptor)
    (hwaits : e.state = .preparing) (hid : d.executionId = e.id) :
    Acts careful (Known e) (preparedLive w nodeId e d) fun _ _ => True := by
  have hterminal : e.state.terminal = false := by rw [hwaits]; rfl
  have hidle : e.state.active = false := by rw [hwaits]; rfl
  have hretire : ∀ reason : Text, ∀ now : Int, Change e { (fun e : Execution =>
      { e with descriptor := some d }) { e with
        state := .failed
        reasonCode := reason
        ownership := .notStarted
        settledAt := some now
        finalOutputSeq := some 0
        outputComplete := true
        delivery := .pending } with
      id := e.id
      version := e.version + 1 } := fun reason now =>
    .retire _ _ _ _ _ _ _ _ _ _ (Nat.lt_succ_self _) hterminal hidle rfl (.inr ⟨d, rfl, hid⟩)
      (.inl rfl)
  unfold preparedLive
  refine Acts.asks fun timing => ?_
  split
  · exact retireAnswer_acts w e .failed _ _ (hretire _)
  · refine Acts.asks fun consistent => ?_
    split
    · exact retireAnswer_acts w e .failed _ _ (hretire _)
    · refine Acts.asks fun failure => ?_
      split
      · exact Acts.bind (fail_acts w e _ hterminal hidle) fun _ => Acts.done
      · exact Acts.raise
      · exact Acts.done
      · exact Acts.bind (accept_acts w nodeId e d _ _ hwaits hid) fun e' =>
          Acts.quietly (publish_quiet w e') fun _ => Acts.done

theorem preparedRetired_acts (e : Execution) (d : Descriptor) (hover : e.state.terminal = true)
    (hid : d.executionId = e.id) :
    Acts careful (Known e) (preparedRetired w e d) fun _ _ => True := by
  unfold preparedRetired
  cases e.descriptor with
  | some own =>
      simp only
      split
      · exact Acts.done
      · exact Acts.quietly (publish_quiet w e) fun _ => Acts.done
  | none =>
      exact Acts.bind (update_acts e _ (.describe d hover hid)) fun e' =>
        Acts.quietly (publish_quiet w e') fun _ => Acts.done

/-- A Node answers a preparation. -/
theorem prepared_acts (nodeId : Text) (message : PreparedAnswer) :
    Acts careful (fun _ => True) (prepared w nodeId message) fun _ _ => True := by
  unfold prepared
  refine Acts.reading (Q := fun row c => ∀ e, row = some e → Known e c)
    (fun s hkeyed _ e he => Known.of_row hkeyed he) fun row => ?_
  cases row with
  | none => exact Acts.done
  | some e =>
      refine Acts.imp (P := Known e) (Q := fun _ _ => True) ?_ (fun _ _ hc => hc e rfl)
        fun _ _ _ h => h
      simp only
      by_cases hover : e.state.terminal = true ∧ e.ownership = .notStarted
      · -- It was over before it started.
        have hretired : (e.state.terminal && Decidable.decide (e.ownership = .notStarted)) = true := by
          rw [hover.1, hover.2]
          rfl
        rw [hretired]
        split
        · exact Acts.done
        · rw [if_neg (by simp)]
          split
          · exact Acts.done
          · next hok =>
              refine Acts.asks fun now => ?_
              rw [if_neg (by simp), if_neg (by simpa using hok)]
              cases message.descriptor with
              | none => exact Acts.raise
              | some d =>
                  refine Acts.reading (Q := fun described c =>
                    (described = true → d.executionId = e.id) ∧ Known e c)
                    (fun s _ hknown => ⟨State.describes_executionId w, hknown⟩)
                    fun described => Acts.assuming fun hdescribes => ?_
                  split
                  · exact Acts.done
                  · next hdescribed =>
                      exact preparedRetired_acts w e d hover.1 (hdescribes (by simpa using hdescribed))
      · -- It still waits for its approval or its preparation.
        have hretired :
            (e.state.terminal && Decidable.decide (e.ownership = .notStarted)) = false := by
          rw [Bool.eq_false_iff]
          intro h
          simp only [Bool.and_eq_true, decide_eq_true_eq] at h
          exact hover h
        rw [hretired]
        split
        · exact Acts.done
        · split
          · exact Acts.done
          · next hstate =>
              have hwaits : e.state = .preparing := by simpa using hstate
              have hterminal : e.state.terminal = false := by rw [hwaits]; rfl
              have hidle : e.state.active = false := by rw [hwaits]; rfl
              rw [if_neg (by simp)]
              refine Acts.asks fun now => ?_
              split
              · -- The approval ran out while the Node prepared.
                refine retireAnswer_acts w e .expired _ id fun at' => ?_
                exact .retire _ _ _ _ _ _ _ _ _ _ (Nat.lt_succ_self _) hterminal hidle rfl
                  (.inl rfl) (.inl rfl)
              · split
                · -- The Node could not prepare it.
                  refine retireAnswer_acts w e .failed _ _ fun at' => ?_
                  exact .retire _ _ _ _ _ _ _ _ _ _ (Nat.lt_succ_self _) hterminal hidle rfl
                    (.inl rfl) (.inl rfl)
                · cases message.descriptor with
                  | none => exact Acts.raise
                  | some d =>
                      refine Acts.reading (Q := fun described c =>
                        (described = true → d.executionId = e.id) ∧ Known e c)
                        (fun s _ hknown => ⟨State.describes_executionId w, hknown⟩)
                        fun described => Acts.assuming fun hdescribes => ?_
                      split
                      · exact Acts.done
                      · next hdescribed =>
                          rw [if_neg Bool.false_ne_true]
                          exact preparedLive_acts w nodeId e d hwaits
                            (hdescribes (by simpa using hdescribed))

end Commands

end CopilotFleet
