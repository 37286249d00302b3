import CopilotFleet.Host.CommandRefinement

/-!
# What a Node Says is a Number of Moves

The rest of the operations, those that begin with a message of a Node or with a
connection that comes or goes.

## Theorems

* `acceptReceipt_acts`: A receipt of an execution that may have a process.
* `receiveReceipt_acts`: Any receipt.
* `receiveOutput_acts`: A piece of output.
* `handleNodeMessage_acts`: Any message of a Node.
* `reconnect_acts`: A Node is back.
-/

namespace CopilotFleet

namespace Commands

open Utf16 Effect

variable {α β : Type} (w : World) {careful : Prop}

/-! ### Receipts -/

theorem sendAck_acts (nodeId : Text) (id attemptId : Nat) (digest : Digest) (through : Nat)
    (terminal : Bool) :
    Acts careful (fun c => ∀ row, c.executions id = some row → ∀ n, 1 ≤ n → n ≤ through →
      c.Accounted id row.gaps n)
      (send w nodeId (.commandExecutionAck id attemptId digest through terminal))
      fun _ _ => True := by
  unfold send
  refine Acts.asks fun blocked => ?_
  split
  · exact Acts.done
  · rw [show HostMessage.isDelivery (.commandExecutionAck id attemptId digest through terminal) =
      false from rfl, if_neg Bool.false_ne_true]
    refine Acts.asks fun able => ?_
    split
    · exact Acts.done
    · exact transmit_ack w nodeId rfl rfl fun s _ hs =>
        ⟨rfl, id, attemptId, digest, through, terminal, rfl, hs⟩

theorem ack_acts (e : Execution) : Acts careful (Known e) (ack w e) fun _ _ => True := by
  unfold ack
  cases e.descriptor with
  | none => exact Acts.done
  | some d =>
      refine Acts.reading (Q := fun through c => Known e c ∧
        ∀ n, 1 ≤ n → n ≤ through → c.Accounted e.id e.gaps n)
        (fun s _ hknown => ⟨hknown, (s.le_throughSeq e _).mp le_rfl⟩) fun through => ?_
      refine Acts.discard (Q := fun _ _ => True) (Acts.imp (sendAck_acts w _ _ _ _ _ _)
        (fun c _ hc row hrow n hfirst hlast => ?_) fun _ _ _ h => h)
      -- A row that has moved on has lost no gap of the one that was read.
      rcases hc.2 n hfirst hlast with hstored | hlost
      · exact .inl hstored
      · exact .inr ((hc.1.2 row hrow).gaps n hlost)

/-- The flag is brought up to date after a move that wrote the row. -/
theorem Known.of_put {c c' : Core} {e e' : Execution} (hrow : c.executions e.id = some e)
    (hkeyed : c.Keyed) (hid : e'.id = e.id) (hcore : c'.executions = (c.put e').executions)
    (hnext : c.nextId ≤ c'.nextId) : Known e' c' := by
  refine ⟨?_, fun row hget => ?_⟩
  · rw [hid]
    exact (hkeyed.execution _ _ hrow).2.trans_le hnext
  · rw [hcore, Core.put_executions_self, Option.some.injEq] at hget
    rw [← hget]
    exact Execution.Since.refl _

/-- What is said of an attempt that never began says that it is over. -/
theorem Receipt.noStart_terminal {receipt : Receipt} (h : receipt.noStart = true) :
    receipt.state.terminal = true := by
  unfold Receipt.noStart at h
  simp only [Bool.and_eq_true, Bool.or_eq_true, decide_eq_true_eq] at h
  rcases h.1.1.1.1.1.1.1.1 with (h | h) | h <;> rw [h] <;> rfl

/-- What is left of an execution that never began. -/
theorem noStart_yields (receipt : Receipt) (e : Execution) (hidle : e.state.active = false)
    (hover : receipt.state.terminal = true) :
    (moves careful).Yields (Known e) (do
      markCancel e
      recordReceipt e.id receipt
      if e.state.terminal then pure e
      else
        let now ← reads w.now
        let updated ← update e.id e.version fun row => { row with
          state := receipt.state
          ownership := .notStarted
          exitCode := none
          outcomeKnown := false
          reasonCode := receipt.reason.take 200
          error := receipt.reason
          settledAt := some now
          finalOutputSeq := some 0
          delivery := if e.delivery = .orphaned then .orphaned else .pending }
        refreshOutput updated) fun e' c => Known e' c := by
  refine Yields.quietly (markCancel_quiet e) fun _ => Yields.quietly (recordReceipt_quiet _ _)
    fun _ => ?_
  split
  · exact Abstraction.Yields.pure fun _ _ hc => hc
  · next hwaits =>
      refine Abstraction.Yields.asks fun now => ?_
      intro s e₂ s₃ hkeyed hknown h
      rcases returns_bind.mp h with ⟨e₁, s₁, hupdate, hrefresh⟩
      rcases returns_refreshed hknown hupdate rfl rfl hrefresh with
        ⟨hrow, hmade, hmade₂, hlater, hflagged, hput, hcore⟩
      rw [hput, Core.put_put _ (by rw [hmade₂])] at hcore
      -- No output is final at 0, so it is complete.
      have hcomplete : e₂.outputComplete = true :=
        hflagged.mpr ⟨0, by rw [hmade₂, hmade], fun n hfirst hlast => by omega⟩
      have hchange : Change e e₂ := by
        rw [hmade₂, hcomplete, hmade]
        refine .retire _ _ _ _ _ _ _ _ _ _ hlater (Bool.eq_false_iff.mpr hwaits) hidle hover
          (.inl rfl) ?_
        split
        · next horphaned => exact .inr ⟨rfl, horphaned⟩
        · exact .inl rfl
      refine ⟨?_, ?_⟩
      · change (moves careful).Steps s.core s₃.core
        rw [hcore]
        exact .single (.change e e₂ hrow hchange)
      · change Known e₂ s₃.core
        rw [hcore]
        exact Known.of_put hrow hkeyed hchange.id rfl le_rfl

/-- An attempt that never began is over, and its output is complete. -/
theorem receiveNoStart_acts (receipt : Receipt) (e : Execution) (attempt : Option Attempt) :
    Acts careful (Known e) (receiveNoStart w receipt e attempt) fun _ _ => True := by
  unfold receiveNoStart
  split
  · exact Acts.done
  · next hgood =>
      have hover : receipt.state.terminal = true := by
        simp only [Bool.or_eq_true, Bool.not_eq_true', not_or, Bool.not_eq_false] at hgood
        exact Receipt.noStart_terminal hgood.1.2
      split
      · split
        · exact Acts.done
        · exact Acts.bind (ack_acts w e) fun _ => Acts.done
      · simp only
        split
        · exact Acts.done
        · next hbusy =>
            have hidle : e.state.active = false := by
              by_contra hactive
              rw [Bool.not_eq_false] at hactive
              rw [hactive, ExecutionState.not_terminal_of_active hactive] at hbusy
              exact hbusy rfl
            refine Acts.bind (Acts.atomically ?_ (noStart_yields w receipt e hidle hover))
              fun e' => ?_
            · refine Local.bind (markCancel_quiet e).local fun _ =>
                Local.bind (recordReceipt_quiet _ _).local fun _ => ?_
              split
              · exact Local.pure
              · exact Local.bind Local.reads fun now => Local.bind (update_local _ _ _) fun e₁ =>
                  refreshOutput_local e₁
            · refine Acts.bind (Acts.whenever (P := Known e') fun _ =>
                Acts.quiet (publish_quiet w e') fun _ _ _ hc => hc) fun _ =>
                  Acts.bind (ack_acts w e') fun _ => Acts.done

/-- What a receipt says is lost is lost. -/
theorem Receipt.valid_gaps {receipt : Receipt} (h : receipt.valid = true) :
    ∀ r ∈ receipt.gaps, r.first ≤ r.last := by
  unfold Receipt.valid at h
  simp only [Bool.and_eq_true] at h
  intro r hr
  have hgap := List.all_eq_true.mp h.2 r hr
  simp only [Bool.and_eq_true, decide_eq_true_eq] at hgap
  exact hgap.2

/-- More output of an execution that is over is lost. -/
theorem receiveGaps_acts (receipt : Receipt) (e : Execution) (previous : Receipt)
    (hvalid : receipt.valid = true) :
    Acts careful (Known e) (receiveGaps w receipt e previous) fun _ _ => True := by
  unfold receiveGaps
  split
  · exact Acts.done
  · refine Acts.bind (Q := fun e' => Known e') (Acts.atomically ?_ ?_) fun e' =>
      Acts.quietly (publish_quiet w e') fun _ => Acts.bind (ack_acts w e') fun _ => Acts.done
    · exact Local.bind (update_local _ _ _) fun e₁ =>
        Local.bind (recordReceipt_quiet _ _).local fun _ => refreshOutput_local e₁
    · intro s e₂ s₃ hkeyed hknown h
      rcases returns_bind.mp h with ⟨e₁, s₁, hupdate, h⟩
      rcases returns_bind.mp h with ⟨_, s₂, hrecord, hrefresh⟩
      have hsame : s₂.core = s₁.core := (recordReceipt_quiet _ _).returns hrecord
      rcases returns_refreshed hknown hupdate (by rw [hsame]) (by rw [hsame]) hrefresh with
        ⟨hrow, hmade, hmade₂, hlater, hflagged, hput, hcore⟩
      rw [hsame, hput, Core.put_put _ (by rw [hmade₂])] at hcore
      have hid : e₂.id = e.id := by rw [hmade₂, hmade]
      have houtput : e.Output e₂ := by
        refine ⟨?_, hlater, ?_⟩
        · rw [hmade₂, hmade]
        · rw [hmade₂, hmade]
          exact .inr ⟨_, Receipt.valid_gaps hvalid, rfl⟩
      refine ⟨?_, ?_⟩
      · change (moves careful).Steps s.core s₃.core
        rw [hcore]
        exact .single (.output e e₂ hrow houtput hflagged)
      · change Known e₂ s₃.core
        rw [hcore]
        exact Known.of_put hrow hkeyed hid rfl le_rfl

theorem settleFence_local (receipt : Receipt) (e : Execution) :
    Local (settleFence w receipt e) := by
  unfold settleFence
  cases e.managed with
  | none => exact Local.pure
  | some taskId =>
      refine Local.bind Local.reads fun now => Local.bind (Local.whenever Local.changeDb) fun _ =>
        Local.bind Local.reads fun fence => ?_
      cases fence with
      | none => exact Local.pure
      | some fence =>
          simp only
          split
          · exact Local.pure
          · exact Local.changeDb

/-- The fence of a command that is over is let go. -/
theorem returns_settleFence {receipt : Receipt} {e : Execution} {s s' : State} {a : Unit}
    (h : Returns (settleFence w receipt e) s a s') :
    ∃ now, s'.core = s.core.released e receipt now := by
  unfold settleFence at h
  unfold Core.released
  cases hmanaged : e.managed with
  | none =>
      rw [hmanaged] at h
      rcases returns_pure.mp h with ⟨_, rfl⟩
      exact ⟨0, rfl⟩
  | some taskId =>
      rw [hmanaged] at h
      rcases returns_bind.mp h with ⟨now, s₁, hread, h⟩
      rcases returns_reads.mp hread with ⟨_, rfl⟩
      rcases returns_bind.mp h with ⟨_, s₂, hnote, h⟩
      refine ⟨now, ?_⟩
      -- The settlement is noted where the command ran at all.
      have hnoted : s₂.core = if receipt.ownership ≠ .notStarted then
          s.core.happens (.settled e.id taskId now) else s.core := by
        unfold whenever at hnote
        by_cases hran : receipt.ownership = .notStarted
        · rw [if_neg (by simpa using hran)] at hnote
          rw [if_neg (not_not.mpr hran), (returns_pure.mp hnote).2]
        · rw [if_pos (by simpa using hran)] at hnote
          rw [if_pos hran, ← returns_changeDb.mp hnote]
          rfl
      have hfences : s₂.core.fences = s.core.fences := by
        rw [hnoted]
        split <;> rfl
      simp only
      rw [← hnoted, ← hfences]
      rcases returns_bind.mp h with ⟨fence, s₃, hread, h⟩
      rcases returns_reads.mp hread with ⟨hfence, rfl⟩
      rw [show s₂.core.fences taskId = fence from hfence]
      cases fence with
      | none => rw [(returns_pure.mp h).2]
      | some fence =>
          simp only at h ⊢
          -- Only the fence that this execution took changes.
          by_cases hown : fence.executionId = e.id
          · rw [if_neg (by simpa using hown)] at h ⊢
            rw [← returns_changeDb.mp h]
            unfold State.core Core.putFence
            simp only [get_set_eq_update]
          · rw [if_pos (by simpa using hown)] at h ⊢
            rw [(returns_pure.mp h).2]

/-- A release has nothing to do with rows. -/
theorem Core.released_put (c : Core) (e x : Execution) (receipt : Receipt) (now : Int) :
    (c.put x).released e receipt now = (c.released e receipt now).put x := by
  unfold Core.released
  cases e.managed with
  | none => rfl
  | some taskId =>
      simp only [Core.put_fences]
      cases c.fences taskId with
      | none =>
          simp only
          split <;> rfl
      | some fence =>
          simp only
          split <;> split <;> rfl

/-- What a receipt says about an execution that may have a process fits it. -/
theorem Receipt.fits {receipt : Receipt} {e : Execution} (h : receipt.misfit e = false) :
    (receipt.state.terminal = true → receipt.settledAt.isSome = true ∧
      (receipt.ownership = .notStarted ∨ receipt.ownership = .quiescent)) ∧
    (receipt.state.terminal = false → receipt.settledAt = none ∧ receipt.state.active = true) := by
  unfold Receipt.misfit at h
  simp only [Bool.or_eq_false_iff, Bool.and_eq_false_iff, Bool.not_eq_false'] at h
  refine ⟨fun hover => ?_, fun hgoes => ?_⟩
  · have hend := h.1.1.1.1.1.1.1.1.1.1.1.1.1
    rw [hover] at hend
    simp only [Bool.true_eq_false, false_or, Bool.or_eq_true, decide_eq_true_eq] at hend
    refine ⟨?_, hend.1.1⟩
    cases hsettled : receipt.settledAt with
    | none =>
        rw [hsettled] at hend
        cases hend.1.2
    | some settledAt => rfl
  · have hunsettled := h.1.1.1.1.1.1.2
    have hstill := h.1.1.1.1.1.2
    rw [hgoes] at hunsettled hstill
    simp only [Bool.false_eq_true, false_or] at hunsettled hstill
    refine ⟨?_, ?_⟩
    · cases hsettled : receipt.settledAt with
      | none => rfl
      | some settledAt =>
          rw [hsettled] at hunsettled
          cases hunsettled
    · exact hstill

theorem Core.released_congr (c : Core) {e e' : Execution} (hid : e'.id = e.id)
    (hmanaged : e'.managed = e.managed) (receipt : Receipt) (now : Int) :
    c.released e' receipt now = c.released e receipt now := by
  unfold Core.released
  rw [hmanaged, hid]

/-- A receipt of an execution that may have a process, which fits it. -/
theorem acceptReceipt_acts (receipt : Receipt) (e : Execution) (hvalid : receipt.valid = true)
    (hbusy : e.state.active = true) (hfits : receipt.misfit e = false) :
    Acts careful (Known e) (acceptReceipt w receipt e) fun e' c => Known e' c := by
  unfold acceptReceipt
  refine Acts.atomically ?_ ?_
  · exact Local.bind Local.reads fun now => Local.bind (update_local _ _ _) fun e₁ =>
      Local.bind (recordReceipt_quiet _ _).local fun _ =>
        Local.bind (Local.whenever (settleFence_local w receipt e)) fun _ => refreshOutput_local e₁
  · refine Abstraction.Yields.asks fun now => ?_
    intro s e₂ s₄ hkeyed hknown h
    rcases returns_bind.mp h with ⟨e₁, s₁, hupdate, h⟩
    rcases returns_bind.mp h with ⟨_, s₂, hrecord, h⟩
    rcases returns_bind.mp h with ⟨_, s₃, hsettle, hrefresh⟩
    have hsame : s₂.core = s₁.core := (recordReceipt_quiet _ _).returns hrecord
    -- The fence is let go only when the command is over.
    have hreleased : (receipt.state.terminal = false ∧ s₃.core = s₁.core) ∨
        ∃ now', receipt.state.terminal = true ∧ s₃.core = s₁.core.released e receipt now' := by
      unfold whenever at hsettle
      split at hsettle
      · next hover =>
          rcases returns_settleFence w hsettle with ⟨now', hcore⟩
          rw [hsame] at hcore
          exact .inr ⟨now', hover, hcore⟩
      · next hgoes =>
          rw [← (returns_pure.mp hsettle).2]
          exact .inl ⟨Bool.eq_false_iff.mpr hgoes, hsame⟩
    have hexecutions : s₃.core.executions = s₁.core.executions := by
      rcases hreleased with ⟨_, hcore⟩ | ⟨_, _, hcore⟩ <;> rw [hcore]
      exact Core.released_executions ..
    have hevents : s₃.core.events = s₁.core.events := by
      rcases hreleased with ⟨_, hcore⟩ | ⟨_, _, hcore⟩ <;> rw [hcore]
      exact Core.released_events ..
    rcases returns_refreshed hknown hupdate hexecutions hevents hrefresh with
      ⟨hrow, hmade, hmade₂, hlater, hflagged, hput, hcore⟩
    have hid : e₂.id = e.id := by rw [hmade₂, hmade]
    have hmanaged : e₂.managed = e.managed := by rw [hmade₂, hmade]; rfl
    have hheard : e.Heard e₂ receipt now := by
      refine ⟨hbusy, Receipt.valid_gaps hvalid, ?_, hlater⟩
      rw [hmade₂, hmade]
      rfl
    rcases hreleased with ⟨hgoes, hcore₃⟩ | ⟨now', hover, hcore₃⟩
    · rw [hcore₃, hput, Core.put_put _ (by rw [hmade₂])] at hcore
      have hstill := (Receipt.fits hfits).2 hgoes
      refine ⟨?_, ?_⟩
      · change (moves careful).Steps s.core s₄.core
        rw [hcore]
        exact .single (.report e e₂ receipt now hrow hheard hgoes hstill.2 hstill.1 hflagged)
      · change Known e₂ s₄.core
        rw [hcore]
        exact Known.of_put hrow hkeyed hid rfl le_rfl
    · rw [hcore₃, hput, Core.released_put, Core.put_put _ (by rw [hmade₂]), ← Core.released_put,
        ← Core.released_congr _ hid hmanaged] at hcore
      have hend := (Receipt.fits hfits).1 hover
      refine ⟨?_, ?_⟩
      · change (moves careful).Steps s.core s₄.core
        rw [hcore]
        exact .single (.settle e e₂ receipt now now' hrow hheard hover hend.1 hend.2 hflagged)
      · change Known e₂ s₄.core
        rw [hcore]
        exact Known.of_put hrow hkeyed hid (Core.released_executions ..)
          (Core.released_nextId (s.core.put e₂) e₂ receipt now').ge

/-- A retired execution is acknowledged again: it is gone, and so is all its output. -/
theorem ackRetired_acts (nodeId : Text) (receipt : Receipt) (attempt : Option Attempt) :
    Acts careful (fun c => c.executions receipt.executionId = none) (ackRetired w nodeId receipt
      attempt) fun _ _ => True := by
  unfold ackRetired
  cases attempt with
  | none => exact Acts.done
  | some attempt =>
      simp only
      split
      · split
        · refine Acts.imp (sendAck_acts w _ _ _ _ _ _) (fun c _ hgone row hrow => ?_)
            fun _ _ _ h => h
          rw [hgone] at hrow
          cases hrow
        · exact Acts.done
      · exact Acts.done

theorem acknowledged_acts (e : Execution) :
    Acts careful (Known e) (do
      ack w e
      pure true) fun _ _ => True := Acts.bind (ack_acts w e) fun _ => Acts.done

/-- Any receipt of a Node. -/
theorem receiveReceipt_acts (nodeId : Text) (receipt : Receipt) (hvalid : receipt.valid = true) :
    Acts careful (fun _ => True) (receiveReceipt w nodeId receipt) fun _ _ => True := by
  unfold receiveReceipt
  split
  · exact Acts.done
  · refine Acts.asks fun attempt => Acts.reading (Q := fun row c =>
      (row = none → c.executions receipt.executionId = none) ∧ ∀ e, row = some e → Known e c)
      (fun s hkeyed _ => ⟨fun hnone => hnone, fun e he => Known.of_row hkeyed he⟩) fun row => ?_
    cases row with
    | none =>
        exact Acts.imp (ackRetired_acts w nodeId receipt attempt) (fun _ _ hc => hc.1 rfl)
          fun _ _ _ h => h
    | some e =>
        refine Acts.imp (P := Known e) (Q := fun _ _ => True) ?_ (fun _ _ hc => hc.2 e rfl)
          fun _ _ _ h => h
        simp only
        split
        · exact Acts.done
        · split
          · exact Acts.quietly (Quiet.whenever (sendCancel_quiet w e true)) fun _ => Acts.done
          · split
            · exact Acts.done
            · split
              · exact receiveNoStart_acts w receipt e _
              · exact receiveNoStart_acts w receipt e none
              · next attempt _ =>
                  split
                  · exact acknowledged_acts w e
                  · split
                    · cases attempt.receipt with
                      | none => exact Acts.done
                      | some previous => exact receiveGaps_acts w receipt e previous hvalid
                    · split
                      · exact Acts.done
                      · next hgood =>
                          simp only [Bool.or_eq_true, Bool.not_eq_true', not_or,
                            Bool.not_eq_true, Bool.not_eq_false] at hgood
                          refine Acts.bind (acceptReceipt_acts w receipt e hvalid hgood.1 hgood.2)
                            fun e' => Acts.quietly (publish_quiet w e') fun _ =>
                              Acts.bind (ack_acts w e') fun _ => Acts.asks fun now =>
                                Acts.bind (tick_acts w now) fun _ => Acts.done

/-! ### Output -/

/-- A piece of output that is new, kept or counted as lost. -/
theorem appended_yields (e : Execution) (event : OutputEvent) (bytes : Nat) (retain : Bool)
    (hid : event.executionId = e.id) (hpositive : 0 < event.sequence) :
    (moves careful).Yields
      (fun c => Known e c ∧ c.events (event.executionId, event.sequence) = none) (do
      Effect.whenever retain <| changeDb fun db =>
        { db with events := db.events.set (event.executionId, event.sequence) event }
      let updated ← update e.id e.version fun row => { row with
        outputBytes := e.outputBytes + if retain then bytes else 0
        lastOutputSeq := max e.lastOutputSeq event.sequence
        gaps := if retain then e.gaps
          else mergeCommandGaps (e.gaps ++ [{ first := event.sequence, last := event.sequence }]) }
      let refreshed ← refreshOutput updated
      pure (refreshed, retain)) fun x c => Known x.1 c := by
  intro s x s₃ hkeyed hs h
  rcases hs with ⟨hknown, habsent⟩
  rcases returns_bind.mp h with ⟨_, s₀, hstore, h⟩
  rcases returns_bind.mp h with ⟨e₁, s₁, hupdate, h⟩
  rcases returns_bind.mp h with ⟨e₂, s₂, hrefresh, h⟩
  rcases returns_pure.mp h with ⟨rfl, rfl⟩
  -- The event is the row that changed, when it is kept at all.
  have hstored : s₀.core = if retain then { s.core with
      events := Function.update s.core.events (e.id, event.sequence) (some event) } else s.core := by
    unfold whenever at hstore
    split at hstore
    · rw [← returns_changeDb.mp hstore, if_pos ‹_›, ← hid]
      unfold State.core
      simp only [get_set_eq_update]
    · rw [if_neg ‹_›, (returns_pure.mp hstore).2]
  have hknown₀ : Known e s₀.core := by
    rw [hstored]
    split <;> exact hknown
  rcases returns_refreshed hknown₀ hupdate rfl rfl hrefresh with
    ⟨hrow, hmade, hmade₂, hlater, hflagged, hput, hcore⟩
  -- `refreshOutput` writes the same execution again, so one put is left.
  rw [hput, Core.put_put _ (by rw [hmade₂])] at hcore
  have hsame : e₂.id = e.id := by rw [hmade₂, hmade]
  have hrow₀ : s.core.executions e.id = some e := by
    rw [hstored] at hrow
    split at hrow <;> exact hrow
  have hknown₂ : Known e₂ s₂.core := by
    rw [hcore]
    refine Known.of_put hrow₀ hkeyed hsame ?_ ?_
    · rw [hstored]
      split <;> rfl
    · rw [hstored]
      split <;> exact le_rfl
  refine ⟨?_, hknown₂⟩
  change (moves careful).Steps s.core s₂.core
  rw [hcore]
  cases retain with
  | true =>
      rw [if_pos rfl] at hstored
      rw [hid] at habsent
      refine .single (.append e e₂ event s₀.core hrow₀ habsent hstored ⟨?_, hlater, ?_⟩ hflagged
        hpositive)
      · rw [hmade₂, hmade]
      · rw [hmade₂, hmade]
        exact .inl rfl
  | false =>
      rw [if_neg Bool.false_ne_true] at hstored
      rw [hstored] at hflagged ⊢
      refine .single (.output e e₂ hrow₀ ⟨?_, hlater, ?_⟩ hflagged)
      · rw [hmade₂, hmade]
      · rw [hmade₂, hmade]
        refine .inr ⟨_, fun r hr => ?_, rfl⟩
        rw [List.mem_singleton.mp hr]

theorem appendOutput_acts (e : Execution) (event : OutputEvent) (hid : event.executionId = e.id)
    (hpositive : 0 < event.sequence) :
    Acts careful (Known e) (appendOutput w e event) fun x c => Known x.1 c := by
  unfold appendOutput
  refine Acts.atomically ?_ ?_
  · extract_lets bytes
    split
    · exact Local.raise
    · refine Local.bind Local.reads fun stored => ?_
      cases stored with
      | some existing =>
          simp only
          split
          · exact Local.raise
          · exact Local.pure
      | none =>
          simp only
          split
          · exact Local.pure
          · split
            · exact Local.raise
            · exact Local.bind Local.reads fun total => Local.bind (Local.whenever Local.changeDb)
                fun _ => Local.bind (update_local _ _ _) fun e₁ =>
                  Local.bind (refreshOutput_local e₁) fun _ => Local.pure
  · extract_lets bytes
    split
    · exact fun _ _ _ _ _ h => (not_returns_raise h).elim
    · refine Abstraction.Yields.bind (Q := fun stored c => Known e c ∧
        (stored = none → c.events (event.executionId, event.sequence) = none))
        (Acts.reads fun s _ hknown => ⟨hknown, fun h => h⟩ : Acts careful _ _ _).yields
        fun stored => ?_
      cases stored with
      | some existing =>
          simp only
          split
          · exact fun _ _ _ _ _ h => (not_returns_raise h).elim
          · exact Abstraction.Yields.pure fun _ _ hc => hc.1
      | none =>
          simp only
          split
          · exact Abstraction.Yields.pure fun _ _ hc => hc.1
          · split
            · exact fun _ _ _ _ _ h => (not_returns_raise h).elim
            · refine Abstraction.Yields.asks fun total => ?_
              exact (appended_yields e event _ _ hid hpositive).imp (fun _ _ hc => ⟨hc.1, hc.2 trivial⟩)
                fun _ _ _ h => h

/-- A piece of output of a Node. -/
theorem receiveOutput_acts (nodeId : Text) (event : OutputEvent) (hpositive : 0 < event.sequence) :
    Acts careful (fun _ => True) (receiveOutput w nodeId event) fun _ _ => True := by
  unfold receiveOutput
  refine Acts.reading (Q := fun row c => ∀ e, row = some e → event.executionId = e.id ∧ Known e c)
    (fun s hkeyed _ e he => ⟨(hkeyed.execution _ e he).1.symm, Known.of_row hkeyed he⟩)
    fun row => ?_
  cases row with
  | none => exact Acts.done
  | some e =>
      refine Acts.imp (P := fun c => event.executionId = e.id ∧ Known e c) (Q := fun _ _ => True) ?_
        (fun _ _ hc => hc e rfl) fun _ _ _ h => h
      refine Acts.assuming fun hid => Acts.asks fun started => ?_
      split
      · exact Acts.done
      · refine Acts.bind (appendOutput_acts w e event hid hpositive) fun x => ?_
        exact Acts.quietly (Quiet.whenever (publish_quiet w x.1)) fun _ => acknowledged_acts w x.1

/-! ### Connections -/

theorem receiveInventory_acts (nodeId : Text) (receipts : List Receipt)
    (hvalid : receipts.all Receipt.valid = true) :
    Acts careful (fun _ => True) (receiveInventory w nodeId receipts) fun _ _ => True := by
  induction receipts with
  | nil =>
      unfold receiveInventory
      exact Acts.asks fun now => Acts.bind (tick_acts w now) fun _ => Acts.done
  | cons receipt rest ih =>
      rw [List.all_cons, Bool.and_eq_true] at hvalid
      unfold receiveInventory
      refine Acts.bind (receiveReceipt_acts w nodeId receipt hvalid.1) fun accepted => ?_
      split
      · exact ih hvalid.2
      · exact Acts.done

/-- Any message of a Node. -/
theorem handleNodeMessage_acts (nodeId : Text) (message : NodeMessage) :
    Acts careful (fun _ => True) (handleNodeMessage w nodeId message) fun _ _ => True := by
  unfold handleNodeMessage
  split
  · exact Acts.done
  · next hvalid =>
      rw [Bool.not_eq_true', Bool.not_eq_false] at hvalid
      cases message with
      | leadPromptReceipt receipt => exact promptReceipt_acts w nodeId receipt
      | prepared answer =>
          refine Acts.asks fun able => ?_
          split
          · exact Acts.done
          · exact Acts.bind (prepared_acts w nodeId answer) fun accepted => Acts.asks fun queued =>
              Acts.asks fun now => Acts.bind (Acts.whenever (P := fun _ => True) fun _ =>
                tick_acts w now) fun _ => Acts.done
      | output event =>
          refine Acts.asks fun able => ?_
          split
          · exact Acts.done
          · exact receiveOutput_acts w nodeId event (of_decide_eq_true hvalid)
      | update receipt =>
          refine Acts.asks fun able => ?_
          split
          · exact Acts.done
          · exact receiveReceipt_acts w nodeId receipt hvalid
      | inventory readiness executions =>
          unfold NodeMessage.valid at hvalid
          rw [Bool.and_eq_true] at hvalid
          refine Acts.asks fun able => ?_
          split
          · exact Acts.done
          · refine Acts.quietly (Quiet.writes fun s => ?_) fun _ =>
              receiveInventory_acts w nodeId executions hvalid.2
            cases s.peers.get nodeId <;> rfl

theorem nodeReady_quiet (nodeId : Text) (capabilities : List Text) (readiness : Option Readiness) :
    Quiet (nodeReady w nodeId capabilities readiness) := by
  unfold nodeReady
  refine Quiet.writes fun s => ?_
  cases w.nodeSocket s nodeId <;> rfl

/-- Prompts that are offered change their state, and nothing else. -/
theorem each_prompt_acts {f : PromptRecord → Host Unit} {prompts : List PromptRecord}
    (h : ∀ p ∈ prompts, Acts careful (Stands p) (f p) fun _ _ => True)
    (hframe : ∀ p ∈ prompts, ∀ q : PromptRecord,
      q.delivery.deliveryId ≠ p.delivery.deliveryId → ∀ s, Stands q s.core → Stands q (f p s).2.core) :
    Acts careful (Remaining prompts) (each prompts f) fun _ _ => True := by
  refine Acts.imp (Q := fun _ => Remaining []) (Abstraction.Refines.each_rest (A := moves careful)
    (I := Remaining) fun p rest hsplit => ?_) (fun _ _ hc => hc) fun _ _ _ _ => trivial
  have hmem : p ∈ prompts := by
    rcases hsplit with ⟨before, hbefore⟩
    rw [hbefore]
    exact List.mem_append_right _ List.mem_cons_self
  refine Abstraction.Refines.of (fun s hkeyed hremaining => ?_) fun s a s' hkeyed hremaining ha => ?_
  · exact (h p hmem s ⟨hkeyed, (hremaining.2 p List.mem_cons_self).1⟩).1
  · have hapart := List.pairwise_cons.mp hremaining.1
    refine ⟨hapart.2, fun q hq => ?_⟩
    rcases hremaining.2 q (List.mem_cons_of_mem _ hq) with ⟨hstands, howed⟩
    have hkept := hframe p hmem q (hapart.1 q hq).symm s hstands
    rw [show (f p s).2 = s' from congrArg Prod.snd ha] at hkept
    exact ⟨hkept, howed⟩

/-- Writing a prompt leaves the others alone. -/
theorem updatePrompt_frame {p q : PromptRecord}
    (hne : q.delivery.deliveryId ≠ p.delivery.deliveryId) (s : State) (h : Stands q s.core) :
    Stands q (updatePrompt p s).2.core := by
  change Stands q (s.withPrompt p.retained).core
  rw [State.withPrompt_core]
  unfold Stands
  rw [Core.putPrompt_prompts, PromptRecord.retained_deliveryId, if_neg hne]
  exact h

theorem PromptRecord.restate_follows (p : PromptRecord) (state : PromptState) :
    ({ p with state } : PromptRecord).Follows p := ⟨rfl, rfl, rfl⟩

/-- A Node is gone, and what it was told may not have come about. -/
theorem nodeDisconnected_acts (nodeId : Text) :
    Acts careful (fun _ => True) (nodeDisconnected w nodeId) fun _ _ => True := by
  unfold nodeDisconnected
  refine Acts.quietly (Quiet.writes fun _ => rfl) fun _ => ?_
  refine Acts.reading (Q := fun preparing c => ∀ e ∈ preparing, e.state = .preparing ∧ Known e c)
    (fun s hkeyed _ e he => ?_) fun preparing => ?_
  · rw [List.mem_filter, Bool.and_eq_true, decide_eq_true_eq, decide_eq_true_eq] at he
    exact ⟨he.2.2, (known_of_mem_unsettled hkeyed he.1).2⟩
  refine Acts.bind (Acts.each_known fun e hstate => fail_acts w e _ (by rw [hstate]; rfl)
    (by rw [hstate]; rfl)) fun _ => ?_
  refine Acts.reading (Q := fun active c => ∀ e ∈ active, e.state.active = true ∧ Known e c)
    (fun s hkeyed _ e he => ?_) fun active => ?_
  · rw [List.mem_filter, Bool.and_eq_true] at he
    exact ⟨he.2.2, (known_of_mem_unsettled hkeyed he.1).2⟩
  refine Acts.bind (Acts.each_known fun e hbusy => ?_) fun _ => ?_
  · exact Acts.bind (update_acts e _ (.lose _ _ hbusy)) fun e' => Acts.quiet_done (publish_quiet w e')
  refine Acts.reading (Q := fun prompts c => Remaining prompts c ∧
    ∀ p ∈ prompts, p.state = .reserved ∨ p.state = .accepted) (fun s hkeyed _ => ?_)
      fun prompts => ?_
  · refine ⟨(remaining_prompts hkeyed).filter _, fun p hp => ?_⟩
    have hoffered := (List.mem_filter.mp hp).2
    simp only [Bool.and_eq_true, Bool.or_eq_true, decide_eq_true_eq] at hoffered
    exact hoffered.2
  refine Acts.imp (P := fun c => (∀ p ∈ prompts, p.state = .reserved ∨ p.state = .accepted) ∧
    Remaining prompts c) (Q := fun _ _ => True) (Acts.assuming fun hoffered => ?_)
    (fun _ _ hc => ⟨hc.2, hc.1⟩) fun _ _ _ h => h
  refine each_prompt_acts (fun p hp => ?_) fun p _ q hne => updatePrompt_frame hne
  refine Acts.imp (updatePrompt_acts p { p with state := .uncertain } (p.restate_follows _) ?_)
    (fun _ _ h => h) fun _ _ _ _ => trivial
  rcases hoffered p hp with h | h <;> rw [h] <;> rfl

/-- A Node is back, and is asked what it has. -/
theorem reconnect_acts (nodeId : Text) :
    Acts careful (fun _ => True) (reconnect w nodeId) fun _ _ => True := by
  unfold reconnect
  refine Acts.asks fun blocked => ?_
  split
  · exact Acts.done
  · refine Acts.quietly (reconcileSessionGrants_quiet w) fun _ => Acts.asks fun hostId =>
      Acts.asks fun executions => Acts.quietly (sendReconcile_quiet w _ _ _ _) fun _ => ?_
    refine Acts.reading (Q := fun unsettled c => ∀ e ∈ unsettled, True ∧ Known e c)
      (fun s hkeyed _ e he => ⟨trivial, (known_of_mem_unsettled hkeyed
        (List.mem_of_mem_filter he)).2⟩) fun unsettled => ?_
    refine Acts.bind (Acts.each_known (P := fun _ => True) fun e _ => ?_) fun _ => ?_
    · refine Acts.bind (Q := fun _ _ => True) ?_ fun _ => Acts.quiet_done (sendCancel_quiet w e false)
      unfold whenever
      split
      · next hstate =>
          rw [decide_eq_true_eq] at hstate
          exact fail_acts w e _ (by rw [hstate]; rfl) (by rw [hstate]; rfl)
      · exact Acts.done
    · refine Acts.asks fun prompts => Acts.quietly (Quiet.each fun p =>
        Quiet.discard (send_quiet w nodeId rfl rfl)) fun _ => Acts.asks fun now => ?_
      exact Acts.true_pre (tick_acts w now)

end Commands

end CopilotFleet
