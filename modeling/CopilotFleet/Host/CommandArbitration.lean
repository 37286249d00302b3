import CopilotFleet.Host.CommandRuns

/-!
# Who May Run a Command

A command starts once, after an approval of exactly what is started; what is over
stays over; a Node runs one command at a time; and a task whose worktree is
managed is fenced off while a command of it may run. A dozen entry points write
the rows this depends on, so all of it is said of moves.

## Main definitions

* `Core.Approvals`: What is queued was approved, as it stands.
* `Core.Starts`: What was started has begun, and was started once.
* `Core.Exclusive`: One command on each Node, and its fence is its own.

## Theorems

* `Move.approvals`, `Move.starts`, `Move.exclusive`: Every move keeps them.
* `reached_finished`: What is over keeps its outcome.
* `command_arbitration`: All of it, in every state that is reached.
-/

namespace CopilotFleet

namespace Commands

open Utf16 Effect

variable {careful : Prop} {c c' : Core}

/-! ### Approvals -/

/-- What is queued was approved, by somebody and at some time. -/
def Execution.Approved (e : Execution) (history : List Happening) : Prop :=
  ∃ d approvedBy approvedAt, e.descriptor = some d ∧ e.approvedBy = some approvedBy ∧
    e.approvedAt = some approvedAt ∧ .approved e.id d approvedBy approvedAt ∈ history

def Core.Approvals (c : Core) : Prop :=
  ∀ id e, c.executions id = some e → e.state = .queued → e.Approved c.history

theorem Execution.Approved.append {e : Execution} {history : List Happening}
    (h : e.Approved history) (more : List Happening) : e.Approved (history ++ more) := by
  rcases h with ⟨d, approvedBy, approvedAt, hd, hby, hat, hmem⟩
  exact ⟨d, approvedBy, approvedAt, hd, hby, hat, List.mem_append_left _ hmem⟩

/-- A row that is written, where it is not newly queued. -/
theorem Core.Approvals.put (h : c.Approvals) {e e' : Execution}
    (hrow : c.executions e.id = some e) (hid : e'.id = e.id)
    (hsame : e'.state = .queued → e.state = .queued ∧ e'.descriptor = e.descriptor ∧
      e'.approvedBy = e.approvedBy ∧ e'.approvedAt = e.approvedAt) : (c.put e').Approvals := by
  intro id x hx hqueued
  rw [Core.put_executions] at hx
  split at hx
  · rw [Option.some.injEq] at hx
    subst hx
    rcases hsame hqueued with ⟨hwas, hd, hby, hat⟩
    have happroved := h e.id e hrow hwas
    unfold Execution.Approved at happroved ⊢
    rw [hid, hd, hby, hat]
    exact happroved
  · exact h id x hx hqueued

theorem Change.queued {e e' : Execution} (h : Change e e') (hqueued : e'.state = .queued) :
    e.state = .queued ∧ e'.descriptor = e.descriptor ∧ e'.approvedBy = e.approvedBy ∧
      e'.approvedAt = e.approvedAt := by
  cases h with
  | retire version state descriptor delivery settledAt exitCode outcomeKnown cancelRequested
      reasonCode error later waits idle ended =>
      have hstate : state = .queued := hqueued
      rw [hstate] at ended
      cases ended
  | describe d ended =>
      have hstate : e.state = .queued := hqueued
      rw [hstate] at ended
      cases ended
  | orphan owed => exact ⟨hqueued, rfl, rfl, rfl⟩
  | _ => cases hqueued

/-- What a Node says of a command does not queue it. -/
theorem Execution.Heard.state {e e' : Execution} {receipt : Receipt} {now : Int}
    (h : e.Heard e' receipt now) (hstill : receipt.state.terminal = false → receipt.state.active = true) :
    e'.state.terminal = receipt.state.terminal ∧
      (e'.state.terminal = true ∨ e'.state.active = true) := by
  have hterminal : e'.state.terminal = receipt.state.terminal := by
    rw [h.made]
    exact e.received_terminal receipt now
  refine ⟨hterminal, ?_⟩
  -- A receipt that ends nothing says the command is at work, or it is of a state that is kept.
  by_cases hover : receipt.state.terminal = true
  · exact .inl (hterminal.trans hover)
  · rw [Bool.not_eq_true] at hover
    refine .inr ?_
    have hstate : e'.state = (e.received receipt now).state := by rw [h.made]
    rw [hstate]
    unfold Execution.received
    simp only
    split
    · rfl
    · exact hstill hover

theorem Core.Approvals.heard (h : c.Approvals) {e e' : Execution} {receipt : Receipt} {now : Int}
    (hrow : c.executions e.id = some e) (hheard : e.Heard e' receipt now)
    (hstill : receipt.state.terminal = false → receipt.state.active = true) :
    (c.put e').Approvals := by
  refine h.put hrow (by rw [hheard.made]; rfl) fun hqueued => ?_
  rcases (hheard.state hstill).2 with hover | hbusy
  · rw [hqueued] at hover
    cases hover
  · rw [hqueued] at hbusy
    cases hbusy

/-- Every move keeps what is queued approved. -/
theorem Move.approvals (h : c.Approvals) (hmove : Move careful c c') : c'.Approvals := by
  have hlog : ∀ happening, (c.happens happening).Approvals := fun happening id e he hqueued =>
    (h id e he hqueued).append _
  cases hmove with
  | request e n fresh new drawn =>
      intro id x hx hqueued
      change (c.put e).executions id = some x at hx
      rw [Core.put_executions] at hx
      split at hx
      · rw [Option.some.injEq] at hx
        rw [← hx, fresh.state] at hqueued
        cases hqueued
      · exact h id x hx hqueued
  | change e e' row change => exact h.put row change.id change.queued
  | approve e e' d approvedBy approvedAt scope automatic row waits described made =>
      intro id x hx hqueued
      rw [Core.put_executions] at hx
      split at hx
      · rw [Option.some.injEq] at hx
        rw [← hx, made]
        -- The one move that queues a command notes the approval with it.
        exact ⟨d, approvedBy, approvedAt, rfl, rfl, rfl, List.mem_append_right _ List.mem_cons_self⟩
      · exact hlog _ id x hx hqueued
  | start e e' now sent row queued wanted alone unfenced made once =>
      intro id x hx hqueued
      have hput : (c.put e').Approvals := h.put row (by rw [made]) fun hstate => by
        rw [made] at hstate
        cases hstate
      change (c.begun e' now).executions id = some x at hx
      rw [Core.begun_executions] at hx
      change x.Approved (c.begun e' now).history
      rw [Core.begun_history]
      exact hput id x hx hqueued
  | output e e' row output flagged =>
      refine h.put row (by rw [output.made]) fun hqueued => ?_
      rw [output.made] at hqueued ⊢
      exact ⟨hqueued, rfl, rfl, rfl⟩
  | append e e' event c₁ row absent stored output flagged =>
      subst stored
      refine Core.Approvals.put (c := { c with
        events := Function.update c.events (e.id, event.sequence) (some event) }) h row
          (by rw [output.made]) fun hqueued => ?_
      rw [output.made] at hqueued ⊢
      exact ⟨hqueued, rfl, rfl, rfl⟩
  | report e e' receipt now row heard goes still unsettled flagged =>
      exact h.heard row heard fun _ => still
  | settle e e' receipt now now' row heard ended said known flagged =>
      intro id x hx hqueued
      rw [Core.released_executions] at hx
      -- What is settled is over, so it is not queued.
      have happroved := h.heard row heard (fun hgoes => by rw [ended] at hgoes; cases hgoes) id x hx
        hqueued
      rw [Core.released_history]
      exact happroved.append _
  | observed id f current generation observedAt now asked later row own =>
      exact fun id e he hqueued => (h id e he hqueued).append _
  | dispatch taskId stepId evidence unfenced noted =>
      exact fun id e he hqueued => (h id e he hqueued).append _
  | sweep gone ended =>
      intro id x hx hqueued
      change Function.update c.executions gone none id = some x at hx
      rw [Function.update_apply] at hx
      split at hx
      · cases hx
      · exact h id x hx hqueued
  | complete e e' p n row owed new drawn waits key reports made =>
      refine Core.Approvals.put (c := c.putPrompt p) h row (by rw [made]) fun hqueued => ?_
      rw [made] at hqueued ⊢
      exact ⟨hqueued, rfl, rfl, rfl⟩
  | completeAgain e e' p row owed there key made =>
      refine h.put row (by rw [made]) fun hqueued => ?_
      rw [made] at hqueued ⊢
      exact ⟨hqueued, rfl, rfl, rfl⟩
  | deliver p p' delivery executions row waits same still ended told =>
      intro id x hx hqueued
      rcases told.rows hx with ⟨_, hold⟩ | ⟨_, e, v, hold, _, rfl⟩
      · exact h id x hold hqueued
      · exact h id e hold hqueued
  | _ => exact h

/-! ### Starts -/

/-- The execution a start is of. -/
def HostMessage.started : HostMessage → Option Nat
  | .startCommandExecution descriptor _ _ _ _ _ => some descriptor.executionId
  | _ => none

/-- An execution whose start was decided on, one way or the other. -/
def ExecutionState.begun (state : ExecutionState) : Bool := state.active || state.terminal

/-- What was sent is what was approved, of an execution that is not cancelled. -/
def Sent.Authorized (x : Sent) : Prop :=
  ∃ d approvedBy approvedAt version scope automatic e attempt,
    x.message = .startCommandExecution d approvedBy approvedAt version scope automatic ∧
      x.tables.executions.get d.executionId = some e ∧ e.nodeId = x.nodeId ∧
        e.state = .starting ∧ e.cancelRequested = false ∧ e.version = version ∧
          e.descriptor = some d ∧ e.approvedBy = some approvedBy ∧ e.approvedAt = some approvedAt ∧
            .approved d.executionId d approvedBy approvedAt ∈ x.tables.history ∧
              x.tables.attempts.get d.executionId = some attempt ∧ attempt.cancelled = false

structure Core.Starts (c : Core) : Prop where
  once : (c.starts.filterMap (·.message.started)).Nodup
  authorized : ∀ x ∈ c.starts, x.Authorized
  begun : ∀ x ∈ c.starts, ∀ id, x.message.started = some id → id < c.nextId ∧
    ∀ e, c.executions id = some e → e.state.begun = true

theorem Change.begun {e e' : Execution} (h : Change e e') (hbegun : e.state.begun = true) :
    e'.state.begun = true := by
  unfold ExecutionState.begun at *
  cases h with
  | retire version state descriptor delivery settledAt exitCode outcomeKnown cancelRequested
      reasonCode error later waits idle ended =>
      rw [waits, idle] at hbegun
      cases hbegun
  | prepare d waits => rw [waits] at hbegun; cases hbegun
  | withdraw | lose => rfl
  | describe | orphan => exact hbegun

/-- What has begun has begun for good. -/
theorem Became.begun {e e' : Execution} (h : Became e e') (hbegun : e.state.begun = true) :
    e'.state.begun = true := by
  cases h with
  | change e' change => exact change.begun hbegun
  | approve d approvedBy approvedAt scope automatic waits =>
      rcases waits with waits | waits <;> rw [waits] at hbegun <;> cases hbegun
  | start queued => rw [queued] at hbegun; cases hbegun
  | output e' output =>
      rw [output.made]
      exact hbegun
  | heard e' receipt now heard ends still =>
      unfold ExecutionState.begun
      rw [Bool.or_eq_true]
      exact (heard.state still).2.symm
  | reserve | deliver => exact hbegun

/-- A start that is not new still is of something that has begun. -/
theorem Core.Starts.keeps (h : c.Starts) (hmove : Move careful c c')
    (hstarts : c'.starts = c.starts) : c'.Starts where
  once := hstarts ▸ h.once
  authorized := hstarts ▸ h.authorized
  begun := by
    intro x hx id hid
    rw [hstarts] at hx
    rcases h.begun x hx id hid with ⟨hlt, hall⟩
    refine ⟨hlt.trans_le hmove.grows, fun e' he' => ?_⟩
    rcases hmove.row he' with (hold | ⟨e, he, hbecame⟩) | ⟨hnew, _⟩
    · exact hall e' hold
    · exact hbecame.begun (hall e he)
    · exact absurd hlt (Nat.not_lt.mpr hnew)

/-- Every move keeps that nothing was started twice, or without an approval. -/
theorem Move.starts (hkeyed : c.Keyed) (happrovals : c.Approvals) (h : c.Starts)
    (hmove : Move careful c c') : c'.Starts := by
  have hkeeps := h.keeps hmove
  have hgrows := hmove.grows
  cases hmove with
  | start e e' now sent row queued wanted alone unfenced made once =>
      have hid : e'.id = e.id := by rw [made]
      have hbegun : ∀ id x, (c.begun e' now).executions id = some x → (id = e.id ∧ x = e') ∨
          c.executions id = some x := by
        intro id x hx
        rw [Core.begun_executions, Core.put_executions, hid] at hx
        split at hx
        · next hsame =>
            rw [Option.some.injEq] at hx
            exact .inl ⟨hsame, hx.symm⟩
        · exact .inr hx
      have hold : ∀ x ∈ c.starts, ∀ id, x.message.started = some id → id < c.nextId ∧
          ∀ y, (c.begun e' now).executions id = some y → y.state.begun = true := by
        intro x hx id hstarted
        rcases h.begun x hx id hstarted with ⟨hlt, hall⟩
        refine ⟨hlt, fun y hy => ?_⟩
        rcases hbegun id y hy with ⟨_, rfl⟩ | hkept
        · rw [made]
          rfl
        · exact hall y hkept
      rcases once with rfl | ⟨x, rfl, _, follows⟩
      · refine ⟨?_, ?_, ?_⟩
        · change ((c.starts ++ []).filterMap _).Nodup
          rw [List.append_nil]
          exact h.once
        · change ∀ x ∈ c.starts ++ [], x.Authorized
          rw [List.append_nil]
          exact h.authorized
        · change ∀ x ∈ c.starts ++ [], _
          rw [List.append_nil]
          intro x hx id hstarted
          exact ⟨(hold x hx id hstarted).1.trans_le hgrows, (hold x hx id hstarted).2⟩
      · rcases follows.message with ⟨d, approvedBy, approvedAt, scope, automatic, hd, hby, hat, hmsg⟩
        have hde : e.descriptor = some d := by rw [← hd, made]
        have hdid : d.executionId = e.id := hkeyed.described _ e row d hde
        have hstarted : x.message.started = some e.id := by
          rw [hmsg, ← hdid]
          rfl
        -- It was queued, so nothing was started for it before.
        have hnew : e.id ∉ c.starts.filterMap (·.message.started) := by
          intro hmem
          rcases List.mem_filterMap.mp hmem with ⟨y, hy, hyid⟩
          have hwas := (h.begun y hy e.id hyid).2 e row
          rw [queued] at hwas
          cases hwas
        refine ⟨?_, fun y hy => ?_, fun y hy id hyid => ?_⟩
        · change ((c.starts ++ [x]).filterMap _).Nodup
          rw [List.filterMap_append, List.nodup_append]
          refine ⟨h.once, ?_, ?_⟩
          · simp [hstarted]
          · intro a ha b hb heq
            rw [List.filterMap_cons, hstarted] at hb
            rw [heq, List.mem_singleton.mp hb] at ha
            exact hnew ha
        · rcases List.mem_append.mp hy with hy | hy
          · exact h.authorized y hy
          · rw [List.mem_singleton.mp hy]
            rcases follows.attempt with ⟨attempt, hattempt, _, hfree⟩
            rcases happrovals e.id e row queued with ⟨d₀, by₀, at₀, hd₀, hby₀, hat₀, hmem⟩
            have hsame : d₀ = d ∧ by₀ = approvedBy ∧ at₀ = approvedAt := by
              refine ⟨?_, ?_, ?_⟩
              · exact Option.some.inj (hd₀.symm.trans hde)
              · rw [made] at hby
                exact Option.some.inj (hby₀.symm.trans hby)
              · rw [made] at hat
                exact Option.some.inj (hat₀.symm.trans hat)
            rw [hsame.1, hsame.2.1, hsame.2.2] at hmem
            refine ⟨d, approvedBy, approvedAt, e'.version, scope, automatic, e', attempt, hmsg, ?_,
              follows.nodeId.symm, ?_, ?_, rfl, hd, hby, hat, ?_, ?_, hfree⟩
            · rw [follows.executions, Core.begun_executions, Core.put_executions, hid, hdid, if_pos rfl]
            · rw [made]
            · rw [made]
              exact wanted
            · rw [follows.history, Core.begun_history, hdid]
              exact hmem
            · rw [hdid, ← hid]
              exact hattempt
        · rcases List.mem_append.mp hy with hy | hy
          · exact ⟨(hold y hy id hyid).1.trans_le hgrows, (hold y hy id hyid).2⟩
          · rw [List.mem_singleton.mp hy, hstarted, Option.some.injEq] at hyid
            subst hyid
            refine ⟨(hkeyed.execution _ e row).2.trans_le hgrows, fun z hz => ?_⟩
            rcases hbegun e.id z hz with ⟨_, rfl⟩ | hkept
            · rw [made]
              rfl
            · have hz' : (c.begun e' now).executions e.id = some z := hz
              rw [Core.begun_executions, Core.put_executions, hid, if_pos rfl, Option.some.injEq] at hz'
              rw [← hz', made]
              rfl
  | append e e' event c₁ row absent stored output flagged =>
      subst stored
      exact hkeeps rfl
  | settle e e' receipt now now' row heard ended said known flagged =>
      exact hkeeps (Core.released_starts ..)
  | _ => exact hkeeps rfl

/-! ### One command at a time -/

/-- One command of each Node may run, the fence of its task is its own, and a look at a
    checkout is only asked for when the command is over. -/
structure Core.Exclusive (c : Core) : Prop where
  alone : ∀ id id' e e', c.executions id = some e → c.executions id' = some e' →
    e.state.active = true → e'.state.active = true → e.nodeId = e'.nodeId → id = id'
  fenced : ∀ id e taskId, c.executions id = some e → e.state.active = true →
    e.managed = some taskId → ∃ fence, c.fences taskId = some fence ∧
      fence.state = .executing ∧ fence.executionId = id
  released : ∀ taskId fence, c.fences taskId = some fence → fence.state ≠ .executing →
    Settled fence.executionId c
  asked : ∀ id fence generation, c.observations id = some (fence, generation) →
    fence.executionId = id ∧ Settled id c

/-- A row whose command may run. -/
def Core.Active (c : Core) (id : Nat) (e : Execution) : Prop :=
  c.executions id = some e ∧ e.state.active = true

/-- What is active there was active here, on the same Node and for the same task. -/
def Core.Rests (c c' : Core) : Prop :=
  ∀ id e', c'.Active id e' → ∃ e, c.Active id e ∧ e.nodeId = e'.nodeId ∧ e.managed = e'.managed

theorem Core.rests_of_same (h : c'.executions = c.executions) : c.Rests c' := by
  intro id e' hactive
  unfold Core.Active at hactive
  rw [h] at hactive
  exact ⟨e', hactive, rfl, rfl⟩

theorem Core.rests_put {e e' : Execution} (hrow : c.executions e.id = some e) (hid : e'.id = e.id)
    (hback : e'.state.active = true → e.state.active = true)
    (hbound : e'.toRunCommand = e.toRunCommand ∧ e'.nodeId = e.nodeId) : c.Rests (c.put e') := by
  rintro id x ⟨hx, hactive⟩
  rw [Core.put_executions] at hx
  split at hx
  · next hsame =>
      rw [Option.some.injEq] at hx
      subst hx
      refine ⟨e, ⟨?_, hback hactive⟩, hbound.2.symm, ?_⟩
      · rw [hsame, hid]
        exact hrow
      · unfold Execution.managed
        rw [hbound.1]
  · exact ⟨x, ⟨hx, hactive⟩, rfl, rfl⟩

theorem Change.active {e e' : Execution} (h : Change e e') (hactive : e'.state.active = true) :
    e.state.active = true := by
  cases h with
  | retire version state descriptor delivery settledAt exitCode outcomeKnown cancelRequested
      reasonCode error later waits idle ended =>
      rw [ExecutionState.not_active_of_terminal ended] at hactive
      cases hactive
  | prepare d waits => cases hactive
  | withdraw reasonCode busy => exact busy
  | lose ownership reasonCode busy => exact busy
  | describe | orphan => exact hactive

/-- A command can only begin to run by a start. -/
theorem Move.rests (hmove : Move careful c c') :
    c.Rests c' ∨ ∃ e e' now, c.executions e.id = some e ∧ e'.id = e.id ∧
      c'.executions = (c.put e').executions ∧ c'.fences = (c.begun e' now).fences ∧
        c'.observations = c.observations ∧ e'.nodeId = e.nodeId ∧
          (∀ id row, c.executions id = some row → row.settledAt = none →
            row.nodeId = e.nodeId → row.state.active = true → id = e.id) ∧
          ∀ taskId fence, e'.managed = some taskId → c.fences taskId = some fence →
            fence.state.closed = false := by
  have hbound := fun {e e' : Execution} (h : Became e e') => h.binding
  cases hmove with
  | request e n fresh new drawn =>
      refine .inl fun id x hactive => ?_
      rcases hactive with ⟨hx, hactive⟩
      change (c.put e).executions id = some x at hx
      rw [Core.put_executions] at hx
      split at hx
      · rw [Option.some.injEq] at hx
        rw [← hx, fresh.state] at hactive
        cases hactive
      · exact ⟨x, ⟨hx, hactive⟩, rfl, rfl⟩
  | change e e' row change =>
      exact .inl (Core.rests_put row change.id change.active (hbound (.change e' change)))
  | approve e e' d approvedBy approvedAt scope automatic row waits described made =>
      refine .inl (Core.rests_put (c := c.happens _) row (by rw [made]) (fun hactive => ?_)
        (by rw [made]; exact ⟨rfl, rfl⟩))
      -- What is approved waits in the queue.
      rw [made] at hactive
      cases hactive
  | start e e' now sent row queued wanted alone unfenced made once =>
      -- This is the start, with what was checked before it.
      refine .inr ⟨e, e', now, row, by rw [made], Core.begun_executions .., rfl,
        Core.begun_observations .., by rw [made], alone, fun taskId fence hmanaged hfence => ?_⟩
      refine unfenced taskId fence ?_ hfence
      rw [← hmanaged, made]
      rfl
  | output e e' row output flagged =>
      exact .inl (Core.rests_put row (by rw [output.made]) (fun hactive => by
        rw [output.made] at hactive; exact hactive) (hbound (.output e' output)))
  | append e e' event c₁ row absent stored output flagged =>
      subst stored
      exact .inl (Core.rests_put (c := { c with
        events := Function.update c.events (e.id, event.sequence) (some event) }) row
          (by rw [output.made]) (fun hactive => by rw [output.made] at hactive; exact hactive)
            (hbound (.output e' output)))
  | report e e' receipt now row heard goes still unsettled flagged =>
      exact .inl (Core.rests_put row (by rw [heard.made]; rfl) (fun _ => heard.busy)
        (by rw [heard.made]; exact ⟨rfl, rfl⟩))
  | settle e e' receipt now now' row heard ended said known flagged =>
      have hput : c.Rests (c.put e') := Core.rests_put row (by rw [heard.made]; rfl)
        (fun _ => heard.busy) (by rw [heard.made]; exact ⟨rfl, rfl⟩)
      refine .inl fun id x hactive => hput id x ?_
      unfold Core.Active at hactive ⊢
      rw [Core.released_executions] at hactive
      exact hactive
  | sweep gone ended =>
      refine .inl fun id x hactive => ?_
      rcases hactive with ⟨hx, hactive⟩
      change Function.update c.executions gone none id = some x at hx
      rw [Function.update_apply] at hx
      split at hx
      · cases hx
      · exact ⟨x, ⟨hx, hactive⟩, rfl, rfl⟩
  | complete e e' p n row owed new drawn waits key reports made =>
      exact .inl (Core.rests_put (c := c.putPrompt p) row (by rw [made])
        (fun hactive => by rw [made] at hactive; exact hactive) (by rw [made]; exact ⟨rfl, rfl⟩))
  | completeAgain e e' p row owed there key made =>
      exact .inl (Core.rests_put row (by rw [made])
        (fun hactive => by rw [made] at hactive; exact hactive) (by rw [made]; exact ⟨rfl, rfl⟩))
  | deliver p p' delivery executions row waits same still ended told =>
      refine .inl fun id x hactive => ?_
      rcases told.rows hactive.1 with ⟨_, hold⟩ | ⟨_, e, v, hold, _, rfl⟩
      · exact ⟨x, ⟨hold, hactive.2⟩, rfl, rfl⟩
      · exact ⟨e, ⟨hold, hactive.2⟩, rfl, rfl⟩
  | _ => exact .inl (Core.rests_of_same rfl)

/-- Nothing has begun, and a fence that was given up is of something that is over. -/
theorem Core.Exclusive.keeps (h : c.Exclusive) (hkeyed : c.Keyed) (hmove : Move careful c c')
    (hrests : c.Rests c')
    (hfences : ∀ taskId f', c'.fences taskId = some f' → c.fences taskId = some f' ∨
      Settled f'.executionId c')
    (hkept : ∀ taskId f, c.fences taskId = some f → f.state = .executing →
      c'.fences taskId = some f ∨ ∀ e', ¬c'.Active f.executionId e')
    (hasked : ∀ id f generation, c'.observations id = some (f, generation) →
      c.observations id = some (f, generation) ∨ f.executionId = id ∧ Settled id c') :
    c'.Exclusive where
  alone := by
    intro id id' e e' he he' hactive hactive' hnode
    rcases hrests id e ⟨he, hactive⟩ with ⟨x, hx, hxnode, _⟩
    rcases hrests id' e' ⟨he', hactive'⟩ with ⟨y, hy, hynode, _⟩
    exact h.alone id id' x y hx.1 hy.1 hx.2 hy.2 ((hxnode.trans hnode).trans hynode.symm)
  fenced := by
    intro id e taskId he hactive hmanaged
    rcases hrests id e ⟨he, hactive⟩ with ⟨x, hx, _, hxmanaged⟩
    rcases h.fenced id x taskId hx.1 hx.2 (hxmanaged.trans hmanaged) with ⟨f, hf, hstate, hown⟩
    rcases hkept taskId f hf hstate with hsame | hnone
    · exact ⟨f, hsame, hstate, hown⟩
    · rw [hown] at hnone
      exact absurd ⟨he, hactive⟩ (hnone e)
  released := by
    intro taskId f' hf' hstate
    rcases hfences taskId f' hf' with hold | hsettled
    · exact Settled.stable careful _ c c' hkeyed hmove (h.released taskId f' hold hstate)
    · exact hsettled
  asked := by
    intro id f generation hobserved
    rcases hasked id f generation hobserved with hold | hnew
    · rcases h.asked id f generation hold with ⟨hown, hsettled⟩
      exact ⟨hown, Settled.stable careful _ c c' hkeyed hmove hsettled⟩
    · exact hnew

theorem Settled.not_active {id : Nat} (h : Settled id c) (e : Execution) : ¬c.Active id e := by
  rintro ⟨he, hactive⟩
  rw [ExecutionState.not_active_of_terminal (h.2 e he)] at hactive
  cases hactive

/-- What has begun is alone on its Node, and has taken its fence. -/
theorem Core.Exclusive.begins (h : c.Exclusive) (hkeyed : c.Keyed) (hmove : Move careful c c')
    {e e' : Execution} {now : Int} (hid : e'.id = e.id)
    (hexecutions : c'.executions = (c.put e').executions)
    (hfences : c'.fences = (c.begun e' now).fences) (hasked : c'.observations = c.observations)
    (hnode : e'.nodeId = e.nodeId)
    (halone : ∀ id row, c.executions id = some row → row.settledAt = none →
      row.nodeId = e.nodeId → row.state.active = true → id = e.id)
    (hunfenced : ∀ taskId fence, e'.managed = some taskId → c.fences taskId = some fence →
      fence.state.closed = false) : c'.Exclusive := by
  have hrows : ∀ id x, c'.executions id = some x → (id = e.id ∧ x = e') ∨
      (id ≠ e.id ∧ c.executions id = some x) := by
    intro id x hx
    rw [hexecutions, Core.put_executions, hid] at hx
    split at hx
    · next hsame =>
        rw [Option.some.injEq] at hx
        exact .inl ⟨hsame, hx.symm⟩
    · next hne => exact .inr ⟨hne, hx⟩
  -- Nothing else on its Node is at work, settled or not.
  have hother : ∀ id x, c.executions id = some x → x.state.active = true →
      x.nodeId = e.nodeId → id = e.id := by
    intro id x hx hactive hsame
    refine halone id x hx ?_ hsame hactive
    have hsettled := hkeyed.settled id x hx
    rw [ExecutionState.not_terminal_of_active hactive] at hsettled
    exact Option.isSome_eq_false_iff.mp hsettled |> Option.isNone_iff_eq_none.mp
  refine ⟨fun id id' x y hx hy hactive hactive' hsame => ?_,
    fun id x taskId hx hactive hmanaged => ?_, fun taskId f hf hstate => ?_,
    fun id f generation hobserved => ?_⟩
  · rcases hrows id x hx with ⟨rfl, rfl⟩ | ⟨_, hx'⟩
    · rcases hrows id' y hy with ⟨rfl, _⟩ | ⟨_, hy'⟩
      · rfl
      · exact (hother id' y hy' hactive' (hsame.symm.trans hnode)).symm
    · rcases hrows id' y hy with ⟨rfl, rfl⟩ | ⟨_, hy'⟩
      · exact hother id x hx' hactive (hsame.trans hnode)
      · exact h.alone id id' x y hx' hy' hactive hactive' hsame
  · rw [hfences, Core.begun_fences]
    rcases hrows id x hx with ⟨rfl, rfl⟩ | ⟨_, hx'⟩
    · rw [if_pos hmanaged]
      exact ⟨_, rfl, rfl, hid⟩
    · rcases h.fenced id x taskId hx' hactive hmanaged with ⟨f, hf, hstate, hown⟩
      rw [if_neg]
      · exact ⟨f, hf, hstate, hown⟩
      · intro hsame
        -- A fence that another command has taken would have kept this one waiting.
        have hopen := hunfenced taskId f hsame hf
        rw [hstate] at hopen
        cases hopen
  · rw [hfences, Core.begun_fences] at hf
    split at hf
    · rw [Option.some.injEq] at hf
      rw [← hf] at hstate
      exact absurd rfl hstate
    · exact Settled.stable careful _ c c' hkeyed hmove (h.released taskId f hf hstate)
  · rw [hasked] at hobserved
    rcases h.asked id f generation hobserved with ⟨hown, hsettled⟩
    exact ⟨hown, Settled.stable careful _ c c' hkeyed hmove hsettled⟩

/-- Every move keeps one command on each Node, and the fences of tasks. -/
theorem Move.exclusive (hkeyed : c.Keyed) (h : c.Exclusive) (hmove : Move careful c c') :
    c'.Exclusive := by
  rcases hmove.rests with hrests | ⟨e, e', now, _, hid, hexecutions, hfences, hasked, hnode,
    halone, hunfenced⟩
  · have hkeeps := h.keeps hkeyed hmove hrests
    cases hmove with
    | start e e' now sent row queued wanted alone unfenced made once =>
        -- It was not active before.
        have hactive : Core.Active { c.begun e' now with starts := c.starts ++ sent } e.id e' := by
          refine ⟨?_, by rw [made]; rfl⟩
          change (c.begun e' now).executions e.id = some e'
          rw [Core.begun_executions, Core.put_executions, if_pos (by rw [made])]
        rcases hrests e.id e' hactive with ⟨x, ⟨hx, hwas⟩, _⟩
        rw [row, Option.some.injEq] at hx
        rw [← hx, queued] at hwas
        cases hwas
    | append e e' event c₁ row absent stored output flagged =>
        subst stored
        exact hkeeps (fun _ _ hf => .inl hf) (fun _ _ hf _ => .inl hf) fun _ _ _ ho => .inl ho
    | settle e e' receipt now now' row heard ended said known flagged =>
        have hid : e'.id = e.id := by rw [heard.made]; rfl
        have hover : e'.state.terminal = true := by
          rw [heard.made]
          exact (e.received_terminal receipt now).trans ended
        have hsettled : Settled e'.id ((c.put e').released e' receipt now') := by
          refine ⟨?_, fun x hx => ?_⟩
          · rw [Core.released_nextId, hid]
            exact (hkeyed.execution _ e row).2
          · rw [Core.released_executions, Core.put_executions_self, Option.some.injEq] at hx
            rw [← hx]
            exact hover
        have hchanged := (c.put e').released_fences e' receipt now' hkeyed.fence
        refine hkeeps (fun taskId f' hf' => ?_) (fun taskId f hf _ => ?_) fun _ _ _ ho => ?_
        · rcases hchanged taskId with hsame | ⟨f, _, _, hown, hnew⟩
          · rw [hsame] at hf'
            exact .inl hf'
          · rw [hnew, Option.some.injEq] at hf'
            rw [← hf', Fence.released_executionId, hown]
            exact .inr hsettled
        · rcases hchanged taskId with hsame | ⟨f₀, _, hf₀, hown, _⟩
          · rw [hsame]
            exact .inl hf
          · rw [Core.put_fences, hf, Option.some.injEq] at hf₀
            rw [hf₀, hown]
            exact .inr fun x => hsettled.not_active x
        · rw [Core.released_observations] at ho
          exact .inl ho
    | observe id f generation row own closed =>
        refine hkeeps (fun _ _ hf => .inl hf) (fun _ _ hf _ => .inl hf) fun id' f' generation' ho => ?_
        change Function.update c.observations id (some (f, generation)) id' = _ at ho
        rw [Function.update_apply] at ho
        split at ho
        · next hsame =>
            rw [Option.some.injEq, Prod.mk.injEq] at ho
            rw [← ho.1, hsame]
            refine .inr ⟨own, ?_⟩
            rw [← own]
            exact h.released _ f row (by rw [closed]; simp)
        · exact .inl ho
    | forget observations less =>
        exact hkeeps (fun _ _ hf => .inl hf) (fun _ _ hf _ => .inl hf)
          fun id f generation ho => .inl (less id _ ho)
    | observed id f current generation observedAt now asked later row own =>
        rcases h.asked id f generation asked with ⟨hown, hsettled⟩
        refine hkeeps (fun taskId f' hf' => ?_) (fun taskId f' hf' _ => ?_) fun _ _ _ ho => .inl ho
        · change (c.putFence _).fences taskId = some f' at hf'
          rw [Core.putFence_fences] at hf'
          split at hf'
          · rw [Option.some.injEq] at hf'
            rw [← hf']
            change _ ∨ Settled f.executionId _
            rw [hown]
            exact .inr hsettled
          · exact .inl hf'
        · change (c.putFence _).fences taskId = some f' ∨ _
          rw [Core.putFence_fences]
          split
          · next hsame =>
              change taskId = f.taskId at hsame
              rw [hsame, row, Option.some.injEq] at hf'
              rw [← hf', own]
              exact .inr fun x => Settled.not_active hsettled x
          · exact .inl hf'
    | _ => exact hkeeps (fun _ _ hf => .inl hf) (fun _ _ hf _ => .inl hf) fun _ _ _ ho => .inl ho
  · exact h.begins hkeyed hmove hid hexecutions hfences hasked hnode halone hunfenced

/-! ### Outcomes -/

/-- What is never changed once a command is over. -/
def Execution.SameOutcome (e' e : Execution) : Prop :=
  e'.state = e.state ∧ e'.ownership = e.ownership ∧ e'.exitCode = e.exitCode ∧
    e'.finalOutputSeq = e.finalOutputSeq ∧ e'.settledAt = e.settledAt

/-- If there is still a row for what is over, it has the outcome it had. -/
def Finished (id : Nat) (e : Execution) (c : Core) : Prop :=
  id < c.nextId ∧ ∀ e', c.executions id = some e' → e'.state.terminal = true ∧ e'.SameOutcome e

theorem Finished.stable (careful : Prop) (id : Nat) (e : Execution) :
    (moves careful).Stable (Finished id e) := by
  intro c c' hkeyed hmove hfinished
  refine ⟨hfinished.1.trans_le (Move.grows hmove), fun x' hx' => ?_⟩
  rcases Move.row hmove hx' with (hold | ⟨x, hx, hbecame⟩) | ⟨hnew, _⟩
  · exact hfinished.2 x' hold
  · rcases hfinished.2 x hx with ⟨hover, hstate, hownership, hexit, hfinal, hsettled⟩
    rcases hbecame.settled hover with ⟨hstate', hownership', hexit', hfinal', hsettled'⟩
    exact ⟨hstate' ▸ hover, hstate'.trans hstate, hownership'.trans hownership, hexit'.trans hexit,
      hfinal'.trans hfinal, hsettled'.trans hsettled⟩
  · exact absurd hfinished.1 (Nat.not_lt.mpr hnew)

/-- What is over in a state of a run keeps its outcome to the end of it. -/
theorem reached_finished (inputs later : List (World × Op)) {id : Nat} {e e' : Execution}
    (he : (reached inputs).execution id = some e) (hover : e.state.terminal = true)
    (he' : (reached (inputs ++ later)).execution id = some e') : e'.SameOutcome e := by
  have hkeyed : (reached inputs).core.Keyed :=
    (reached_invariant (I := fun _ => True) trivial (fun _ _ _ _ _ => trivial) inputs).1
  have hstart : Finished id e (reached inputs).core := by
    refine ⟨(hkeyed.execution id e he).2, fun x hx => ?_⟩
    have hsame : e = x := Option.some.inj (he.symm.trans hx)
    rw [← hsame]
    exact ⟨hover, rfl, rfl, rfl, rfl, rfl⟩
  have hend : Finished id e (Run.final step (reached inputs) later).core := by
    refine (Run.invariant step (fun s => s.core.Keyed ∧ Finished id e s.core)
      (fun s input hs => ?_) later (reached inputs) ⟨hkeyed, hstart⟩).2
    have hsteps : (moves False).Steps s.core (step s input).core :=
      step_moves s input hs.1 False.elim
    exact ⟨Abstraction.Steps.keeps _ hsteps hs.1,
      (Finished.stable False id e).steps _ hsteps hs.1 hs.2⟩
  unfold reached at he'
  rw [Run.final_append] at he'
  exact (hend.2 e' he').2

/-! ### Every state that is reached -/

theorem exclusive_empty : ({} : State).core.Exclusive where
  alone := fun _ _ _ _ h => by cases h
  fenced := fun _ _ _ h => by cases h
  released := fun _ _ h => by cases h
  asked := fun _ _ _ h => by cases h

theorem arbitrated (inputs : List (World × Op)) :
    (reached inputs).core.Keyed ∧ (reached inputs).core.Approvals ∧ (reached inputs).core.Starts ∧
      (reached inputs).core.Exclusive := by
  refine reached_invariant (I := fun c => c.Approvals ∧ c.Starts ∧ c.Exclusive) ⟨?_, ?_, ?_⟩
    (fun c c' hkeyed hc hmove => ⟨hmove.approvals hc.1, hmove.starts hkeyed hc.1 hc.2.1,
      hmove.exclusive hkeyed hc.2.2⟩) inputs
  · exact fun _ _ h => by cases h
  · exact ⟨List.nodup_nil, fun _ h => absurd h List.not_mem_nil,
      fun _ h => absurd h List.not_mem_nil⟩
  · exact exclusive_empty

/-- A command starts once and as approved, keeps its outcome once it is over, runs alone
    on its Node, and is fenced while it may run. -/
theorem command_arbitration (inputs : List (World × Op)) :
    (((reached inputs).outbox.filterMap (·.message.started)).Nodup ∧
      ∀ x ∈ (reached inputs).outbox, x.message.started.isSome = true → x.Authorized) ∧
    ((∀ later id e e', (reached inputs).execution id = some e → e.state.terminal = true →
      (reached (inputs ++ later)).execution id = some e' → e'.SameOutcome e) ∧
      ∀ id e, (reached inputs).execution id = some e →
        e.settledAt.isSome = e.state.terminal) ∧
    (∀ id id' e e', (reached inputs).execution id = some e →
      (reached inputs).execution id' = some e' → e.state.active = true → e'.state.active = true →
        e.nodeId = e'.nodeId → id = id') ∧
    ∀ id e taskId, (reached inputs).execution id = some e → e.state.active = true →
      e.managed = some taskId → ∃ fence, (reached inputs).db.fences.get taskId = some fence ∧
        fence.state = .executing ∧ fence.executionId = id := by
  rcases arbitrated inputs with ⟨hkeyed, _, hstarts, hexclusive⟩
  have hstarted : ∀ x : Sent, x.message.started.isSome = true ↔ x.message.isStart = true := by
    intro x
    cases x.message <;> simp [HostMessage.started, HostMessage.isStart]
  refine ⟨⟨?_, fun x hx hstart => ?_⟩, ⟨fun later id e e' he hover he' => ?_, hkeyed.settled⟩,
    hexclusive.alone, hexclusive.fenced⟩
  · have hfilter : (reached inputs).outbox.filterMap (·.message.started) =
        (reached inputs).core.starts.filterMap (·.message.started) := by
      change _ = ((reached inputs).outbox.filter _).filterMap _
      rw [List.filterMap_filter]
      refine List.filterMap_congr fun x _ => ?_
      split
      · rfl
      · next hother =>
          rw [← hstarted] at hother
          exact Option.not_isSome_iff_eq_none.mp hother
    rw [hfilter]
    exact hstarts.once
  · exact hstarts.authorized x (List.mem_filter.mpr ⟨hx, (hstarted x).mp hstart⟩)
  · exact reached_finished inputs later he hover he'

end Commands

end CopilotFleet
