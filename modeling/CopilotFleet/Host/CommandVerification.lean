import CopilotFleet.Host.CommandArbitration
import CopilotFleet.Protocol.Fleet

/-!
# Verification after Commands

A command that ran in the worktree of a task may have changed it, so what was
verified before is verified no more. The task may be handed over when its checkout
was looked at after the command was over, and a step that verifies was dispatched
after that and has succeeded.

The guarantee is spread over a fence and the evidence of steps, which carry a
revision and not a time. What was settled, observed and dispatched is therefore
kept in the order it came about, in a history that no operation reads, and the
fence and the evidence are shown to say what the history says.

## Main definitions

* `State.assertCommandVerification`: The gate.
* `Seen`: Every command of a task that ran was followed by a look at its checkout.
* `Confirmed`: The last dispatch of a step came after all that.
* `Core.Verified`: Fences and evidence say what the history says.

## Theorems

* `Move.verified`: Every move keeps it so.
* `command_verification`: What the gate lets through was verified.
-/

namespace CopilotFleet

namespace Commands

open Utf16 Effect

variable {careful : Prop} {c c' : Core}

/-! ### The gate -/

/-- The categories of steps that verify what was written. -/
def verifyingCategories : List Text :=
  [ofString "test", ofString "review-quick", ofString "review-deep"]

/-- What stands against handing a task over, with its steps at hand. -/
def State.assertCommandVerification (s : State) (runId : Text) (steps : List RunStep) :
    Option Failure :=
  if s.fenced runId then refusal "command_task_fenced"
  else if (s.db.fences.get runId).map (·.state) ≠ some .verificationRequired then none
  else if steps.any fun step => verifyingCategories.contains step.category &&
      step.state = .succeeded && s.stepHasCurrentEvidence runId step.id then none
  else refusal "command_verification_required"

/-! ### Histories -/

/-- No command of the task is over that may have run. -/
def Untouched (taskId : Text) (history : List Happening) : Prop :=
  ∀ id changedAt, .settled id taskId changedAt ∉ history

/-- Every command of the task that is over, but those up to `limit`, was followed by a
    look at its checkout. -/
def Pending (taskId : Text) (limit : Int) (history : List Happening) : Prop :=
  ∀ before id changedAt after, history = before ++ .settled id taskId changedAt :: after →
    changedAt ≤ limit ∨ ∃ observedAt, changedAt ≤ observedAt ∧ .observed taskId observedAt ∈ after

/-- Every command of the task that is over was followed by a look at its checkout. -/
def Seen (taskId : Text) (history : List Happening) : Prop :=
  ∀ before id changedAt after, history = before ++ .settled id taskId changedAt :: after →
    ∃ observedAt, changedAt ≤ observedAt ∧ .observed taskId observedAt ∈ after

/-- The last dispatch of the step came after every command of the task that is over, and
    after a look at its checkout. -/
def Confirmed (taskId stepId : Text) (history : List Happening) : Prop :=
  ∃ before owner after, history = before ++ .dispatched owner stepId :: after ∧
    (∀ other, .dispatched other stepId ∉ after) ∧ Untouched taskId after ∧ Seen taskId before

section Histories

variable {taskId stepId : Text} {limit : Int} {history : List Happening} {happening : Happening}

theorem Untouched.seen (h : Untouched taskId history) : Seen taskId history := by
  intro before id changedAt after hsplit
  refine absurd ?_ (h id changedAt)
  rw [hsplit]
  exact List.mem_append_right _ List.mem_cons_self

theorem Seen.pending (h : Seen taskId history) (limit : Int) : Pending taskId limit history :=
  fun before id changedAt after hsplit => .inr (h before id changedAt after hsplit)

theorem Untouched.append (h : Untouched taskId history)
    (hother : ∀ id changedAt, happening ≠ .settled id taskId changedAt) :
    Untouched taskId (history ++ [happening]) := by
  intro id changedAt hmem
  rcases List.mem_append.mp hmem with hmem | hmem
  · exact h id changedAt hmem
  · exact hother id changedAt (List.mem_singleton.mp hmem).symm

/-- A settled command of a longer history stands in the shorter one, or is the last. -/
theorem settled_of_append {before after : List Happening} {id : Nat} {changedAt : Int}
    (hsplit : history ++ [happening] = before ++ .settled id taskId changedAt :: after) :
    (after = [] ∧ happening = .settled id taskId changedAt) ∨
      ∃ after', after = after' ++ [happening] ∧
        history = before ++ .settled id taskId changedAt :: after' := by
  rcases List.eq_nil_or_concat after with rfl | ⟨after', last, rfl⟩
  · have hlast := List.append_inj' hsplit rfl
    exact .inl ⟨rfl, List.head_eq_of_cons_eq hlast.2⟩
  · have hsplit' : history ++ [happening] =
        (before ++ .settled id taskId changedAt :: after') ++ [last] := by
      rw [hsplit, List.concat_eq_append, List.append_assoc, List.cons_append]
    have hlast := List.append_inj' hsplit' rfl
    rw [← List.head_eq_of_cons_eq hlast.2]
    exact .inr ⟨after', List.concat_eq_append, hlast.1⟩

theorem Pending.append (h : Pending taskId limit history)
    (hother : ∀ id changedAt, happening = .settled id taskId changedAt → changedAt ≤ limit) :
    Pending taskId limit (history ++ [happening]) := by
  intro before id changedAt after hsplit
  rcases settled_of_append hsplit with ⟨_, hlast⟩ | ⟨after', rfl, hold⟩
  · exact .inl (hother id changedAt hlast)
  · rcases h before id changedAt after' hold with hle | ⟨observedAt, hle, hmem⟩
    · exact .inl hle
    · exact .inr ⟨observedAt, hle, List.mem_append_left _ hmem⟩

theorem Seen.append (h : Seen taskId history)
    (hother : ∀ id changedAt, happening ≠ .settled id taskId changedAt) :
    Seen taskId (history ++ [happening]) := by
  intro before id changedAt after hsplit
  rcases settled_of_append hsplit with ⟨_, hlast⟩ | ⟨after', rfl, hold⟩
  · exact absurd hlast (hother id changedAt)
  · rcases h before id changedAt after' hold with ⟨observedAt, hle, hmem⟩
    exact ⟨observedAt, hle, List.mem_append_left _ hmem⟩

/-- A look at the checkout that is late enough is a look after everything. -/
theorem Pending.observed (h : Pending taskId limit history) {observedAt : Int}
    (hlate : limit ≤ observedAt) : Seen taskId (history ++ [.observed taskId observedAt]) := by
  intro before id changedAt after hsplit
  rcases settled_of_append hsplit with ⟨_, hlast⟩ | ⟨after', rfl, hold⟩
  · cases hlast
  · rcases h before id changedAt after' hold with hle | ⟨seenAt, hle, hmem⟩
    · exact ⟨observedAt, hle.trans hlate, List.mem_append_right _ List.mem_cons_self⟩
    · exact ⟨seenAt, hle, List.mem_append_left _ hmem⟩

theorem Confirmed.append (h : Confirmed taskId stepId history)
    (hother : ∀ id changedAt, happening ≠ .settled id taskId changedAt)
    (hstep : ∀ owner, happening ≠ .dispatched owner stepId) :
    Confirmed taskId stepId (history ++ [happening]) := by
  rcases h with ⟨before, owner, after, rfl, hlast, hnone, hseen⟩
  refine ⟨before, owner, after ++ [happening], ?_, fun other hmem => ?_, hnone.append hother, hseen⟩
  · rw [List.append_assoc, List.cons_append]
  · rcases List.mem_append.mp hmem with hmem | hmem
    · exact hlast other hmem
    · exact hstep other (List.mem_singleton.mp hmem).symm

theorem Seen.dispatched (h : Seen taskId history) (owner : Text) :
    Confirmed taskId stepId (history ++ [.dispatched owner stepId]) :=
  ⟨history, owner, [], rfl, fun _ => List.not_mem_nil, fun _ _ => List.not_mem_nil, h⟩

end Histories

/-! ### What has run -/

/-- A row whose command is over and may have run. -/
def Execution.Ran (e : Execution) : Prop :=
  e.state.terminal = true ∧ e.ownership ≠ .notStarted

/-- What has run is in the history, and what is in the history is over. -/
structure Core.Recorded (c : Core) : Prop where
  settled : ∀ id taskId changedAt, .settled id taskId changedAt ∈ c.history → Settled id c
  recorded : ∀ id e taskId, c.executions id = some e → e.managed = some taskId → e.Ran →
    ∃ changedAt, .settled id taskId changedAt ∈ c.history

/-- What has run there had run here, or is in the history. -/
def Core.Notes (c c' : Core) : Prop :=
  ∀ id e' taskId, c'.executions id = some e' → e'.managed = some taskId → e'.Ran →
    (∃ e, c.executions id = some e ∧ e.managed = some taskId ∧ e.Ran) ∨
      ∃ changedAt, .settled id taskId changedAt ∈ c'.history

theorem Core.notes_put {e e' : Execution} (hrow : c.executions e.id = some e) (hid : e'.id = e.id)
    (hbound : e'.toRunCommand = e.toRunCommand ∧ e'.nodeId = e.nodeId) (hran : e'.Ran → e.Ran) :
    c.Notes (c.put e') := by
  intro id x taskId hx hmanaged hxran
  rw [Core.put_executions] at hx
  split at hx
  · next hsame =>
      rw [Option.some.injEq] at hx
      subst hx
      refine .inl ⟨e, ?_, ?_, hran hxran⟩
      · rw [hsame, hid]
        exact hrow
      · unfold Execution.managed at hmanaged ⊢
        rw [← hbound.1]
        exact hmanaged
  · exact .inl ⟨x, hx, hmanaged, hxran⟩

theorem Change.ran {e e' : Execution} (h : Change e e') (hran : e'.Ran) : e.Ran := by
  cases h with
  | retire => exact absurd rfl hran.2
  | prepare | withdraw | lose => cases hran.1
  | describe | orphan => exact hran

/-- What has run is noted when it is over. -/
theorem Move.notes (hmove : Move careful c c') : c.Notes c' := by
  cases hmove with
  | request e n fresh new drawn =>
      intro id x taskId hx hmanaged hran
      change (c.put e).executions id = some x at hx
      rw [Core.put_executions] at hx
      split at hx
      · rw [Option.some.injEq] at hx
        rw [← hx] at hran
        -- A new row has run nothing.
        exact absurd fresh.ownership hran.2
      · exact .inl ⟨x, hx, hmanaged, hran⟩
  | change e e' row change =>
      exact Core.notes_put row change.id (Became.binding (.change e' change)) change.ran
  | approve e e' d approvedBy approvedAt scope automatic row waits described made =>
      refine Core.notes_put (c := c.happens _) row (by rw [made]) (by rw [made]; exact ⟨rfl, rfl⟩)
        fun hran => ?_
      -- What is queued or starts is not over, so there is nothing to note.
      have hover := hran.1
      rw [made] at hover
      cases hover
  | start e e' now sent row queued wanted alone unfenced made once =>
      have hput : c.Notes (c.put e') := by
        refine Core.notes_put row (by rw [made]) (by rw [made]; exact ⟨rfl, rfl⟩) fun hran => ?_
        have hover := hran.1
        rw [made] at hover
        cases hover
      intro id x taskId hx hmanaged hran
      change (c.begun e' now).executions id = some x at hx
      rw [Core.begun_executions] at hx
      rcases hput id x taskId hx hmanaged hran with hold | ⟨changedAt, hmem⟩
      · exact .inl hold
      · refine .inr ⟨changedAt, ?_⟩
        change _ ∈ (c.begun e' now).history
        rw [Core.begun_history]
        exact hmem
  | output e e' row output flagged =>
      refine Core.notes_put row (by rw [output.made]) (Became.binding (.output e' output)) fun hran => ?_
      unfold Execution.Ran at hran ⊢
      rw [output.made] at hran
      exact hran
  | append e e' event c₁ row absent stored output flagged =>
      subst stored
      refine Core.notes_put (c := { c with
        events := Function.update c.events (e.id, event.sequence) (some event) }) row
          (by rw [output.made]) (Became.binding (.output e' output)) fun hran => ?_
      unfold Execution.Ran at hran ⊢
      rw [output.made] at hran
      exact hran
  | report e e' receipt now row heard goes still unsettled flagged =>
      refine Core.notes_put row (by rw [heard.made]; rfl) (by rw [heard.made]; exact ⟨rfl, rfl⟩)
        fun hran => ?_
      have hover := hran.1
      rw [(heard.state fun _ => still).1, goes] at hover
      cases hover
  | settle e e' receipt now now' row heard ended said known flagged =>
      intro id x taskId hx hmanaged hran
      rw [Core.released_executions, Core.put_executions] at hx
      split at hx
      · next hsame =>
          rw [Option.some.injEq] at hx
          subst hx
          -- This is the move that notes it.
          refine .inr ⟨now', ?_⟩
          have hownership : receipt.ownership ≠ .notStarted := by
            have hown := hran.2
            rw [heard.made] at hown
            exact hown
          rw [Core.released_history, hmanaged]
          simp only
          rw [if_pos hownership, ← hsame]
          exact List.mem_append_right _ List.mem_cons_self
      · exact .inl ⟨x, hx, hmanaged, hran⟩
  | sweep gone ended =>
      intro id x taskId hx hmanaged hran
      change Function.update c.executions gone none id = some x at hx
      rw [Function.update_apply] at hx
      split at hx
      · cases hx
      · exact .inl ⟨x, hx, hmanaged, hran⟩
  | complete e e' p n row owed new drawn waits key reports made =>
      refine Core.notes_put (c := c.putPrompt p) row (by rw [made]) (by rw [made]; exact ⟨rfl, rfl⟩)
        fun hran => ?_
      rw [made] at hran
      exact hran
  | completeAgain e e' p row owed there key made =>
      refine Core.notes_put row (by rw [made]) (by rw [made]; exact ⟨rfl, rfl⟩) fun hran => ?_
      rw [made] at hran
      exact hran
  | deliver p p' delivery executions row waits same still ended told =>
      intro id x taskId hx hmanaged hran
      rcases told.rows hx with ⟨_, hold⟩ | ⟨_, e, v, hold, _, rfl⟩
      · exact .inl ⟨x, hold, hmanaged, hran⟩
      · exact .inl ⟨e, hold, hmanaged, hran⟩
  | _ => exact fun id x taskId hx hmanaged hran => .inl ⟨x, hx, hmanaged, hran⟩

/-- What one move adds to the history: nothing, or one happening. -/
theorem Move.history (hmove : Move careful c c') :
    c'.history = c.history ∨ ∃ happening, c'.history = c.history ++ [happening] ∧
      ∀ id taskId changedAt, happening = .settled id taskId changedAt → ∃ e e' receipt now,
        c.executions e.id = some e ∧ e'.id = e.id ∧ id = e.id ∧ e'.managed = some taskId ∧
          e.state.active = true ∧ e'.state.terminal = true ∧
            c' = (c.put e').released e' receipt now ∧ receipt.ownership ≠ .notStarted ∧
              changedAt = now := by
  cases hmove with
  | approve e e' d approvedBy approvedAt scope automatic row waits described made =>
      exact .inr ⟨_, rfl, fun _ _ _ h => by cases h⟩
  | observed id f current generation observedAt now asked later row own =>
      exact .inr ⟨_, rfl, fun _ _ _ h => by cases h⟩
  | dispatch taskId stepId evidence unfenced noted =>
      exact .inr ⟨_, rfl, fun _ _ _ h => by cases h⟩
  | start e e' now sent row queued wanted alone unfenced made once =>
      exact .inl (Core.begun_history c e' now)
  | append e e' event c₁ row absent stored output flagged => subst stored; exact .inl rfl
  | settle e e' receipt now now' row heard ended said known flagged =>
      have hid : e'.id = e.id := by rw [heard.made]; rfl
      rw [Core.released_history]
      cases hmanaged : e'.managed with
      | none => exact .inl (List.append_nil _)
      | some taskId =>
          simp only
          split
          · next hran =>
              refine .inr ⟨_, rfl, fun id taskId' changedAt h => ?_⟩
              rw [Happening.settled.injEq] at h
              refine ⟨e, e', receipt, now', row, hid, h.1.symm.trans hid, ?_, heard.busy, ?_, rfl,
                hran, h.2.2.symm⟩
              · rw [hmanaged, h.2.1]
              · rw [(heard.state fun hgoes => by rw [ended] at hgoes; cases hgoes).1]
                exact ended
          · exact .inl (List.append_nil _)
  | _ => exact .inl rfl

theorem Move.recorded (hkeyed : c.Keyed) (h : c.Recorded)
    (hmove : Move careful c c') : c'.Recorded := by
  have hgrows : ∀ happening ∈ c.history, happening ∈ c'.history := by
    intro happening hmem
    rcases hmove.history with hsame | ⟨new, hnew, _⟩
    · rw [hsame]
      exact hmem
    · rw [hnew]
      exact List.mem_append_left _ hmem
  refine ⟨fun id taskId changedAt hmem => ?_, fun id e' taskId he' hmanaged hran => ?_⟩
  · have hold : .settled id taskId changedAt ∈ c.history → Settled id c' := fun hmem =>
      Settled.stable careful id c c' hkeyed hmove (h.settled id taskId changedAt hmem)
    rcases hmove.history with hsame | ⟨happening, hnew, hsettled⟩
    · rw [hsame] at hmem
      exact hold hmem
    · rw [hnew] at hmem
      rcases List.mem_append.mp hmem with hmem | hmem
      · exact hold hmem
      · rcases hsettled id taskId changedAt (List.mem_singleton.mp hmem).symm with
          ⟨e, e', receipt, now, hrow, hid, hown, _, _, hover, rfl, _⟩
        refine ⟨?_, fun x hx => ?_⟩
        · rw [Core.released_nextId, hown]
          exact (hkeyed.execution _ e hrow).2
        · rw [Core.released_executions, Core.put_executions, hid, if_pos hown, Option.some.injEq] at hx
          rw [← hx]
          exact hover
  · rcases hmove.notes id e' taskId he' hmanaged hran with ⟨e, he, hwas, hran'⟩ | hnew
    · rcases h.recorded id e taskId he hwas hran' with ⟨changedAt, hmem⟩
      exact ⟨changedAt, hgrows _ hmem⟩
    · exact hnew

/-! ### Fences and evidence -/

/-- What a fence says of the history of its task. -/
def Fence.Tells (f : Fence) (history : List Happening) : Prop :=
  match f.state with
  | .executing =>
      match f.previousVerificationAt with
      | none => Untouched f.taskId history
      | some _ => Seen f.taskId history
  | .observationRequired => Pending f.taskId f.changedAt history
  | .verificationRequired => Seen f.taskId history
  | .clear => Untouched f.taskId history

/-- Fences, observations and evidence say what the history says. -/
structure Core.Verified (c : Core) : Prop where
  unfenced : ∀ taskId, c.fences taskId = none → Untouched taskId c.history ∧
    ∀ stepId noted, c.evidence stepId = some noted → noted.taskId ≠ taskId
  fence : ∀ taskId f, c.fences taskId = some f → f.Tells c.history
  asked : ∀ id f generation, c.observations id = some (f, generation) →
    f.state = .observationRequired ∧ ∀ current, c.fences f.taskId = some current →
      current.executionId = id → current.revision = f.revision ∧
        (current = f ∨ current.state = .verificationRequired)
  evidence : ∀ taskId f stepId noted, c.fences taskId = some f → c.evidence stepId = some noted →
    noted.taskId = taskId → noted.revision ≤ f.revision ∧
      (f.state.closed = true → noted.revision < f.revision) ∧
        (noted.revision = f.revision → Confirmed taskId stepId c.history)

theorem Fence.Tells.append {f : Fence} {history : List Happening} (h : f.Tells history)
    {happening : Happening} (hother : ∀ id changedAt, happening ≠ .settled id f.taskId changedAt) :
    f.Tells (history ++ [happening]) := by
  unfold Fence.Tells at h ⊢
  cases hstate : f.state with
  | executing =>
      rw [hstate] at h
      simp only at h ⊢
      cases hprevious : f.previousVerificationAt with
      | none =>
          rw [hprevious] at h
          exact Untouched.append h hother
      | some previous =>
          rw [hprevious] at h
          exact Seen.append h hother
  | observationRequired =>
      rw [hstate] at h
      exact Pending.append h fun id changedAt heq => absurd heq (hother id changedAt)
  | verificationRequired =>
      rw [hstate] at h
      exact Seen.append h hother
  | clear =>
      rw [hstate] at h
      exact Untouched.append h hother

/-- A fence that is open says that everything was seen. -/
theorem Fence.Tells.seen {f : Fence} {history : List Happening} (h : f.Tells history)
    (hopen : f.state.closed = false) : Seen f.taskId history := by
  unfold Fence.Tells at h
  cases hstate : f.state with
  | executing | observationRequired =>
      rw [hstate] at hopen
      cases hopen
  | verificationRequired =>
      rw [hstate] at h
      exact h
  | clear =>
      rw [hstate] at h
      exact Untouched.seen h

namespace Core.Verified

theorem of_same (h : c.Verified) (hfences : c'.fences = c.fences)
    (hevidence : c'.evidence = c.evidence) (hasked : c'.observations = c.observations)
    (hhistory : c'.history = c.history) : c'.Verified where
  unfenced := by rw [hfences, hhistory, hevidence]; exact h.unfenced
  fence := by rw [hfences, hhistory]; exact h.fence
  asked := by rw [hasked, hfences]; exact h.asked
  evidence := by rw [hfences, hevidence, hhistory]; exact h.evidence

/-- What is noted here has nothing to do with tasks or steps. -/
theorem log (h : c.Verified) {happening : Happening}
    (hother : ∀ id taskId changedAt, happening ≠ .settled id taskId changedAt)
    (hstep : ∀ owner stepId, happening ≠ .dispatched owner stepId) :
    (c.happens happening).Verified where
  unfenced := fun taskId hnone =>
    ⟨(h.unfenced taskId hnone).1.append fun id changedAt => hother id taskId changedAt,
      (h.unfenced taskId hnone).2⟩
  fence := fun taskId f hf => (h.fence taskId f hf).append fun id => hother id f.taskId
  asked := h.asked
  evidence := by
    intro taskId f stepId noted hf hnoted htask
    rcases h.evidence taskId f stepId noted hf hnoted htask with ⟨hle, hclosed, hsame⟩
    exact ⟨hle, hclosed, fun heq => (hsame heq).append (fun id => hother id taskId)
      fun owner => hstep owner stepId⟩

/-- A fence that is taken says what was known before. -/
theorem taken_tells (h : c.Verified) (hkeyed : c.Keyed) {taskId : Text} {id : Nat} {now : Int}
    (hopen : ∀ fence, c.fences taskId = some fence → fence.state.closed = false) :
    (Fence.taken (c.fences taskId) taskId id now).Tells c.history := by
  unfold Fence.taken Fence.Tells
  cases hf : c.fences taskId with
  | none => exact (h.unfenced taskId hf).1
  | some f =>
      have htells := h.fence taskId f hf
      have htask := hkeyed.fence taskId f hf
      have hstate := hopen f hf
      simp only [Option.bind_some]
      by_cases hverify : f.state = .verificationRequired
      · rw [if_pos hverify]
        have hseen := htells.seen hstate
        rw [htask] at hseen
        exact hseen
      · rw [if_neg hverify]
        unfold Fence.Tells at htells
        cases hwas : f.state with
        | executing | observationRequired =>
            rw [hwas] at hstate
            cases hstate
        | verificationRequired => exact absurd hwas hverify
        | clear =>
            rw [hwas] at htells
            rw [← htask]
            exact htells

/-- A command begins: its fence is taken under a revision that no evidence has. -/
theorem begun (h : c.Verified) (hkeyed : c.Keyed) (hexclusive : c.Exclusive) {e e' : Execution}
    {now : Int} (hrow : c.executions e.id = some e) (hqueued : e.state = .queued)
    (hid : e'.id = e.id)
    (hopen : ∀ taskId fence, e'.managed = some taskId → c.fences taskId = some fence →
      fence.state.closed = false) : (c.begun e' now).Verified where
  unfenced := by
    intro taskId hnone
    rw [Core.begun_fences] at hnone
    split at hnone
    · cases hnone
    · rw [Core.begun_history, Core.begun_evidence]
      exact h.unfenced taskId hnone
  fence := by
    intro taskId f hf
    rw [Core.begun_history]
    rw [Core.begun_fences] at hf
    split at hf
    · next hmanaged =>
        rw [Option.some.injEq] at hf
        rw [← hf]
        exact h.taken_tells hkeyed fun fence hfence => hopen taskId fence hmanaged hfence
    · exact h.fence taskId f hf
  asked := by
    intro id f generation hobserved
    rw [Core.begun_observations] at hobserved
    rcases h.asked id f generation hobserved with ⟨hstate, hcurrent⟩
    refine ⟨hstate, fun current hf hown => ?_⟩
    rw [Core.begun_fences] at hf
    split at hf
    · -- What was observed is over, and what begins is not.
      rw [Option.some.injEq] at hf
      have hsame : id = e.id := by
        rw [← hown, ← hf, ← hid]
        rfl
      have hover := (hexclusive.asked id f generation hobserved).2.2 e (by rw [hsame]; exact hrow)
      rw [hqueued] at hover
      cases hover
    · exact hcurrent current hf hown
  evidence := by
    intro taskId f stepId noted hf hnoted htask
    rw [Core.begun_evidence] at hnoted
    rw [Core.begun_history]
    rw [Core.begun_fences] at hf
    split at hf
    · rw [Option.some.injEq] at hf
      have hless : noted.revision < f.revision := by
        rw [← hf]
        unfold Fence.taken
        simp only
        -- Taking a fence counts its revision on, and evidence is never ahead of the fence.
        cases hprevious : c.fences taskId with
        | none => exact absurd htask ((h.unfenced taskId hprevious).2 stepId noted hnoted)
        | some previous =>
            have hle := (h.evidence taskId previous stepId noted hprevious hnoted htask).1
            simp only [Option.map_some, Option.getD_some]
            omega
      exact ⟨hless.le, fun _ => hless, fun heq => absurd heq hless.ne⟩
    · exact h.evidence taskId f stepId noted hf hnoted htask

/-- What a fence tells after the command that had taken it is over. -/
theorem released_tells {f : Fence} {history : List Happening} (h : f.Tells history)
    (hstate : f.state = .executing) (receipt : Receipt) (now : Int) :
    (f.released receipt now).Tells (history ++
      if receipt.ownership ≠ .notStarted then [.settled f.executionId f.taskId now] else []) := by
  unfold Fence.Tells at h
  rw [hstate] at h
  simp only at h
  unfold Fence.released
  by_cases hran : receipt.ownership = .notStarted
  · rw [if_pos hran, if_neg (not_not.mpr hran), List.append_nil]
    -- What never started changed nothing, so the fence returns to what it told before.
    cases hprevious : f.previousVerificationAt with
    | none =>
        rw [hprevious] at h
        exact h
    | some previous =>
        rw [hprevious] at h
        exact h
  · rw [if_neg hran, if_pos hran]
    have hseen : Seen f.taskId history := by
      cases hprevious : f.previousVerificationAt with
      | none =>
          rw [hprevious] at h
          exact Untouched.seen h
      | some previous =>
          rw [hprevious] at h
          exact h
    exact (hseen.pending now).append fun id changedAt heq => by
      rw [Happening.settled.injEq] at heq
      exact heq.2.2.symm.le

/-- A command is over, and lets its fence go. -/
theorem released (h : c.Verified) (hkeyed : c.Keyed) (hexclusive : c.Exclusive) {e e' : Execution}
    {receipt : Receipt} {now : Int} (hrow : c.executions e.id = some e) (hid : e'.id = e.id)
    (hmanaged : e'.managed = e.managed) (hbusy : e.state.active = true) :
    ((c.put e').released e' receipt now).Verified := by
  cases htask : e.managed with
  | none =>
      have hsame : (c.put e').released e' receipt now = c.put e' := by
        unfold Core.released
        rw [hmanaged, htask]
      rw [hsame]
      exact h.of_same rfl rfl rfl rfl
  | some task =>
      rcases hexclusive.fenced e.id e task hrow hbusy htask with ⟨f, hf, hstate, hown⟩
      have hftask := hkeyed.fence task f hf
      -- What is settled is not the command that ran until now.
      have hrest : ∀ id x, Settled id c → x = e.id → id ≠ x := by
        intro id x hsettled hx heq
        have hover := hsettled.2 e (by rw [heq, hx]; exact hrow)
        rw [ExecutionState.not_terminal_of_active hbusy] at hover
        cases hover
      have hhistory : ((c.put e').released e' receipt now).history = c.history ++
          if receipt.ownership ≠ .notStarted then [.settled f.executionId f.taskId now] else [] := by
        rw [Core.released_history, hmanaged, htask, hown, hftask, hid]
        rfl
      -- What is said of another task hears nothing of this one.
      have hlog : ∀ (other : Text) (P : List Happening → Prop), other ≠ task → P c.history →
          (∀ happening, (∀ id changedAt, happening ≠ .settled id other changedAt) →
            (∀ owner step, happening ≠ .dispatched owner step) → P (c.history ++ [happening])) →
              P ((c.put e').released e' receipt now).history := by
        intro other P hne hold hmore
        rw [hhistory]
        split
        · refine hmore _ (fun id changedAt heq => ?_) fun owner step heq => by cases heq
          rw [Happening.settled.injEq] at heq
          exact hne (heq.2.1.symm.trans hftask)
        · rw [List.append_nil]
          exact hold
      have hfences : ∀ taskId, ((c.put e').released e' receipt now).fences taskId =
          if taskId = task then some (f.released receipt now) else c.fences taskId := by
        intro taskId
        unfold Core.released
        rw [hmanaged, htask]
        simp only [Core.put_fences, hf]
        rw [if_neg (by rw [hown, hid]; exact not_not.mpr rfl), Core.putFence_fences,
          Fence.released_taskId, hftask]
        split
        · rfl
        · split <;> rfl
      refine ⟨fun taskId hnone => ?_, fun taskId g hg => ?_, fun id g generation hobserved => ?_,
        fun taskId g stepId noted hg hnoted htask' => ?_⟩
      · rw [hfences] at hnone
        split at hnone
        · cases hnone
        · next hne =>
            rw [Core.released_evidence]
            refine ⟨hlog taskId (Untouched taskId) hne (h.unfenced taskId hnone).1
              fun happening hother _ => (h.unfenced taskId hnone).1.append hother,
              (h.unfenced taskId hnone).2⟩
      · rw [hfences] at hg
        split at hg
        · rw [Option.some.injEq] at hg
          rw [← hg, hhistory]
          exact released_tells (h.fence task f hf) hstate receipt now
        · next hne =>
            have hgtask := hkeyed.fence taskId g hg
            exact hlog taskId (g.Tells ·) hne (h.fence taskId g hg) fun happening hother _ =>
              (h.fence taskId g hg).append (by rw [hgtask]; exact hother)
      · rw [Core.released_observations] at hobserved
        rcases h.asked id g generation hobserved with ⟨hwaits, hcurrent⟩
        refine ⟨hwaits, fun current hg hcurrentOwn => ?_⟩
        rw [hfences] at hg
        split at hg
        · rw [Option.some.injEq] at hg
          rw [← hg, Fence.released_executionId, hown] at hcurrentOwn
          exact absurd hcurrentOwn.symm
            (hrest id e.id (hexclusive.asked id g generation hobserved).2 rfl)
        · exact hcurrent current hg hcurrentOwn
      · rw [Core.released_evidence] at hnoted
        rw [hfences] at hg
        split at hg
        · next hsame =>
            rw [Option.some.injEq] at hg
            -- The fence was closed until now, so all evidence is older.
            have hless := (h.evidence task f stepId noted hf hnoted (htask'.trans hsame)).2.1
              (by rw [hstate]; rfl)
            rw [← hg, Fence.released_revision]
            exact ⟨hless.le, fun _ => hless, fun heq => absurd heq hless.ne⟩
        · next hne =>
            rcases h.evidence taskId g stepId noted hg hnoted htask' with ⟨hle, hclosed, hsame⟩
            refine ⟨hle, hclosed, fun heq => ?_⟩
            exact hlog taskId (Confirmed taskId stepId) hne (hsame heq) fun happening hother hstep =>
              (hsame heq).append hother fun owner => hstep owner stepId

/-- A checkout was looked at after the last command was over. -/
theorem observed (h : c.Verified) (hkeyed : c.Keyed) (hexclusive : c.Exclusive) {id : Nat}
    {f current : Fence} {generation : Nat} {observedAt now : Int}
    (hasked : c.observations id = some (f, generation)) (hlater : f.changedAt ≤ observedAt)
    (hcurrent : c.fences f.taskId = some current) (hown : current.executionId = id) :
    ((c.putFence { f with
      state := .verificationRequired
      changedAt := now }).happens (.observed f.taskId observedAt)).Verified := by
  rcases h.asked id f generation hasked with ⟨hstate, hsame⟩
  rcases hsame current hcurrent hown with ⟨hrevision, hknown⟩
  have htells := h.fence f.taskId current hcurrent
  have hcurrentTask := hkeyed.fence f.taskId current hcurrent
  -- An observation settles nothing and dispatches nothing.
  have hneutral : ∀ (taskId : Text) id changedAt,
      Happening.observed f.taskId observedAt ≠ .settled id taskId changedAt :=
    fun _ _ _ heq => by cases heq
  have hquiet : ∀ stepId owner, Happening.observed f.taskId observedAt ≠ .dispatched owner stepId :=
    fun _ _ heq => by cases heq
  have hseen : Seen f.taskId (c.history ++ [.observed f.taskId observedAt]) := by
    -- The fence is the one that was pending, or somebody has verified it meanwhile.
    rcases hknown with rfl | hverified
    · unfold Fence.Tells at htells
      rw [hstate] at htells
      exact Pending.observed htells hlater
    · unfold Fence.Tells at htells
      rw [hverified, hcurrentTask] at htells
      exact Seen.append htells (hneutral _)
  refine ⟨fun taskId hnone => ?_, fun taskId g hg => ?_, fun id' g generation' hobserved => ?_,
    fun taskId g stepId noted hg hnoted htask => ?_⟩
  · rw [Core.happens_fences, Core.putFence_fences] at hnone
    split at hnone
    · cases hnone
    · exact ⟨(h.unfenced taskId hnone).1.append (hneutral taskId), (h.unfenced taskId hnone).2⟩
  · rw [Core.happens_fences, Core.putFence_fences] at hg
    split at hg
    · rw [Option.some.injEq] at hg
      rw [← hg]
      exact hseen
    · exact (h.fence taskId g hg).append (hneutral _)
  · rcases h.asked id' g generation' hobserved with ⟨hwaits, hother⟩
    refine ⟨hwaits, fun x hx hxown => ?_⟩
    rw [Core.happens_fences, Core.putFence_fences] at hx
    split at hx
    · rw [Option.some.injEq] at hx
      have hid : id' = id := by
        rw [← hxown, ← hx]
        exact (hexclusive.asked id f generation hasked).1
      have hpair := hobserved
      change c.observations id' = _ at hpair
      rw [hid, hasked, Option.some.injEq, Prod.mk.injEq] at hpair
      rw [← hx, ← hpair.1]
      exact ⟨rfl, .inr rfl⟩
    · exact hother x hx hxown
  · rw [Core.happens_fences, Core.putFence_fences] at hg
    split at hg
    · next hsameTask =>
        rw [Option.some.injEq] at hg
        change taskId = f.taskId at hsameTask
        rcases h.evidence f.taskId current stepId noted hcurrent hnoted (htask.trans hsameTask) with
          ⟨hle, hclosed, heqr⟩
        rw [← hg]
        refine ⟨hrevision ▸ hle, fun hc => absurd hc Bool.false_ne_true, fun heq => ?_⟩
        rw [hsameTask]
        exact (heqr (heq.trans hrevision.symm)).append (hneutral _) (hquiet stepId)
    · rcases h.evidence taskId g stepId noted hg hnoted htask with ⟨hle, hclosed, heqr⟩
      exact ⟨hle, hclosed, fun heq => (heqr heq).append (hneutral _) (hquiet stepId)⟩

/-- A step is dispatched while its task is open. -/
theorem dispatched (h : c.Verified) (hkeyed : c.Keyed) {taskId stepId : Text}
    {evidence : Text → Option Evidence}
    (hopen : ∀ fence, c.fences taskId = some fence → fence.state.closed = false)
    (hnoted : evidence = match c.fences taskId with
      | none => c.evidence
      | some fence =>
          Function.update c.evidence stepId (some { taskId, revision := fence.revision })) :
    ({ c.happens (.dispatched taskId stepId) with evidence } : Core).Verified := by
  have hneutral : ∀ (other : Text) id changedAt,
      Happening.dispatched taskId stepId ≠ .settled id other changedAt :=
    fun _ _ _ heq => by cases heq
  -- Evidence is as it was, or it is the new one, under the fence as it is.
  have hevidence : ∀ step noted, evidence step = some noted → c.evidence step = some noted ∨
      step = stepId ∧ ∃ fence, c.fences taskId = some fence ∧
        noted = { taskId, revision := fence.revision } := by
    intro step noted hstep
    rw [hnoted] at hstep
    cases hf : c.fences taskId with
    | none =>
        rw [hf] at hstep
        exact .inl hstep
    | some fence =>
        rw [hf] at hstep
        simp only [Function.update_apply] at hstep
        split at hstep
        · next hsame =>
            rw [Option.some.injEq] at hstep
            exact .inr ⟨hsame, fence, rfl, hstep.symm⟩
        · exact .inl hstep
  refine ⟨fun other hnone => ?_, fun other f hf => (h.fence other f hf).append (hneutral _), h.asked,
    fun other f step noted hf hstep htask => ?_⟩
  · refine ⟨(h.unfenced other hnone).1.append (hneutral other), fun step noted hstep => ?_⟩
    rcases hevidence step noted hstep with hold | ⟨_, fence, hfence, rfl⟩
    · exact (h.unfenced other hnone).2 step noted hold
    · intro hsame
      -- New evidence is under a fence, and this task has none.
      have hsame' : taskId = other := hsame
      change c.fences other = none at hnone
      rw [← hsame', hfence] at hnone
      cases hnone
  · rcases hevidence step noted hstep with hold | ⟨rfl, fence, hfence, rfl⟩
    · rcases h.evidence other f step noted hf hold htask with ⟨hle, hclosed, hsame⟩
      refine ⟨hle, hclosed, fun heq => ?_⟩
      by_cases hstep' : step = stepId
      · -- The step is dispatched again, and for no task that it has evidence of.
        have hopen' : f.state.closed = false := by
          rw [Bool.eq_false_iff]
          intro hc
          exact absurd heq (hclosed hc).ne
        have hseen := (h.fence other f hf).seen hopen'
        rw [hkeyed.fence other f hf] at hseen
        rw [hstep']
        exact hseen.dispatched taskId
      · refine (hsame heq).append (hneutral other) fun owner howner => ?_
        rw [Happening.dispatched.injEq] at howner
        exact hstep' howner.2.symm
    · have hsame : taskId = other := htask
      subst hsame
      change c.fences taskId = some f at hf
      rw [hfence, Option.some.injEq] at hf
      subst hf
      refine ⟨le_rfl, fun hc => ?_, fun _ => ?_⟩
      · rw [hopen fence hfence] at hc
        cases hc
      · have hseen := (h.fence taskId fence hfence).seen (hopen fence hfence)
        rw [hkeyed.fence taskId fence hfence] at hseen
        exact hseen.dispatched taskId

end Core.Verified

/-- Every move keeps fences and evidence true to the history. -/
theorem Move.verified (hkeyed : c.Keyed) (hexclusive : c.Exclusive) (h : c.Verified)
    (hmove : Move careful c c') : c'.Verified := by
  cases hmove with
  | approve e e' d approvedBy approvedAt scope automatic row waits described made =>
      have hlogged : (c.happens (.approved e.id d approvedBy approvedAt)).Verified :=
        h.log (fun _ _ _ heq => by cases heq) fun _ _ heq => by cases heq
      exact hlogged.of_same rfl rfl rfl rfl
  | start e e' now sent row queued wanted alone unfenced made once =>
      have hbegun : (c.begun e' now).Verified := h.begun hkeyed hexclusive row queued (by rw [made])
        fun taskId fence hmanaged hfence => unfenced taskId fence (by
          rw [← hmanaged, made]
          rfl) hfence
      exact hbegun.of_same rfl rfl rfl rfl
  | append e e' event c₁ row absent stored output flagged =>
      subst stored
      exact h.of_same rfl rfl rfl rfl
  | settle e e' receipt now now' row heard ended said known flagged =>
      exact h.released hkeyed hexclusive row (by rw [heard.made]; rfl) (by rw [heard.made]; rfl)
        heard.busy
  | observe id f generation row own closed =>
      refine ⟨h.unfenced, h.fence, fun id' g generation' hobserved => ?_, h.evidence⟩
      change Function.update c.observations id (some (f, generation)) id' = _ at hobserved
      rw [Function.update_apply] at hobserved
      split at hobserved
      · rw [Option.some.injEq, Prod.mk.injEq] at hobserved
        rw [← hobserved.1]
        refine ⟨closed, fun current hcurrent _ => ?_⟩
        change c.fences f.taskId = some current at hcurrent
        rw [row, Option.some.injEq] at hcurrent
        rw [← hcurrent]
        exact ⟨rfl, .inl rfl⟩
      · exact h.asked id' g generation' hobserved
  | forget observations less =>
      exact ⟨h.unfenced, h.fence, fun id f generation hobserved => h.asked id f generation
        (less id _ hobserved), h.evidence⟩
  | observed id f current generation observedAt now asked later row own =>
      exact h.observed hkeyed hexclusive asked later row own
  | dispatch taskId stepId evidence unfenced noted => exact h.dispatched hkeyed unfenced noted
  | _ => exact h.of_same rfl rfl rfl rfl

/-! ### What the gate lets through -/

theorem verified_empty : ({} : State).core.Verified where
  unfenced := fun _ _ => ⟨fun _ _ => List.not_mem_nil, fun _ _ h => by cases h⟩
  fence := fun _ _ h => by cases h
  asked := fun _ _ _ h => by cases h
  evidence := fun _ _ _ _ h => by cases h

theorem reached_verified (inputs : List (World × Op)) :
    (reached inputs).core.Keyed ∧ (reached inputs).core.Recorded ∧
      (reached inputs).core.Verified := by
  have hall := reached_invariant (I := fun c => c.Exclusive ∧ c.Recorded ∧ c.Verified)
    ⟨exclusive_empty, ⟨fun _ _ _ h => absurd h List.not_mem_nil, fun _ _ _ h => by cases h⟩,
      verified_empty⟩
    (fun c c' hkeyed hc hmove => ⟨hmove.exclusive hkeyed hc.1, hmove.recorded hkeyed hc.2.1,
      hmove.verified hkeyed hc.1 hc.2.2⟩) inputs
  exact ⟨hall.1, hall.2.2⟩

/-- A task that passes the gate has no command that may have run, or a step that was
    dispatched last after all of them were seen. -/
theorem State.passed {s : State} {taskId : Text} {steps : List RunStep} (hkeyed : s.core.Keyed)
    (hverified : s.core.Verified) (h : s.assertCommandVerification taskId steps = none) :
    Untouched taskId s.db.history ∨ ∃ step ∈ steps,
      verifyingCategories.contains step.category = true ∧ step.state = .succeeded ∧
        Confirmed taskId step.id s.db.history := by
  unfold State.assertCommandVerification at h
  cases hf : s.db.fences.get taskId with
  | none => exact .inl (hverified.unfenced taskId hf).1
  | some f =>
      have htells := hverified.fence taskId f hf
      have htask := hkeyed.fence taskId f hf
      unfold State.fenced at h
      rw [hf] at h
      simp only [Option.any_some, Option.map_some] at h
      split at h
      · cases h
      · next hopen =>
          split at h
          · next hstate =>
              -- It is neither closed nor to be verified.
              unfold Fence.Tells at htells
              cases hwas : f.state with
              | executing | observationRequired =>
                  rw [hwas] at hopen
                  exact absurd rfl hopen
              | verificationRequired =>
                  rw [hwas] at hstate
                  exact absurd rfl hstate
              | clear =>
                  rw [hwas, htask] at htells
                  exact .inl htells
          · split at h
            · next hany =>
                rcases List.any_eq_true.mp hany with ⟨step, hstep, hgood⟩
                simp only [Bool.and_eq_true, decide_eq_true_eq] at hgood
                refine .inr ⟨step, hstep, hgood.1.1, hgood.1.2, ?_⟩
                have hcurrent := hgood.2
                unfold State.stepHasCurrentEvidence at hcurrent
                rw [hf] at hcurrent
                simp only [decide_eq_true_eq] at hcurrent
                exact (hverified.evidence taskId f step.id _ hf hcurrent rfl).2.2 rfl
            · cases h

/-- Two ways to cut a list: what is in one tail stands in the other, or before it. -/
theorem split_settled {history before after before' after' : List Happening} {id : Nat}
    {taskId : Text} {changedAt : Int} {x : Happening}
    (h : history = before ++ .settled id taskId changedAt :: after)
    (h' : history = before' ++ x :: after') (hx : x ≠ .settled id taskId changedAt)
    (hnot : .settled id taskId changedAt ∉ after') :
    ∃ mid, before' = before ++ .settled id taskId changedAt :: mid ∧ after = mid ++ x :: after' := by
  rw [h] at h'
  rcases List.append_eq_append_iff.mp h' with ⟨mid, hbefore, hrest⟩ | ⟨mid, hbefore, hrest⟩
  · cases mid with
    | nil => exact absurd (List.head_eq_of_cons_eq hrest).symm hx
    | cons y rest =>
        rw [List.cons_append] at hrest
        rw [← List.head_eq_of_cons_eq hrest] at hbefore
        exact ⟨rest, hbefore, List.tail_eq_of_cons_eq hrest⟩
  · cases mid with
    | nil => exact absurd (List.head_eq_of_cons_eq hrest) hx
    | cons y rest =>
        rw [List.cons_append] at hrest
        refine absurd ?_ hnot
        rw [List.tail_eq_of_cons_eq hrest]
        exact List.mem_append_right _ List.mem_cons_self

/-- Where a task passes the gate, each of its commands that may have run is over, and a
    verifying step that has succeeded was last dispatched after the command was over and
    after its checkout was looked at, no earlier than that. -/
theorem command_verification (inputs : List (World × Op)) (taskId : Text) (steps : List RunStep)
    (h : (reached inputs).assertCommandVerification taskId steps = none) :
    (∀ id e, (reached inputs).execution id = some e → e.managed = some taskId →
      e.state.terminal = true → e.ownership ≠ .notStarted →
        ∃ changedAt, .settled id taskId changedAt ∈ (reached inputs).db.history) ∧
    ∀ before id changedAt after,
      (reached inputs).db.history = before ++ .settled id taskId changedAt :: after →
        (∀ e, (reached inputs).execution id = some e → e.state.terminal = true) ∧
          ∃ step ∈ steps, verifyingCategories.contains step.category = true ∧
            step.state = .succeeded ∧ ∃ mid owner last observedAt,
              after = mid ++ .dispatched owner step.id :: last ∧
                (∀ other, .dispatched other step.id ∉ last) ∧ changedAt ≤ observedAt ∧
                  .observed taskId observedAt ∈ mid := by
  rcases reached_verified inputs with ⟨hkeyed, hrecorded, hverified⟩
  refine ⟨fun id e he hmanaged hover hran => hrecorded.recorded id e taskId he hmanaged ⟨hover, hran⟩,
    fun before id changedAt after hsplit => ?_⟩
  have hmem : .settled id taskId changedAt ∈ (reached inputs).db.history := by
    rw [hsplit]
    exact List.mem_append_right _ List.mem_cons_self
  refine ⟨(hrecorded.settled id taskId changedAt hmem).2, ?_⟩
  rcases State.passed hkeyed hverified h with huntouched | ⟨step, hstep, hcategory, hstate, hconfirmed⟩
  · exact absurd hmem (huntouched id changedAt)
  · rcases hconfirmed with ⟨start, owner, last, hlast, honly, hnone, hseen⟩
    rcases split_settled hsplit hlast (fun heq => by cases heq) (hnone id changedAt) with
      ⟨mid, hstart, hafter⟩
    rcases hseen before id changedAt mid hstart with ⟨observedAt, hle, hobserved⟩
    exact ⟨step, hstep, hcategory, hstate, mid, owner, last, observedAt, hafter, honly, hle, hobserved⟩

/-- A Host with one Node of its own, a managed worktree of the task `t` on it, and no
    other rules. -/
def openWorld : World where
  now := fun _ => 0
  session := fun _ _ => some (ofString "node")
  leadLive := fun _ _ => true
  leadIdle := fun _ _ => false
  taskActive := fun _ _ => true
  placement := fun _ _ => none
  workspace := fun _ _ => some
    { generation := 1, runId := ofString "t", nodeId := ofString "node", path := ofString "/work",
      checkout := some { key := ofString "c", path := ofString "/work" } }
  refuses := fun _ _ _ => none
  checkoutTaken := fun _ _ _ => false
  normalizedPath := id
  observationBudget := fun _ _ => none
  observationExecution := fun _ _ => none
  bindObservation := fun _ _ => none
  hostId := fun _ => some (ofString "host")
  hostLocal := fun _ _ => true
  preparationTiming := fun _ _ => .ok (0, 0)
  preparationConsistent := fun _ _ => true
  preparedClockFailure := fun _ _ => none
  nodeSocket := fun _ _ => some { id := 0, ready := true }
  blocked := fun _ _ => false
  delivers := fun _ _ _ => true
  admissionPressure := fun _ => false
  promptPressure := fun _ _ => none
  eventBytes := fun _ => 1
  admits := fun _ _ => true
  maxEventSequence := fun _ _ => 0
  completionText := fun _ => ofString "done"

def makeCommand : RunCommand where
  target := .worktree (ofString "w") 1
  command := ofString "make"
  shell := ofString "bash"
  reason := []
  timeoutMs := 1000
  requestKey := ofString "k"
  taskId := none
  maintenanceObservation := none

def makePreparation : Preparation where
  toRunCommand := { makeCommand with taskId := some (ofString "t") }
  executionId := 0
  attemptId := 1
  hostId := ofString "host"
  nodeId := ofString "node"
  leadSessionId := ofString "lead"
  requestedPath := ofString "/work"
  createdAt := 0
  expiresAt := approvalMs
  hostTime := 0
  observationBudget := none

def makePrepared : PreparedTarget where
  cwd := ofString "/work"
  checkout := { key := ofString "c", path := ofString "/work" }
  repository := { key := ofString "r", path := ofString "/work" }
  shellPath := ofString "/bin/bash"
  preparedAt := 0
  permission := none
  clock := []

def makeReceipt : Receipt where
  executionId := 0
  attemptId := 1
  digest := .prepared makePreparation makePrepared
  state := .succeeded
  ownership := .quiescent
  exitCode := some 0
  reason := []
  outcomeKnown := true
  startedAt := some 0
  settledAt := some 0
  finalOutputSeq := some 0

/-- A command runs and is over, its checkout is looked at, and a step is dispatched. -/
def verifyingRun : List (World × Op) :=
  [(openWorld, .nodeReady (ofString "node") [executionCapability, durableCapability]
      (some { enabled := true, supported := true, shells := [ofString "bash"], admissionVersion })),
   (openWorld, .request (ofString "lead") makeCommand 0),
   (openWorld, .nodeMessage (ofString "node") (.prepared
      { executionId := 0, attemptId := 1, ok := true, error := none,
        descriptor := some
          { toPreparation := makePreparation, prepared := makePrepared,
            digest := .prepared makePreparation makePrepared } })),
   (openWorld, .nodeMessage (ofString "node") (.update makeReceipt)),
   (openWorld, .observed 0 (some
      { ok := true, pathExists := true, registered := true, generation := 1, observedAt := 5 })),
   (openWorld, .recordStepEvidence (ofString "t") (ofString "s"))]

def verifyingStep : RunStep where
  id := ofString "s"
  stepKey := []
  prompt := []
  category := ofString "test"
  state := .succeeded
  updatedAt := []

/-- The step that lets the task pass was dispatched after the checkout was looked at. -/
theorem command_verification_make : ∃ step ∈ [verifyingStep],
    verifyingCategories.contains step.category = true ∧ step.state = .succeeded ∧
      ∃ mid owner last observedAt,
        (reached verifyingRun).db.history.drop 2 = mid ++ .dispatched owner step.id :: last ∧
          (∀ other, .dispatched other step.id ∉ last) ∧ 0 ≤ observedAt ∧
            .observed (ofString "t") observedAt ∈ mid := by
  have hgate : (reached verifyingRun).assertCommandVerification (ofString "t") [verifyingStep] =
      none := by decide +kernel
  have hsplit : (reached verifyingRun).db.history = (reached verifyingRun).db.history.take 1 ++
      .settled 0 (ofString "t") 0 :: (reached verifyingRun).db.history.drop 2 := by decide +kernel
  exact ((command_verification verifyingRun (ofString "t") [verifyingStep] hgate).2 _ 0 0 _ hsplit).2

end Commands

end CopilotFleet
