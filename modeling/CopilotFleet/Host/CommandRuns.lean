import CopilotFleet.Host.CommandAnswers
import CopilotFleet.Lib.Run

/-!
# Runs of the Command Service

What is left of the operations, and the runs of all of them. A lead that is
revoked loses its prompts without a word to the executions they report, which is
the one move that is not always harmless; `Op.Spares` says of what is in view
when it is.

`reached` is the state a run of operations ends in, each in a world of its own.
An invariant of moves that holds of nothing at all holds there.

## Main definitions

* `Op.Spares`: No prompt that is taken away is still owed to an execution.
* `reached`: Where a run ends.

## Theorems

* `restart_acts`: The Host is started again.
* `revokeLead_acts`: A lead is revoked.
* `operate_acts`: An operation is a number of moves.
* `step_moves`: The same of a step.
* `reached_invariant`: What every move keeps holds of every state reached.
* `spared_invariant`: The same, of runs that spare.
-/

namespace CopilotFleet

namespace Commands

open Utf16 Effect

variable {α β : Type} (w : World) {careful : Prop}

/-! ### Observations and evidence -/

theorem observed_acts (executionId : Nat) (outcome : Option Observation) :
    Acts careful (fun _ => True) (observed w executionId outcome) fun _ _ => True := by
  unfold observed
  refine Acts.reading (Q := fun row c => ∀ x, row = some x → c.observations executionId = some x)
    (fun s _ _ x hx => hx) fun row => ?_
  cases row with
  | none => exact Acts.done
  | some x =>
      rcases x with ⟨f, generation⟩
      refine Acts.bind (Q := fun _ _ => True) (Acts.imp
        (P := fun c => c.observations executionId = some (f, generation)) (Q := fun _ _ => True) ?_
        (fun _ _ hc => hc _ rfl) fun _ _ _ h => h) fun _ => ?_
      · unfold noteObservation
        cases outcome with
        | none => exact Acts.done
        | some o =>
            refine Acts.reading (Q := fun current c =>
              c.observations executionId = some (f, generation) ∧ current = c.fences f.taskId)
              (fun s _ hs => ⟨hs, rfl⟩) fun current => ?_
            split
            · next hgood =>
                simp only [Bool.and_eq_true, decide_eq_true_eq] at hgood
                refine Acts.asks fun now => ?_
                refine Abstraction.Refines.writes (fun s _ hs => ?_) fun _ _ _ => trivial
                rcases hs with ⟨hasked, hcurrent⟩
                rw [Option.any_eq_true] at hgood
                rcases hgood.2 with ⟨fence, hfence, hown⟩
                rw [decide_eq_true_eq] at hown
                change Move careful s.core (State.core _)
                have hmove : Move careful s.core _ := Move.observed executionId f fence generation
                  o.observedAt now hasked hgood.1.2 (hcurrent.symm.trans hfence) hown
                have hfences : (s.db.fences.set f.taskId { f with
                    state := .verificationRequired
                    changedAt := now }).get = Function.update s.db.fences.get f.taskId (some { f with
                      state := .verificationRequired
                      changedAt := now }) := get_set_eq_update ..
                unfold State.core
                simp only [hfences]
                exact hmove
            · exact Acts.done
      · refine Abstraction.Refines.writes (fun s _ _ => ?_) fun _ _ _ => trivial
        change Move careful s.core _
        -- Whatever came back, the observation is asked for no longer.
        refine .forget (s.observations.erase executionId).get fun id x hx => ?_
        rw [Table.get_erase] at hx
        split at hx
        · cases hx
        · exact hx

theorem recordStepEvidence_acts (taskId stepId : Text) :
    Acts careful (fun _ => True) (recordStepEvidence taskId stepId) fun _ _ => True := by
  unfold recordStepEvidence
  refine Acts.bind (Q := fun _ c => ∀ fence, c.fences taskId = some fence →
    fence.state.closed = false) ?_ fun _ => ?_
  · unfold assertTaskUnfenced
    refine Acts.reading (Q := fun row c => row = c.fences taskId) (fun s _ _ => rfl) fun row => ?_
    split
    · exact Acts.raise
    · next hopen =>
        refine Acts.pure fun c _ hrow fence hfence => ?_
        rw [hrow, hfence] at hopen
        exact Bool.eq_false_iff.mpr hopen
  · refine Acts.reading (Q := fun row c => row = c.fences taskId ∧
      ∀ fence, c.fences taskId = some fence → fence.state.closed = false)
      (fun s _ hopen => ⟨rfl, hopen⟩) fun row => ?_
    refine Abstraction.Refines.writes (fun s _ hs => ?_) fun _ _ _ => trivial
    rcases hs with ⟨hrow, hopen⟩
    -- Without a fence there is no revision to note.
    cases row with
    | none =>
        change Move careful s.core { s.core.happens (.dispatched taskId stepId) with
          evidence := s.db.evidence.get }
        refine .dispatch taskId stepId _ hopen ?_
        rw [show s.core.fences taskId = none from hrow.symm]
        rfl
    | some fence =>
        change Move careful s.core { s.core.happens (.dispatched taskId stepId) with
          evidence := (s.db.evidence.set stepId { taskId, revision := fence.revision }).get }
        refine .dispatch taskId stepId _ hopen ?_
        rw [show s.core.fences taskId = some fence from hrow.symm]
        exact get_set_eq_update ..

/-! ### A restart -/

theorem quarantineExecution_yields (e : Execution) :
    (moves careful).Yields (Known e) (quarantineExecution w false e) fun _ _ => True := by
  unfold quarantineExecution
  split
  · next hbusy =>
      have hchange : Change e { e.uncertain false with
          id := e.id
          version := e.version + 1 } := Change.lose .unknown _ hbusy
      exact (Acts.discard (update_acts e (·.uncertain false) hchange)).yields
  · rw [if_neg Bool.false_ne_true]
    exact Abstraction.Yields.pure fun _ _ _ => trivial

theorem quarantineExecution_local (restored : Bool) (e : Execution) :
    Local (quarantineExecution w restored e) := by
  unfold quarantineExecution
  split
  · exact Local.bind (update_local _ _ _) fun _ => Local.pure
  · split
    · exact Local.bind Local.reads fun now => Local.bind (update_local _ _ _) fun _ => Local.pure
    · exact Local.pure

theorem quarantinePrompt_acts (p : PromptRecord) :
    Acts careful (Stands p) (quarantinePrompt false p) fun _ _ => True := by
  unfold quarantinePrompt whenever
  split
  · next hoffered =>
      refine Acts.imp (updatePrompt_acts p { p with state := .uncertain } (p.restate_follows _) ?_)
        (fun _ _ h => h) fun _ _ _ _ => trivial
      simp only [Bool.false_or, Bool.or_eq_true, decide_eq_true_eq] at hoffered
      rcases hoffered with h | h <;> rw [h] <;> rfl
  · exact Acts.done

/-- What may have a process is uncertain, and so is what was offered to a lead. -/
theorem quarantine_acts :
    Acts careful (fun _ => True) (quarantine w false) fun _ _ => True := by
  have hframe : ∀ p q : PromptRecord, q.delivery.deliveryId ≠ p.delivery.deliveryId →
      ∀ s, Stands q s.core → Stands q (quarantinePrompt false p s).2.core := by
    intro p q hne s h
    unfold quarantinePrompt whenever
    split
    · exact updatePrompt_frame (p := { p with state := .uncertain }) hne s h
    · exact h
  unfold quarantine
  refine Acts.atomically ?_ ?_
  · refine Local.bind Local.pure fun _ => Local.bind Local.reads fun unsettled =>
      Local.bind (Local.each fun e => quarantineExecution_local w false e) fun _ =>
        Local.bind Local.pure fun _ => Local.bind Local.reads fun prompts => Local.each fun p => ?_
    unfold quarantinePrompt
    exact Local.whenever Local.changeDb
  · refine Abstraction.Yields.bind (Q := fun _ _ => True)
      (Abstraction.Yields.pure fun _ _ _ => trivial) fun _ => ?_
    refine Abstraction.Yields.bind (Q := fun unsettled c => ∀ e ∈ unsettled, Known e c)
      (Acts.reads fun s hkeyed _ e he => (known_of_mem_unsettled hkeyed he).2 :
        Acts careful _ _ _).yields fun unsettled => ?_
    refine Abstraction.Yields.bind (Q := fun _ _ => True)
      (Abstraction.Yields.each_stable (A := moves careful) (Known.stable careful)
        fun e => quarantineExecution_yields w e) fun _ => ?_
    refine Abstraction.Yields.bind (Q := fun _ _ => True)
      (Abstraction.Yields.pure fun _ _ _ => trivial) fun _ => ?_
    refine Abstraction.Yields.bind (Q := Remaining)
      (Acts.reads fun s hkeyed _ => remaining_prompts hkeyed : Acts careful _ _ _).yields
      fun prompts => ?_
    exact (each_prompt_acts (fun p _ => quarantinePrompt_acts p)
      fun p _ q hne => hframe p q hne).yields

theorem restart_acts : Acts careful (fun _ => True) (restart w) fun _ _ => True := by
  unfold restart
  refine Acts.bind (Q := fun _ _ => True) ?_ fun _ => quarantine_acts w
  refine Abstraction.Refines.writes (fun s _ _ => ?_) fun _ _ _ => trivial
  change Move careful s.core _
  exact .forget Table.empty.get fun id x hx => by cases hx

/-! ### A lead that is revoked -/

/-- Nothing is owed that was not owed before, and prompts are as they were. -/
structure Core.Eases (c c' : Core) : Prop where
  prompts : c'.prompts = c.prompts
  live : ∀ id e', c'.executions id = some e' → e'.delivery.live = true →
    ∃ e, c.executions id = some e ∧ e.delivery.live = true

theorem Core.Eases.refl (c : Core) : c.Eases c := ⟨rfl, fun _ e' h hlive => ⟨e', h, hlive⟩⟩

theorem Core.Eases.trans {c c' c'' : Core} (h : c.Eases c') (h' : c'.Eases c'') : c.Eases c'' := by
  refine ⟨h'.prompts.trans h.prompts, fun id e hrow hlive => ?_⟩
  rcases h'.live id e hrow hlive with ⟨e', hrow', hlive'⟩
  exact h.live id e' hrow' hlive'

/-- The same tables, where all that happens to what is owed is that it is owed no more. -/
def eases : Effect.Abstraction State Core where
  view := State.core
  Step := Core.Eases
  Inv := fun _ => True
  keeps := fun _ _ _ _ => trivial

/-- A computation after which no more is owed than before. -/
def Eases (m : Host α) : Prop := eases.Refines (fun _ => True) m fun _ _ => True

theorem Eases.core {m : Host α} (h : Eases m) (s : State) : s.core.Eases (m s).2.core := by
  have hall : ∀ c c', eases.Steps c c' → c.Eases c' := by
    intro c c' hsteps
    induction hsteps with
    | refl => exact Core.Eases.refl _
    | tail _ hstep ih => exact ih.trans hstep
  exact hall _ _ (h s ⟨trivial, trivial⟩).1

theorem Eases.of {m : Host α} (h : ∀ s : State, s.core.Eases (m s).2.core) : Eases m :=
  Abstraction.Refines.of (A := eases) (fun s _ _ => .single (h s)) fun _ _ _ _ _ _ => trivial

theorem Eases.quiet {m : Host α} (h : Quiet m) : Eases m := by
  refine Eases.of fun s => ?_
  rw [show (m s).2.core = s.core from h s]
  exact Core.Eases.refl _

theorem Eases.bind {m : Host α} {f : α → Host β} (hm : Eases m) (hf : ∀ a, Eases (f a)) :
    Eases (m >>= f) := Abstraction.Refines.bind hm hf

theorem Eases.asks {f : State → α} {g : α → Host β} (h : ∀ a, Eases (g a)) :
    Eases (Effect.reads f >>= g) := Abstraction.Refines.asks h

theorem Eases.atomically {m : Host α} (h : Eases m) : Eases (writeAtomically m) := by
  refine Eases.of fun s => ?_
  have hs := h.core s
  unfold writeAtomically transaction
  rcases outcome m s with ⟨a, s₁, heq⟩ | ⟨e, s₁, heq⟩
  · rw [heq] at hs ⊢
    exact hs
  · rw [heq]
    exact ⟨rfl, fun id e' hrow hlive => ⟨e', hrow, hlive⟩⟩

theorem update_thrown {id version : Nat} {patch : Execution → Execution} {s s' : State}
    {e : Failure} (h : update id version patch s = (.error e, s')) : s' = s := by
  unfold update at h
  rw [bind_ok (show (reads (·.execution id) : Host (Option Execution)) s =
    (.ok (s.execution id), s) from rfl)] at h
  cases hrow : s.execution id with
  | none =>
      rw [hrow] at h
      exact (Prod.mk.inj h).2.symm
  | some current =>
      rw [hrow] at h
      simp only at h
      split at h
      · exact (Prod.mk.inj h).2.symm
      · split at h
        · exact (Prod.mk.inj h).2.symm
        · cases (Prod.mk.inj h).1

theorem Eases.update {id version : Nat} {patch : Execution → Execution}
    (h : ∀ e, (patch e).delivery.live = true → e.delivery.live = true) :
    Eases (update id version patch) := by
  refine Eases.of fun s => ?_
  rcases outcome (Commands.update id version patch) s with ⟨e', s', heq⟩ | ⟨failure, s', heq⟩
  · rcases returns_update heq with ⟨row, hrow, _, hmade, rfl⟩
    rw [heq]
    refine ⟨by rw [State.put_core]; rfl, fun id' x hx hlive => ?_⟩
    rw [State.put_core, Core.put_executions] at hx
    have hid : e'.id = id := by rw [hmade]
    split at hx
    · next hsame =>
        rw [Option.some.injEq] at hx
        rw [← hx, hmade] at hlive
        refine ⟨row, ?_, h row hlive⟩
        rw [hsame, hid]
        exact hrow
    · exact ⟨x, hx, hlive⟩
  · have hsame := update_thrown heq
    rw [heq, hsame]
    exact Core.Eases.refl _

theorem cancel_eases (id : Nat) (leadId : Option Text) : Eases (cancel w id leadId) := by
  have hfinish : ∀ e : Execution, Eases (finish w e .cancelled (ofString "cancelled_before_start")
      fun e => { e with cancelRequested := true }) := fun e => by
    unfold finish
    exact Eases.atomically (Eases.bind (Eases.quiet (markCancel_quiet e)) fun _ =>
      Eases.asks fun now => Eases.update fun _ hlive => by cases hlive)
  unfold cancel
  refine Eases.asks fun live => Eases.bind (Eases.quiet (check_quiet live)) fun _ =>
    Eases.asks fun row => ?_
  cases row with
  | none => exact Eases.quiet Quiet.raise
  | some current =>
      simp only
      split
      · exact Eases.quiet Quiet.raise
      · split
        · exact Eases.quiet Quiet.pure
        · refine Eases.bind (Eases.atomically (Eases.bind (Eases.quiet (markCancel_quiet current))
            fun _ => ?_)) fun e => Eases.bind (Eases.quiet (publish_quiet w e)) fun _ =>
              Eases.bind (Eases.quiet (sendCancel_quiet w e false)) fun _ => Eases.quiet Quiet.pure
          split
          · exact Eases.update fun _ hlive => hlive
          · exact hfinish current

/-- The prompts that a lead loses when it is revoked. -/
def Loses (leadId : Text) (preserve : Bool) (p : PromptRecord) : Prop :=
  p.delivery.sessionId = leadId ∧
    ¬(preserve && (p.state = .pending || p.state = .rejectedBusy)) = true

/-- No prompt a lead loses is still owed to an execution. -/
def Unowed (leadId : Text) (preserve : Bool) (c : Core) : Prop :=
  ∀ id p, c.prompts id = some p → p.state.retired = false → Loses leadId preserve p →
    ∀ x ∈ p.executions, ∀ e, c.executions x = some e → e.delivery.live = false

theorem Unowed.eased {leadId : Text} {preserve : Bool} {c c' : Core}
    (h : Unowed leadId preserve c) (heases : c.Eases c') : Unowed leadId preserve c' := by
  intro id p hp howed hloses x hx e' he'
  rw [heases.prompts] at hp
  by_contra hlive
  rcases heases.live x e' he' (Bool.not_eq_false _ ▸ hlive) with ⟨e, he, hwas⟩
  rw [h id p hp howed hloses x hx e he] at hwas
  cases hwas

theorem Unowed.abandoned {leadId : Text} {preserve : Bool} {c : Core} {p' : PromptRecord}
    (h : Unowed leadId preserve c) (hgone : p'.state = .orphaned) :
    Unowed leadId preserve (c.putPrompt p') := by
  intro id q hq howed
  rw [Core.putPrompt_prompts] at hq
  split at hq
  · rw [Option.some.injEq] at hq
    rw [← hq, hgone] at howed
    cases howed
  · exact h id q hq howed

/-- What eases keeps what is not owed. -/
theorem Acts.easing {m : Host α} {P : Core → Prop} {Q : α → Core → Prop} {leadId : Text}
    {preserve : Bool} (h : Acts careful P m Q) (heases : Eases m) :
    Acts careful (fun c => (careful → Unowed leadId preserve c) ∧ P c) m
      fun a c => (careful → Unowed leadId preserve c) ∧ Q a c := by
  intro s hs
  rcases h s ⟨hs.1, hs.2.2⟩ with ⟨hsteps, hret⟩
  refine ⟨hsteps, fun a s' ha => ?_⟩
  have hcore := heases.core s
  rw [show (m s).2 = s' from congrArg Prod.snd ha] at hcore
  exact ⟨(hret a s' ha).1, fun hcareful => (hs.2.1 hcareful).eased hcore, (hret a s' ha).2⟩

theorem State.mem_promptsOf {s : State} {leadId : Text} {p : PromptRecord}
    (h : p ∈ s.promptsOf leadId) : p.delivery.sessionId = leadId := by
  unfold State.promptsOf at h
  have hlead := (List.mem_filter.mp h).2
  rwa [decide_eq_true_eq] at hlead

/-- A lead is revoked: its commands are cancelled, and its prompts go to nobody. -/
theorem revokeLead_acts (leadId : Text) (preserve : Bool) :
    Acts careful (fun c => careful → Unowed leadId preserve c) (revokeLead w leadId preserve)
      fun _ _ => True := by
  unfold revokeLead
  refine Acts.quietly (revokeSessionGrants_quiet _) fun _ =>
    Acts.quietly (resendRevocations_quiet w _) fun _ => Acts.asks fun unsettled => ?_
  refine Acts.bind (Q := fun _ c => (careful → Unowed leadId preserve c) ∧ True) (Acts.imp
    (Acts.easing (Acts.each_true fun e =>
      Acts.discard (cancel_acts w e.id none)) ?_) (fun _ _ hc => ⟨hc, trivial⟩)
        fun _ _ _ h => h) fun _ => ?_
  · exact Abstraction.Refines.each (A := eases) fun e _ =>
      Eases.bind (cancel_eases w e.id none) fun _ => Eases.quiet Quiet.pure
  -- Each prompt still to come is one the loop has not abandoned yet.
  refine Acts.reading (Q := fun prompts c => Remaining prompts c ∧
    (∀ p ∈ prompts, p.delivery.sessionId = leadId) ∧ (careful → Unowed leadId preserve c))
    (fun s hkeyed hs => ⟨(remaining_prompts hkeyed).filter _, fun p hp => State.mem_promptsOf hp,
      hs.1⟩) fun prompts => ?_
  refine Acts.imp (P := fun c => (∀ p ∈ prompts, p.delivery.sessionId = leadId) ∧
    (Remaining prompts c ∧ (careful → Unowed leadId preserve c))) (Q := fun _ _ => True)
    (Acts.assuming fun hlead => ?_) (fun _ _ hc => ⟨hc.2.1, hc.1, hc.2.2⟩) fun _ _ _ h => h
  refine Acts.imp (Q := fun _ c => Remaining [] c ∧ (careful → Unowed leadId preserve c))
    (Abstraction.Refines.each_rest (A := moves careful)
      (I := fun rest c => Remaining rest c ∧ (careful → Unowed leadId preserve c))
      fun p rest hsplit => ?_) (fun _ _ hc => hc) fun _ _ _ _ => trivial
  have hmem : p ∈ prompts := by
    rcases hsplit with ⟨before, hbefore⟩
    rw [hbefore]
    exact List.mem_append_right _ List.mem_cons_self
  split
  · exact Acts.pure fun c _ hc => ⟨hc.1.skipped, hc.2⟩
  · next hlost =>
      have hfollows : ({ p with state := .orphaned } : PromptRecord).retained.Follows p :=
        (PromptRecord.retained_follows _).trans (p.restate_follows _)
      refine Abstraction.Refines.writes (fun s _ hs => ?_) fun s _ hs => ?_
      · rcases hs.1.2 p List.mem_cons_self with ⟨hstands, hwaits⟩
        change Move careful s.core
          (s.withPrompt ({ p with state := .orphaned } : PromptRecord).retained).core
        rw [State.withPrompt_core]
        -- Under the condition no execution of the prompt is owed its answer.
        exact .abandon p _ hstands hfollows (PromptRecord.retained_state _) fun hcareful id hid e he =>
          hs.2 hcareful _ p hstands hwaits ⟨hlead p hmem, hlost⟩ id hid e he
      · change Remaining rest (s.withPrompt
          ({ p with state := .orphaned } : PromptRecord).retained).core ∧ (careful →
            Unowed leadId preserve (s.withPrompt
              ({ p with state := .orphaned } : PromptRecord).retained).core)
        rw [State.withPrompt_core]
        exact ⟨hs.1.visited _ hfollows.deliveryId rfl, fun hcareful =>
          (hs.2 hcareful).abandoned (PromptRecord.retained_state _)⟩

/-! ### Operations -/

/-- The operation takes no prompt from a lead that is still owed to an execution. -/
def Op.Spares : Op → Core → Prop
  | .revokeLead leadId preserve, c => Unowed leadId preserve c
  | _, _ => True

/-- An operation is a number of moves. -/
theorem operate_acts (op : Op) :
    Acts careful (fun c => careful → op.Spares c) (operate w op) fun _ _ => True := by
  cases op with
  | request leadId run now => exact Acts.true_pre (Acts.discard (request_acts w leadId run now))
  | decide id decision version digest actor now =>
      exact Acts.true_pre (Acts.discard (decide_acts w id decision version digest actor now))
  | cancel id leadId => exact Acts.true_pre (Acts.discard (cancel_acts w id leadId))
  | revokeLead leadId preserve => exact revokeLead_acts w leadId preserve
  | revokeAllSessionGrants => exact Acts.quiet_done (revokeAllSessionGrants_quiet w)
  | revokeTask taskId => exact Acts.true_pre (revokeTask_acts w taskId)
  | tick now => exact Acts.true_pre (tick_acts w now)
  | nodeReady nodeId capabilities readiness =>
      exact Acts.quiet_done (nodeReady_quiet w nodeId capabilities readiness)
  | nodeMessage nodeId message =>
      exact Acts.true_pre (Acts.discard (handleNodeMessage_acts w nodeId message))
  | nodeDisconnected nodeId => exact Acts.true_pre (nodeDisconnected_acts w nodeId)
  | reconnect nodeId => exact Acts.true_pre (reconnect_acts w nodeId)
  | observed executionId outcome => exact Acts.true_pre (observed_acts w executionId outcome)
  | queueLeadPrompt leadId prompt key binding attachments =>
      exact Acts.true_pre (Acts.discard (queueLeadPrompt_acts w leadId prompt key binding attachments))
  | prioritizePrompt deliveryId => exact Acts.true_pre (prioritizePrompt_acts w deliveryId)
  | pumpLead leadId => exact Acts.true_pre (pumpLead_acts w leadId)
  | recordStepEvidence taskId stepId => exact Acts.true_pre (recordStepEvidence_acts taskId stepId)
  | restart => exact Acts.true_pre (restart_acts w)

theorem step_moves (s : State) (input : World × Op) (hkeyed : s.core.Keyed)
    (hspares : careful → input.2.Spares s.core) :
    (moves careful).Steps s.core (step s input).core :=
  (operate_acts input.1 input.2 s ⟨hkeyed, hspares⟩).1

/-! ### Runs -/

/-- Where a run of operations ends, each in a world of its own. -/
def reached (inputs : List (World × Op)) : State := Run.final step {} inputs

theorem keyed_empty : ({} : State).core.Keyed where
  described := fun _ _ h => by cases h
  settled := fun _ _ h => by cases h
  gaps := fun _ _ h => by cases h
  execution := fun _ _ h => by cases h
  prompt := fun _ _ h => by cases h
  fence := fun _ _ h => by cases h

/-- What every move keeps, a number of moves keeps. -/
theorem steps_invariant {I : Core → Prop}
    (hmove : ∀ c c', c.Keyed → I c → Move careful c c' → I c') {c c' : Core}
    (h : (moves careful).Steps c c') (hkeyed : c.Keyed) (hc : I c) : I c' := by
  have hboth : c'.Keyed ∧ I c' := by
    induction h with
    | refl => exact ⟨hkeyed, hc⟩
    | tail _ hstep ih => exact ⟨Move.keyed ih.1 hstep, hmove _ _ ih.1 ih.2 hstep⟩
  exact hboth.2

/-- What holds of nothing, and what every move keeps, holds of every state reached. -/
theorem reached_invariant {I : Core → Prop} (hempty : I ({} : State).core)
    (hmove : ∀ c c', c.Keyed → I c → Move False c c' → I c') (inputs : List (World × Op)) :
    (reached inputs).core.Keyed ∧ I (reached inputs).core := by
  refine Run.invariant step (fun s => s.core.Keyed ∧ I s.core) (fun s input hs => ?_) inputs {}
    ⟨keyed_empty, hempty⟩
  have hsteps : (moves False).Steps s.core (step s input).core :=
    step_moves s input hs.1 False.elim
  exact ⟨Abstraction.Steps.keeps _ hsteps hs.1, steps_invariant hmove hsteps hs.1 hs.2⟩

/-- The same of runs whose operations all spare. -/
theorem spared_invariant {I : Core → Prop} (hempty : I ({} : State).core)
    (hmove : ∀ c c', c.Keyed → I c → Move True c c' → I c') (inputs : List (World × Op))
    (hspared : Run.Admits step (fun s input => input.2.Spares s.core) {} inputs) :
    (reached inputs).core.Keyed ∧ I (reached inputs).core := by
  refine Run.invariant_of_admits step _ (fun s => s.core.Keyed ∧ I s.core)
    (fun s input hs hok => ?_) inputs {} ⟨keyed_empty, hempty⟩ hspared
  have hsteps : (moves True).Steps s.core (step s input).core :=
    step_moves s input hs.1 fun _ => hok
  exact ⟨Abstraction.Steps.keeps _ hsteps hs.1, steps_invariant hmove hsteps hs.1 hs.2⟩

end Commands

end CopilotFleet
