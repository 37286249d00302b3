import CopilotFleet.Lib.Run
import CopilotFleet.Orchestrator.LeadPrompts

/-!
# Handing Over What Is Owed

Whatever a run owes its lead is handed over once: the run is marked as
delivered and the queue has one more record, in one commit. The key of the
record decides whether it is a new one. The key of a wake is a counter that
only grows, so no two wakes of a run have the same. The key of a text is the
time at which the run was last written, and two texts that are written,
delivered, written and delivered within one millisecond have the same: the
second one is marked as delivered, and the queue keeps the first one's record.

## Main definitions

* `Call`: What happens to runs and queues.
* `Careful`: A tick hands over the text of a run that was written since it last did.
* `Quiet`: What every call but the handing over does to the queue.
* `Accounted`: The invariant: every record of a run and every commit belong together.
* `Served`: What is promised of everything that was handed over.

## Theorems

* `Accounted.quiet`: What a call keeps that hands nothing over.
* `Accounted.commit`: What a hand-over does, under a key that is new.
* `owed_prompts_served`: In every careful run, everything handed over is served once.
* `not_served_within_a_millisecond`: Without care it is not.
-/

namespace CopilotFleet

open Utf16 Refusal

namespace LeadPrompts

open Commands (PromptState LeadPromptReceipt)

/-! ### Calls -/

inductive Call where
  | createRun (w : World) (run : Run)
  | updateRun (w : World) (id : Text) (patch : RunPatch)
  | settle (w : World) (id : Text)
  /-- A tick begins, and no lead was sent a prompt in it. -/
  | beginTick
  | tick (w : World) (runId : Text) (writes : List Write)
  | sendNow (w : World) (runId leadId : Text)
  /-- Something else is queued for a lead. -/
  | queue (w : World) (leadId prompt key : Text)
  | pump (w : World) (leadId : Text)
  | receipt (w : World) (nodeId : Text) (answer : LeadPromptReceipt)
  /-- A record is taken out of the queue, or found uncertain after a restart. -/
  | mark (id : Nat) (state : PromptState)
  | prioritize (id : Nat) (priority : Int)
  | transfer (w : World) (runId targetId brief : Text)

/-- A run that there was not. -/
def createRun (w : World) (run : Run) (s : State) : State :=
  match s.runs.get run.id with
  | some _ => s
  | none =>
      s.setRun { toRun := { run with
                   settleSeq := 0
                   wakeSeq := 0
                   emptyWakeCount := 0 }
                 updatedAt := w.now }

/-- A record in another state. -/
def State.mark (id : Nat) (state : PromptState) (s : State) : State :=
  match s.prompts.find? fun record => record.deliveryId = id with
  | none => s
  | some record => s.updatePrompt { record with state }

/-- A transfer that nothing forbids. -/
def transfer (w : World) (runId targetId brief : Text) (s : State) : State :=
  match s.runs.get runId with
  | none => s
  | some run =>
      if run.leadSessionId = targetId then s
      else
        match moveOwed w run targetId brief s with
        | .ok t => t
        | .error _ => s

def Call.step (s : State) : Call → State
  | .createRun w run => LeadPrompts.createRun w run s
  | .updateRun w id patch => update w id patch s
  | .settle w id => recordRunSettle w id s
  | .beginTick => { s with promptedThisTick := [] }
  | .tick w runId writes => tickRun w runId writes s
  | .sendNow w runId leadId => LeadPrompts.sendNow w runId leadId s
  | .queue w leadId prompt key =>
      match queueLeadPrompt w leadId prompt (.other key) s with
      | .ok (_, t) => t
      | .error _ => s
  | .pump w leadId => pumpLead w leadId s
  | .receipt w nodeId answer => promptReceipt w nodeId answer s
  | .mark id state => s.mark id state
  | .prioritize id priority => s.prioritizePrompt id priority
  | .transfer w runId targetId brief => LeadPrompts.transfer w runId targetId brief s

def start : State := {}

/-- A tick goes to hand over the text that the run owes. -/
def handsOver (w : World) (run : RunRow) : Bool :=
  !run.state.terminal && run.pendingPrompt ≠ [] && idleLead w run &&
    durableLead w run.leadSessionId

/-- The run whose text a tick hands over was written since each time it handed one over to
    the lead it has: no earlier text has the time at which it was last written. -/
def Careful (s : State) : Call → Prop
  | .tick w runId _ => ∀ run ∈ s.runs.get runId, handsOver w run →
      ∀ c ∈ s.commits, c.leadId = run.leadSessionId → c.key ≠ .runPrompt runId run.updatedAt
  | _ => True

/-! ### What is promised -/

/-- The queue after a commit is the one before, and one more record, which is new, is
    pending, and carries what was handed over. -/
def Commit.Made (c : Commit) : Prop :=
  ∃ record, c.after = c.before ++ [record] ∧ record.deliveryId = c.record ∧
    record.state = .pending ∧ record.prompt = c.text ∧ record.leadId = c.leadId ∧
    record.key = c.key ∧ ∀ old ∈ c.before, old.deliveryId ≠ c.record

/-- The key is made for what a run owes. -/
def PromptKey.owed : PromptKey → Bool
  | .runPrompt _ _ => true
  | .runWake _ _ => true
  | .drawn _ => true
  | .other _ => false

/-- A hand-over to a lead: nothing was done, or there is one more commit, of this text. -/
def Recorded (run : RunRow) (text : Text) (s t : State) : Prop :=
  (t.runs = s.runs ∧ t.prompts = s.prompts ∧ t.commits = s.commits) ∨
    ∃ c, t.commits = s.commits ++ [c] ∧ c.runId = run.id ∧ c.text = text ∧
      c.before = s.prompts

structure Served (s : State) : Prop where
  /-- Each hand-over made a record of its own. -/
  made : ∀ c ∈ s.commits, c.Made
  /-- No record serves two of them. -/
  once : (s.commits.map (·.record)).Nodup
  /-- No record was made for a run without one. -/
  only : ∀ record ∈ s.prompts, record.key.owed = true →
    ∃ c ∈ s.commits, c.record = record.deliveryId ∧ c.key = record.key ∧ c.leadId = record.leadId
  /-- The record of a hand-over stays in the queue, and stays its own. -/
  kept : ∀ c ∈ s.commits, ∃ record ∈ s.prompts,
    record.deliveryId = c.record ∧ record.key = c.key ∧ record.leadId = c.leadId
  distinct : (s.prompts.map (·.deliveryId)).Nodup
  /-- What is not handed over is not recorded as it, and what is refused changes nothing. -/
  recorded : ∀ (w : World) (run : RunRow) (prompt : Text),
    durableLead w run.leadSessionId = true →
      Recorded run prompt s (deliverPrompt w run prompt s) ∧
        Recorded run (w.wakeEnvelope run) s (wakeLead w run s)

/-! ### What is not a hand-over -/

/-- What a record is, whatever became of it. -/
def PromptRecord.ident (record : PromptRecord) : Nat × Text × PromptKey :=
  (record.deliveryId, record.leadId, record.key)

/-- A row stands under its identity, and no wake is ahead of what settled. -/
def RowsSound (s : State) : Prop :=
  ∀ id row, s.runs.get id = some row → row.id = id ∧ row.wakeSeq ≤ row.settleSeq

/-- Nothing was handed over: the same records are in the queue, and no run woke less. -/
structure Quiet (s t : State) : Prop where
  prompts : t.prompts.map PromptRecord.ident = s.prompts.map PromptRecord.ident
  commits : t.commits = s.commits
  drawn : s.drawn ≤ t.drawn
  rows : RowsSound s → RowsSound t ∧ ∀ id row, s.runs.get id = some row →
    ∃ row', t.runs.get id = some row' ∧ row.wakeSeq ≤ row'.wakeSeq

theorem Quiet.refl (s : State) : Quiet s s :=
  ⟨rfl, rfl, Nat.le_refl _, fun h => ⟨h, fun _ row hrow => ⟨row, hrow, Nat.le_refl _⟩⟩⟩

theorem Quiet.trans {s t u : State} (h : Quiet s t) (h' : Quiet t u) : Quiet s u where
  prompts := h'.prompts.trans h.prompts
  commits := h'.commits.trans h.commits
  drawn := Nat.le_trans h.drawn h'.drawn
  rows := by
    intro hs
    rcases h.rows hs with ⟨ht, hrows⟩
    rcases h'.rows ht with ⟨hu, hrows'⟩
    refine ⟨hu, fun id row hrow => ?_⟩
    rcases hrows id row hrow with ⟨row', hrow', hle⟩
    rcases hrows' id row' hrow' with ⟨row'', hrow'', hle'⟩
    exact ⟨row'', hrow'', Nat.le_trans hle hle'⟩

/-- Only the queue was written, and no record became another. -/
theorem quiet_of_prompts {s t : State} (hruns : t.runs = s.runs)
    (hprompts : t.prompts.map PromptRecord.ident = s.prompts.map PromptRecord.ident)
    (hcommits : t.commits = s.commits) (hdrawn : s.drawn ≤ t.drawn) : Quiet s t where
  prompts := hprompts
  commits := hcommits
  drawn := hdrawn
  rows := by
    intro hs
    unfold RowsSound
    rw [hruns]
    exact ⟨hs, fun id row hrow => ⟨row, hrow, Nat.le_refl _⟩⟩

/-- One row was written over one that there was. -/
theorem quiet_setRun {s : State} {id : Text} {row row' : RunRow} (hget : s.runs.get id = some row)
    (hid : row'.id = row.id)
    (hcounters : row.wakeSeq ≤ row.settleSeq →
      row.wakeSeq ≤ row'.wakeSeq ∧ row'.wakeSeq ≤ row'.settleSeq) : Quiet s (s.setRun row') where
  prompts := rfl
  commits := rfl
  drawn := Nat.le_refl _
  rows := by
    intro hs
    have hsound := hs id row hget
    have hrow := hcounters hsound.2
    rw [hsound.1] at hid
    have hread : ∀ j, (s.setRun row').runs.get j =
        if j = id then some row' else s.runs.get j := by
      intro j
      unfold State.setRun
      rw [Table.get_set, hid]
    refine ⟨fun j r hr => ?_, fun j r hr => ?_⟩
    · rw [hread] at hr
      by_cases heq : j = id
      · rw [if_pos heq] at hr
        rw [← Option.some.inj hr, heq]
        exact ⟨hid, hrow.2⟩
      · rw [if_neg heq] at hr
        exact hs j r hr
    · rw [hread]
      by_cases heq : j = id
      · rw [heq, hget] at hr
        rw [if_pos heq, ← Option.some.inj hr]
        exact ⟨row', rfl, hrow.1⟩
      · rw [if_neg heq]
        exact ⟨r, hr, Nat.le_refl _⟩

theorem quiet_updateRun {w : World} {id : Text} {patch : RunPatch} {s t : State}
    (h : updateRun w id patch s = .ok t) : Quiet s t := by
  unfold updateRun at h
  cases hget : s.runs.get id with
  | none =>
      rw [hget] at h
      rw [← Except.ok.inj h]
      exact .refl s
  | some row =>
      rw [hget] at h
      cases href : w.runRefusal row patch with
      | some code =>
          simp only [href] at h
          cases h
      | none =>
          simp only [href] at h
          by_cases hempty : patch.empty = true
          · rw [if_pos hempty] at h
            rw [← Except.ok.inj h]
            exact .refl s
          · rw [if_neg hempty] at h
            rw [← Except.ok.inj h]
            exact quiet_setRun hget rfl fun hle => ⟨Nat.le_refl _, hle⟩

theorem quiet_update (w : World) (id : Text) (patch : RunPatch) (s : State) :
    Quiet s (update w id patch s) := by
  unfold update
  cases h : updateRun w id patch s with
  | ok t => exact quiet_updateRun h
  | error e => exact .refl s

theorem quiet_recordRunSettle (w : World) (id : Text) (s : State) :
    Quiet s (recordRunSettle w id s) := by
  unfold recordRunSettle
  cases hget : s.runs.get id with
  | none => exact .refl s
  | some row => exact quiet_setRun hget rfl fun hle => ⟨Nat.le_refl _, Nat.le_succ_of_le hle⟩

theorem quiet_recordRunPromptDelivery {w : World} {runId leadId prompt : Text} {s t : State}
    (h : recordRunPromptDelivery w runId leadId prompt s = .ok (some t)) :
    Quiet s t ∧ t.prompts = s.prompts ∧ t.drawn = s.drawn := by
  unfold recordRunPromptDelivery at h
  cases hget : s.runs.get runId with
  | none =>
      rw [hget] at h
      cases h
  | some row =>
      simp only [hget] at h
      split at h
      · cases h
      · rcases bind_ok h with ⟨u, hu, h⟩
        rcases bind_ok h with ⟨recorded, -, h⟩
        split at h
        · have htu : u = t := Option.some.inj (Except.ok.inj h)
          rw [← htu]
          refine ⟨quiet_updateRun hu, ?_⟩
          unfold updateRun at hu
          simp only [hget] at hu
          split at hu
          · cases hu
          · split at hu
            · rw [← Except.ok.inj hu]
              exact ⟨rfl, rfl⟩
            · rw [← Except.ok.inj hu]
              exact ⟨rfl, rfl⟩
        · cases h

/-- A recorded wake catches the counter up. -/
theorem recordRunWakePrompt_ok {w : World} {runId leadId : Text} {s t : State}
    (h : recordRunWakePrompt w runId leadId s = .ok (some t)) :
    ∃ row, s.runs.get runId = some row ∧ t = recordRunWake w row s := by
  unfold recordRunWakePrompt at h
  cases hget : s.runs.get runId with
  | none =>
      rw [hget] at h
      cases h
  | some row =>
      simp only [hget] at h
      split at h
      · cases h
      · rcases bind_ok h with ⟨recorded, -, h⟩
        split at h
        · exact ⟨row, rfl, (Option.some.inj (Except.ok.inj h)).symm⟩
        · cases h

theorem quiet_recordRunWake (w : World) {id : Text} {row : RunRow} {s : State}
    (hget : s.runs.get id = some row) : Quiet s (recordRunWake w row s) :=
  quiet_setRun hget rfl fun hle => ⟨hle, Nat.le_refl _⟩

theorem quiet_updatePrompt (record : PromptRecord) (s : State) :
    Quiet s (s.updatePrompt record) := by
  refine quiet_of_prompts rfl ?_ rfl (Nat.le_refl _)
  unfold State.updatePrompt
  rw [List.map_map]
  refine List.map_congr_left fun old _ => ?_
  rw [Function.comp_apply]
  split
  · rfl
  · rfl

theorem quiet_prioritizePrompt (id : Nat) (priority : Int) (s : State) :
    Quiet s (s.prioritizePrompt id priority) := by
  refine quiet_of_prompts rfl ?_ rfl (Nat.le_refl _)
  unfold State.prioritizePrompt
  rw [List.map_map]
  refine List.map_congr_left fun old _ => ?_
  rw [Function.comp_apply]
  split
  · rfl
  · rfl

theorem quiet_pumpLead (w : World) (leadId : Text) (s : State) : Quiet s (pumpLead w leadId s) := by
  unfold pumpLead
  cases lead w leadId s with
  | error e => exact .refl s
  | ok session =>
      simp only []
      split
      · exact .refl s
      · split
        · rename_i record _ _ _
          split
          · exact quiet_updatePrompt _ s
          · exact (quiet_updatePrompt _ s).trans (quiet_updatePrompt _ _)
        · exact .refl s

theorem quiet_promptReceipt (w : World) (nodeId : Text) (receipt : LeadPromptReceipt) (s : State) :
    Quiet s (promptReceipt w nodeId receipt s) := by
  unfold promptReceipt
  split
  · exact .refl s
  · -- Only the last branch and that of an orphaned prompt write.
    simp only []
    split
    · exact .refl s
    · split
      · exact .refl s
      · split
        · exact quiet_updatePrompt _ s
        · split
          · exact .refl s
          · split
            · exact .refl s
            · split
              · exact .refl s
              · exact quiet_updatePrompt _ s

theorem quiet_orphanAll (records : List PromptRecord) (s : State) :
    Quiet s (s.orphanAll records) := by
  unfold State.orphanAll
  induction records generalizing s with
  | nil => exact .refl s
  | cons record rest ih => exact (quiet_updatePrompt _ s).trans (ih _)

theorem quiet_transfer (w : World) (runId targetId brief : Text) (s : State) :
    Quiet s (transfer w runId targetId brief s) := by
  unfold transfer
  cases s.runs.get runId with
  | none => exact .refl s
  | some run =>
      simp only []
      split
      · exact .refl s
      · cases h : moveOwed w run targetId brief s with
        | error e => exact .refl s
        | ok t => exact (quiet_orphanAll _ s).trans (quiet_updateRun h)

theorem quiet_mark (id : Nat) (state : PromptState) (s : State) : Quiet s (s.mark id state) := by
  unfold State.mark
  split
  · exact .refl s
  · exact quiet_updatePrompt _ s

/-- A new run has no wake behind it. -/
theorem quiet_createRun (w : World) (run : Run) (s : State) : Quiet s (createRun w run s) := by
  unfold createRun
  cases hget : s.runs.get run.id with
  | some row => exact .refl s
  | none =>
      refine ⟨rfl, rfl, Nat.le_refl _, fun hs => ⟨fun id row hrow => ?_, fun id row hrow => ?_⟩⟩
      · unfold State.setRun at hrow
        rcases Table.get_set_some hrow with ⟨heq, rfl⟩ | ⟨_, hrow⟩
        · exact ⟨heq.symm, Nat.le_refl _⟩
        · exact hs id row hrow
      · refine ⟨row, ?_, Nat.le_refl _⟩
        unfold State.setRun
        rw [Table.get_set_ne _ _ ?_]
        · exact hrow
        · rintro rfl
          rw [hget] at hrow
          cases hrow

theorem quiet_writes (w : World) (writes : List Write) (s : State) :
    Quiet s (writes.foldl (write w) s) := by
  induction writes generalizing s with
  | nil => exact .refl s
  | cons x rest ih =>
      refine Quiet.trans ?_ (ih _)
      cases x with
      | update id patch => exact quiet_update w id patch s
      | settle id => exact quiet_recordRunSettle w id s

/-! ### Hand-overs -/

/-- A prompt that is queued is the one there was under its key, or a new one. -/
theorem queueLeadPrompt_ok {w : World} {leadId prompt : Text} {key : PromptKey} {s t : State}
    {record : PromptRecord} (h : queueLeadPrompt w leadId prompt key s = .ok (record, t)) :
    (s.promptByKey leadId key = some record ∧ t = s) ∨
      s.promptByKey leadId key = none ∧ record.deliveryId = s.drawn ∧ record.leadId = leadId ∧
        record.key = key ∧ record.prompt = prompt ∧ record.state = .pending ∧
        t = { s with
          prompts := s.prompts ++ [record]
          drawn := s.drawn + 1 } := by
  unfold queueLeadPrompt at h
  rcases bind_ok h with ⟨session, -, h⟩
  split at h
  · cases h
  · unfold enqueuePrompt at h
    cases hkey : s.promptByKey leadId key with
    | some existing =>
        rw [hkey] at h
        cases h
        exact .inl ⟨rfl, rfl⟩
    | none =>
        rw [hkey] at h
        simp only at h
        split at h
        · cases h
        · split at h
          · cases h
          · cases h
            exact .inr ⟨rfl, rfl, rfl, rfl, rfl, rfl, rfl⟩

/-- The records of the queue are distinct, and their keys are not used again. -/
structure QueueSound (s : State) : Prop where
  rows : RowsSound s
  below : ∀ record ∈ s.prompts, record.deliveryId < s.drawn
  distinct : (s.prompts.map (·.deliveryId)).Nodup
  /-- A token is drawn before it is a key. -/
  tokens : ∀ record ∈ s.prompts, ∀ token, record.key = .drawn token → token < s.drawn
  /-- A wake that was handed over is not owed again. -/
  wakes : ∀ record ∈ s.prompts, ∀ id seq, record.key = .runWake id seq →
    ∃ row, s.runs.get id = some row ∧ seq ≤ row.wakeSeq

/-- Every record of a run and every hand-over belong together. -/
structure Accounted (s : State) : Prop extends QueueSound s where
  made : ∀ c ∈ s.commits, c.Made
  once : (s.commits.map (·.record)).Nodup
  only : ∀ record ∈ s.prompts, record.key.owed = true →
    ∃ c ∈ s.commits, c.record = record.deliveryId ∧ c.key = record.key ∧ c.leadId = record.leadId
  kept : ∀ c ∈ s.commits, ∃ record ∈ s.prompts,
    record.deliveryId = c.record ∧ record.key = c.key ∧ record.leadId = c.leadId

theorem accounted_start : Accounted start where
  rows := fun _ _ h => (nomatch h)
  below := fun _ h => (nomatch h)
  distinct := List.nodup_nil
  tokens := fun _ h => (nomatch h)
  wakes := fun _ h => (nomatch h)
  made := fun _ h => (nomatch h)
  once := List.nodup_nil
  only := fun _ h => (nomatch h)
  kept := fun _ h => (nomatch h)

/-- A record of the queue after it is one of the queue before. -/
theorem Quiet.mem {s t : State} (h : Quiet s t) {record : PromptRecord}
    (hmem : record ∈ t.prompts) : ∃ old ∈ s.prompts, old.ident = record.ident := by
  have hident := List.mem_map_of_mem (f := PromptRecord.ident) hmem
  rw [h.prompts] at hident
  exact List.mem_map.mp hident

theorem Quiet.mem' {s t : State} (h : Quiet s t) {record : PromptRecord}
    (hmem : record ∈ s.prompts) : ∃ new ∈ t.prompts, new.ident = record.ident := by
  have hident := List.mem_map_of_mem (f := PromptRecord.ident) hmem
  rw [← h.prompts] at hident
  exact List.mem_map.mp hident

theorem ident_eq {a b : PromptRecord} (h : a.ident = b.ident) :
    a.deliveryId = b.deliveryId ∧ a.leadId = b.leadId ∧ a.key = b.key :=
  ⟨congrArg (·.1) h, congrArg (·.2.1) h, congrArg (·.2.2) h⟩

theorem Accounted.quiet {s t : State} (hs : Accounted s) (h : Quiet s t) : Accounted t where
  rows := (h.rows hs.rows).1
  below := by
    intro record hmem
    rcases h.mem hmem with ⟨old, hold, hident⟩
    rw [← (ident_eq hident).1]
    exact Nat.lt_of_lt_of_le (hs.below old hold) h.drawn
  distinct := by
    -- The records keep their identities in place.
    have hmap : t.prompts.map (·.deliveryId) = s.prompts.map (·.deliveryId) := by
      have hfst := congrArg (List.map Prod.fst) h.prompts
      rwa [List.map_map, List.map_map] at hfst
    rw [hmap]
    exact hs.distinct
  tokens := by
    intro record hmem token hkey
    rcases h.mem hmem with ⟨old, hold, hident⟩
    rw [← (ident_eq hident).2.2] at hkey
    exact Nat.lt_of_lt_of_le (hs.tokens old hold token hkey) h.drawn
  wakes := by
    intro record hmem id seq hkey
    rcases h.mem hmem with ⟨old, hold, hident⟩
    rw [← (ident_eq hident).2.2] at hkey
    rcases hs.wakes old hold id seq hkey with ⟨row, hrow, hle⟩
    rcases (h.rows hs.rows).2 id row hrow with ⟨row', hrow', hle'⟩
    exact ⟨row', hrow', Nat.le_trans hle hle'⟩
  made := by
    rw [h.commits]
    exact hs.made
  once := by
    rw [h.commits]
    exact hs.once
  only := by
    intro record hmem howed
    rcases h.mem hmem with ⟨old, hold, hident⟩
    rcases ident_eq hident with ⟨hid, hlead, hkey⟩
    rw [h.commits, ← hid, ← hlead, ← hkey]
    exact hs.only old hold (by rw [hkey]; exact howed)
  kept := by
    intro c hc
    rw [h.commits] at hc
    rcases hs.kept c hc with ⟨old, hold, hid, hkey, hlead⟩
    rcases h.mem' hold with ⟨new, hnew, hident⟩
    rcases ident_eq hident with ⟨hid', hlead', hkey'⟩
    exact ⟨new, hnew, hid'.trans hid, hkey'.trans hkey, hlead'.trans hlead⟩

/-- The queue with one more record. -/
def State.add (record : PromptRecord) (s : State) : State :=
  { s with
    prompts := s.prompts ++ [record]
    drawn := s.drawn + 1 }

theorem QueueSound.add {s : State} (hs : QueueSound s) {record : PromptRecord}
    (hid : record.deliveryId = s.drawn)
    (htoken : ∀ token, record.key = .drawn token → token < s.drawn)
    (hwake : ∀ id seq, record.key = .runWake id seq →
      ∃ row, s.runs.get id = some row ∧ seq ≤ row.wakeSeq) : QueueSound (s.add record) where
  rows := hs.rows
  below := by
    intro r hr
    rcases List.mem_append.mp hr with hr | hr
    · exact Nat.lt_succ_of_lt (hs.below r hr)
    · rw [List.mem_singleton.mp hr, hid]
      exact Nat.lt_succ_self _
  distinct := by
    change ((s.prompts ++ [record]).map (·.deliveryId)).Nodup
    rw [List.map_append, List.map_singleton]
    refine List.Nodup.append hs.distinct (List.nodup_singleton _) ?_
    intro id hmem hsingle
    rcases List.mem_map.mp hmem with ⟨r, hr, rfl⟩
    have hlt := hs.below r hr
    rw [List.mem_singleton.mp hsingle, hid] at hlt
    exact Nat.lt_irrefl _ hlt
  tokens := by
    intro r hr token hkey
    rcases List.mem_append.mp hr with hr | hr
    · exact Nat.lt_succ_of_lt (hs.tokens r hr token hkey)
    · rw [List.mem_singleton.mp hr] at hkey
      exact Nat.lt_succ_of_lt (htoken token hkey)
  wakes := by
    intro r hr id seq hkey
    rcases List.mem_append.mp hr with hr | hr
    · exact hs.wakes r hr id seq hkey
    · rw [List.mem_singleton.mp hr] at hkey
      exact hwake id seq hkey

/-- One more record, under a key that nothing is handed over with. -/
theorem Accounted.other {s : State} (hs : Accounted s) {record : PromptRecord} {key : Text}
    (hid : record.deliveryId = s.drawn) (hkey : record.key = .other key) :
    Accounted (s.add record) where
  toQueueSound := by
    refine hs.toQueueSound.add hid (fun token h => ?_) fun id seq h => ?_
    · rw [hkey] at h
      cases h
    · rw [hkey] at h
      cases h
  made := hs.made
  once := hs.once
  only := by
    intro r hr howed
    rcases List.mem_append.mp hr with hr | hr
    · exact hs.only r hr howed
    · rw [List.mem_singleton.mp hr, hkey] at howed
      cases howed
  kept := by
    intro c hc
    rcases hs.kept c hc with ⟨r, hr, h⟩
    exact ⟨r, List.mem_append_left _ hr, h⟩

/-- A hand-over under a key that is new: one more record, and one more commit. -/
theorem Accounted.commit {s : State} (hs : Accounted s) {record : PromptRecord} (runId : Text)
    (hid : record.deliveryId = s.drawn) (hstate : record.state = .pending)
    (htoken : ∀ token, record.key = .drawn token → token < s.drawn)
    (hwake : ∀ id seq, record.key = .runWake id seq →
      ∃ row, s.runs.get id = some row ∧ seq ≤ row.wakeSeq) :
    Accounted ((s.add record).commit runId record.leadId record.prompt record.key
      record.deliveryId s.prompts) where
  rows := hs.rows
  below := (hs.toQueueSound.add hid htoken hwake).below
  distinct := (hs.toQueueSound.add hid htoken hwake).distinct
  tokens := (hs.toQueueSound.add hid htoken hwake).tokens
  wakes := (hs.toQueueSound.add hid htoken hwake).wakes
  made := by
    intro c hc
    rcases List.mem_append.mp hc with hc | hc
    · exact hs.made c hc
    · rw [List.mem_singleton.mp hc]
      refine ⟨record, rfl, rfl, hstate, rfl, rfl, rfl, fun old hold heq => ?_⟩
      -- Delivery ids are drawn upwards, so no older record has this one.
      have hlt := hs.below old hold
      rw [heq, hid] at hlt
      exact Nat.lt_irrefl _ hlt
  once := by
    change ((s.commits ++ [_]).map Commit.record).Nodup
    rw [List.map_append, List.map_singleton]
    refine List.Nodup.append hs.once (List.nodup_singleton _) ?_
    intro id hmem hsingle
    rcases List.mem_map.mp hmem with ⟨c, hc, rfl⟩
    rcases hs.kept c hc with ⟨old, hold, hold', -⟩
    have hlt := hs.below old hold
    rw [hold', List.mem_singleton.mp hsingle, hid] at hlt
    exact Nat.lt_irrefl _ hlt
  only := by
    intro r hr howed
    rcases List.mem_append.mp hr with hr | hr
    · rcases hs.only r hr howed with ⟨c, hc, h⟩
      exact ⟨c, List.mem_append_left _ hc, h⟩
    · rw [List.mem_singleton.mp hr]
      exact ⟨_, List.mem_append_right _ (List.mem_singleton_self _), rfl, rfl, rfl⟩
  kept := by
    intro c hc
    rcases List.mem_append.mp hc with hc | hc
    · rcases hs.kept c hc with ⟨r, hr, h⟩
      exact ⟨r, List.mem_append_left _ hr, h⟩
    · rw [List.mem_singleton.mp hc]
      exact ⟨record, List.mem_append_right _ (List.mem_singleton_self _), rfl, rfl, rfl⟩

/-- A text that was handed over: the run was written first, and then the queue. -/
theorem queueRunPrompt_ok {w : World} {run : RunRow} {leadId prompt : Text} {key : PromptKey}
    {s t : State} (h : queueRunPrompt w run leadId prompt key s = .ok (some t)) :
    ∃ u record, Quiet s u ∧ u.prompts = s.prompts ∧ u.drawn = s.drawn ∧
      ((u.promptByKey leadId key = some record ∧
        t = u.commit run.id leadId prompt key record.deliveryId s.prompts) ∨
      record.deliveryId = u.drawn ∧ record.state = .pending ∧ record.key = key ∧
        t = (u.add record).commit run.id record.leadId record.prompt record.key
          record.deliveryId s.prompts ∧ record.prompt = prompt) := by
  unfold queueRunPrompt at h
  rcases bind_ok h with ⟨recorded, hrecorded, h⟩
  cases recorded with
  | none => cases h
  | some u =>
      rcases bind_ok h with ⟨⟨record, v⟩, hqueue, h⟩
      have ht := Option.some.inj (Except.ok.inj h)
      rcases quiet_recordRunPromptDelivery hrecorded with ⟨hquiet, hprompts, hdrawn⟩
      refine ⟨u, record, hquiet, hprompts, hdrawn, ?_⟩
      rcases queueLeadPrompt_ok hqueue with ⟨hold, hv⟩ | ⟨-, hid, hlead, hkey, hprompt, hstate, hv⟩
      · rw [← ht, hv]
        exact .inl ⟨hold, rfl⟩
      · rw [← ht, hv]
        refine .inr ⟨hid, hstate, hkey, ?_, hprompt⟩
        rw [hlead, hkey, hprompt]
        rfl

/-- A wake that was handed over. -/
theorem queueRunWake_ok {w : World} {run : RunRow} {leadId : Text} {s t : State}
    (h : queueRunWake w run leadId s = .ok (some t)) :
    ∃ row record, s.runs.get run.id = some row ∧
      (((recordRunWake w row s).promptByKey leadId (.runWake run.id run.settleSeq) = some record ∧
        t = (recordRunWake w row s).commit run.id leadId (w.wakeEnvelope run)
          (.runWake run.id run.settleSeq) record.deliveryId s.prompts) ∨
      record.deliveryId = s.drawn ∧ record.state = .pending ∧
        record.key = .runWake run.id run.settleSeq ∧
        t = ((recordRunWake w row s).add record).commit run.id record.leadId record.prompt record.key
          record.deliveryId s.prompts ∧ record.prompt = w.wakeEnvelope run) := by
  unfold queueRunWake at h
  rcases bind_ok h with ⟨recorded, hrecorded, h⟩
  cases recorded with
  | none => cases h
  | some u =>
      rcases bind_ok h with ⟨⟨record, v⟩, hqueue, h⟩
      have ht := Option.some.inj (Except.ok.inj h)
      rcases recordRunWakePrompt_ok hrecorded with ⟨row, hrow, rfl⟩
      refine ⟨row, record, hrow, ?_⟩
      rcases queueLeadPrompt_ok hqueue with ⟨hold, hv⟩ | ⟨-, hid, hlead, hkey, hprompt, hstate, hv⟩
      · rw [← ht, hv]
        exact .inl ⟨hold, rfl⟩
      · rw [← ht, hv]
        refine .inr ⟨hid, hstate, hkey, ?_, hprompt⟩
        rw [hlead, hkey, hprompt]
        rfl

theorem promptByKey_mem {s : State} {leadId : Text} {key : PromptKey} {record : PromptRecord}
    (h : s.promptByKey leadId key = some record) :
    record ∈ s.prompts ∧ record.leadId = leadId ∧ record.key = key := by
  have hmatch := List.find?_some h
  rw [Bool.and_eq_true, decide_eq_true_iff, decide_eq_true_iff] at hmatch
  exact ⟨List.mem_of_find?_eq_some h, hmatch⟩

/-- What was never handed over has no record. -/
theorem Accounted.promptByKey_none {s : State} (hs : Accounted s) {leadId : Text} {key : PromptKey}
    (howed : key.owed = true) (hnew : ∀ c ∈ s.commits, c.leadId = leadId → c.key ≠ key) :
    s.promptByKey leadId key = none := by
  cases h : s.promptByKey leadId key with
  | none => rfl
  | some record =>
      rcases promptByKey_mem h with ⟨hmem, hlead, hkey⟩
      rcases hs.only record hmem (by rw [hkey]; exact howed) with ⟨c, hc, -, hckey, hclead⟩
      exact absurd (hckey.trans hkey) (hnew c hc (hclead.trans hlead))

/-- A wake that is still owed has no record. -/
theorem QueueSound.wake_none {s : State} (hs : QueueSound s) {leadId id : Text} {seq : Nat}
    (hseq : ∀ row, s.runs.get id = some row → row.wakeSeq < seq) :
    s.promptByKey leadId (.runWake id seq) = none := by
  cases h : s.promptByKey leadId (.runWake id seq) with
  | none => rfl
  | some record =>
      rcases promptByKey_mem h with ⟨hmem, -, hkey⟩
      rcases hs.wakes record hmem id seq hkey with ⟨row, hrow, hle⟩
      exact absurd (hseq row hrow) (Nat.not_lt.mpr hle)

/-- A text is handed over under a key that is new. -/
theorem Accounted.queueRunPrompt {w : World} {run : RunRow} {leadId prompt : Text}
    {key : PromptKey} {s t : State} (hs : Accounted s)
    (h : queueRunPrompt w run leadId prompt key s = .ok (some t))
    (hnew : s.promptByKey leadId key = none)
    (htoken : ∀ token, key = .drawn token → token < s.drawn)
    (hwake : ∀ id seq, key ≠ .runWake id seq) : Accounted t := by
  rcases queueRunPrompt_ok h with ⟨u, record, hquiet, hprompts, hdrawn, hor⟩
  rcases hor with ⟨hold, -⟩ | ⟨hid, hstate, hkey, ht, -⟩
  · unfold State.promptByKey at hold hnew
    rw [hprompts, hnew] at hold
    cases hold
  · have hu := hs.quiet hquiet
    rw [ht, ← hprompts]
    refine hu.commit run.id hid hstate (fun token h => ?_) fun id seq h => ?_
    · rw [hdrawn]
      exact htoken token (hkey ▸ h)
    · exact absurd (hkey ▸ h) (hwake id seq)

/-- A wake is handed over that is still owed, and no more than settled. -/
theorem Accounted.queueRunWake {w : World} {run : RunRow} {leadId : Text} {s t : State}
    (hs : Accounted s) (h : queueRunWake w run leadId s = .ok (some t))
    (hseq : ∀ row, s.runs.get run.id = some row →
      row.wakeSeq < run.settleSeq ∧ run.settleSeq ≤ row.settleSeq) : Accounted t := by
  rcases queueRunWake_ok h with ⟨row, record, hrow, hor⟩
  have hnone := @QueueSound.wake_none s hs.toQueueSound leadId _ _ fun r hr => (hseq r hr).1
  rcases hor with ⟨hold, -⟩ | ⟨hid, hstate, hkey, ht, -⟩
  · exact absurd (hold.symm.trans hnone) (Option.some_ne_none record)
  · have hu := hs.quiet (quiet_recordRunWake w hrow)
    rw [ht]
    refine hu.commit run.id hid hstate (fun token h => ?_) fun id seq h => ?_
    · rw [hkey] at h
      cases h
    · -- The counter has caught up with what settled.
      rw [hkey] at h
      cases h
      refine ⟨{ row with
        wakeSeq := row.settleSeq
        updatedAt := w.now }, ?_, (hseq row hrow).2⟩
      have hrowId := (hs.rows run.id row hrow).1
      unfold recordRunWake State.setRun
      rw [← hrowId]
      exact Table.get_set_self _ _ _

/-! ### Every call is accounted for -/

/-- What else a tick writes wakes no run, and settles none less. -/
theorem writes_counters (w : World) (writes : List Write) {s : State} (hs : RowsSound s) {id : Text}
    {row' : RunRow} (h : (writes.foldl (write w) s).runs.get id = some row') :
    ∃ row, s.runs.get id = some row ∧ row'.wakeSeq = row.wakeSeq ∧ row.settleSeq ≤ row'.settleSeq := by
  induction writes generalizing s with
  | nil => exact ⟨row', h, rfl, Nat.le_refl _⟩
  | cons x rest ih =>
      have hstep : Quiet s (write w s x) := quiet_writes w [x] s
      rcases ih (hstep.rows hs).1 h with ⟨mid, hmid, hwake, hsettle⟩
      -- A write of one run is seen by that run alone.
      have hset : ∀ {j : Text} {row new : RunRow}, (s.setRun new).runs.get id = some mid →
          s.runs.get j = some row → new.id = row.id →
          new.wakeSeq = row.wakeSeq → row.settleSeq ≤ new.settleSeq →
          ∃ old, s.runs.get id = some old ∧ mid.wakeSeq = old.wakeSeq ∧
            old.settleSeq ≤ mid.settleSeq := by
        intro j row new hget hrow hid hw hle
        rw [(hs j row hrow).1] at hid
        unfold State.setRun at hget
        rw [Table.get_set, hid] at hget
        by_cases heq : id = j
        · rw [if_pos heq] at hget
          rw [← Option.some.inj hget, heq]
          exact ⟨row, hrow, hw, hle⟩
        · rw [if_neg heq] at hget
          exact ⟨mid, hget, rfl, Nat.le_refl _⟩
      -- One write, then the rest by induction.
      have hold : ∃ old, s.runs.get id = some old ∧ mid.wakeSeq = old.wakeSeq ∧
          old.settleSeq ≤ mid.settleSeq := by
        cases x with
        | update j patch =>
            simp only [write, update, updateRun] at hmid
            cases hrow : s.runs.get j with
            | none =>
                simp only [hrow] at hmid
                exact ⟨mid, hmid, rfl, Nat.le_refl _⟩
            | some row =>
                simp only [hrow] at hmid
                cases href : w.runRefusal row patch with
                | some code =>
                    simp only [href] at hmid
                    exact ⟨mid, hmid, rfl, Nat.le_refl _⟩
                | none =>
                    simp only [href] at hmid
                    by_cases hempty : patch.empty = true
                    · rw [if_pos hempty] at hmid
                      exact ⟨mid, hmid, rfl, Nat.le_refl _⟩
                    · rw [if_neg hempty] at hmid
                      have hmid : (s.setRun (patch.write w.now row)).runs.get id = some mid := hmid
                      exact hset hmid hrow rfl rfl (Nat.le_refl _)
        | settle j =>
            simp only [write, recordRunSettle] at hmid
            cases hrow : s.runs.get j with
            | none =>
                simp only [hrow] at hmid
                exact ⟨mid, hmid, rfl, Nat.le_refl _⟩
            | some row =>
                simp only [hrow] at hmid
                exact hset hmid hrow rfl rfl (Nat.le_succ _)
      rcases hold with ⟨old, hold, hwake', hsettle'⟩
      exact ⟨old, hold, hwake.trans hwake', Nat.le_trans hsettle' hsettle⟩

/-- Sending without the queue only writes the run. -/
theorem quiet_of_sent {s t : State} (h : Quiet s t) (prompted : List Text)
    (sent : List (Text × Text)) :
    Quiet s { t with
      promptedThisTick := prompted
      sent } :=
  h.trans (quiet_of_prompts rfl rfl rfl (Nat.le_refl _))

theorem Accounted.deliverPrompt {s : State} (hs : Accounted s) (w : World) (run : RunRow)
    (prompt : Text)
    (hnew : idleLead w run = true → durableLead w run.leadSessionId = true →
      s.promptByKey run.leadSessionId (.runPrompt run.id run.updatedAt) = none) :
    Accounted (deliverPrompt w run prompt s) := by
  unfold LeadPrompts.deliverPrompt
  simp only []
  split
  · exact hs
  · rename_i hidle
    split
    · rename_i hdurable
      cases h : LeadPrompts.queueRunPrompt w run run.leadSessionId prompt
          (.runPrompt run.id run.updatedAt) s with
      | error e => exact hs
      | ok result =>
          cases result with
          | none => exact hs
          | some t =>
              have ht := hs.queueRunPrompt h (hnew (Bool.not_eq_false _ ▸ hidle) hdurable)
                (fun _ h => (nomatch h)) fun _ _ h => (nomatch h)
              exact ht.quiet (quiet_pumpLead w _ t)
    · split
      · exact hs
      · have hprompted : Accounted { s with
            promptedThisTick := run.leadSessionId :: s.promptedThisTick } :=
          hs.quiet (quiet_of_sent (.refl s) _ _)
        cases h : recordRunPromptDelivery w run.id run.leadSessionId prompt
            { s with promptedThisTick := run.leadSessionId :: s.promptedThisTick } with
        | error e => exact hprompted
        | ok result =>
            cases result with
            | none => exact hs
            | some t =>
                have ht := hprompted.quiet (quiet_recordRunPromptDelivery h).1
                exact ht.quiet (quiet_of_sent (.refl t) _ _)

theorem Accounted.wakeLead {s : State} (hs : Accounted s) (w : World) (run : RunRow)
    (hseq : ∀ row, s.runs.get run.id = some row →
      row.wakeSeq < run.settleSeq ∧ run.settleSeq ≤ row.settleSeq) :
    Accounted (wakeLead w run s) := by
  unfold LeadPrompts.wakeLead
  simp only []
  split
  · exact hs
  · split
    · cases h : LeadPrompts.queueRunWake w run run.leadSessionId s with
      | error e => exact hs
      | ok result =>
          cases result with
          | none => exact hs
          | some t => exact (hs.queueRunWake h hseq).quiet (quiet_pumpLead w _ t)
    · split
      · exact hs
      · have hprompted : Accounted { s with
            promptedThisTick := run.leadSessionId :: s.promptedThisTick } :=
          hs.quiet (quiet_of_sent (.refl s) _ _)
        cases h : recordRunWakePrompt w run.id run.leadSessionId
            { s with promptedThisTick := run.leadSessionId :: s.promptedThisTick } with
        | error e => exact hprompted
        | ok result =>
            cases result with
            | none => exact hs
            | some t =>
                rcases recordRunWakePrompt_ok h with ⟨row, hrow, rfl⟩
                have ht := hprompted.quiet (quiet_recordRunWake w hrow)
                exact ht.quiet (quiet_of_sent (.refl _) _ _)

/-- Only a text that is not empty is handed over. -/
theorem owedAction_deliver {run : Run} {leadIdle heldByHuman : Bool} {prompt : Text}
    (h : owedAction run leadIdle heldByHuman = some (.deliverPrompt prompt)) :
    run.pendingPrompt ≠ [] := by
  unfold owedAction at h
  by_cases hprompt : (run.pendingPrompt ≠ [] && leadIdle) = true
  · rw [Bool.and_eq_true, decide_eq_true_iff] at hprompt
    exact hprompt.1
  · rw [if_neg hprompt] at h
    split_ifs at h
    all_goals cases h

/-- A wake is only handed over where something settled since the last one. -/
theorem owedAction_wake {run : Run} {leadIdle heldByHuman : Bool}
    (h : owedAction run leadIdle heldByHuman = some .wakeLead) : run.wakeSeq < run.settleSeq := by
  unfold owedAction at h
  by_cases hwake : (!heldByHuman && decide (run.wakeSeq < run.settleSeq) &&
      decide (run.emptyWakeCount < 2) && leadIdle) = true
  · simp only [Bool.and_eq_true, decide_eq_true_eq] at hwake
    exact hwake.1.1.2
  · rw [if_neg hwake] at h
    split_ifs at h
    all_goals cases h

theorem Accounted.tickRun {s : State} (hs : Accounted s) (w : World) (runId : Text)
    (writes : List Write) (hcareful : Careful s (.tick w runId writes)) :
    Accounted (tickRun w runId writes s) := by
  unfold LeadPrompts.tickRun
  cases hrun : s.runs.get runId with
  | none => exact hs
  | some run =>
      have hid := (hs.rows runId run hrun).1
      have hquiet := quiet_writes w writes s
      have hwritten := hs.quiet hquiet
      simp only []
      split
      · exact hs
      · rename_i hopen
        cases haction : owedAction run.toRun (run.leadSessionId ≠ [] &&
            (w.session run.leadSessionId).any fun session => session.state = .idle)
            (run.state = .awaitingHuman) with
        | none => exact hwritten
        | some owed =>
            cases owed with
            | deliverPrompt prompt =>
                refine hwritten.deliverPrompt w run prompt fun hidle hdurable => ?_
                refine hwritten.promptByKey_none rfl fun c hc hlead => ?_
                rw [hquiet.commits] at hc
                rw [hid]
                refine hcareful run hrun ?_ c hc hlead
                unfold handsOver
                rw [hidle, hdurable, Bool.eq_false_iff.mpr hopen,
                  decide_eq_true (owedAction_deliver haction)]
                rfl
            | wakeLead =>
                refine hwritten.wakeLead w run fun row' hrow' => ?_
                rcases writes_counters w writes hs.rows hrow' with ⟨row, hrow, hwake, hsettle⟩
                rw [hid, hrun] at hrow
                rw [← Option.some.inj hrow] at hwake hsettle
                rw [hwake]
                exact ⟨owedAction_wake haction, hsettle⟩

theorem Accounted.sendNow {s : State} (hs : Accounted s) (w : World) (runId leadId : Text) :
    Accounted (sendNow w runId leadId s) := by
  unfold LeadPrompts.sendNow
  cases s.runs.get runId with
  | none => exact hs
  | some run =>
      simp only []
      split
      · exact hs
      · have hdrawn : Accounted { s with drawn := s.drawn + 1 } :=
          hs.quiet (quiet_of_prompts rfl rfl rfl (Nat.le_succ _))
        -- No record has a key that is drawn only now.
        have hnew : State.promptByKey leadId (.drawn s.drawn) { s with drawn := s.drawn + 1 } =
            none := by
          cases hkey : State.promptByKey leadId (.drawn s.drawn) { s with drawn := s.drawn + 1 } with
          | none => rfl
          | some record =>
              rcases promptByKey_mem hkey with ⟨hmem, -, hdraw⟩
              exact absurd (hs.tokens record hmem s.drawn hdraw) (Nat.lt_irrefl _)
        cases h : LeadPrompts.queueRunPrompt w run leadId run.pendingPrompt (.drawn s.drawn)
            { s with drawn := s.drawn + 1 } with
        | error e => exact hs
        | ok result =>
            cases result with
            | none => exact hs
            | some t =>
                have ht := hdrawn.queueRunPrompt h hnew
                  (fun token htoken => by
                    cases htoken
                    exact Nat.lt_succ_self _) fun _ _ hwake => (nomatch hwake)
                refine Accounted.quiet ?_ (quiet_pumpLead w leadId _)
                cases t.promptByKey leadId (.drawn s.drawn) with
                | none => exact ht
                | some record => exact ht.quiet (quiet_prioritizePrompt _ _ t)

theorem Accounted.step {s : State} (hs : Accounted s) (call : Call) (hcareful : Careful s call) :
    Accounted (call.step s) := by
  cases call with
  | createRun w run => exact hs.quiet (quiet_createRun w run s)
  | updateRun w id patch => exact hs.quiet (quiet_update w id patch s)
  | settle w id => exact hs.quiet (quiet_recordRunSettle w id s)
  | beginTick => exact hs.quiet (quiet_of_prompts rfl rfl rfl (Nat.le_refl _))
  | tick w runId writes => exact hs.tickRun w runId writes hcareful
  | sendNow w runId leadId => exact hs.sendNow w runId leadId
  | queue w leadId prompt key =>
      change Accounted (match queueLeadPrompt w leadId prompt (.other key) s with
        | .ok (_, t) => t
        | .error _ => s)
      cases h : queueLeadPrompt w leadId prompt (.other key) s with
      | error e => exact hs
      | ok result =>
          rcases result with ⟨record, t⟩
          rcases queueLeadPrompt_ok h with ⟨-, rfl⟩ | ⟨-, hid, -, hkey, -, -, rfl⟩
          · exact hs
          · exact hs.other hid hkey
  | pump w leadId => exact hs.quiet (quiet_pumpLead w leadId s)
  | receipt w nodeId answer => exact hs.quiet (quiet_promptReceipt w nodeId answer s)
  | mark id state => exact hs.quiet (quiet_mark id state s)
  | prioritize id priority => exact hs.quiet (quiet_prioritizePrompt id priority s)
  | transfer w runId targetId brief => exact hs.quiet (quiet_transfer w runId targetId brief s)

/-! ### What is recorded is handed over -/

/-- A commit of the queue, and what follows it outside of the transaction. -/
theorem recorded_of_commit {run : RunRow} {leadId text : Text} {key : PromptKey} {record : Nat}
    {s u t : State} (hcommits : u.commits = s.commits)
    (h : Quiet (u.commit run.id leadId text key record s.prompts) t) : Recorded run text s t := by
  refine .inr ⟨{
    runId := run.id
    leadId
    text
    key
    record
    before := s.prompts
    after := u.prompts }, ?_, rfl, rfl, rfl⟩
  rw [h.commits, ← hcommits]
  rfl

theorem recorded_deliverPrompt (w : World) (run : RunRow) (prompt : Text) (s : State)
    (hdurable : durableLead w run.leadSessionId = true) :
    Recorded run prompt s (deliverPrompt w run prompt s) := by
  unfold deliverPrompt
  simp only [hdurable, if_true]
  split
  · exact .inl ⟨rfl, rfl, rfl⟩
  · cases h : queueRunPrompt w run run.leadSessionId prompt (.runPrompt run.id run.updatedAt) s with
    | error e => exact .inl ⟨rfl, rfl, rfl⟩
    | ok result =>
        cases result with
        | none => exact .inl ⟨rfl, rfl, rfl⟩
        | some t =>
            rcases queueRunPrompt_ok h with ⟨u, record, hquiet, -, -, ⟨-, rfl⟩ | ⟨-, -, -, ht, hprompt⟩⟩
            · exact recorded_of_commit hquiet.commits (quiet_pumpLead w _ _)
            · rw [hprompt] at ht
              rw [ht]
              exact recorded_of_commit (u := u.add record) hquiet.commits (quiet_pumpLead w _ _)

theorem recorded_wakeLead (w : World) (run : RunRow) (s : State)
    (hdurable : durableLead w run.leadSessionId = true) :
    Recorded run (w.wakeEnvelope run) s (wakeLead w run s) := by
  unfold wakeLead
  simp only [hdurable, if_true]
  split
  · exact .inl ⟨rfl, rfl, rfl⟩
  · cases h : queueRunWake w run run.leadSessionId s with
    | error e => exact .inl ⟨rfl, rfl, rfl⟩
    | ok result =>
        cases result with
        | none => exact .inl ⟨rfl, rfl, rfl⟩
        | some t =>
            rcases queueRunWake_ok h with ⟨row, record, -, ⟨-, rfl⟩ | ⟨-, -, -, ht, hprompt⟩⟩
            · exact recorded_of_commit (u := recordRunWake w row s) rfl (quiet_pumpLead w _ _)
            · rw [hprompt] at ht
              rw [ht]
              exact recorded_of_commit (u := (recordRunWake w row s).add record) rfl
                (quiet_pumpLead w _ _)

theorem Accounted.served {s : State} (hs : Accounted s) : Served s where
  made := hs.made
  once := hs.once
  only := hs.only
  kept := hs.kept
  distinct := hs.distinct
  recorded := fun w run prompt hdurable =>
    ⟨recorded_deliverPrompt w run prompt s hdurable, recorded_wakeLead w run s hdurable⟩

/-- **What is owed is handed over once.** In every run in which a tick hands the text of a run
    over only where that run was written since the last time it did so to that lead: everything
    that was handed over has a record of its own, which was new and pending and carried it; no
    record was made without one; and where nothing is handed over, as where the queue
    refuses, the text and the counters stay as they were. -/
theorem owed_prompts_served (calls : List Call)
    (hcareful : Run.Admits Call.step Careful start calls) :
    Served (Run.final Call.step start calls) :=
  (Run.invariant_of_admits Call.step Careful Accounted (fun _ call hs h => hs.step call h) calls
    start accounted_start hcareful).served

/-- Whether a call is careful can be computed. -/
instance decidableCareful (s : State) : ∀ call, Decidable (Careful s call)
  | .tick w runId _ =>
      inferInstanceAs (Decidable (∀ run ∈ s.runs.get runId, handsOver w run →
        ∀ c ∈ s.commits, c.leadId = run.leadSessionId → c.key ≠ .runPrompt runId run.updatedAt))
  | .createRun _ _ | .updateRun _ _ _ | .settle _ _ | .beginTick | .sendNow _ _ _
  | .queue _ _ _ _ | .pump _ _ | .receipt _ _ _ | .mark _ _ | .prioritize _ _
  | .transfer _ _ _ _ => isTrue trivial

namespace Sample

def leadId : Text := ofString "l"

def runId : Text := ofString "r"

/-- An idle lead on a Node that takes durable deliveries. -/
def world (now : Int) : World where
  now
  session := fun id =>
    if id = leadId then
      some {
        id := leadId
        placementId := []
        nodeId := ofString "n"
        state := .idle
        runRole := .lead }
    else none
  capable := fun _ => true

/-- A run that owes one text, hands it over, and is given another at `now`. -/
def twoTexts (now : Int) : List Call :=
  [.createRun (world 0) {
      id := runId
      workspaceId := []
      state := .running
      leadSessionId := leadId
      pendingPrompt := ofString "a" },
    .tick (world 0) runId [],
    .updateRun (world now) runId { pendingPrompt := some (ofString "b") },
    .tick (world now) runId []]

end Sample

theorem owed_prompts_served_twice :
    (Run.final Call.step start (Sample.twoTexts 1)).commits.length = 2 ∧
      Served (Run.final Call.step start (Sample.twoTexts 1)) :=
  ⟨by decide +kernel, owed_prompts_served (Sample.twoTexts 1) (by decide +kernel)⟩

/-- Two texts that are owed within one millisecond are both marked as delivered, and the
    second has no record of its own. -/
theorem not_served_within_a_millisecond :
    ¬Served (Run.final Call.step start (Sample.twoTexts 0)) := by
  intro h
  exact absurd h.once (by decide +kernel)

end LeadPrompts

end CopilotFleet
