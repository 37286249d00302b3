import CopilotFleet.Host.CommandRuns

/-!
# What is Owed to a Lead

That the outcome of a command still has to reach its lead is recorded twice: on
the execution, as its delivery, and on the prompt that reports it. An execution
whose delivery is live can only be let go by a receipt or a withdrawal of that
prompt, so a prompt that is retired alone leaves an execution behind that no
sweep will ever take.

`tick` tells the executions of a prompt that it takes from a lead; `revokeLead`
does not. In runs that never revoke a lead while one of its prompts is owed, the
two records agree.

## Main definitions

* `Core.Owed`: The two records agree.

## Theorems

* `Move.owed`: Every move but the one that abandons keeps them so.
* `owed_of_spared`: They agree in every state a run that spares reaches.
* `prompt_never_strands`: No execution is stranded there.
* `revoked_lead_strands`: One is, in a run that does not.
-/

namespace CopilotFleet

namespace Commands

open Utf16 Effect

/-- What is recorded on executions and on prompts agrees. -/
structure Core.Owed (c : Core) : Prop where
  idle : ∀ id e, c.executions id = some e → e.state.terminal = false → e.delivery = .none
  unsent : ∀ id e, c.executions id = some e → e.delivery = .none ∨ e.delivery = .pending →
    e.deliveryId = none
  live : ∀ id e, c.executions id = some e → e.delivery.live = true →
    ∃ deliveryId p, e.deliveryId = some deliveryId ∧ c.prompts deliveryId = some p ∧
      p.state.retired = false ∧ id ∈ p.executions
  silent : ∀ deliveryId p, c.prompts deliveryId = some p → (∀ id, p.key ≠ .command id) →
    p.executions = []
  reports : ∀ deliveryId p id, c.prompts deliveryId = some p → p.key = .command id →
    p.executions = [id] ∧ id < c.nextId ∧
      ∀ e, c.executions id = some e → e.deliveryId = some deliveryId

namespace Core.Owed

variable {c : Core}

/-- What is reported has a number of its own. -/
theorem mem_executions (h : c.Owed) {deliveryId id : Nat} {p : PromptRecord}
    (hp : c.prompts deliveryId = some p) (hid : id ∈ p.executions) :
    p.key = .command id ∧ p.executions = [id] := by
  cases hkey : p.key with
  | other text =>
      have hnone := h.silent deliveryId p hp fun id' heq => by rw [hkey] at heq; cases heq
      rw [hnone] at hid
      exact absurd hid List.not_mem_nil
  | command id' =>
      have hone := (h.reports deliveryId p id' hp hkey).1
      rw [hone, List.mem_singleton] at hid
      rw [hid]
      exact ⟨rfl, hone⟩

/-- Nothing in view has changed. -/
theorem of_same {c' : Core} (h : c.Owed) (hexecutions : c'.executions = c.executions)
    (hprompts : c'.prompts = c.prompts) (hnext : c.nextId ≤ c'.nextId) : c'.Owed where
  idle := by rw [hexecutions]; exact h.idle
  unsent := by rw [hexecutions]; exact h.unsent
  live := by rw [hexecutions, hprompts]; exact h.live
  silent := by rw [hprompts]; exact h.silent
  reports := by
    rw [hexecutions, hprompts]
    intro deliveryId p id hp hkey
    rcases h.reports deliveryId p id hp hkey with ⟨hone, hlt, hall⟩
    exact ⟨hone, hlt.trans_le hnext, hall⟩

/-- A row moves on, and owes nothing that it did not owe before. -/
theorem put (h : c.Owed) {e e' : Execution} (hrow : c.executions e.id = some e)
    (hid : e'.id = e.id) (hnumber : e'.deliveryId = e.deliveryId)
    (hover : e'.state.terminal = false → e.state.terminal = false)
    (hdelivery : e'.delivery = e.delivery ∨ e'.state.terminal = true ∧
      e'.delivery.live = false ∧ (e'.delivery = .none ∨ e'.delivery = .pending →
        e.deliveryId = none)) : (c.put e').Owed where
  idle := by
    intro id x hx hwaits
    rw [Core.put_executions] at hx
    split at hx
    · rw [Option.some.injEq] at hx
      subst hx
      -- What waits owes what it owed; only what is over may have been told.
      rcases hdelivery with hsame | ⟨hend, _⟩
      · rw [hsame]
        exact h.idle _ e hrow (hover hwaits)
      · rw [hend] at hwaits
        cases hwaits
    · exact h.idle id x hx hwaits
  unsent := by
    intro id x hx hwaits
    rw [Core.put_executions] at hx
    split at hx
    · rw [Option.some.injEq] at hx
      subst hx
      rw [hnumber]
      rcases hdelivery with hsame | ⟨_, _, hnone⟩
      · rw [hsame] at hwaits
        exact h.unsent _ e hrow hwaits
      · exact hnone hwaits
    · exact h.unsent id x hx hwaits
  live := by
    intro id x hx hlive
    rw [Core.put_executions] at hx
    split at hx
    · next hsame =>
        rw [Option.some.injEq] at hx
        subst hx
        rcases hdelivery with hkept | ⟨_, hdead, _⟩
        · rw [hkept] at hlive
          rw [hnumber, hsame, hid]
          exact h.live _ e hrow hlive
        · rw [hdead] at hlive
          cases hlive
    · exact h.live id x hx hlive
  silent := h.silent
  reports := by
    intro deliveryId p id hp hkey
    rcases h.reports deliveryId p id hp hkey with ⟨hone, hlt, hall⟩
    refine ⟨hone, hlt, fun x hx => ?_⟩
    rw [Core.put_executions] at hx
    split at hx
    · next hsame =>
        rw [Option.some.injEq] at hx
        rw [← hx, hnumber]
        refine hall e ?_
        rw [hsame, hid]
        exact hrow
    · exact hall x hx

/-- A prompt moves on, and what it reports is as it was. -/
theorem putPrompt (h : c.Owed) {p p' : PromptRecord}
    (hrow : c.prompts p.delivery.deliveryId = some p) (hsame : p'.Follows p)
    (hlive : p'.state.retired = true → ∀ id ∈ p.executions, ∀ e, c.executions id = some e →
      e.delivery.live = false) : (c.putPrompt p').Owed where
  idle := h.idle
  unsent := h.unsent
  live := by
    intro id e he howed
    rcases h.live id e he howed with ⟨deliveryId, q, hnumber, hq, hwaits, hmem⟩
    rw [Core.putPrompt_executions] at he
    -- The prompt that is owed may be the one that moves on.
    by_cases hid : deliveryId = p.delivery.deliveryId
    · subst hid
      rw [hrow, Option.some.injEq] at hq
      subst hq
      refine ⟨_, p', hnumber, ?_, ?_, hsame.executions ▸ hmem⟩
      · rw [Core.putPrompt_prompts, if_pos hsame.deliveryId.symm]
      · -- Were it retired, nobody would be owed anything by it.
        by_contra hretired
        rw [Bool.not_eq_false] at hretired
        rw [hlive hretired id hmem e he] at howed
        cases howed
    · refine ⟨deliveryId, q, hnumber, ?_, hwaits, hmem⟩
      rw [Core.putPrompt_prompts, if_neg (by rw [hsame.deliveryId]; exact hid)]
      exact hq
  silent := by
    intro deliveryId q hq hother
    rw [Core.putPrompt_prompts] at hq
    split at hq
    · rw [Option.some.injEq] at hq
      subst hq
      rw [hsame.executions]
      exact h.silent _ p hrow (hsame.key ▸ hother)
    · exact h.silent deliveryId q hq hother
  reports := by
    intro deliveryId q id hq hkey
    rw [Core.putPrompt_prompts] at hq
    split at hq
    · next hid =>
        rw [Option.some.injEq] at hq
        subst hq
        rw [hsame.executions, hid, hsame.deliveryId]
        exact h.reports _ p id hrow (hsame.key ▸ hkey)
    · exact h.reports deliveryId q id hq hkey

/-- A new prompt that reports nothing, or one execution that was never reported. -/
theorem newPrompt (h : c.Owed) (hkeyed : c.Keyed) {p : PromptRecord} {n : Nat}
    (hnew : c.nextId ≤ p.delivery.deliveryId) (hdrawn : p.delivery.deliveryId < n)
    (hnone : p.executions = []) (hother : ∀ id, p.key ≠ .command id) :
    ({ c.putPrompt p with nextId := n } : Core).Owed where
  idle := h.idle
  unsent := h.unsent
  live := by
    intro id e he howed
    rcases h.live id e he howed with ⟨deliveryId, q, hnumber, hq, hwaits, hmem⟩
    refine ⟨deliveryId, q, hnumber, ?_, hwaits, hmem⟩
    -- Its number is new, so no other prompt is overwritten.
    have hold := (hkeyed.prompt deliveryId q hq).2
    change (c.putPrompt p).prompts deliveryId = some q
    rw [Core.putPrompt_prompts, if_neg (by omega)]
    exact hq
  silent := by
    intro deliveryId q hq hkey
    change (c.putPrompt p).prompts deliveryId = some q at hq
    rw [Core.putPrompt_prompts] at hq
    split at hq
    · rw [Option.some.injEq] at hq
      rw [← hq]
      exact hnone
    · exact h.silent deliveryId q hq hkey
  reports := by
    intro deliveryId q id hq hkey
    change (c.putPrompt p).prompts deliveryId = some q at hq
    rw [Core.putPrompt_prompts] at hq
    split at hq
    · rw [Option.some.injEq] at hq
      rw [← hq] at hkey
      exact absurd hkey (hother id)
    · rcases h.reports deliveryId q id hq hkey with ⟨hone, hlt, hall⟩
      refine ⟨hone, ?_, hall⟩
      change id < n
      omega

/-- The outcome of an execution is to be reported, and never was. -/
theorem complete (h : c.Owed) (hkeyed : c.Keyed) {e e' : Execution} {p : PromptRecord} {n : Nat}
    (hrow : c.executions e.id = some e) (howed : e.delivery = .pending)
    (hnew : c.nextId ≤ p.delivery.deliveryId) (hdrawn : p.delivery.deliveryId < n)
    (hwaits : p.state = .pending) (hkey : p.key = .command e.id) (hreports : p.executions = [e.id])
    (hmade : e' = { e with
      version := e.version + 1
      delivery := .reserved
      deliveryId := some p.delivery.deliveryId }) :
    ({ (c.putPrompt p).put e' with nextId := n } : Core).Owed := by
  have hid : e'.id = e.id := by rw [hmade]
  have hstate : e'.state = e.state := by rw [hmade]
  have hdelivery : e'.delivery = .reserved := by rw [hmade]
  have hnumber : e'.deliveryId = some p.delivery.deliveryId := by rw [hmade]
  -- What is still to be reported has no prompt yet.
  have hnone := h.unsent e.id e hrow (.inr howed)
  -- One row and one prompt are written, and the rest is as it was.
  have hrows : ∀ id x, ((c.putPrompt p).put e').executions id = some x →
      (id = e.id ∧ x = e') ∨ (id ≠ e.id ∧ c.executions id = some x) := by
    intro id x hx
    rw [Core.put_executions, hid] at hx
    split at hx
    · next hsame =>
        rw [Option.some.injEq] at hx
        exact .inl ⟨hsame, hx.symm⟩
    · next hne => exact .inr ⟨hne, hx⟩
  have hprompts : ∀ deliveryId q, ((c.putPrompt p).put e').prompts deliveryId = some q →
      (deliveryId = p.delivery.deliveryId ∧ q = p) ∨ c.prompts deliveryId = some q := by
    intro deliveryId q hq
    rw [Core.put_prompts, Core.putPrompt_prompts] at hq
    split at hq
    · next hsame =>
        rw [Option.some.injEq] at hq
        exact .inl ⟨hsame, hq.symm⟩
    · exact .inr hq
  refine ⟨fun id x hx hgoes => ?_, fun id x hx hquiet => ?_, fun id x hx hlive => ?_,
    fun deliveryId q hq hother => ?_, fun deliveryId q id hq hcommand => ?_⟩
  · rcases hrows id x hx with ⟨_, rfl⟩ | ⟨_, hold⟩
    · rw [hstate] at hgoes
      rw [h.idle e.id e hrow hgoes] at howed
      cases howed
    · exact h.idle id x hold hgoes
  · rcases hrows id x hx with ⟨_, rfl⟩ | ⟨_, hold⟩
    · rw [hdelivery] at hquiet
      rcases hquiet with hquiet | hquiet <;> cases hquiet
    · exact h.unsent id x hold hquiet
  · rcases hrows id x hx with ⟨hsame, rfl⟩ | ⟨hne, hold⟩
    · refine ⟨_, p, hnumber, ?_, by rw [hwaits]; rfl, ?_⟩
      · change ((c.putPrompt p).put x).prompts p.delivery.deliveryId = some p
        rw [Core.put_prompts, Core.putPrompt_prompts, if_pos rfl]
      · rw [hreports, hsame]
        exact List.mem_singleton_self _
    · rcases h.live id x hold hlive with ⟨deliveryId, q, hown, hq, hopen, hmem⟩
      refine ⟨deliveryId, q, hown, ?_, hopen, hmem⟩
      have hlt := (hkeyed.prompt deliveryId q hq).2
      change ((c.putPrompt p).put e').prompts deliveryId = some q
      rw [Core.put_prompts, Core.putPrompt_prompts, if_neg (by omega)]
      exact hq
  · rcases hprompts deliveryId q hq with ⟨_, rfl⟩ | hold
    · exact absurd hkey (hother e.id)
    · exact h.silent deliveryId q hold hother
  · rcases hprompts deliveryId q hq with ⟨hsame, rfl⟩ | hold
    · rw [hkey, PromptKey.command.injEq] at hcommand
      subst hcommand
      refine ⟨hreports, ?_, fun x hx => ?_⟩
      · have hlt := (hkeyed.execution e.id e hrow).2
        change e.id < n
        omega
      · rcases hrows e.id x hx with ⟨_, rfl⟩ | ⟨hne, _⟩
        · rw [hnumber, hsame]
        · exact absurd rfl hne
    · rcases h.reports deliveryId q id hold hcommand with ⟨hone, hlt, hall⟩
      refine ⟨hone, ?_, fun x hx => ?_⟩
      · change id < n
        omega
      · rcases hrows id x hx with ⟨hsame, rfl⟩ | ⟨_, hx'⟩
        · subst hsame
          -- Another prompt that reported this execution would have its number.
          rw [hall e hrow] at hnone
          cases hnone
        · exact hall x hx'

/-- The executions of a prompt hear of it together with the prompt. -/
theorem deliver (h : c.Owed) {p p' : PromptRecord} {delivery : DeliveryState}
    {executions : Nat → Option Execution}
    (hrow : c.prompts p.delivery.deliveryId = some p) (hsame : p'.Follows p)
    (hstill : delivery.live = true → p'.state.retired = false)
    (hover : delivery ≠ .none ∧ delivery ≠ .pending)
    (htold : Delivered p.executions delivery c.executions executions) :
    ({ c.putPrompt p' with executions } : Core).Owed := by
  -- Whatever the prompt reports carries its number.
  have hreported : ∀ id ∈ p.executions, ∀ e, c.executions id = some e →
      e.deliveryId = some p.delivery.deliveryId := fun id hmem e he =>
    (h.reports _ p id hrow (h.mem_executions hrow hmem).1).2.2 e he
  refine ⟨fun id x hx hgoes => ?_, fun id x hx hquiet => ?_, fun id x hx hlive => ?_,
    fun deliveryId q hq hother => ?_, fun deliveryId q id hq hcommand => ?_⟩
  · rcases htold.rows hx with ⟨_, hold⟩ | ⟨hmem, e, v, he, _, rfl⟩
    · exact h.idle id x hold hgoes
    · -- What was reported is over.
      have hquiet := h.idle id e he hgoes
      have hnone := h.unsent id e he (.inl hquiet)
      rw [hreported id hmem e he] at hnone
      cases hnone
  · rcases htold.rows hx with ⟨_, hold⟩ | ⟨hmem, e, v, he, _, rfl⟩
    · exact h.unsent id x hold hquiet
    · rcases hquiet with hquiet | hquiet
      · exact absurd hquiet hover.1
      · exact absurd hquiet hover.2
  · rcases htold.rows hx with ⟨hmem, hold⟩ | ⟨hmem, e, v, he, _, rfl⟩
    · rcases h.live id x hold hlive with ⟨deliveryId, q, hown, hq, hopen, hin⟩
      refine ⟨deliveryId, q, hown, ?_, hopen, hin⟩
      have hne : deliveryId ≠ p'.delivery.deliveryId := by
        rintro rfl
        rw [hsame.deliveryId, hrow, Option.some.injEq] at hq
        subst hq
        exact hmem hin
      change (c.putPrompt p').prompts deliveryId = some q
      rw [Core.putPrompt_prompts, if_neg hne]
      exact hq
    · -- It heard of the prompt just now, and the prompt is still there.
      refine ⟨p.delivery.deliveryId, p', hreported id hmem e he, ?_, hstill hlive,
        hsame.executions ▸ hmem⟩
      change (c.putPrompt p').prompts p.delivery.deliveryId = some p'
      rw [Core.putPrompt_prompts, if_pos hsame.deliveryId.symm]
  · change (c.putPrompt p').prompts deliveryId = some q at hq
    rw [Core.putPrompt_prompts] at hq
    split at hq
    · rw [Option.some.injEq] at hq
      subst hq
      rw [hsame.executions]
      exact h.silent _ p hrow (hsame.key ▸ hother)
    · exact h.silent deliveryId q hq hother
  · have hold : ∃ q', c.prompts deliveryId = some q' ∧ q'.key = q.key ∧
        q'.executions = q.executions := by
      change (c.putPrompt p').prompts deliveryId = some q at hq
      rw [Core.putPrompt_prompts] at hq
      split at hq
      · next hid =>
          rw [Option.some.injEq] at hq
          subst hq
          refine ⟨p, ?_, hsame.key.symm, hsame.executions.symm⟩
          rw [hid, hsame.deliveryId]
          exact hrow
      · exact ⟨q, hq, rfl, rfl⟩
    rcases hold with ⟨q', hq', hkey', hexecutions'⟩
    rcases h.reports deliveryId q' id hq' (hkey'.trans hcommand) with ⟨hone, hlt, hall⟩
    refine ⟨hexecutions'.symm.trans hone, hlt, fun x hx => ?_⟩
    rcases htold.rows hx with ⟨_, hx'⟩ | ⟨_, e, v, he, _, rfl⟩
    · exact hall x hx'
    · exact hall e he

/-- An execution that is new owes nothing. -/
theorem insert (h : c.Owed) {e : Execution} {n : Nat} (hfresh : e.Fresh) (hnew : c.nextId ≤ e.id)
    (hdrawn : e.id < n) : ({ c.put e with nextId := n } : Core).Owed := by
  have hrows : ∀ id x, (c.put e).executions id = some x →
      (id = e.id ∧ x = e) ∨ c.executions id = some x := by
    intro id x hx
    rw [Core.put_executions] at hx
    split at hx
    · next hsame =>
        rw [Option.some.injEq] at hx
        exact .inl ⟨hsame, hx.symm⟩
    · exact .inr hx
  refine ⟨fun id x hx hgoes => ?_, fun id x hx hquiet => ?_, fun id x hx hlive => ?_, h.silent,
    fun deliveryId q id hq hkey => ?_⟩
  · rcases hrows id x hx with ⟨_, rfl⟩ | hold
    · exact hfresh.delivery
    · exact h.idle id x hold hgoes
  · rcases hrows id x hx with ⟨_, rfl⟩ | hold
    · exact hfresh.deliveryId
    · exact h.unsent id x hold hquiet
  · rcases hrows id x hx with ⟨_, rfl⟩ | hold
    · rw [hfresh.delivery] at hlive
      cases hlive
    · exact h.live id x hold hlive
  · rcases h.reports deliveryId q id hq hkey with ⟨hone, hlt, hall⟩
    refine ⟨hone, ?_, fun x hx => ?_⟩
    · change id < n
      omega
    · rcases hrows id x hx with ⟨hsame, _⟩ | hold
      · omega
      · exact hall x hold

/-- What is forgotten owes nothing any more. -/
theorem forget (h : c.Owed) (gone : Nat) (events : Nat × Nat → Option OutputEvent) :
    ({ c with
      executions := Function.update c.executions gone none
      events } : Core).Owed := by
  have hrows : ∀ id x, Function.update c.executions gone none id = some x →
      c.executions id = some x := by
    intro id x hx
    rw [Function.update_apply] at hx
    split at hx
    · cases hx
    · exact hx
  refine ⟨fun id x hx => h.idle id x (hrows id x hx), fun id x hx => h.unsent id x (hrows id x hx),
    fun id x hx => h.live id x (hrows id x hx), h.silent, fun deliveryId p id hp hkey => ?_⟩
  rcases h.reports deliveryId p id hp hkey with ⟨hone, hlt, hall⟩
  exact ⟨hone, hlt, fun x hx => hall x (hrows id x hx)⟩

/-- What becomes of one execution and of nothing else. -/
theorem change (h : c.Owed) {e e' : Execution} (hrow : c.executions e.id = some e)
    (hchange : Change e e') : (c.put e').Owed := by
  cases hchange with
  | retire version state descriptor delivery settledAt exitCode outcomeKnown cancelRequested
      reasonCode error later waits idle ended described owed =>
      refine h.put hrow rfl rfl (fun _ => waits) (.inr ⟨ended, ?_, fun _ =>
        h.unsent e.id e hrow (.inl (h.idle e.id e hrow waits))⟩)
      rcases owed with rfl | ⟨rfl, _⟩ <;> rfl
  | withdraw reasonCode busy =>
      exact h.put hrow rfl rfl (fun _ => ExecutionState.not_terminal_of_active busy) (.inl rfl)
  | prepare d waits described =>
      exact h.put hrow rfl rfl (fun _ => by rw [waits]; rfl) (.inl rfl)
  | lose ownership reasonCode busy =>
      exact h.put hrow rfl rfl (fun _ => ExecutionState.not_terminal_of_active busy) (.inl rfl)
  | describe d ended described => exact h.put hrow rfl rfl (fun hgoes => hgoes) (.inl rfl)
  | orphan owed =>
      refine h.put hrow rfl rfl (fun hgoes => hgoes) (.inr ⟨?_, rfl, fun hquiet => ?_⟩)
      · by_contra hgoes
        rw [Bool.not_eq_true] at hgoes
        rw [h.idle e.id e hrow hgoes] at owed
        cases owed
      · rcases hquiet with hquiet | hquiet <;> cases hquiet

/-- What a Node says of an execution makes it owed at most. -/
theorem heard (h : c.Owed) {e e' : Execution} {receipt : Receipt} {now : Int}
    (hrow : c.executions e.id = some e) (hheard : e.Heard e' receipt now) : (c.put e').Owed := by
  have hwaits := ExecutionState.not_terminal_of_active hheard.busy
  have hid : e'.id = e.id := by rw [hheard.made]; rfl
  have hnumber : e'.deliveryId = e.deliveryId := by rw [hheard.made]; rfl
  have hstate : e'.state.terminal = receipt.state.terminal := by
    rw [hheard.made]
    exact e.received_terminal receipt now
  have hdelivery : e'.delivery = (e.received receipt now).delivery := by rw [hheard.made]
  refine h.put hrow hid hnumber (fun _ => hwaits) ?_
  unfold Execution.received at hdelivery
  simp only at hdelivery
  by_cases hover : receipt.state.terminal = true
  · rw [if_pos hover] at hdelivery
    refine .inr ⟨hstate.trans hover, ?_, fun _ =>
      h.unsent e.id e hrow (.inl (h.idle e.id e hrow hwaits))⟩
    rw [hdelivery]
    split <;> rfl
  · rw [if_neg hover] at hdelivery
    exact .inl hdelivery

/-- What only concerns output owes what it owed. -/
theorem output (h : c.Owed) {e e' : Execution} (hrow : c.executions e.id = some e)
    (houtput : e.Output e') : (c.put e').Owed := by
  have hid : e'.id = e.id := by rw [houtput.made]
  have hnumber : e'.deliveryId = e.deliveryId := by rw [houtput.made]
  have hstate : e'.state = e.state := by rw [houtput.made]
  have hdelivery : e'.delivery = e.delivery := by rw [houtput.made]
  exact h.put hrow hid hnumber (fun hgoes => hstate ▸ hgoes) (.inl hdelivery)

end Core.Owed

/-- Every move keeps the two records the same, if prompts that are owed are not abandoned. -/
theorem Move.owed {c c' : Core} (hkeyed : c.Keyed) (h : c.Owed) (hmove : Move True c c') :
    c'.Owed := by
  cases hmove with
  | draw n grows => exact h.of_same rfl rfl grows
  | request e n fresh new drawn => exact h.insert fresh new drawn
  | change e e' row change => exact h.change row change
  | approve e e' d approvedBy approvedAt scope automatic row waits described made =>
      have hc : (c.happens (.approved e.id d approvedBy approvedAt)).Owed :=
        h.of_same rfl rfl le_rfl
      refine hc.put (e := e) row ?_ ?_ (fun _ => ?_) (.inl ?_)
      · rw [made]
      · rw [made]
      · rcases waits with hstate | hstate <;> rw [hstate] <;> rfl
      · rw [made]
  | start e e' now sent row queued wanted alone unfenced made once =>
      have hput : (c.put e').Owed := by
        refine h.put row ?_ ?_ (fun _ => ?_) (.inl ?_)
        · rw [made]
        · rw [made]
        · rw [queued]
          rfl
        · rw [made]
      exact hput.of_same (Core.begun_executions ..) (Core.begun_prompts ..)
        (Core.begun_nextId c e' now).ge
  | output e e' row output flagged => exact h.output row output
  | append e e' event c₁ row absent stored output flagged =>
      subst stored
      have hc : ({ c with events := Function.update c.events (e.id, event.sequence) (some event) } :
        Core).Owed := h.of_same rfl rfl le_rfl
      exact hc.output row output
  | ack x ack acknowledges => exact h.of_same rfl rfl le_rfl
  | report e e' receipt now row heard goes still unsettled flagged => exact h.heard row heard
  | settle e e' receipt now now' row heard ended said known flagged =>
      exact (h.heard row heard).of_same (Core.released_executions ..) (Core.released_prompts ..)
        (Core.released_nextId (c.put e') e' receipt now').ge
  | observe id f generation row own closed => exact h.of_same rfl rfl le_rfl
  | forget observations less => exact h.of_same rfl rfl le_rfl
  | observed id f current generation observedAt now asked later row own =>
      exact h.of_same rfl rfl le_rfl
  | dispatch taskId stepId evidence unfenced noted => exact h.of_same rfl rfl le_rfl
  | sweep id ended => exact h.forget id _
  | enqueue p n new drawn none other => exact h.newPrompt hkeyed new drawn none other
  | complete e e' p n row owed new drawn waits key reports made =>
      exact h.complete hkeyed row owed new drawn waits key reports made
  | completeAgain e e' p row owed there key made =>
      -- A prompt with this key is one the execution already names.
      have hnone := h.unsent e.id e row (.inr owed)
      rw [(h.reports _ p e.id there key).2.2 e row] at hnone
      cases hnone
  | revise p p' row same still =>
      refine h.putPrompt row same fun hretired id hmem e he => ?_
      by_contra hlive
      rw [Bool.not_eq_false] at hlive
      rcases h.live id e he hlive with ⟨deliveryId, q, hnumber, hq, hopen, _⟩
      rw [(h.reports _ p id row (h.mem_executions row hmem).1).2.2 e he, Option.some.injEq] at hnumber
      subst hnumber
      rw [row, Option.some.injEq] at hq
      rw [← hq, ← still, hretired] at hopen
      cases hopen
  | deliver p p' delivery executions row waits same still ended told =>
      exact h.deliver row same still ended told
  | abandon p p' row same gone owes =>
      exact h.putPrompt row same fun _ id hmem e he => owes trivial id hmem e he

theorem owed_empty : ({} : State).core.Owed where
  idle := fun _ _ h => by cases h
  unsent := fun _ _ h => by cases h
  live := fun _ _ h => by cases h
  silent := fun _ _ h => by cases h
  reports := fun _ _ _ h => by cases h

/-- No operation of the run takes a prompt from a lead that is still owed. -/
def Spared (inputs : List (World × Op)) : Prop :=
  Run.Admits step (fun s input => input.2.Spares s.core) {} inputs

theorem owed_of_spared {inputs : List (World × Op)} (h : Spared inputs) :
    (reached inputs).core.Owed :=
  (spared_invariant owed_empty (fun _ _ hkeyed hc hmove => Move.owed hkeyed hc hmove) inputs h).2

/-- The prompt of an execution that still owes its outcome is there, and is owed. -/
def State.StrandsNothing (s : State) : Prop :=
  (∀ id e, s.execution id = some e → e.delivery.live = true → ∃ deliveryId p,
    e.deliveryId = some deliveryId ∧ s.db.prompts.get deliveryId = some p ∧
      p.state.retired = false) ∧
  ∀ id e deliveryId p, s.execution id = some e → e.state.terminal = true →
    e.deliveryId = some deliveryId → s.db.prompts.get deliveryId = some p →
      p.state.retired = true →
        (e.delivery = .settled ∨ e.delivery = .orphaned) ∧
          ∀ settledAt now, e.settledAt = some settledAt → retentionMs ≤ now - settledAt →
            e.sweepable now = true

/-- In a run that never revokes a lead while it is owed an outcome, no execution is
    stranded. -/
theorem prompt_never_strands (inputs : List (World × Op)) (h : Spared inputs) :
    (reached inputs).StrandsNothing := by
  have howed := owed_of_spared h
  refine ⟨fun id e he hlive => ?_, fun id e deliveryId p he hover hnumber hp hretired => ?_⟩
  · rcases howed.live id e he hlive with ⟨deliveryId, p, hnumber, hp, hwaits, _⟩
    exact ⟨deliveryId, p, hnumber, hp, hwaits⟩
  · have hdead : e.delivery.live = false := by
      by_contra hlive
      rw [Bool.not_eq_false] at hlive
      rcases howed.live id e he hlive with ⟨deliveryId', q, hnumber', hq, hwaits, _⟩
      rw [hnumber, Option.some.injEq] at hnumber'
      subst hnumber'
      have hsame : p = q := Option.some.inj (hp.symm.trans hq)
      rw [← hsame, hretired] at hwaits
      cases hwaits
    have hsent : ¬(e.delivery = .none ∨ e.delivery = .pending) := fun hquiet => by
      rw [howed.unsent id e he hquiet] at hnumber
      cases hnumber
    have hend : e.delivery = .settled ∨ e.delivery = .orphaned := by
      cases hdelivery : e.delivery <;> simp_all [DeliveryState.live]
    refine ⟨hend, fun settledAt now hsettled hold => ?_⟩
    unfold Execution.sweepable
    rw [hover, hsettled]
    simp only [Option.any_some, Bool.true_and, Bool.and_eq_true, decide_eq_true_eq]
    refine ⟨hold, ?_⟩
    rcases hend with h' | h' <;> rw [h'] <;> rfl

/-- A lead on one Node that takes prompts and no commands. -/
def quietWorld : World where
  now := fun _ => 0
  session := fun _ _ => some (ofString "node")
  leadLive := fun _ _ => true
  leadIdle := fun _ _ => false
  taskActive := fun _ _ => true
  placement := fun _ _ => some (ofString "node", ofString "/work")
  workspace := fun _ _ => none
  refuses := fun _ _ _ => none
  checkoutTaken := fun _ _ _ => false
  normalizedPath := id
  observationBudget := fun _ _ => none
  observationExecution := fun _ _ => none
  bindObservation := fun _ _ => none
  hostId := fun _ => some (ofString "host")
  hostLocal := fun _ _ => false
  preparationTiming := fun _ _ => .error (ofString "preparation_clock_missing")
  preparationConsistent := fun _ _ => true
  preparedClockFailure := fun _ _ => none
  nodeSocket := fun _ _ => some { id := 0, ready := true }
  blocked := fun _ _ => false
  delivers := fun _ _ _ => false
  admissionPressure := fun _ => false
  promptPressure := fun _ _ => none
  eventBytes := fun _ => 1
  admits := fun _ _ => true
  maxEventSequence := fun _ _ => 0
  completionText := fun _ => ofString "done"

/-- A command that cannot be prepared is over, its lead is owed the outcome, and the
    lead is revoked. -/
def strandingRun : List (World × Op) :=
  [(quietWorld, .nodeReady (ofString "node") [executionCapability, durableCapability]
      (some { enabled := true, supported := true, shells := [ofString "bash"], admissionVersion })),
   (quietWorld, .request (ofString "lead")
      { target := .placement (ofString "p"), command := ofString "make", shell := ofString "bash",
        reason := [], timeoutMs := 1000, requestKey := ofString "k", taskId := none,
        maintenanceObservation := none } 0),
   (quietWorld, .tick 0),
   (quietWorld, .revokeLead (ofString "lead") false)]

/-- The same lead is revoked, but the prompts it was not handed yet are kept. -/
def sparingRun : List (World × Op) :=
  strandingRun.take 3 ++ [(quietWorld, .revokeLead (ofString "lead") true)]

theorem sparingRun_spared : Spared sparingRun := by
  have hwaiting : (reached (strandingRun.take 3)).db.prompts.values.all
      (fun p => p.state = .pending) = true := by
    decide +kernel
  refine ⟨trivial, trivial, trivial, ?_, trivial⟩
  intro id p hp _ hloses
  have hmem : p ∈ (reached (strandingRun.take 3)).db.prompts.values :=
    (Table.mem_values_iff _ p).mpr ⟨id, hp⟩
  have hstate := of_decide_eq_true (List.all_eq_true.mp hwaiting p hmem)
  refine absurd ?_ hloses.2
  rw [hstate]
  rfl

/-- A lead is revoked while a prompt waits for it, and is told of the command all the same. -/
theorem prompt_never_strands_queued :
    (reached sparingRun).StrandsNothing ∧
    ((reached sparingRun).execution 0).map (fun e => (e.delivery, e.deliveryId)) =
      some (.reserved, some 2) ∧
    ((reached sparingRun).db.prompts.get 2).map (·.state) = some .pending :=
  ⟨prompt_never_strands sparingRun sparingRun_spared, by decide +kernel, by decide +kernel⟩

/-- The execution is still owed under a prompt that is gone for good. -/
theorem revoked_lead_strands : ¬∀ inputs, (reached inputs).StrandsNothing := by
  intro hall
  have hrow : ((reached strandingRun).execution 0).map (fun e => (e.delivery, e.deliveryId)) =
      some (.reserved, some 2) := by decide +kernel
  have hprompt : ((reached strandingRun).db.prompts.get 2).map (·.state) = some .orphaned := by
    decide +kernel
  rcases Option.map_eq_some_iff.mp hrow with ⟨e, he, hfields⟩
  have hdelivery : e.delivery = .reserved := congrArg Prod.fst hfields
  have hnumber : e.deliveryId = some 2 := congrArg Prod.snd hfields
  rcases (hall strandingRun).1 0 e he (by rw [hdelivery]; rfl) with ⟨deliveryId, p, hid, hp, hwaits⟩
  rw [hnumber, Option.some.injEq] at hid
  subst hid
  rw [hp, Option.map_some, Option.some.injEq] at hprompt
  rw [hprompt] at hwaits
  cases hwaits

end Commands

end CopilotFleet
