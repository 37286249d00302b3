import CopilotFleet.PrMaintenance.Acts

/-!
# Stop Is Sticky

A registration that was stopped, or lost its access or its identity, is to do
nothing on the retained worker until a person resumes it. There is one slot for
a hold, and whoever clears one looks at what is left in it. So the whole history
is watched: an id is struck from the first such hold until a person's Resume.

A direction, a repair authorization, the lead and a handback all leave the
holds alone that strike an id, and the lead and a takeover do not set one over
them. A person's pause does: it takes the place of whatever is held, and the
next direction or authorization clears what it takes for a pause. Where none of
these comes upon a struck registration that was paused, nothing is allowed on
it (`refuses_of_careful`).

## Main definitions

* `Watched`: The registry with the ids that are struck.
* `Refuses`: Nothing is allowed on the worker of a struck registration.
* `Stands`: A hold that no cause but a Resume can clear.
* `Careful`: No direction and no authorization for a struck registration that is paused.

## Theorems

* `Act.stands`: Such a hold stays, whatever happens.
* `refuses_of_careful`: In every careful run, struck registrations are refused.
* `not_refuses`: Not in every run.
-/

namespace CopilotFleet

open Utf16 Refusal Timestamps

namespace PrMaintenance

/-- A hold that only a person's Resume is to clear. -/
def HoldKind.sticky : HoldKind → Bool
  | .stopped | .access | .identity => true
  | .paused | .manualControl => false

def Registration.stuck (record : Registration) : Bool :=
  record.hold.any fun hold => hold.kind.sticky

/-- The registry, with the ids that were stopped and not resumed since. -/
structure Watched where
  store : Store
  struck : Text → Bool

def watched (store : Store) : Watched where
  store
  struck id := (store.records.get id).any Registration.stuck

/-- A person's Resume was applied to the registration of this id. -/
def resumed (store : Store) (call : World × Operation) (id : Text) : Bool :=
  call.2.cause id = .resume && (run call.1 call.2 store).isOk

def watch (s : Watched) (call : World × Operation) : Watched where
  store := step s.store call
  struck id := ((step s.store call).records.get id).any Registration.stuck ||
    (s.struck id && !resumed s.store call id)

/-- Nothing is allowed on the worker of a registration that is struck. -/
def Refuses (s : Watched) : Prop :=
  ∀ id, s.struck id = true → ∀ record, s.store.records.get id = some record →
    record.released = false → ∀ w input, input.action.writes = true →
      concerns w input record = true → admission w s.store input ≠ none

/-- No direction and no repair authorization comes upon a registration that is
    struck and was paused over. -/
def Careful (s : Watched) (call : World × Operation) : Prop :=
  ∀ id, s.struck id = true → call.2.cause id = .direction ∨ call.2.cause id = .authorization →
    ∀ record, s.store.records.get id = some record →
      ∀ hold, record.hold = some hold → hold.kind ≠ .paused

/-! ### What stands -/

/-- It answers a question, or a person judged it: it clears a pause. -/
def Cause.answers : Cause → Bool
  | .direction | .authorization => true
  | _ => false

/-- A hold that this cause does not clear: one that strikes, or a person's pause. -/
def Stands (cause : Cause) (record : Registration) : Prop :=
  ∃ hold, record.hold = some hold ∧ (hold.kind.sticky = true ∨
    (cause.answers = false ∧ hold.kind = .paused ∧ hold.actor = .operator))

variable {w : World} {cause : Cause} {record next : Registration}

theorem Stands.of_hold (h : Stands cause record) (heq : next.hold = record.hold) :
    Stands cause next := by
  unfold Stands
  rw [heq]
  exact h

theorem Stands.of_stuck (h : record.stuck = true) : Stands cause record := by
  unfold Registration.stuck at h
  rw [Option.any_eq_true] at h
  rcases h with ⟨hold, hhold, hsticky⟩
  exact ⟨hold, hhold, .inl hsticky⟩

/-- What stands is not the lead's pause. -/
theorem Stands.not_leadPause (h : Stands cause record) {hold : Hold}
    (hhold : record.hold = some hold) : hold.leadPause = false := by
  rcases h with ⟨found, hfound, hkind⟩
  rw [hhold] at hfound
  cases hfound
  unfold Hold.leadPause
  rcases hkind with hsticky | ⟨_, _, hactor⟩
  · have hkind : hold.kind ≠ .paused := by
      intro heq
      rw [heq] at hsticky
      cases hsticky
    simp [hkind]
  · simp [hactor]

theorem Stands.not_manual (h : Stands cause record) {hold : Hold}
    (hhold : record.hold = some hold) : hold.kind ≠ .manualControl := by
  rcases h with ⟨found, hfound, hkind⟩
  rw [hhold] at hfound
  cases hfound
  intro heq
  rcases hkind with hsticky | ⟨_, hpaused, _⟩
  · rw [heq] at hsticky
    cases hsticky
  · rw [heq] at hpaused
    cases hpaused

theorem Stands.not_paused (h : Stands cause record) (hcause : cause.answers = true) {hold : Hold}
    (hhold : record.hold = some hold) : hold.kind ≠ .paused := by
  rcases h with ⟨found, hfound, hkind⟩
  rw [hhold] at hfound
  cases hfound
  rcases hkind with hsticky | ⟨hquiet, _, _⟩
  · intro heq
    rw [heq] at hsticky
    cases hsticky
  · rw [hcause] at hquiet
    cases hquiet

/-- What stands is not cleared, and what is set over it stands as well. -/
theorem Act.stands (hcause : cause ≠ .resume) (h : Act w cause record next)
    (hstands : Stands cause record) : Stands cause next := by
  cases h with
  | keep hkept => exact hstands.of_hold hkept.hold
  | @hold kind origin reason «at» hholds =>
      -- A hold is replaced by a stop or a person's own; the lead and a takeover need a hold of
      -- their own kind.
      rcases setHold_ok kind reason «at» origin record with ⟨review, workRequests, hset⟩
      rw [hset]
      refine ⟨_, rfl, ?_⟩
      rcases hstands with ⟨found, hfound, hkind⟩
      generalize hactor : origin.actor = actor at hholds
      cases hholds with
      | stopped cause actor => exact .inl rfl
      | operator => exact .inr ⟨rfl, rfl, rfl⟩
      | lead cause hlead =>
          have hpause := hlead found hfound
          rw [Stands.not_leadPause ⟨found, hfound, hkind⟩ hfound] at hpause
          cases hpause
      | manual cause actor hmanual =>
          exact absurd (hmanual found hfound) (Stands.not_manual ⟨found, hfound, hkind⟩ hfound)
  | clear actorId «at» hhold hclears =>
      -- What stands is no pause, and none of the lead's, so only a Resume clears it.
      exfalso
      cases hclears with
      | resume hold => exact hcause rfl
      | direction hpaused => exact hstands.not_paused rfl hhold hpaused
      | authorization hpaused => exact hstands.not_paused rfl hhold hpaused
      | lead cause hlead =>
          rw [hstands.not_leadPause hhold] at hlead
          cases hlead
      | handback cause hmanual => exact hstands.not_manual hhold hmanual
  | lose reason hfound =>
      rcases setHold_ok .identity reason w.now host _ with ⟨review, workRequests, hset⟩
      rw [hset]
      exact ⟨_, rfl, .inl rfl⟩
  | observe _ _ hseen =>
      -- An observation sets a hold of its own, or leaves the hold.
      rcases (observe_seen hseen).hold with heq | ⟨hold, hhold, hkind⟩
      · exact hstands.of_hold heq
      · refine ⟨hold, hhold, .inl ?_⟩
        rcases hkind with heq | heq <;> rw [heq] <;> rfl
  | late observation seen latest => exact hstands.of_hold rfl
  | prepare hprepared =>
      rw [(prepareBatch_ok hprepared).2.2]
      exact hstands.of_hold rfl
  | accept stepId attempt _ _ _ => exact hstands.of_hold rfl
  | settle hsettled => exact hstands.of_hold (settleBatch_steady hsettled).hold
  | effect hacted =>
      rcases (effect_ok hacted).2 with rfl | ⟨_, _, _, rfl⟩ | ⟨_, _, rfl⟩
      · exact hstands
      · exact hstands.of_hold rfl
      · exact hstands.of_hold rfl
  | raise _ hraised => exact hstands.of_hold (raiseDecision_steady hraised).hold
  | answer f _ => exact hstands.of_hold rfl
  | ready _ => exact hstands.of_hold rfl
  | ask requests => exact hstands.of_hold rfl
  | withdraw f reason «at» _ => exact hstands.of_hold rfl
  | takeOver => exact hstands.of_hold rfl
  | authorize authorization history evidence _ _ => exact hstands.of_hold rfl
  | rename f hkind hactor =>
      rcases hstands with ⟨hold, hhold, hstanding⟩
      refine ⟨f hold, by rw [hhold]; rfl, ?_⟩
      rw [hkind, hactor]
      exact hstanding

theorem Acts.stands (hcause : cause ≠ .resume) (h : Acts w cause record next)
    (hstands : Stands cause record) : Stands cause next := by
  induction h with
  | refl => exact hstands
  | tail _ hact ih => exact hact.stands hcause ih

/-! ### Every run -/

/-- Every struck id is one of a registration with a hold that stands. -/
def Struck (s : Watched) : Prop :=
  ∀ id, s.struck id = true →
    ∃ record, s.store.records.get id = some record ∧ Stands .other record

theorem watched_struck (store : Store) : Struck (watched store) := by
  intro id hstruck
  have hstruck : (store.records.get id).any Registration.stuck = true := hstruck
  rw [Option.any_eq_true] at hstruck
  rcases hstruck with ⟨record, hget, hstuck⟩
  exact ⟨record, hget, .of_stuck hstuck⟩

theorem Stands.weaken (h : Stands cause record) : Stands .other record := by
  rcases h with ⟨hold, hhold, hsticky | ⟨_, hpaused⟩⟩
  · exact ⟨hold, hhold, .inl hsticky⟩
  · exact ⟨hold, hhold, .inr ⟨rfl, hpaused⟩⟩

/-- What stands, stands for any cause but a Resume that is careful. -/
theorem stands_of_careful {s : Watched} {call : World × Operation} {id : Text}
    (hcareful : Careful s call) (hstruck : s.struck id = true)
    (hget : s.store.records.get id = some record) (hresume : call.2.cause id ≠ .resume)
    (hstands : Stands .other record) : Stands (call.2.cause id) record := by
  rcases hstands with ⟨hold, hhold, hsticky | ⟨_, hpaused, hactor⟩⟩
  · exact ⟨hold, hhold, .inl hsticky⟩
  · refine ⟨hold, hhold, .inr ⟨?_, hpaused, hactor⟩⟩
    cases hcause : call.2.cause id with
    | resume => exact absurd hcause hresume
    | direction => exact absurd hpaused (hcareful id hstruck (.inl hcause) record hget hold hhold)
    | authorization =>
        exact absurd hpaused (hcareful id hstruck (.inr hcause) record hget hold hhold)
    | observation observation => rfl
    | other => rfl

theorem watch_struck {s : Watched} {call : World × Operation} (hs : Struck s)
    (hcareful : Careful s call) : Struck (watch s call) := by
  intro id hstruck
  have hstruck : (((step s.store call).records.get id).any Registration.stuck ||
    (s.struck id && !resumed s.store call id)) = true := hstruck
  rw [Bool.or_eq_true, Bool.and_eq_true, Bool.not_eq_true'] at hstruck
  rcases hstruck with hnow | ⟨hbefore, hresumed⟩
  · rw [Option.any_eq_true] at hnow
    rcases hnow with ⟨record, hget, hstuck⟩
    exact ⟨record, hget, .of_stuck hstuck⟩
  · rcases hs id hbefore with ⟨record, hget, hstands⟩
    by_cases hresume : call.2.cause id = .resume
    · -- A Resume that is refused changes nothing.
      have hrefused : step s.store call = s.store := by
        unfold resumed at hresumed
        unfold step
        cases hrun : run call.1 call.2 s.store with
        | error _ => rfl
        | ok next =>
            rw [hrun, hresume] at hresumed
            cases hresumed
      exact ⟨record, by rw [← hget]; exact congrArg (·.records.get id) hrefused, hstands⟩
    · have hbecomes := step_becomes s.store call id
      rw [hget] at hbecomes
      generalize hnext : (step s.store call).records.get id = after at hbecomes
      cases hbecomes with
      | @acts record next hacts =>
          have hcause := stands_of_careful hcareful hbefore hget hresume hstands
          exact ⟨next, hnext, (hacts.stands hresume hcause).weaken⟩

/-- A registration with a hold denies every write that concerns it. -/
theorem admission_of_hold {store : Store} {input : Admission}
    (hget : store.records.get record.id = some record) (hretained : record.released = false)
    (hhold : record.hold.isSome = true) (hwrites : input.action.writes = true)
    (hconcerns : concerns w input record = true) : admission w store input ≠ none := by
  intro hnone
  have hdenied := denied_of_admission hnone record (mem_retained.mpr ⟨hget, hretained⟩) hconcerns
  have hwrite := deniedWrite_of_denied hwrites hdenied
  unfold deniedWrite at hwrite
  rw [Option.or_eq_none_iff] at hwrite
  have hstate := hwrite.1
  unfold deniedState at hstate
  rcases unless_none hstate with ⟨_, hstate⟩
  rcases Option.isSome_iff_exists.mp hhold with ⟨hold, hhold⟩
  rw [hhold] at hstate
  cases hstate

theorem Struck.refuses {s : Watched} (hs : Struck s) : Refuses s := by
  intro id hstruck record hget hretained w input hwrites hconcerns
  rcases hs id hstruck with ⟨found, hfound, hold, hhold, _⟩
  rw [hget] at hfound
  cases hfound
  have hid := s.store.keyed id record hget
  exact admission_of_hold (hid.symm ▸ hget) hretained (by rw [hhold]; rfl) hwrites hconcerns

/-- In every run without a direction or an authorization upon a struck
    registration that was paused, nothing is allowed on one that is struck. -/
theorem refuses_of_careful (store : Store) (calls : List (World × Operation))
    (h : Run.Admits watch Careful (watched store) calls) :
    Refuses (Run.final watch (watched store) calls) := by
  refine Struck.refuses (Run.invariant_of_admits watch Careful Struck ?_ calls _
    (watched_struck store) h)
  intro s call hs hcareful
  exact watch_struck hs hcareful

/-! ### A stop that a pause took the place of -/

/-- A decision is asked for, the worker is stopped, a person pauses and then
    answers. Work is observed and prepared, and nobody resumed. -/
def pausedOver : List (World × Operation) :=
  [(quiet, .enable quietInput (ofString "operator")),
    (quiet, .holdForDecision (ofString "lead") (ofString "record") 1
      { id := ofString "decision", version := 1, proposal := ofString "Which way?",
        headSha := quietHead, scope := ofString "Repairs only" }),
    (quiet, .stopForSession (ofString "worker") (ofString "Stopped")),
    (quiet, .operatorAction (ofString "record") 3 (.pause (ofString "Paused"))
      (ofString "operator")),
    (quiet, .operatorAction (ofString "record") 4 (.direction (ofString "decision") 1
      (ofString "Go on.")) (ofString "operator")),
    (quiet, .checkpoint (ofString "lead") (ofString "record") 5
      (.observation quietObservation) none),
    (quiet, .checkpoint (ofString "lead") (ofString "record") 6
      (.prepareBatch quietBatch none) none)]

def pausedDispatch : Admission where
  action := .dispatch
  recordId := some (ofString "record")
  generation := some 1
  batchId := some (ofString "batch")
  leadSessionId := some (ofString "lead")

theorem careful_of_other {s : Watched} {call : World × Operation}
    (h : ∀ id, call.2.cause id = .other) : Careful s call := by
  intro id _ hcause
  rw [h id] at hcause
  rcases hcause with hcause | hcause <;> cases hcause

/-- Up to the pause, the stop holds. -/
theorem refuses_pausedOver : Refuses (Run.final watch (watched {}) (pausedOver.take 4)) := by
  refine refuses_of_careful {} (pausedOver.take 4) ⟨?_, ?_, ?_, ?_, trivial⟩
  · exact careful_of_other fun id => rfl
  · exact careful_of_other fun id => rfl
  · exact careful_of_other fun id => rfl
  · refine careful_of_other fun id => ?_
    show (if id = ofString "record" then Cause.other else Cause.other) = .other
    exact ite_self _

/-- A pause takes the place of a stop, and what answers a question clears it. -/
theorem not_refuses : ¬ ∀ store calls, Refuses (Run.final watch (watched store) calls) := by
  intro h
  have hstruck : (Run.final watch (watched {}) pausedOver).struck (ofString "record") = true := by
    decide +kernel
  have hfound : ((Run.final watch (watched {}) pausedOver).store.records.get
      (ofString "record")).any (fun record => !record.released &&
        concerns quiet pausedDispatch record) = true := by
    decide +kernel
  have hallowed : admission quiet (Run.final watch (watched {}) pausedOver).store
      pausedDispatch = none := by
    decide +kernel
  rw [Option.any_eq_true] at hfound
  rcases hfound with ⟨record, hget, hrecord⟩
  rw [Bool.and_eq_true, Bool.not_eq_true'] at hrecord
  exact h {} pausedOver _ hstruck record hget hrecord.1 quiet pausedDispatch rfl hrecord.2 hallowed

end PrMaintenance

end CopilotFleet
