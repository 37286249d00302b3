import Mathlib.Init

/-!
# States of Sessions, Runs and Steps

The three state machines the rest of the protocol is written in terms of, with
the transitions the Host permits between two states of a step. A terminal step
state has no successor but itself, which is what makes a late event about a
finished step noise.

## Main definitions

* `SessionState`: What the Host last knew of a session.
* `RunState`: Where a run stands.
* `RunStepState`: Where one step of a run stands.
* `canTransitionRunStep`: The transitions of a step.
-/

namespace CopilotFleet

inductive SessionState where
  | queued
  | starting
  | running
  | idle
  | cancelling
  | offline
  | stopped
  | completed
  | failed
  deriving DecidableEq, Repr

/-- `terminalSessionStates`. -/
def SessionState.terminal : SessionState → Bool
  | .stopped => true
  | .completed => true
  | .failed => true
  | _ => false

inductive RunState where
  | awaitingApproval
  | planning
  | running
  | blocked
  | awaitingLead
  | awaitingHuman
  | aggregating
  | completed
  | failed
  | cancelled
  deriving DecidableEq, Repr

/-- `terminalRunStates`: runs the engine will no longer advance on its own. -/
def RunState.terminal : RunState → Bool
  | .completed => true
  | .failed => true
  | .cancelled => true
  | _ => false

inductive RunStepState where
  | pending
  | starting
  | running
  | succeeded
  | failed
  | skipped
  | cancelled
  deriving DecidableEq, Repr

/-- `terminalRunStepStates`: steps that are done deciding. -/
def RunStepState.terminal : RunStepState → Bool
  | .succeeded => true
  | .failed => true
  | .skipped => true
  | .cancelled => true
  | _ => false

def runStepTransitions : RunStepState → List RunStepState
  -- A pending retry can fail while re-attaching its session, before a prompt.
  | .pending => [.starting, .failed, .skipped, .cancelled]
  | .starting => [.running, .pending, .failed, .cancelled]
  | .running => [.succeeded, .failed, .cancelled]
  | .succeeded => []
  | .failed => []
  | .skipped => []
  | .cancelled => []

def canTransitionRunStep (source target : RunStepState) : Bool :=
  source == target || (runStepTransitions source).contains target

end CopilotFleet
