import CopilotFleet.Protocol.Fleet

/-!
# Session Slots of a Node

How many sessions a Node is still on the hook for, and how many it may take.
Writing and reading are counted apart and each has the whole allowance of the
Node to itself.

The scheduler stays one slot under the ceiling where the ceiling is above one,
so a count of what is left is not a subtraction. `remainingCapacity_pos` is
what a positive answer is worth.

## Main definitions

* `SessionKind`: The budget a session counts against.
* `reservedSessionCount`: The sessions a Node is on the hook for.
* `capacityFor`: What a Node takes of a kind.
* `remainingCapacity`: What the scheduler may still ask of it.
* `margin`: The slots the scheduler fills by itself.

## Theorems

* `remainingCapacity_pos`: There is room exactly below the margin.
* `margin_le`: The margin is within the ceiling.
-/

namespace CopilotFleet

open Utf16

inductive SessionKind where
  | writing
  | readOnly
  deriving DecidableEq, Repr

/-- The kind of a session, from its `readOnly` flag. -/
def FleetSession.kind (session : FleetSession) : SessionKind :=
  if session.readOnly then .readOnly else .writing

/-- The session holds one of the slots of a Node for a kind of work. Anything
    not terminal does, queued and offline sessions too. -/
def reserves (nodeId : Text) (kind : SessionKind) (session : FleetSession) : Bool :=
  session.nodeId = nodeId && !session.state.terminal &&
    session.readOnly == (kind == SessionKind.readOnly)

def reservedSessionCount (sessions : List FleetSession) (nodeId : Text) (kind : SessionKind) :
    Nat :=
  (sessions.filter (reserves nodeId kind)).length

def readOnlyCapacity (node : FleetNode) : Nat := node.maxSessions

def capacityFor (node : FleetNode) (kind : SessionKind) : Nat :=
  match kind with
  | .readOnly => readOnlyCapacity node
  | .writing => node.maxSessions

/-- Slots this Node can still take of a kind, one held back unless it has only
    the one. -/
def remainingCapacity (node : FleetNode) (reserved : Nat) (kind : SessionKind) : Nat :=
  let ceiling := capacityFor node kind
  if ceiling ≤ 1 then ceiling - reserved
  else ceiling - reserved - 1

/-- The slots the scheduler fills without an approved exception. -/
def margin (node : FleetNode) (kind : SessionKind) : Nat :=
  if capacityFor node kind ≤ 1 then capacityFor node kind else capacityFor node kind - 1

/-- There is room exactly while the count is below the margin. -/
theorem remainingCapacity_pos (node : FleetNode) (reserved : Nat) (kind : SessionKind) :
    0 < remainingCapacity node reserved kind ↔ reserved < margin node kind := by
  unfold remainingCapacity margin
  by_cases hone : capacityFor node kind ≤ 1
  · rw [if_pos hone, if_pos hone]
    omega
  · rw [if_neg hone, if_neg hone]
    omega

theorem margin_le (node : FleetNode) (kind : SessionKind) :
    margin node kind ≤ capacityFor node kind := by
  unfold margin
  split
  · omega
  · omega

end CopilotFleet
