import CopilotFleet.Lib.Run
import CopilotFleet.Lib.Table
import CopilotFleet.Lib.Utf16
import Mathlib.Logic.Function.Basic

/-!
# Checkout Locks

Processes that share a directory of lock files. A lock is a file that was made
by an exclusive create, and holds the record of whoever made it. The record of
a process that is no more is removed by a recovery: one read to see that its
owner is gone, another to see that it is the same record still, then an unlink
by name.

A step here is one operation on one file, so between any two of them anything
may happen: other processes take their steps, and any process may be gone. A
process does one thing at a time, since none of this waits for anything.

The three operations of a recovery are not one. Two processes may recover the
same record: the first unlinks it and acquires the lock anew, and the second,
which has done its reading, unlinks what the first has made. That every
recovery unlinks only the record it has read is all that is missing.

## Main definitions

* `LockRecord`: What a lock file holds.
* `Doing`: Where a process is in what it does.
* `perform`: One operation on one file.
* `careful`: A recovery unlinks only the record it has read.
* `Holds`: A lease that a live process may rely on.
* `Sound`: What holds in every state of a careful run.
* `Exclusive`: What a run owes to whoever relies on a lock.

## Theorems

* `Sound.step`: What a careful step preserves.
* `locks_exclusive`: One holder for every lock, over careful runs.
* `recovered_twice`: Two processes that hold one lock.
-/

namespace CopilotFleet

namespace Locks

open Utf16

inductive LeaseKind where
  | worker
  | admin
  | integration
  | maintenance
deriving DecidableEq

structure LeaseOwner where
  owner : Text
  attempt : Text
  kind : LeaseKind
deriving DecidableEq

/-- A random token is a number nobody draws again; whoever draws it is named for
    the proofs only. -/
inductive Token where
  | legacy (text : Text)
  | drawn (pid n : Nat)
deriving DecidableEq

structure LockRecord extends LeaseOwner where
  key : Text
  token : Token
  pid : Nat
  processes : List Nat
  processPending : Bool
  reconciliationRequired : Text
deriving DecidableEq

inductive Content where
  | readable (record : LockRecord)
  | unreadable
deriving DecidableEq

/-- The records that may be removed, and on whose word. -/
inductive Recovery where
  | command (owner attempt : Text)
  | admin
  | integration (operationId : Text)
  | maintenance (owner : Text)
deriving DecidableEq

/-- The next operation of a process, and what it needs to know. -/
inductive Doing where
  | acquire (key : Text) (owner : LeaseOwner)
  | create (key : Text) (owner : LeaseOwner)
  | revalidate (token : Token)
  | compare (token : Token)
  | release (token : Token)
  | unlink (token : Token)
  | reattach (token : Token) (sessionOwner previousAttempt attempt : Text)
  | rebind (token : Token) (sessionOwner previousAttempt attempt : Text)
  /-- The attempt to go back to when the record cannot be saved. -/
  | save (token : Token) (undo : Option Text)
  | stage (token : Token) (undo : Option Text)
  | rename (token : Token) (undo : Option Text)
  | recover (key : Text) (recovery : Recovery)
  | confirm (key : Text) (recovery : Recovery) (record : LockRecord)
  | remove (key : Text) (recovery : Recovery) (record : LockRecord)
deriving DecidableEq

structure Lease where
  record : LockRecord
  released : Bool := false
  /-- Its last `verify` found its token. -/
  verified : Bool := false
  /-- It was told `lease_lost`. -/
  lost : Bool := false

structure Process where
  live : Bool := true
  doing : Option Doing := none
  leases : Table Token Lease := Table.empty
  held : Table Text Token := Table.empty

structure State where
  files : Text → Option Content
  processes : Nat → Process := fun _ => {}
  nextToken : Nat := 0

namespace State

def setProcess (s : State) (pid : Nat) (process : Process) : State :=
  { s with processes := Function.update s.processes pid process }

def setFile (s : State) (key : Text) (content : Option Content) : State :=
  { s with files := Function.update s.files key content }

def setDoing (s : State) (pid : Nat) (doing : Option Doing) : State :=
  s.setProcess pid { s.processes pid with doing }

def setLease (s : State) (pid : Nat) (token : Token) (lease : Lease) : State :=
  s.setProcess pid
    { s.processes pid with leases := (s.processes pid).leases.set token lease }

def setHeld (s : State) (pid : Nat) (held : Table Text Token) : State :=
  s.setProcess pid { s.processes pid with held }

def lease (s : State) (pid : Nat) (token : Token) : Option Lease :=
  (s.processes pid).leases.get token

end State

/-! ### Reading -/

inductive Reading where
  | unknown
  | missing
  | found (record : LockRecord)

/-- The record of a lock; `ok` is false when the file cannot be read. -/
def holder (ok : Bool) (key : Text) (s : State) : Reading :=
  if !ok then .unknown
  else
    match s.files key with
    | none => .missing
    | some .unreadable => .unknown
    | some (.readable record) =>
        if record.key ≠ key || record.token = .legacy [] then .unknown else .found record

/-- A lease that is refused in the middle of saving goes back to its attempt. -/
def Lease.restore (lease : Lease) (undo : Option Text) : Lease :=
  match undo with
  | none => lease
  | some attempt => { lease with record := { lease.record with attempt } }

/-- Compares the file with the lease, and goes on only where they agree. -/
def verify (ok : Bool) (pid : Nat) (token : Token) (undo : Option Text)
    (next : Lease → Option Doing) (s : State) : State :=
  match s.lease pid token with
  | none => s.setDoing pid none
  | some lease =>
      let lost := (s.setLease pid token
        { lease.restore undo with verified := false, lost := true }).setDoing pid none
      match holder ok lease.record.key s with
      | .unknown =>
          (s.setLease pid token { lease.restore undo with verified := false }).setDoing pid none
      | .missing => lost
      | .found record =>
          if record.token = token then
            (s.setLease pid token { lease with verified := true }).setDoing pid (next lease)
          else lost

/-! ### Acquisition -/

def lockKey (identity : Text) (admin : Bool) : Text :=
  if admin then ofString "admin:" ++ identity else identity

/-- The record of a lock that is taken. -/
def lockRecord (pid : Nat) (key : Text) (owner : LeaseOwner) (token : Token) : LockRecord where
  toLeaseOwner := owner
  key := key
  token := token
  pid := pid
  processes := []
  processPending := false
  reconciliationRequired := []

/-- The lock is taken, by whoever makes the file. -/
def State.take (s : State) (pid : Nat) (key : Text) (owner : LeaseOwner) : State where
  files := Function.update s.files key
    (some (.readable (lockRecord pid key owner (.drawn pid s.nextToken))))
  processes := Function.update s.processes pid
    { s.processes pid with
      doing := none
      leases := (s.processes pid).leases.set (.drawn pid s.nextToken)
        { record := lockRecord pid key owner (.drawn pid s.nextToken) }
      held := (s.processes pid).held.set key (.drawn pid s.nextToken) }
  nextToken := s.nextToken + 1

/-! ### Recovery -/

/-- Liveness is told truthfully, and no number is given to a process again. -/
def isAlive (s : State) (pid : Nat) : Bool := (s.processes pid).live

/-- Whether the record may be removed, as far as its first reading tells. -/
def recoverable (s : State) (pid : Nat) (key : Text) (record : LockRecord) : Recovery → Bool
  | .command owner attempt => record.owner = owner && record.attempt = attempt
  | .admin =>
      record.kind = .admin && !record.processPending && !isAlive s record.pid &&
        !record.processes.any (isAlive s)
  | .integration operationId =>
      ((s.processes pid).held.get key).isNone && record.kind = .integration &&
        record.owner = ofString "integration:" ++ operationId && !record.processPending &&
          !record.processes.any (isAlive s) && !isAlive s record.pid
  | .maintenance owner =>
      record.kind = .maintenance && record.owner = owner && !record.processPending &&
        record.processes = [] && !isAlive s record.pid

def Recovery.isCommand : Recovery → Bool
  | .command _ _ => true
  | _ => false

/-! ### One operation on one file -/

def perform (ok : Bool) (pid : Nat) (s : State) : Doing → State
  | .acquire key owner =>
      match holder ok key s with
      -- A lease this process has for the same attempt is returned again, anything
      -- else is refused; neither changes anything.
      | .unknown | .found _ => s.setDoing pid none
      | .missing => s.setDoing pid (some (.create key owner))
  | .create key owner =>
      if ok && (s.files key).isNone then s.take pid key owner else s.setDoing pid none
  | .revalidate token => verify ok pid token none (fun _ => some (.compare token)) s
  | .compare token =>
      match s.lease pid token with
      | none => s.setDoing pid none
      | some lease =>
          match holder ok lease.record.key s with
          | .unknown | .missing => s.setDoing pid none
          | .found current =>
              if current.owner ≠ lease.record.owner || current.attempt ≠ lease.record.attempt ||
                  current.reconciliationRequired ≠ [] then
                (s.setLease pid token { lease with lost := true }).setDoing pid none
              else s.setDoing pid none
  | .release token =>
      verify ok pid token none
        (fun lease =>
          if lease.record.processPending || lease.record.processes ≠ [] ||
              lease.record.reconciliationRequired ≠ [] then none
          else some (.unlink token)) s
  | .unlink token =>
      match s.lease pid token with
      | none => s.setDoing pid none
      | some lease =>
          let s := s.setDoing pid none
          if !ok then s
          else
            ((s.setFile lease.record.key none).setLease pid token
              { lease with released := true }).setHeld pid
                ((s.processes pid).held.erase lease.record.key)
  | .reattach token sessionOwner previousAttempt attempt =>
      verify ok pid token none
        (fun _ => some (.rebind token sessionOwner previousAttempt attempt)) s
  | .rebind token sessionOwner previousAttempt attempt =>
      match s.lease pid token with
      | none => s.setDoing pid none
      | some lease =>
          match holder ok lease.record.key s with
          | .unknown | .missing => s.setDoing pid none
          | .found current =>
              if lease.released || current.owner ≠ sessionOwner ||
                  current.attempt ≠ previousAttempt || lease.record.attempt ≠ previousAttempt ||
                    current.reconciliationRequired ≠ [] then s.setDoing pid none
              else
                (s.setLease pid token
                  { lease with record := { lease.record with attempt } }).setDoing pid
                    (some (.save token (some lease.record.attempt)))
  | .save token undo => verify ok pid token undo (fun _ => some (.stage token undo)) s
  -- The staged file is nobody else's; the next look at the lock comes after it.
  | .stage token undo => verify ok pid token undo (fun _ => some (.rename token undo)) s
  | .rename token undo =>
      match s.lease pid token with
      | none => s.setDoing pid none
      | some lease =>
          if !ok then (s.setLease pid token (lease.restore undo)).setDoing pid none
          else (s.setFile lease.record.key (some (.readable lease.record))).setDoing pid none
  | .recover key recovery =>
      match holder ok key s with
      | .unknown | .missing => s.setDoing pid none
      | .found record =>
          s.setDoing pid
            (if recoverable s pid key record recovery then some (.confirm key recovery record)
            else none)
  | .confirm key recovery record =>
      match holder ok key s with
      | .unknown | .missing => s.setDoing pid none
      | .found current =>
          s.setDoing pid
            (if current.token = record.token then some (.remove key recovery record) else none)
  | .remove key recovery _ =>
      if !ok then s.setDoing pid none
      else
        let held := (s.processes pid).held
        ((s.setFile key none).setHeld pid
          (if recovery.isCommand then held.erase key else held)).setDoing pid none

/-! ### Operations -/

inductive Call where
  | acquire (identity : Text) (owner : LeaseOwner)
  | revalidate (token : Token)
  | release (token : Token)
  | processPending (token : Token)
  | processStarted (token : Token) (pid : Nat)
  | processesQuiesced (token : Token)
  | requireReconciliation (token : Token) (reason : Text)
  | reattach (token : Token) (sessionOwner previousAttempt attempt : Text)
  | releaseRecoveredCommand (identity owner attempt : Text) (admin : Bool)
  | reconcileAdmin (identity : Text)
  | recoverIntegration (identity operationId : Text)
  | recoverMaintenance (identity owner : Text)

/-- The record of a lease is changed first, and saved after. -/
def amend (pid : Nat) (token : Token) (f : LockRecord → LockRecord) (s : State) : State :=
  match s.lease pid token with
  | none => s
  | some lease =>
      (s.setLease pid token { lease with record := f lease.record }).setDoing pid
        (some (.save token none))

/-- An operation begins. -/
def start (pid : Nat) (s : State) : Call → State
  | .acquire identity owner =>
      s.setDoing pid (some (.acquire (lockKey identity (owner.kind = .admin)) owner))
  | .revalidate token => s.setDoing pid (some (.revalidate token))
  | .release token =>
      if (s.lease pid token).any (·.released) then s
      else s.setDoing pid (some (.release token))
  | .processPending token =>
      amend pid token (fun record => { record with processPending := true }) s
  | .processStarted token child =>
      amend pid token (fun record => { record with
        processes := record.processes ++ [child]
        processPending := false }) s
  | .processesQuiesced token =>
      amend pid token (fun record => { record with
        processes := []
        processPending := false
        reconciliationRequired := [] }) s
  | .requireReconciliation token reason =>
      amend pid token (fun record => { record with reconciliationRequired := reason }) s
  | .reattach token sessionOwner previousAttempt attempt =>
      s.setDoing pid (some (.reattach token sessionOwner previousAttempt attempt))
  | .releaseRecoveredCommand identity owner attempt admin =>
      if (ofString "command:").isPrefixOf owner then
        s.setDoing pid (some (.recover (lockKey identity admin) (.command owner attempt)))
      else s
  | .reconcileAdmin identity => s.setDoing pid (some (.recover (lockKey identity true) .admin))
  | .recoverIntegration identity operationId =>
      s.setDoing pid (some (.recover identity (.integration operationId)))
  | .recoverMaintenance identity owner =>
      s.setDoing pid (some (.recover identity (.maintenance owner)))

inductive Input where
  | call (pid : Nat) (call : Call)
  | proceed (pid : Nat) (ok : Bool)
  | crash (pid : Nat)

/-- A dead process does nothing, and a live one finishes what it has begun. -/
def step (s : State) : Input → State
  | .call pid call =>
      if (s.processes pid).live && (s.processes pid).doing.isNone then start pid s call else s
  | .proceed pid ok =>
      match (s.processes pid).doing with
      | none => s
      | some doing => if (s.processes pid).live then perform ok pid s doing else s
  | .crash pid => s.setProcess pid { live := false }

/-! ### Careful runs -/

/-- No live process relies on the record any more. -/
def quiet (s : State) (record : LockRecord) : Bool :=
  !isAlive s record.pid || (s.lease record.pid record.token).all (·.released)

/-- A recovery unlinks the record it has read or nothing, and that of a command
    only once no process relies on it, as its caller has made sure. -/
def careful (s : State) : Input → Bool
  | .proceed pid true =>
      match (s.processes pid).doing with
      | some (.remove key recovery record) =>
          match s.files key with
          | some (.readable current) =>
              current.token = record.token && (!recovery.isCommand || quiet s current)
          | _ => true
      | _ => true
  | _ => true

/-! ### What holds in a careful run -/

/-- A lease that a live process may rely on. -/
def Holds (s : State) (pid : Nat) (key : Text) (token : Token) : Prop :=
  ∃ lease, (s.processes pid).live = true ∧ s.lease pid token = some lease ∧
    lease.record.key = key ∧ lease.released = false ∧ lease.verified = true ∧ lease.lost = false

/-- What a process knows when it comes to an operation. -/
def Justified (s : State) (pid : Nat) : Doing → Prop
  | .unlink token | .rename token _ =>
      ∀ lease, s.lease pid token = some lease → lease.released = false
  | .confirm _ recovery record | .remove _ recovery record =>
      recovery.isCommand = false →
        (s.processes record.pid).live = false ∧ ∀ p n, record.token = .drawn p n → record.pid = p
  | _ => True

/-- What holds in every state of a careful run. -/
structure Sound (s : State) : Prop where
  leases : ∀ pid token lease, s.lease pid token = some lease →
    lease.record.token = token ∧ lease.record.pid = pid ∧
      ∃ n, token = .drawn pid n ∧ n < s.nextToken
  backed : ∀ pid token lease, s.lease pid token = some lease → lease.released = false →
    ∃ record, s.files lease.record.key = some (.readable record) ∧ record.token = token
  files : ∀ key record pid n, s.files key = some (.readable record) →
    record.token = .drawn pid n → record.pid = pid ∧ n < s.nextToken
  shown : ∀ pid token lease, s.lease pid token = some lease →
    ∀ key record, s.files key = some (.readable record) → record.token = token →
      lease.released = false ∧ lease.record.key = key
  dead : ∀ pid, (s.processes pid).live = false → (s.processes pid).leases = Table.empty
  doing : ∀ pid doing, (s.processes pid).doing = some doing → Justified s pid doing

section

variable {s : State} {pid : Nat}

theorem lease_setDoing {doing : Option Doing} {p : Nat} {token : Token} :
    (s.setDoing pid doing).lease p token = s.lease p token := by
  unfold State.lease State.setDoing State.setProcess
  by_cases hp : p = pid
  · subst hp
    simp only [Function.update_self]
  · simp only [Function.update_of_ne hp]

theorem live_setDoing {doing : Option Doing} {p : Nat} :
    ((s.setDoing pid doing).processes p).live = (s.processes p).live := by
  unfold State.setDoing State.setProcess
  by_cases hp : p = pid
  · subst hp
    simp only [Function.update_self]
  · simp only [Function.update_of_ne hp]

theorem lease_setLease {token token' : Token} {lease : Lease} {p : Nat} :
    (s.setLease pid token lease).lease p token' =
      if p = pid ∧ token' = token then some lease else s.lease p token' := by
  unfold State.lease State.setLease State.setProcess
  by_cases hp : p = pid
  · subst hp
    simp only [Function.update_self, true_and, Table.get_set]
  · simp only [Function.update_of_ne hp, hp, false_and, if_false]

theorem live_setLease {token : Token} {lease : Lease} {p : Nat} :
    ((s.setLease pid token lease).processes p).live = (s.processes p).live := by
  unfold State.setLease State.setProcess
  by_cases hp : p = pid
  · subst hp
    simp only [Function.update_self]
  · simp only [Function.update_of_ne hp]

theorem doing_setLease {token : Token} {lease : Lease} {p : Nat} :
    ((s.setLease pid token lease).processes p).doing = (s.processes p).doing := by
  unfold State.setLease State.setProcess
  by_cases hp : p = pid
  · subst hp
    simp only [Function.update_self]
  · simp only [Function.update_of_ne hp]

/-- What a process knows stays so while leases are released by nobody else and
    no dead process comes back. -/
theorem Justified.mono {s' : State} {doing : Doing} (h : Justified s pid doing)
    (hleases : ∀ token lease', s'.lease pid token = some lease' →
      ∃ lease, s.lease pid token = some lease ∧ lease'.released = lease.released)
    (hlive : ∀ p, (s.processes p).live = false → (s'.processes p).live = false) :
    Justified s' pid doing := by
  cases doing with
  | unlink token | rename token undo =>
      intro lease' hlease'
      rcases hleases token lease' hlease' with ⟨lease, hlease, hreleased⟩
      rw [hreleased]
      exact h lease hlease
  | confirm key recovery record | remove key recovery record =>
      intro hcommand
      exact (h hcommand).imp_left (hlive record.pid)
  | _ => trivial

theorem Sound.setDoing (h : Sound s) {doing : Option Doing}
    (hdoing : ∀ d, doing = some d → Justified s pid d) : Sound (s.setDoing pid doing) where
  leases p token lease hlease := h.leases p token lease (lease_setDoing ▸ hlease)
  backed p token lease hlease := h.backed p token lease (lease_setDoing ▸ hlease)
  files := h.files
  shown p token lease hlease := h.shown p token lease (lease_setDoing ▸ hlease)
  dead := by
    intro p hdead
    rw [live_setDoing] at hdead
    have hempty := h.dead p hdead
    unfold State.setDoing State.setProcess
    by_cases hp : p = pid
    · subst hp
      simp only [Function.update_self, hempty]
    · simp only [Function.update_of_ne hp, hempty]
  doing := by
    intro p d hd
    have hold : Justified s p d := by
      unfold State.setDoing State.setProcess at hd
      by_cases hp : p = pid
      · subst hp
        simp only [Function.update_self] at hd
        exact hdoing d hd
      · simp only [Function.update_of_ne hp] at hd
        exact h.doing p d hd
    refine hold.mono ?_ ?_
    · intro token lease hlease
      exact ⟨lease, lease_setDoing ▸ hlease, rfl⟩
    · intro q hdead
      rw [live_setDoing]
      exact hdead

/-- A lease is changed in what it remembers, not in which lock it is of. -/
theorem Sound.setLease (h : Sound s) {token : Token} {lease lease' : Lease}
    (hget : s.lease pid token = some lease) (hkey : lease'.record.key = lease.record.key)
    (htoken : lease'.record.token = lease.record.token)
    (hpid : lease'.record.pid = lease.record.pid) (hreleased : lease'.released = lease.released) :
    Sound (s.setLease pid token lease') where
  leases := by
    intro p token' found hfound
    rw [lease_setLease] at hfound
    split at hfound
    · rename_i hat
      rcases hat with ⟨rfl, rfl⟩
      cases hfound
      rw [htoken, hpid]
      exact h.leases p token' lease hget
    · exact h.leases p token' found hfound
  backed := by
    intro p token' found hfound hheld
    rw [lease_setLease] at hfound
    split at hfound
    · rename_i hat
      rcases hat with ⟨rfl, rfl⟩
      cases hfound
      rw [hkey]
      exact h.backed p token' lease hget (hreleased ▸ hheld)
    · exact h.backed p token' found hfound hheld
  files := h.files
  shown := by
    intro p token' found hfound
    rw [lease_setLease] at hfound
    split at hfound
    · rename_i hat
      rcases hat with ⟨rfl, rfl⟩
      cases hfound
      rw [hreleased, hkey]
      exact h.shown p token' lease hget
    · exact h.shown p token' found hfound
  dead := by
    intro p hdead
    rw [live_setLease] at hdead
    -- A process that is gone has no lease that could be changed.
    have hempty := h.dead p hdead
    by_cases hp : p = pid
    · subst hp
      have hnone : s.lease p token = none := by
        unfold State.lease
        rw [hempty]
        rfl
      rw [hnone] at hget
      cases hget
    · unfold State.setLease State.setProcess
      simp only [Function.update_of_ne hp, hempty]
  doing := by
    intro p d hd
    rw [doing_setLease] at hd
    refine (h.doing p d hd).mono ?_ ?_
    · intro token' found hfound
      rw [lease_setLease] at hfound
      split at hfound
      · rename_i hat
        rcases hat with ⟨rfl, rfl⟩
        cases hfound
        exact ⟨lease, hget, hreleased⟩
      · exact ⟨found, hfound, rfl⟩
    · intro q hdead
      rw [live_setLease]
      exact hdead

theorem Lease.restore_eq (lease : Lease) (undo : Option Text) :
    (lease.restore undo).record.key = lease.record.key ∧
      (lease.restore undo).record.token = lease.record.token ∧
        (lease.restore undo).record.pid = lease.record.pid ∧
          (lease.restore undo).released = lease.released := by
  unfold Lease.restore
  split <;> exact ⟨rfl, rfl, rfl, rfl⟩

theorem holder_found {ok : Bool} {key : Text} {record : LockRecord}
    (h : holder ok key s = .found record) : s.files key = some (.readable record) := by
  unfold holder at h
  split at h
  · cases h
  split at h
  · cases h
  · cases h
  · rename_i found hfile
    split at h
    · cases h
    · cases h
      exact hfile

/-- A lease looks at its file: where the file shows its token, the lease is held and goes on. -/
theorem Sound.verify (h : Sound s) {ok : Bool} {token : Token} {undo : Option Text}
    {next : Lease → Option Doing}
    (hnext : ∀ lease d, next lease = some d → lease.released = false → ∀ s' : State,
      (∀ found, s'.lease pid token = some found → found.released = false) → Justified s' pid d) :
    Sound (verify ok pid token undo next s) := by
  unfold Locks.verify
  split
  · refine h.setDoing ?_
    intro d hd
    cases hd
  rename_i lease hlease
  rcases lease.restore_eq undo with ⟨hkey, htoken, hpid, hreleased⟩
  -- Whatever else the file shows, the lease stops here and may be marked as lost.
  have hrefused : ∀ lost, Sound ((s.setLease pid token
      { lease.restore undo with verified := false, lost }).setDoing pid none) := by
    intro lost
    have hset : Sound (s.setLease pid token
        { lease.restore undo with verified := false, lost }) :=
      h.setLease hlease hkey htoken hpid hreleased
    refine hset.setDoing ?_
    intro d hd
    cases hd
  simp only
  split
  · exact hrefused _
  · exact hrefused true
  · rename_i record hfound
    split
    · rename_i htoken'
      have hheld : lease.released = false :=
        (h.shown pid token lease hlease _ record (holder_found hfound) htoken').1
      have hset : Sound (s.setLease pid token { lease with verified := true }) :=
        h.setLease hlease rfl rfl rfl rfl
      refine hset.setDoing ?_
      intro d hd
      refine hnext lease d hd hheld _ ?_
      intro found hget
      rw [lease_setLease, if_pos ⟨rfl, rfl⟩] at hget
      cases hget
      exact hheld
    · exact hrefused true

/-- One lease at most relies on the file of a lock. -/
theorem Sound.unique (h : Sound s) {p q : Nat} {token token' : Token} {lease lease' : Lease}
    (hlease : s.lease p token = some lease) (hheld : lease.released = false)
    (hlease' : s.lease q token' = some lease') (hheld' : lease'.released = false)
    (hkey : lease.record.key = lease'.record.key) : p = q ∧ token = token' := by
  rcases h.backed p token lease hlease hheld with ⟨record, hfile, htoken⟩
  rcases h.backed q token' lease' hlease' hheld' with ⟨record', hfile', htoken'⟩
  rw [hkey, hfile'] at hfile
  have hsame : record' = record := Content.readable.inj (Option.some.inj hfile)
  have htokens : token = token' := by rw [← htoken, ← htoken', hsame]
  rcases (h.leases p token lease hlease).2.2 with ⟨n, hn, _⟩
  rcases (h.leases q token' lease' hlease').2.2 with ⟨m, hm, _⟩
  rw [hn, hm] at htokens
  exact ⟨(Token.drawn.inj htokens).1, by rw [hn, hm, htokens]⟩

theorem Sound.lease_none (h : Sound s) {p : Nat} {token : Token}
    (hdead : (s.processes p).live = false) : s.lease p token = none := by
  unfold State.lease
  rw [h.dead p hdead]
  rfl

/-- Which locks a process thinks it has is its own affair. -/
theorem Sound.setHeld (h : Sound s) {held : Table Text Token} : Sound (s.setHeld pid held) := by
  have hlease : ∀ p token, (s.setHeld pid held).lease p token = s.lease p token := by
    intro p token
    unfold State.lease State.setHeld State.setProcess
    by_cases hp : p = pid
    · subst hp
      simp only [Function.update_self]
    · simp only [Function.update_of_ne hp]
  have hprocess : ∀ p, ((s.setHeld pid held).processes p).live = (s.processes p).live ∧
      ((s.setHeld pid held).processes p).doing = (s.processes p).doing ∧
        ((s.setHeld pid held).processes p).leases = (s.processes p).leases := by
    intro p
    unfold State.setHeld State.setProcess
    by_cases hp : p = pid
    · subst hp
      simp only [Function.update_self, and_self]
    · simp only [Function.update_of_ne hp, and_self]
  refine ⟨?_, ?_, h.files, ?_, ?_, ?_⟩
  · intro p token lease hget
    exact h.leases p token lease (hlease p token ▸ hget)
  · intro p token lease hget
    exact h.backed p token lease (hlease p token ▸ hget)
  · intro p token lease hget
    exact h.shown p token lease (hlease p token ▸ hget)
  · intro p hdead
    rw [(hprocess p).1] at hdead
    rw [(hprocess p).2.2]
    exact h.dead p hdead
  · intro p d hd
    rw [(hprocess p).2.1] at hd
    refine (h.doing p d hd).mono ?_ ?_
    · intro token lease hget
      exact ⟨lease, hlease p token ▸ hget, rfl⟩
    · intro q hdead
      rw [(hprocess q).1]
      exact hdead

/-- A file is written or removed that nobody relies on, or only a lease whose
    token it goes on to show. -/
theorem Sound.setFile (h : Sound s) {key : Text} {content : Option Content}
    (hbacked : ∀ p token lease, s.lease p token = some lease → lease.released = false →
      lease.record.key = key → ∃ record, content = some (.readable record) ∧ record.token = token)
    (hfiles : ∀ record p n, content = some (.readable record) → record.token = .drawn p n →
      record.pid = p ∧ n < s.nextToken)
    (hshown : ∀ p token lease, s.lease p token = some lease →
      ∀ record, content = some (.readable record) → record.token = token →
        lease.released = false ∧ lease.record.key = key) :
    Sound (s.setFile key content) where
  leases := h.leases
  backed := by
    intro p token lease hlease hheld
    unfold State.setFile
    by_cases hkey : lease.record.key = key
    · simp only [hkey, Function.update_self]
      exact hbacked p token lease hlease hheld hkey
    · simp only [Function.update_of_ne hkey]
      exact h.backed p token lease hlease hheld
  files := by
    intro key' record p n hfile
    unfold State.setFile at hfile
    by_cases hkey : key' = key
    · subst hkey
      simp only [Function.update_self] at hfile
      exact hfiles record p n hfile
    · simp only [Function.update_of_ne hkey] at hfile
      exact h.files key' record p n hfile
  shown := by
    intro p token lease hlease key' record hfile
    unfold State.setFile at hfile
    by_cases hkey : key' = key
    · subst hkey
      simp only [Function.update_self] at hfile
      exact hshown p token lease hlease record hfile
    · simp only [Function.update_of_ne hkey] at hfile
      exact h.shown p token lease hlease key' record hfile
  dead := h.dead
  doing p d hd := (h.doing p d hd).mono (fun _ lease hget => ⟨lease, hget, rfl⟩) fun _ hdead => hdead

theorem file_setFile {key key' : Text} {content : Option Content} :
    (s.setFile key content).files key' = if key' = key then content else s.files key' := by
  unfold State.setFile
  by_cases hkey : key' = key
  · subst hkey
    simp only [Function.update_self, if_true]
  · simp only [Function.update_of_ne hkey, hkey, if_false]

/-- A lease removes its own file, and is released. -/
theorem Sound.unlink (h : Sound s) {token : Token} {lease : Lease}
    (hlease : s.lease pid token = some lease) (hheld : lease.released = false)
    (hidle : (s.processes pid).doing = none) :
    Sound ((s.setFile lease.record.key none).setLease pid token { lease with released := true }) := by
  have hfiles : ∀ key record, ((s.setFile lease.record.key none).setLease pid token
      { lease with released := true }).files key = some (.readable record) →
        key ≠ lease.record.key ∧ s.files key = some (.readable record) := by
    intro key record hfile
    have hset : (s.setFile lease.record.key none).files key = some (.readable record) := hfile
    rw [file_setFile] at hset
    split at hset
    · cases hset
    · rename_i hkey
      exact ⟨hkey, hset⟩
  refine ⟨?_, ?_, ?_, ?_, ?_, ?_⟩
  · intro p token' found hfound
    rw [lease_setLease] at hfound
    split at hfound
    · rename_i hat
      rcases hat with ⟨rfl, rfl⟩
      cases hfound
      exact h.leases p token' lease hlease
    · exact h.leases p token' found hfound
  · intro p token' found hfound hheld'
    rw [lease_setLease] at hfound
    split at hfound
    · cases hfound
      cases hheld'
    · rename_i hat
      -- Any other held lease is of another lock, since a file shows one token.
      have hother : found.record.key ≠ lease.record.key := by
        intro hkey
        exact hat (h.unique hfound hheld' hlease hheld hkey)
      rcases h.backed p token' found hfound hheld' with ⟨record, hfile, htoken⟩
      have hset : (s.setFile lease.record.key none).files found.record.key = _ := file_setFile
      rw [if_neg hother, hfile] at hset
      exact ⟨record, hset, htoken⟩
  · intro key record p n hfile
    exact h.files key record p n (hfiles key record hfile).2
  · intro p token' found hfound key record hfile htoken
    rcases hfiles key record hfile with ⟨hkey, hold⟩
    rw [lease_setLease] at hfound
    split at hfound
    · rename_i hat
      rcases hat with ⟨rfl, rfl⟩
      -- Its own token was in its own file only, and that is gone.
      exact absurd (h.shown p token' lease hlease key record hold htoken).2.symm hkey
    · exact h.shown p token' found hfound key record hold htoken
  · intro p hdead
    rw [live_setLease] at hdead
    have hempty := h.dead p hdead
    by_cases hp : p = pid
    · subst hp
      cases (h.lease_none hdead).symm.trans hlease
    · unfold State.setLease State.setProcess
      simp only [Function.update_of_ne hp]
      exact hempty
  · intro p d hd
    rw [doing_setLease] at hd
    have hp : p ≠ pid := by
      rintro rfl
      cases hidle.symm.trans hd
    refine (h.doing p d hd).mono ?_ ?_
    · intro token' found hfound
      rw [lease_setLease, if_neg (fun hat => hp hat.1)] at hfound
      exact ⟨found, hfound, rfl⟩
    · intro q hdead
      rw [live_setLease]
      exact hdead

theorem lease_take {key : Text} {owner : LeaseOwner} {p : Nat} {token : Token} :
    (s.take pid key owner).lease p token =
      if p = pid ∧ token = .drawn pid s.nextToken then
        some { record := lockRecord pid key owner (.drawn pid s.nextToken) }
      else s.lease p token := by
  unfold State.lease State.take
  by_cases hp : p = pid
  · subst hp
    simp only [Function.update_self, true_and, Table.get_set]
  · simp only [Function.update_of_ne hp, hp, false_and, if_false]

theorem file_take {key key' : Text} {owner : LeaseOwner} :
    (s.take pid key owner).files key' =
      if key' = key then some (.readable (lockRecord pid key owner (.drawn pid s.nextToken)))
      else s.files key' :=
  file_setFile

/-- A lock that nobody has is taken. -/
theorem Sound.take (h : Sound s) {key : Text} {owner : LeaseOwner} (hfree : s.files key = none)
    (hlive : (s.processes pid).live = true) : Sound (s.take pid key owner) := by
  -- The token is drawn now, so no lease has it yet.
  have hfresh : ∀ p token lease, s.lease p token = some lease → token ≠ .drawn pid s.nextToken := by
    rintro p token lease hlease rfl
    rcases (h.leases p _ lease hlease).2.2 with ⟨n, hn, hlt⟩
    have : s.nextToken = n := (Token.drawn.inj hn).2
    omega
  have hprocess : ∀ p, p ≠ pid → (s.take pid key owner).processes p = s.processes p :=
    fun p hp => Function.update_of_ne hp _ _
  have hself : ((s.take pid key owner).processes pid).live = (s.processes pid).live ∧
      ((s.take pid key owner).processes pid).doing = none := by
    unfold State.take
    simp only [Function.update_self, and_self]
  refine ⟨?_, ?_, ?_, ?_, ?_, ?_⟩
  · intro p token lease hlease
    rw [lease_take] at hlease
    split at hlease
    · rename_i hat
      rcases hat with ⟨rfl, rfl⟩
      cases hlease
      exact ⟨rfl, rfl, s.nextToken, rfl, Nat.lt_succ_self _⟩
    · rcases h.leases p token lease hlease with ⟨htoken, hpid, n, hn, hlt⟩
      exact ⟨htoken, hpid, n, hn, Nat.lt_succ_of_lt hlt⟩
  · intro p token lease hlease hheld
    rw [lease_take] at hlease
    split at hlease
    · rename_i hat
      rcases hat with ⟨rfl, rfl⟩
      cases hlease
      exact ⟨_, file_take.trans (if_pos rfl), rfl⟩
    · rcases h.backed p token lease hlease hheld with ⟨record, hfile, htoken⟩
      refine ⟨record, file_take.trans ?_, htoken⟩
      rw [if_neg, hfile]
      intro hkey
      rw [hkey, hfree] at hfile
      cases hfile
  · intro key' record p n hfile htoken
    rw [file_take] at hfile
    split at hfile
    · cases hfile
      rcases Token.drawn.inj htoken with ⟨rfl, rfl⟩
      exact ⟨rfl, Nat.lt_succ_self _⟩
    · exact (h.files key' record p n hfile htoken).imp_right Nat.lt_succ_of_lt
  · intro p token lease hlease key' record hfile htoken
    rw [lease_take] at hlease
    rw [file_take] at hfile
    split at hlease
    · rename_i hat
      rcases hat with ⟨rfl, rfl⟩
      cases hlease
      split at hfile
      · rename_i hkey
        exact ⟨rfl, hkey.symm⟩
      · -- No file shows a token that is still to be drawn.
        have hlt := (h.files key' record p s.nextToken hfile htoken).2
        omega
    · split at hfile
      · cases hfile
        exact absurd htoken.symm (hfresh p token lease hlease)
      · exact h.shown p token lease hlease key' record hfile htoken
  · intro p hdead
    by_cases hp : p = pid
    · subst hp
      rw [hself.1, hlive] at hdead
      cases hdead
    · rw [hprocess p hp] at hdead ⊢
      exact h.dead p hdead
  · intro p d hd
    have hp : p ≠ pid := by
      rintro rfl
      cases hself.2.symm.trans hd
    rw [hprocess p hp] at hd
    refine (h.doing p d hd).mono ?_ ?_
    · intro token lease hlease
      rw [lease_take, if_neg (fun hat => hp hat.1)] at hlease
      exact ⟨lease, hlease, rfl⟩
    · intro q hdead
      by_cases hq : q = pid
      · subst hq
        rw [hlive] at hdead
        cases hdead
      · rw [hprocess q hq]
        exact hdead

/-- A process is gone, and what it had in memory with it. -/
theorem Sound.crash (h : Sound s) : Sound (s.setProcess pid { live := false }) := by
  -- The leases that are left belong to the other processes.
  have hlease : ∀ p token lease, (s.setProcess pid { live := false }).lease p token = some lease →
      p ≠ pid ∧ s.lease p token = some lease := by
    intro p token lease hget
    unfold State.lease State.setProcess at hget
    by_cases hp : p = pid
    · subst hp
      simp only [Function.update_self] at hget
      cases hget
    · simp only [Function.update_of_ne hp] at hget
      exact ⟨hp, hget⟩
  refine ⟨?_, ?_, h.files, ?_, ?_, ?_⟩
  · intro p token lease hget
    exact h.leases p token lease (hlease p token lease hget).2
  · intro p token lease hget
    exact h.backed p token lease (hlease p token lease hget).2
  · intro p token lease hget
    exact h.shown p token lease (hlease p token lease hget).2
  · intro p hdead
    unfold State.setProcess at hdead ⊢
    by_cases hp : p = pid
    · subst hp
      simp only [Function.update_self]
    · simp only [Function.update_of_ne hp] at hdead ⊢
      exact h.dead p hdead
  · intro p d hd
    unfold State.setProcess at hd
    by_cases hp : p = pid
    · subst hp
      simp only [Function.update_self] at hd
      cases hd
    · simp only [Function.update_of_ne hp] at hd
      refine (h.doing p d hd).mono ?_ ?_
      · intro token lease hget
        exact ⟨lease, (hlease p token lease hget).2, rfl⟩
      · intro q hdead
        unfold State.setProcess
        by_cases hq : q = pid
        · subst hq
          simp only [Function.update_self]
        · simp only [Function.update_of_ne hq]
          exact hdead

theorem Sound.idle (h : Sound s) : Sound (s.setDoing pid none) :=
  h.setDoing fun d hd => by cases hd

/-- A record is saved over itself. -/
theorem Sound.rename (h : Sound s) {token : Token} {lease : Lease}
    (hlease : s.lease pid token = some lease) (hheld : lease.released = false) :
    Sound (s.setFile lease.record.key (some (.readable lease.record))) := by
  rcases h.leases pid token lease hlease with ⟨htoken, hpid, n, hn, hlt⟩
  refine h.setFile ?_ ?_ ?_
  · intro p token' found hfound hheld' hkey
    exact ⟨lease.record, rfl, htoken.trans (h.unique hlease hheld hfound hheld' hkey.symm).2⟩
  · intro record p m hrecord hdrawn
    cases hrecord
    rw [htoken, hn] at hdrawn
    rcases Token.drawn.inj hdrawn with ⟨rfl, rfl⟩
    exact ⟨hpid, hlt⟩
  · intro p token' found hfound record hrecord htoken'
    cases hrecord
    rw [htoken] at htoken'
    -- A token belongs to one process, so this is the lease that saves.
    subst htoken'
    rcases (h.leases p token found hfound).2.2 with ⟨m, hm, _⟩
    have hp : pid = p := (Token.drawn.inj (hn.symm.trans hm)).1
    subst hp
    cases hlease.symm.trans hfound
    exact ⟨hheld, rfl⟩

/-- A recovery removes the record it has read, which no live process relies on. -/
theorem Sound.remove (h : Sound s) {key : Text} {recovery : Recovery} {record : LockRecord}
    (hknown : Justified s pid (.remove key recovery record))
    (hsame : ∀ current, s.files key = some (.readable current) →
      current.token = record.token ∧ (recovery.isCommand = true → quiet s current = true)) :
    Sound (s.setFile key none) := by
  refine h.setFile ?_ ?_ ?_
  · intro p token lease hlease hheld hkey
    exfalso
    rcases h.backed p token lease hlease hheld with ⟨current, hfile, htoken⟩
    rw [hkey] at hfile
    rcases hsame current hfile with ⟨htokens, hquiet⟩
    rcases (h.leases p token lease hlease).2.2 with ⟨n, hn, _⟩
    cases hcommand : recovery.isCommand with
    | false =>
        -- Its owner was found dead, and that is the process of the lease.
        rcases hknown hcommand with ⟨hdead, howner⟩
        have hp : record.pid = p := howner p n (by rw [← htokens, htoken, hn])
        rw [hp] at hdead
        cases (h.lease_none hdead).symm.trans hlease
    | true =>
        have hp : current.pid = p := (h.files key current p n hfile (htoken.trans hn)).1
        have hquiet' := hquiet hcommand
        unfold quiet isAlive at hquiet'
        rw [hp, htoken, hlease, Bool.or_eq_true, Bool.not_eq_true'] at hquiet'
        rcases hquiet' with hdead | hreleased
        · cases (h.lease_none hdead).symm.trans hlease
        · rw [Option.all_some, hheld] at hreleased
          cases hreleased
  · intro current p n hcurrent
    cases hcurrent
  · intro p token lease hlease current hcurrent
    cases hcurrent

/-- The owner of a record that a recovery other than a command's takes is dead. -/
theorem dead_of_recoverable {key : Text} {record : LockRecord} {recovery : Recovery}
    (hcommand : recovery.isCommand = false)
    (hrecoverable : recoverable s pid key record recovery = true) :
    (s.processes record.pid).live = false := by
  cases recovery with
  | command owner attempt => cases hcommand
  | admin | integration operationId | maintenance owner =>
      unfold recoverable isAlive at hrecoverable
      simp only [Bool.and_eq_true, Bool.not_eq_true'] at hrecoverable
      tauto

/-- One thing a process does to its locks keeps the tables sound. What it knows when
    it comes to it (`Justified`) is what makes a removal or a save harmless. -/
theorem Sound.perform (h : Sound s) {ok : Bool} {doing : Doing}
    (hlive : (s.processes pid).live = true) (hdoing : (s.processes pid).doing = some doing)
    (hcareful : careful s (.proceed pid ok) = true) : Sound (perform ok pid s doing) := by
  have hknown := h.doing pid doing hdoing
  cases doing with
  | acquire key owner =>
      unfold Locks.perform
      simp only
      split
      · exact h.idle
      · exact h.idle
      · -- Somebody's record is there, or none: what is next is only to look again.
        refine h.setDoing ?_
        intro d hd
        cases hd
        trivial
  | create key owner =>
      unfold Locks.perform
      simp only
      split
      · rename_i hfree
        rw [Bool.and_eq_true, Option.isNone_iff_eq_none] at hfree
        exact h.take hfree.2 hlive
      · exact h.idle
  -- The five that look at the file first, before they do what `next` says.
  | revalidate token =>
      refine h.verify ?_
      intro lease d hd _ s' _
      cases hd
      trivial
  | compare token =>
      unfold Locks.perform
      simp only
      split
      · exact h.idle
      rename_i lease hlease
      split
      · exact h.idle
      · exact h.idle
      · split
        · have hset : Sound (s.setLease pid token { lease with lost := true }) :=
            h.setLease hlease rfl rfl rfl rfl
          exact hset.idle
        · exact h.idle
  | release token =>
      refine h.verify ?_
      intro lease d hd _ s' hheld
      split at hd
      · cases hd
      · cases hd
        exact hheld
  | unlink token =>
      unfold Locks.perform
      simp only
      split
      · exact h.idle
      rename_i lease hlease
      split
      · exact h.idle
      · have hidle : ((s.setDoing pid none).processes pid).doing = none := by
          unfold State.setDoing State.setProcess
          simp only [Function.update_self]
        -- It was seen to be held, so the file that goes is its own.
        exact (h.idle.unlink (lease_setDoing.trans hlease) (hknown lease hlease) hidle).setHeld
  | reattach token sessionOwner previousAttempt attempt =>
      refine h.verify ?_
      intro lease d hd _ s' _
      cases hd
      trivial
  | rebind token sessionOwner previousAttempt attempt =>
      unfold Locks.perform
      simp only
      split
      · exact h.idle
      rename_i lease hlease
      split
      · exact h.idle
      · exact h.idle
      · split
        · exact h.idle
        · have hset : Sound (s.setLease pid token
              { lease with record := { lease.record with attempt } }) :=
            h.setLease hlease rfl rfl rfl rfl
          refine hset.setDoing ?_
          intro d hd
          cases hd
          trivial
  | save token undo =>
      refine h.verify ?_
      intro lease d hd _ s' _
      cases hd
      trivial
  | stage token undo =>
      refine h.verify ?_
      intro lease d hd _ s' hheld
      cases hd
      exact hheld
  | rename token undo =>
      unfold Locks.perform
      simp only
      split
      · exact h.idle
      rename_i lease hlease
      split
      · rcases lease.restore_eq undo with ⟨hkey, htoken, hpid, hreleased⟩
        exact (h.setLease hlease hkey htoken hpid hreleased).idle
      · -- What is saved over the record is the record of the same lease.
        exact (h.rename hlease (hknown lease hlease)).idle
  | recover key recovery =>
      unfold Locks.perform
      simp only
      split
      · exact h.idle
      · exact h.idle
      · rename_i record hfound
        refine h.setDoing ?_
        intro d hd
        split at hd
        · rename_i hrecoverable
          cases hd
          intro hcommand
          refine ⟨dead_of_recoverable hcommand hrecoverable, ?_⟩
          intro p n hdrawn
          exact (h.files key record p n (holder_found hfound) hdrawn).1
        · cases hd
  | confirm key recovery record =>
      unfold Locks.perform
      simp only
      split
      · exact h.idle
      · exact h.idle
      · refine h.setDoing ?_
        intro d hd
        split at hd
        · cases hd
          exact hknown
        · cases hd
  | remove key recovery record =>
      unfold Locks.perform
      simp only
      split
      · exact h.idle
      · rename_i hok
        rw [Bool.not_eq_true', Bool.not_eq_false] at hok
        subst hok
        refine (h.remove hknown ?_).setHeld.idle
        intro current hfile
        -- The file may have changed since it was read; only a careful run has the same record.
        unfold careful at hcareful
        simp only [hdoing, hfile, Bool.and_eq_true, Bool.or_eq_true, Bool.not_eq_true',
          decide_eq_true_eq] at hcareful
        refine ⟨hcareful.1, fun hcommand => ?_⟩
        rcases hcareful.2 with hother | hquiet
        · rw [hcommand] at hother
          cases hother
        · exact hquiet

theorem Sound.amend (h : Sound s) {token : Token} {f : LockRecord → LockRecord}
    (hf : ∀ record, (f record).key = record.key ∧ (f record).token = record.token ∧
      (f record).pid = record.pid) : Sound (amend pid token f s) := by
  unfold Locks.amend
  split
  · exact h
  · rename_i lease hlease
    rcases hf lease.record with ⟨hkey, htoken, hpid⟩
    have hset : Sound (s.setLease pid token { lease with record := f lease.record }) :=
      h.setLease hlease hkey htoken hpid rfl
    refine hset.setDoing ?_
    intro d hd
    cases hd
    trivial

theorem Sound.start (h : Sound s) (call : Call) : Sound (start pid s call) := by
  cases call with
  | acquire | revalidate | reattach | reconcileAdmin | recoverIntegration | recoverMaintenance =>
      refine h.setDoing ?_
      intro d hd
      cases hd
      trivial
  | processPending | processStarted | processesQuiesced | requireReconciliation =>
      unfold Locks.start
      refine h.amend ?_
      intro record
      exact ⟨rfl, rfl, rfl⟩
  | release token =>
      unfold Locks.start
      simp only
      split
      · exact h
      · refine h.setDoing ?_
        intro d hd
        cases hd
        trivial
  | releaseRecoveredCommand identity owner attempt admin =>
      unfold Locks.start
      simp only
      split
      · refine h.setDoing ?_
        intro d hd
        cases hd
        trivial
      · exact h

theorem Sound.step (h : Sound s) (input : Input) (hcareful : careful s input = true) :
    Sound (step s input) := by
  cases input with
  | call p call =>
      unfold Locks.step
      simp only
      split
      · exact h.start call
      · exact h
  | proceed p ok =>
      unfold Locks.step
      simp only
      split
      · exact h
      · rename_i doing hdoing
        split
        · rename_i hlive
          exact h.perform hlive hdoing hcareful
        · exact h
  | crash p => exact h.crash

end

/-- A directory as the processes find it: whatever token they draw is a new one. -/
structure Directory where
  files : Text → Option Content
  legacy : ∀ key record pid n, files key = some (.readable record) → record.token ≠ .drawn pid n

def Directory.state (directory : Directory) : State := { files := directory.files }

theorem Directory.sound (directory : Directory) : Sound directory.state where
  leases := by
    intro pid token lease hlease
    cases hlease
  backed := by
    intro pid token lease hlease
    cases hlease
  files := by
    intro key record pid n hfile hdrawn
    exact absurd hdrawn (directory.legacy key record pid n hfile)
  shown := by
    intro pid token lease hlease
    cases hlease
  dead := by
    intro pid hdead
    cases hdead
  doing := by
    intro pid doing hdoing
    cases hdoing

/-- A recovery removes no record but the one it has read. -/
def Harmless (s : State) (input : Input) : Prop :=
  ∀ pid ok key recovery record current, input = .proceed pid ok →
    (s.processes pid).doing = some (.remove key recovery record) →
      s.files key = some (.readable current) →
        (step s input).files key = none → current.token = record.token

theorem harmless_of_careful {s : State} {input : Input} (h : careful s input = true) :
    Harmless s input := by
  rintro pid ok key recovery record current rfl hdoing hfile hremoved
  cases ok with
  | false =>
      -- The unlink fails, and the file is still there.
      have hkept : (step s (.proceed pid false)).files key = s.files key := by
        unfold step
        simp only [hdoing]
        split <;> rfl
      rw [hremoved, hfile] at hkept
      cases hkept
  | true =>
      unfold careful at h
      simp only [hdoing, hfile, Bool.and_eq_true, decide_eq_true_eq] at h
      exact h.1

/-- One process at most holds each lock, the record of a live process that has
    not released it is there, and no recovery of the run has removed a record
    but the one it had read. -/
def Exclusive (directory : Directory) (inputs : List Input) : Prop :=
  let s := Run.final step directory.state inputs
  (∀ key p q token token', Holds s p key token → Holds s q key token' → p = q ∧ token = token') ∧
    (∀ pid token lease, (s.processes pid).live = true → s.lease pid token = some lease →
      lease.released = false →
        ∃ record, s.files lease.record.key = some (.readable record) ∧ record.token = token ∧
          record.pid = pid) ∧
      ∀ before input after, inputs = before ++ input :: after →
        Harmless (Run.final step directory.state before) input

/-- Locks exclude while every recovery unlinks only the record it has read. -/
theorem locks_exclusive (directory : Directory) (inputs : List Input)
    (hcareful : Run.Admits step (fun s input => careful s input = true) directory.state inputs) :
    Exclusive directory inputs := by
  have hsound : Sound (Run.final step directory.state inputs) :=
    Run.invariant_of_admits step (fun s input => careful s input = true) Sound
      (fun _ input h => h.step input) inputs directory.state directory.sound hcareful
  refine ⟨?_, ?_, ?_⟩
  · rintro key p q token token' ⟨lease, _, hlease, hkey, hheld, _⟩
      ⟨lease', _, hlease', hkey', hheld', _⟩
    exact hsound.unique hlease hheld hlease' hheld' (hkey.trans hkey'.symm)
  · intro pid token lease _ hlease hheld
    rcases hsound.backed pid token lease hlease hheld with ⟨record, hfile, htoken⟩
    rcases (hsound.leases pid token lease hlease).2.2 with ⟨n, hn, _⟩
    exact ⟨record, hfile, htoken, (hsound.files _ record pid n hfile (htoken.trans hn)).1⟩
  · rintro before input after rfl
    rw [Run.admits_append] at hcareful
    exact harmless_of_careful hcareful.2.1

/-- Maintenance of a process that is gone. -/
def abandoned : LockRecord where
  owner := ofString "maintenance:1"
  attempt := []
  kind := .maintenance
  key := ofString "checkout"
  token := .legacy (ofString "1")
  pid := 9
  processes := []
  processPending := false
  reconciliationRequired := []

def leftBehind : Directory where
  files key := if key = ofString "checkout" then some (.readable abandoned) else none
  legacy := by
    intro key record pid n hfile
    split at hfile
    · cases hfile
      intro htoken
      cases htoken
    · cases hfile

/-- A process recovers what was left behind, takes the lock and relies on it. -/
def recoverAndTake (pid : Nat) : List Input := [
  .call pid (.acquire (ofString "checkout") ⟨ofString "task:1", ofString "1", .worker⟩),
  .proceed pid true,
  .proceed pid true,
  .call pid (.revalidate (.drawn pid (pid - 1))),
  .proceed pid true,
  .proceed pid true]

def recovering (pid : Nat) : List Input := [
  .call pid (.recoverMaintenance (ofString "checkout") (ofString "maintenance:1")),
  .proceed pid true,
  .proceed pid true]

/-- Two processes see the same record. Both come to remove it before either takes the lock, and
    then both try to take it. -/
def contended : List Input :=
  .crash 9 :: (recovering 1 ++ recovering 2 ++ [.proceed 1 true, .proceed 2 true] ++
    recoverAndTake 1 ++ recoverAndTake 2)

theorem locks_exclusive_recovered :
    Exclusive leftBehind contended ∧
      Holds (Run.final step leftBehind.state contended) 1 (ofString "checkout") (.drawn 1 0) ∧
      (Run.final step leftBehind.state contended).lease 2 (.drawn 2 1) = none := by
  refine ⟨locks_exclusive leftBehind _ ?_, ⟨_, ?_, rfl, ?_, ?_, ?_, ?_⟩, ?_⟩
  all_goals decide +kernel

/-- Two processes see the same record. The first removes it, takes the lock and
    relies on it; the second removes what the first has made. -/
theorem recovered_twice :
    let s := Run.final step leftBehind.state
      (.crash 9 :: (recovering 1 ++ recovering 2 ++ [.proceed 1 true] ++ recoverAndTake 1 ++
        [.proceed 2 true] ++ recoverAndTake 2))
    Holds s 1 (ofString "checkout") (.drawn 1 0) ∧ Holds s 2 (ofString "checkout") (.drawn 2 1) := by
  refine ⟨⟨_, ?_, rfl, ?_, ?_, ?_, ?_⟩, ⟨_, ?_, rfl, ?_, ?_, ?_, ?_⟩⟩
  all_goals decide +kernel

end Locks

end CopilotFleet
