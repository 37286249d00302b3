import CopilotFleet.Lib.Effect
import CopilotFleet.Lib.Once
import CopilotFleet.Lib.Table
import CopilotFleet.Lib.Utf16
import Mathlib.Order.Nat

/-!
# Who May Drive a Host

A Host is claimed by whoever comes first, and from then on it has
administrators. More come by an invitation: somebody redeems it and becomes a
candidate, and an administrator decides. A row stays when an administrator is
removed, marked as disabled, and is used again when the same person comes back.
A person is a tenant and an object in it.

Every rule is one transaction away from being an authorisation bug. The number
of administrators is read and acted upon in one step, so that the last one is
never removed and there are never too many. Who is removed loses every session
in the same transaction, except by `disableAdministrator`, which touches no
session at all.

Identifiers that are drawn at random are numbers, each used once. Timestamps
are the instants they name, and an empty one is `none`.

## Main definitions

* `State`: The administrators, the invitations and the sessions.
* `Op`: What the store is asked to do.
* `step`: One operation at a time.
* `Sound`: What holds of the tables.
* `Did`: What one operation can do to the tables.
* `Revokes`: Whoever an operation removes has no session left.

## Theorems

* `operate_outcome`: An operation does one of a few things.
* `Did.sound`: Whatever is done keeps the tables sound.
* `step_forward`: An invitation is decided at most once.
* `administrators_kept`: In every run, all of it together.
-/

namespace CopilotFleet

namespace Administrators

open Effect Utf16

structure Identity where
  tenantId : Text
  objectId : Text
deriving DecidableEq

structure Profile where
  username : Text
  displayName : Text
deriving DecidableEq

structure NewAdministrator where
  identity : Identity
  profile : Profile
  addedVia : Text
  addedByAdminId : Option Nat := none
deriving DecidableEq

structure Administrator where
  id : Nat
  identity : Identity
  profile : Profile
  addedByAdminId : Option Nat
  addedVia : Text
  createdAt : Int
  lastLoginAt : Option Int := none
  disabledAt : Option Int := none
deriving DecidableEq

inductive Decision where
  | approved
  | rejected
  | revoked
deriving DecidableEq

structure Invitation where
  id : Nat
  tokenHash : Text
  createdByAdminId : Nat
  createdAt : Int
  expiresAt : Int
  consumedAt : Option Int := none
  candidate : Identity := { tenantId := [], objectId := [] }
  candidateProfile : Profile := { username := [], displayName := [] }
  decidedByAdminId : Option Nat := none
  decidedAt : Option Int := none
  decision : Option Decision := none
deriving DecidableEq

structure OperatorSession where
  tokenHash : Text
  administratorId : Option Nat
  authMethod : Text
  authenticatedAt : Int
  lastSeenAt : Int
  expiresAt : Int
  revokedAt : Option Int := none
deriving DecidableEq

structure State where
  administrators : Table Nat Administrator := Table.empty
  invitations : Table Nat Invitation := Table.empty
  sessions : Table Text OperatorSession := Table.empty
  nextId : Nat := 0

inductive Failure where
  | maximum
  | constraint
deriving DecidableEq

abbrev Store (α : Type) : Type := Effect State Failure α

/-- All of it or nothing. -/
def atomically {α : Type} (work : Store α) : Store α :=
  Effect.transaction (fun before _ => before) work

def maxAdministrators : Nat := 20

/-! ### Rows -/

def Administrator.active (a : Administrator) : Bool := a.disabledAt.isNone

def State.countActiveAdministrators (s : State) : Nat :=
  s.administrators.values.countP Administrator.active

def State.putAdministrator (s : State) (a : Administrator) : State :=
  { s with administrators := s.administrators.set a.id a }

def State.putInvitation (s : State) (i : Invitation) : State :=
  { s with invitations := s.invitations.set i.id i }

/-- The row of a person, disabled or not. -/
def State.known (s : State) (identity : Identity) : Option Administrator :=
  s.administrators.values.find? fun a => a.identity = identity

def State.activeAdministrator (s : State) (id : Nat) : Option Administrator :=
  (s.administrators.get id).filter Administrator.active

/-- An active row has its names changed; a disabled one is used again, and an
    unknown person gets a new one, as long as there is room. -/
def insertAdministratorRow (now : Int) (input : NewAdministrator) : Store Administrator := do
  let existing ← reads (·.known input.identity)
  match existing.filter Administrator.active with
  | some row =>
      let renamed := { row with profile := input.profile }
      writes (·.putAdministrator renamed)
      pure renamed
  | none =>
      let total ← reads State.countActiveAdministrators
      if maxAdministrators ≤ total then raise .maximum
      else
        match existing with
        | some row =>
            let enabled := { row with
              profile := input.profile
              addedVia := input.addedVia
              addedByAdminId := input.addedByAdminId
              disabledAt := none }
            writes (·.putAdministrator enabled)
            pure enabled
        | none =>
            let id ← reads State.nextId
            let added : Administrator :=
              { id
                identity := input.identity
                profile := input.profile
                addedByAdminId := input.addedByAdminId
                addedVia := input.addedVia
                createdAt := now }
            writes fun s => { s.putAdministrator added with nextId := id + 1 }
            pure added

/-- Nothing when the removal is refused: the last one cannot be removed. -/
def disableAdministratorRow (now : Int) (id : Nat) : Store (Option Administrator) := do
  match ← reads (·.activeAdministrator id) with
  | none => pure none
  | some row =>
      let total ← reads State.countActiveAdministrators
      if total ≤ 1 then pure none
      else
        let disabled := { row with disabledAt := some now }
        writes (·.putAdministrator disabled)
        pure (some disabled)

def State.revoke (s : State) (now : Int) (which : OperatorSession → Bool) : State :=
  { s with sessions := s.sessions.mapValues fun _ session =>
      if which session && session.revokedAt.isNone then { session with revokedAt := some now }
      else session }

/-- Marks sessions as revoked, and says which. -/
def revokeSessions (now : Int) (which : OperatorSession → Bool) : Store (List Text) := do
  let revoked ← reads fun s => s.sessions.values.filter fun session =>
    which session && session.revokedAt.isNone
  writes (·.revoke now which)
  pure (revoked.map OperatorSession.tokenHash)

def OperatorSession.belongs (session : OperatorSession) (id : Nat) : Bool :=
  session.administratorId = some id

def revokeSessionsForAdministratorRow (now : Int) (id : Nat) : Store (List Text) :=
  revokeSessions now (·.belongs id)

/-! ### Administrators -/

def insertAdministrator (now : Int) (input : NewAdministrator) : Store Administrator :=
  atomically (insertAdministratorRow now input)

def claimFirstAdministrator (now : Int) (identity : Identity) (profile : Profile) :
    Store (Option Administrator) :=
  atomically do
    let total ← reads State.countActiveAdministrators
    if 0 < total then pure none
    else
      let claimed ← insertAdministratorRow now { identity, profile, addedVia := ofString "claim" }
      pure (some claimed)

def disableAdministrator (now : Int) (id : Nat) : Store Bool :=
  atomically do
    let disabled ← disableAdministratorRow now id
    pure disabled.isSome

def disableAdministratorAndRevoke (now : Int) (id : Nat) : Store (List Text) :=
  atomically do
    match ← disableAdministratorRow now id with
    | none => pure []
    | some _ => revokeSessionsForAdministratorRow now id

def touchAdministratorLogin (id : Nat) (lastLoginAt : Int) : Store Unit :=
  writes fun s =>
    match s.administrators.get id with
    | none => s
    | some row => s.putAdministrator { row with lastLoginAt := some lastLoginAt }

/-! ### Sessions -/

def insertOperatorSession (session : OperatorSession) : Store Unit := do
  match ← reads (·.sessions.get session.tokenHash) with
  | some _ => raise .constraint
  | none => writes fun s => { s with sessions := s.sessions.set session.tokenHash session }

def touchOperatorSession (tokenHash : Text) (lastSeenAt : Int) : Store Unit :=
  writes fun s =>
    match s.sessions.get tokenHash with
    | none => s
    | some row => { s with sessions := s.sessions.set tokenHash { row with lastSeenAt } }

def deleteExpiredOperatorSessions (now : Int) : Store Unit :=
  writes fun s => { s with sessions := s.sessions.keep fun _ session =>
    now < session.expiresAt && session.revokedAt.isNone }

/-! ### Invitations -/

def createInvitation (now : Int) (tokenHash : Text) (createdByAdminId : Nat) (expiresAt : Int) :
    Store Invitation := do
  let taken ← reads fun s => s.invitations.values.any fun i => i.tokenHash = tokenHash
  if taken then raise .constraint
  else
    let id ← reads State.nextId
    let invitation : Invitation := { id, tokenHash, createdByAdminId, createdAt := now, expiresAt }
    writes fun s => { s.putInvitation invitation with nextId := id + 1 }
    pure invitation

/-- Who redeems an invitation is a candidate, and nothing more. -/
def consumeInvitation (now : Int) (tokenHash : Text) (candidate : Identity)
    (candidateProfile : Profile) : Store (Option Invitation) :=
  atomically do
    let row ← reads fun s => s.invitations.values.find? fun i =>
      i.tokenHash = tokenHash && i.consumedAt.isNone && now < i.expiresAt
    match row with
    | none => pure none
    | some row =>
        let consumed := { row with consumedAt := some now, candidate, candidateProfile }
        writes (·.putInvitation consumed)
        pure (some consumed)

/-- A candidate who waits is decided; the row is returned as it was. -/
def decidePendingRow (now : Int) (invitationId decidedByAdminId : Nat) (decision : Decision) :
    Store (Option Invitation) := do
  let row ← reads fun s => (s.invitations.get invitationId).filter fun i =>
    i.consumedAt.isSome && i.decision.isNone
  match row with
  | none => pure none
  | some row =>
      writes (·.putInvitation { row with
        decision := some decision
        decidedByAdminId := some decidedByAdminId
        decidedAt := some now })
      pure (some row)

def approveCandidate (now : Int) (invitationId decidedByAdminId : Nat) :
    Store (Option Administrator) :=
  atomically do
    match ← decidePendingRow now invitationId decidedByAdminId .approved with
    | none => pure none
    | some row =>
        let approved ← insertAdministratorRow now
          { identity := row.candidate
            profile := row.candidateProfile
            addedVia := ofString "invitation"
            addedByAdminId := some decidedByAdminId }
        pure (some approved)

def rejectCandidate (now : Int) (invitationId decidedByAdminId : Nat) : Store Bool :=
  atomically do
    let row ← decidePendingRow now invitationId decidedByAdminId .rejected
    pure row.isSome

def revokeInvitation (now : Int) (invitationId : Nat) : Store Bool := do
  let row ← reads fun s => (s.invitations.get invitationId).filter fun i => i.decision.isNone
  match row with
  | none => pure false
  | some row =>
      writes (·.putInvitation { row with
        decision := some .revoked
        decidedAt := some now
        consumedAt := some (row.consumedAt.getD now) })
      pure true

/-! ### Operations -/

inductive Op where
  | insertAdministrator (input : NewAdministrator)
  | claimFirstAdministrator (identity : Identity) (profile : Profile)
  | disableAdministrator (id : Nat)
  | disableAdministratorAndRevoke (id : Nat)
  | touchAdministratorLogin (id : Nat) (lastLoginAt : Int)
  | insertOperatorSession (session : OperatorSession)
  | touchOperatorSession (tokenHash : Text) (lastSeenAt : Int)
  | revokeOperatorSession (tokenHash : Text)
  | revokeAllOperatorSessions
  | revokeSessionsForAdministrator (id : Nat)
  | revokeSessionsByMethod (authMethod : Text)
  | deleteExpiredOperatorSessions
  | createInvitation (tokenHash : Text) (createdByAdminId : Nat) (expiresAt : Int)
  | consumeInvitation (tokenHash : Text) (candidate : Identity) (candidateProfile : Profile)
  | approveCandidate (invitationId decidedByAdminId : Nat)
  | rejectCandidate (invitationId decidedByAdminId : Nat)
  | revokeInvitation (invitationId : Nat)
deriving DecidableEq

/-- What the caller is told. -/
inductive Answer where
  | done
  | administrator (a : Option Administrator)
  | invitation (i : Option Invitation)
  | sessions (tokenHashes : List Text)
  | said (b : Bool)
deriving DecidableEq

def operate (now : Int) : Op → Store Answer
  | .insertAdministrator input => do
      let a ← insertAdministrator now input
      pure (.administrator (some a))
  | .claimFirstAdministrator identity profile => do
      let a ← claimFirstAdministrator now identity profile
      pure (.administrator a)
  | .disableAdministrator id => do
      let b ← disableAdministrator now id
      pure (.said b)
  | .disableAdministratorAndRevoke id => do
      let revoked ← disableAdministratorAndRevoke now id
      pure (.sessions revoked)
  | .touchAdministratorLogin id lastLoginAt => do
      touchAdministratorLogin id lastLoginAt
      pure .done
  | .insertOperatorSession session => do
      insertOperatorSession session
      pure .done
  | .touchOperatorSession tokenHash lastSeenAt => do
      touchOperatorSession tokenHash lastSeenAt
      pure .done
  | .revokeOperatorSession tokenHash => do
      let _ ← revokeSessions now fun session => session.tokenHash = tokenHash
      pure .done
  | .revokeAllOperatorSessions => do
      let revoked ← revokeSessions now fun _ => true
      pure (.sessions revoked)
  | .revokeSessionsForAdministrator id => do
      let revoked ← revokeSessionsForAdministratorRow now id
      pure (.sessions revoked)
  | .revokeSessionsByMethod authMethod => do
      let revoked ← revokeSessions now fun session => session.authMethod = authMethod
      pure (.sessions revoked)
  | .deleteExpiredOperatorSessions => do
      deleteExpiredOperatorSessions now
      pure .done
  | .createInvitation tokenHash createdByAdminId expiresAt => do
      let i ← createInvitation now tokenHash createdByAdminId expiresAt
      pure (.invitation (some i))
  | .consumeInvitation tokenHash candidate candidateProfile => do
      let i ← consumeInvitation now tokenHash candidate candidateProfile
      pure (.invitation i)
  | .approveCandidate invitationId decidedByAdminId => do
      let a ← approveCandidate now invitationId decidedByAdminId
      pure (.administrator a)
  | .rejectCandidate invitationId decidedByAdminId => do
      let b ← rejectCandidate now invitationId decidedByAdminId
      pure (.said b)
  | .revokeInvitation invitationId => do
      let b ← revokeInvitation now invitationId
      pure (.said b)

def step (s : State) (input : Int × Op) : State := (operate input.1 input.2 s).2

/-- The tables after a run of operations, each at its own time. -/
def reached (inputs : List (Int × Op)) : State := Run.final step {} inputs

/-! ### What one operation can do -/

/-- Somebody becomes an administrator, or is one already. -/
inductive Admitted (s : State) : State → Prop where
  | renamed (row : Administrator) (profile : Profile)
      (known : s.administrators.get row.id = some row) (active : row.active = true) :
      Admitted s (s.putAdministrator { row with profile })
  | enabled (row : Administrator) (profile : Profile) (addedVia : Text)
      (addedByAdminId : Option Nat) (known : s.administrators.get row.id = some row)
      (disabled : row.active = false) (room : s.countActiveAdministrators < maxAdministrators) :
      Admitted s (s.putAdministrator { row with
        profile
        addedVia
        addedByAdminId
        disabledAt := none })
  | added (a : Administrator) (new : a.id = s.nextId) (active : a.active = true)
      (absent : s.known a.identity = none)
      (room : s.countActiveAdministrators < maxAdministrators) :
      Admitted s { s.putAdministrator a with nextId := a.id + 1 }

/-- An administrator who is not the last one is removed. -/
inductive Disabled (s : State) (id : Nat) : State → Prop where
  | intro (row : Administrator) (now : Int) (known : s.administrators.get id = some row)
      (active : row.active = true) (others : 1 < s.countActiveAdministrators) :
      Disabled s id (s.putAdministrator { row with disabledAt := some now })

/-- An invitation nobody has decided is decided. -/
inductive Decided (s : State) (id : Nat) : State → Prop where
  | intro (row row' : Invitation) (known : s.invitations.get id = some row)
      (undecided : row.decision = none) (closed : row'.decision.isSome = true) (same : row'.id = row.id) :
      Decided s id (s.putInvitation row')

/-- What an operation does to the tables that neither decides nor removes. -/
inductive Did (s : State) : State → Prop where
  | sessions (sessions : Table Text OperatorSession) : Did s { s with sessions }
  | admitted (s' : State) (admitted : Admitted s s') : Did s s'
  | touched (row : Administrator) (lastLoginAt : Option Int)
      (known : s.administrators.get row.id = some row) :
      Did s (s.putAdministrator { row with lastLoginAt })
  | invited (i : Invitation) (new : i.id = s.nextId) (undecided : i.decision = none) :
      Did s { s.putInvitation i with nextId := i.id + 1 }
  | consumed (row row' : Invitation) (known : s.invitations.get row.id = some row)
      (same : row'.id = row.id) (kept : row'.decision = row.decision) :
      Did s (s.putInvitation row')

/-- What holds of the tables. -/
structure Sound (s : State) : Prop where
  administrator : ∀ id a, s.administrators.get id = some a → a.id = id ∧ id < s.nextId
  invitation : ∀ id i, s.invitations.get id = some i → i.id = id ∧ id < s.nextId
  identity : ∀ id a id' a', s.administrators.get id = some a →
    s.administrators.get id' = some a' → a.identity = a'.identity → id = id'
  room : s.countActiveAdministrators ≤ maxAdministrators

theorem sound_empty : Sound {} where
  administrator _ _ h := nomatch h
  invitation _ _ h := nomatch h
  identity _ _ _ _ h _ _ := nomatch h
  room := Nat.zero_le _

/-! ### Counting -/

@[simp] theorem putAdministrator_administrators (s : State) (a : Administrator) :
    (s.putAdministrator a).administrators = s.administrators.set a.id a := rfl

/-- A row that is written counts for what it is now and no longer for what it was. -/
theorem count_putAdministrator (s : State) (a : Administrator) :
    (s.putAdministrator a).countActiveAdministrators +
        (s.administrators.get a.id).toList.countP Administrator.active =
      s.countActiveAdministrators + [a].countP Administrator.active :=
  s.administrators.countP_set Administrator.active a.id a

/-- A row that is replaced. -/
theorem count_replaced {s : State} {row a : Administrator}
    (hrow : s.administrators.get a.id = some row) :
    (s.putAdministrator a).countActiveAdministrators + (if row.active then 1 else 0) =
      s.countActiveAdministrators + if a.active then 1 else 0 := by
  have hcount := count_putAdministrator s a
  rw [hrow, Option.toList_some, List.countP_singleton, List.countP_singleton] at hcount
  exact hcount

theorem known_mem {s : State} {identity : Identity} {row : Administrator}
    (h : s.known identity = some row) : row.identity = identity ∧ ∃ id,
      s.administrators.get id = some row := by
  have hmem := List.mem_of_find?_eq_some h
  have hsame := List.find?_some h
  exact ⟨of_decide_eq_true hsame, (s.administrators.mem_values_iff row).mp hmem⟩

theorem known_eq_none {s : State} {identity : Identity} (h : s.known identity = none) {id : Nat}
    {a : Administrator} (ha : s.administrators.get id = some a) : a.identity ≠ identity := by
  have hall := List.find?_eq_none.mp h a ((s.administrators.mem_values_iff a).mpr ⟨id, ha⟩)
  exact fun heq => hall (decide_eq_true heq)

/-! ### Rows keep the tables sound -/

/-- A row that is replaced by one of the same person. -/
theorem Sound.replaced {s : State} (h : Sound s) {row a : Administrator}
    (hrow : s.administrators.get row.id = some row) (hid : a.id = row.id)
    (hidentity : a.identity = row.identity)
    (hroom : (s.putAdministrator a).countActiveAdministrators ≤ maxAdministrators) :
    Sound (s.putAdministrator a) := by
  have hget : ∀ id b, (s.administrators.set a.id a).get id = some b → ∃ b',
      s.administrators.get id = some b' ∧ b.identity = b'.identity ∧ b.id = b'.id := by
    intro id b hb
    rw [Table.get_set] at hb
    split at hb
    · next heq =>
        rw [Option.some.injEq] at hb
        subst hb
        rw [heq]
        exact ⟨row, hid ▸ hrow, hidentity, hid⟩
    · exact ⟨b, hb, rfl, rfl⟩
  refine ⟨fun id b hb => ?_, h.invitation, fun id b id' b' hb hb' heq => ?_, hroom⟩
  · rcases hget id b hb with ⟨b₁, hb₁, _, hsame⟩
    rw [hsame]
    exact h.administrator id b₁ hb₁
  · rcases hget id b hb with ⟨b₁, hb₁, hi, _⟩
    rcases hget id' b' hb' with ⟨b₂, hb₂, hi', _⟩
    exact h.identity id b₁ id' b₂ hb₁ hb₂ (hi.symm.trans (heq.trans hi'))

theorem Sound.added {s : State} (h : Sound s) {a : Administrator} (hnew : a.id = s.nextId)
    (habsent : s.known a.identity = none)
    (hroom : (s.putAdministrator a).countActiveAdministrators ≤ maxAdministrators) :
    Sound { s.putAdministrator a with nextId := a.id + 1 } := by
  have hget : ∀ id b, (s.administrators.set a.id a).get id = some b →
      (id = a.id ∧ b = a) ∨ s.administrators.get id = some b := by
    intro id b hb
    rw [Table.get_set] at hb
    split at hb
    · next heq => exact .inl ⟨heq, (Option.some.inj hb).symm⟩
    · exact .inr hb
  refine ⟨fun id b hb => ?_, fun id i hi => ?_, fun id b id' b' hb hb' heq => ?_, hroom⟩
  · rcases hget id b hb with ⟨rfl, rfl⟩ | hb
    · exact ⟨rfl, Nat.lt_succ_self _⟩
    · have hkey := h.administrator id b hb
      exact ⟨hkey.1, Nat.lt_succ_of_lt (hnew ▸ hkey.2)⟩
  · have hkey := h.invitation id i hi
    exact ⟨hkey.1, Nat.lt_succ_of_lt (hnew ▸ hkey.2)⟩
  · rcases hget id b hb with ⟨rfl, rfl⟩ | hold
    · rcases hget id' b' hb' with ⟨rfl, rfl⟩ | hold'
      · rfl
      · exact absurd heq.symm (known_eq_none habsent hold')
    · rcases hget id' b' hb' with ⟨rfl, rfl⟩ | hold'
      · exact absurd heq (known_eq_none habsent hold)
      · exact h.identity id b id' b' hold hold' heq

/-- Whoever is admitted fits, and nobody is lost by it. -/
theorem Admitted.sound {s s' : State} (h : Sound s) (hadmitted : Admitted s s') :
    Sound s' ∧ s.countActiveAdministrators ≤ s'.countActiveAdministrators ∧
      0 < s'.countActiveAdministrators := by
  cases hadmitted with
  | renamed row profile known active =>
      set a : Administrator := { row with profile } with ha
      have hcount := count_replaced (a := a) known
      have hactive : a.active = true := active
      rw [if_pos active, if_pos hactive] at hcount
      have hsome : 0 < s.countActiveAdministrators :=
        List.countP_pos_iff.mpr ⟨row, (s.administrators.mem_values_iff row).mpr ⟨_, known⟩, active⟩
      have hsame : (s.putAdministrator a).countActiveAdministrators =
          s.countActiveAdministrators := by omega
      refine ⟨h.replaced known rfl rfl ?_, hsame.ge, ?_⟩
      · rw [hsame]
        exact h.room
      · rw [hsame]
        exact hsome
  | enabled row profile addedVia addedByAdminId known disabled room =>
      set a : Administrator := { row with profile, addedVia, addedByAdminId, disabledAt := none }
        with ha
      have hcount := count_replaced (a := a) known
      have hactive : a.active = true := rfl
      rw [disabled, if_neg Bool.false_ne_true, if_pos hactive] at hcount
      refine ⟨h.replaced known rfl rfl ?_, ?_, ?_⟩ <;> omega
  | added a new active absent room =>
      have hnone : s.administrators.get a.id = none := by
        cases hget : s.administrators.get a.id with
        | none => rfl
        | some b =>
            have hkey := h.administrator a.id b hget
            omega
      have hcount := count_putAdministrator s a
      rw [hnone, List.countP_singleton, if_pos active] at hcount
      simp only [Option.toList_none, List.countP_nil, Nat.add_zero] at hcount
      have hroom : (s.putAdministrator a).countActiveAdministrators ≤ maxAdministrators := by omega
      refine ⟨h.added new absent hroom, ?_, ?_⟩
      · change _ ≤ (s.putAdministrator a).countActiveAdministrators
        omega
      · change 0 < (s.putAdministrator a).countActiveAdministrators
        omega

theorem Disabled.sound {s s' : State} {id : Nat} (h : Sound s) (hdisabled : Disabled s id s') :
    Sound s' ∧ 0 < s'.countActiveAdministrators := by
  cases hdisabled with
  | intro row now known active others =>
      set a : Administrator := { row with disabledAt := some now } with ha
      have hkey := h.administrator id row known
      have hknown : s.administrators.get row.id = some row := by rw [hkey.1, known]
      have hcount := count_replaced (a := a) hknown
      have hinactive : a.active = false := rfl
      rw [if_pos active, hinactive, if_neg Bool.false_ne_true] at hcount
      have hroom := h.room
      refine ⟨h.replaced hknown rfl rfl ?_, ?_⟩ <;> omega

/-- Invitations have nothing to do with administrators. -/
theorem Sound.putInvitation {s : State} (h : Sound s) {i row : Invitation}
    (hrow : s.invitations.get i.id = some row) : Sound (s.putInvitation i) where
  administrator := h.administrator
  identity := h.identity
  room := h.room
  invitation := by
    intro id j hj
    change (s.invitations.set i.id i).get id = some j at hj
    rw [Table.get_set] at hj
    split at hj
    · next heq =>
        rw [Option.some.injEq] at hj
        subst hj
        exact ⟨heq.symm, heq ▸ (h.invitation _ row hrow).2⟩
    · exact h.invitation id j hj

theorem Sound.invited {s : State} (h : Sound s) {i : Invitation} (hnew : i.id = s.nextId) :
    Sound { s.putInvitation i with nextId := i.id + 1 } where
  administrator id a ha := by
    have hkey := h.administrator id a ha
    exact ⟨hkey.1, Nat.lt_succ_of_lt (hnew ▸ hkey.2)⟩
  identity := h.identity
  room := h.room
  invitation := by
    intro id j hj
    change (s.invitations.set i.id i).get id = some j at hj
    rw [Table.get_set] at hj
    split at hj
    · next heq =>
        rw [Option.some.injEq] at hj
        subst hj
        exact ⟨heq.symm, heq ▸ Nat.lt_succ_self _⟩
    · have hkey := h.invitation id j hj
      exact ⟨hkey.1, Nat.lt_succ_of_lt (hnew ▸ hkey.2)⟩

theorem Sound.withSessions {s : State} (h : Sound s) (sessions : Table Text OperatorSession) :
    Sound { s with sessions } :=
  ⟨h.administrator, h.invitation, h.identity, h.room⟩

theorem Decided.sound {s s' : State} {id : Nat} (h : Sound s) (hdecided : Decided s id s') :
    Sound s' ∧ s'.countActiveAdministrators = s.countActiveAdministrators := by
  cases hdecided with
  | intro row row' known undecided closed same =>
      have hkey := h.invitation id row known
      have hrow : s.invitations.get row'.id = some row := by rw [same, hkey.1, known]
      exact ⟨h.putInvitation hrow, rfl⟩

/-- Whatever is done keeps the tables sound, and where there was an
    administrator there is one still. -/
theorem Did.sound {s s' : State} (h : Sound s) (hdid : Did s s') :
    Sound s' ∧ (0 < s.countActiveAdministrators → 0 < s'.countActiveAdministrators) := by
  cases hdid with
  | sessions sessions => exact ⟨h.withSessions sessions, id⟩
  | admitted s' admitted =>
      have hadmitted := admitted.sound h
      exact ⟨hadmitted.1, fun _ => hadmitted.2.2⟩
  | touched row lastLoginAt known =>
      have hcount := count_replaced (a := { row with lastLoginAt }) known
      have hactive : ({ row with lastLoginAt } : Administrator).active = row.active := rfl
      have hroom := h.room
      rw [hactive] at hcount
      refine ⟨h.replaced known rfl rfl ?_, ?_⟩ <;> omega
  | invited i new undecided => exact ⟨h.invited new, id⟩
  | consumed row row' known same kept => exact ⟨h.putInvitation (same ▸ known), id⟩

/-! ### What the rows do -/

/-- Nobody is let in past the maximum, and who is let in is admitted. -/
theorem insertAdministratorRow_cases {s : State} (h : Sound s) (now : Int)
    (input : NewAdministrator) :
    (∃ a s', insertAdministratorRow now input s = (.ok a, s') ∧ Admitted s s') ∨
      insertAdministratorRow now input s = (.error .maximum, s) := by
  have hid : ∀ row, s.known input.identity = some row →
      s.administrators.get row.id = some row ∧ row.identity = input.identity := by
    intro row hrow
    rcases known_mem hrow with ⟨hidentity, id, hget⟩
    rw [(h.administrator id row hget).1]
    exact ⟨hget, hidentity⟩
  unfold insertAdministratorRow
  rw [reads_bind]
  cases hknown : s.known input.identity with
  | none =>
      simp only [Option.filter_none, reads_bind]
      by_cases hroom : maxAdministrators ≤ s.countActiveAdministrators
      · rw [if_pos hroom]
        exact .inr rfl
      · rw [if_neg hroom]
        simp only [reads_bind, writes_bind]
        refine .inl ⟨_, _, rfl, .added _ rfl ?_ hknown (Nat.lt_of_not_le hroom)⟩
        rfl
  | some row =>
      rcases hid row hknown with ⟨hget, _⟩
      cases hactive : row.active with
      | true =>
          simp only [Option.filter_some_pos hactive, writes_bind]
          exact .inl ⟨_, _, rfl, .renamed row input.profile hget hactive⟩
      | false =>
          have hfilter : (some row).filter Administrator.active = none :=
            Option.filter_some_neg (by simp [hactive])
          simp only [hfilter, reads_bind]
          by_cases hroom : maxAdministrators ≤ s.countActiveAdministrators
          · rw [if_pos hroom]
            exact .inr rfl
          · rw [if_neg hroom]
            simp only [writes_bind]
            exact .inl ⟨_, _, rfl, .enabled row input.profile input.addedVia input.addedByAdminId
              hget hactive (Nat.lt_of_not_le hroom)⟩

/-- Whether somebody can be removed: an active administrator who is not the last. -/
def State.removable (s : State) (id : Nat) : Bool :=
  (s.activeAdministrator id).isSome && 1 < s.countActiveAdministrators

theorem disableAdministratorRow_cases (s : State) (now : Int) (id : Nat) :
    (∃ row s', disableAdministratorRow now id s = (.ok (some row), s') ∧ Disabled s id s' ∧
      s.removable id = true ∧ s'.sessions = s.sessions) ∨
      disableAdministratorRow now id s = (.ok none, s) ∧ s.removable id = false := by
  unfold disableAdministratorRow State.removable
  rw [reads_bind]
  cases hrow : s.activeAdministrator id with
  | none => exact .inr ⟨rfl, rfl⟩
  | some row =>
      rcases Option.filter_eq_some_iff.mp hrow with ⟨hget, hactive⟩
      simp only [Option.isSome_some, Bool.true_and, reads_bind]
      by_cases hlast : s.countActiveAdministrators ≤ 1
      · rw [if_pos hlast]
        exact .inr ⟨rfl, decide_eq_false (by omega)⟩
      · rw [if_neg hlast]
        simp only [writes_bind]
        exact .inl ⟨_, _, rfl, .intro row now hget hactive (by omega), decide_eq_true (by omega),
          rfl⟩

/-- A candidate who is decided was waiting. -/
theorem decidePendingRow_cases (s : State) (now : Int) (id decidedByAdminId : Nat)
    (decision : Decision) :
    (∃ row s', decidePendingRow now id decidedByAdminId decision s = (.ok (some row), s') ∧ Decided s id s') ∨
      decidePendingRow now id decidedByAdminId decision s = (.ok none, s) := by
  unfold decidePendingRow
  rw [reads_bind]
  cases hrow : (s.invitations.get id).filter fun i => i.consumedAt.isSome && i.decision.isNone with
  | none => exact .inr rfl
  | some row =>
      rcases Option.filter_eq_some_iff.mp hrow with ⟨hget, hwaits⟩
      rw [Bool.and_eq_true, Option.isNone_iff_eq_none] at hwaits
      simp only [writes_bind]
      exact .inl ⟨row, _, rfl, .intro row _ hget hwaits.2 rfl rfl⟩

theorem createInvitation_cases (s : State) (now : Int) (tokenHash : Text) (createdByAdminId : Nat)
    (expiresAt : Int) :
    (∃ i, createInvitation now tokenHash createdByAdminId expiresAt s =
        (.ok i, { s.putInvitation i with nextId := i.id + 1 }) ∧
      i.id = s.nextId ∧ i.decision = none) ∨
      createInvitation now tokenHash createdByAdminId expiresAt s = (.error .constraint, s) := by
  unfold createInvitation
  rw [reads_bind]
  split
  · exact .inr rfl
  · exact .inl ⟨_, rfl, rfl, rfl⟩

/-! ### What one operation comes to -/

/-- The invitation an operation decides, where it succeeds. -/
def Op.decides : Op → Option Nat
  | .approveCandidate id _ | .rejectCandidate id _ | .revokeInvitation id => some id
  | _ => none

/-- The administrator an operation removes, where it succeeds. -/
def Op.removes : Op → Option Nat
  | .disableAdministrator id | .disableAdministratorAndRevoke id => some id
  | _ => none

/-- The caller is told that something was done. -/
def Answer.yes : Answer → Bool
  | .administrator a => a.isSome
  | .invitation i => i.isSome
  | .said b => b
  | .sessions _ | .done => true

/-- What one operation comes to: what is answered, and the tables after it. -/
inductive Outcome (s : State) : Op → Except Failure Answer → State → Prop where
  | failed (op : Op) (e : Failure) (stays : op.removes = none) : Outcome s op (.error e) s
  | refused (op : Op) (answer : Answer) (no : answer.yes = false)
      (fixed : ∀ id, op.removes = some id → s.removable id = false) : Outcome s op (.ok answer) s
  | kept (id : Nat) (answer : Answer) (fixed : s.removable id = false) :
      Outcome s (.disableAdministratorAndRevoke id) (.ok answer) s
  | did (op : Op) (answer : Answer) (s' : State) (undecided : op.decides = none)
      (stays : op.removes = none) (yes : answer.yes = true) (did : Did s s') :
      Outcome s op (.ok answer) s'
  | decided (op : Op) (id : Nat) (answer : Answer) (s' : State) (decides : op.decides = some id)
      (stays : op.removes = none) (yes : answer.yes = true) (decided : Decided s id s') :
      Outcome s op (.ok answer) s'
  | approved (op : Op) (id : Nat) (answer : Answer) (s₁ s' : State)
      (decides : op.decides = some id) (stays : op.removes = none) (yes : answer.yes = true)
      (decided : Decided s id s₁) (admitted : Admitted s₁ s') : Outcome s op (.ok answer) s'
  | disabled (id : Nat) (s' : State) (removable : s.removable id = true)
      (disabled : Disabled s id s') (sessions : s'.sessions = s.sessions) :
      Outcome s (.disableAdministrator id) (.ok (.said true)) s'
  | removed (id : Nat) (now : Int) (answer : Answer) (s' : State)
      (removable : s.removable id = true) (yes : answer.yes = true) (disabled : Disabled s id s') :
      Outcome s (.disableAdministratorAndRevoke id) (.ok answer) (s'.revoke now (·.belongs id))

theorem atomically_ok {α : Type} {work : Store α} {s t : State} {a : α}
    (h : work s = (.ok a, t)) : atomically work s = (.ok a, t) := by
  unfold atomically transaction
  rw [h]

theorem atomically_error {α : Type} {work : Store α} {s t : State} {e : Failure}
    (h : work s = (.error e, t)) : atomically work s = (.error e, s) := by
  unfold atomically transaction
  rw [h]

/-- An operation does one of a few things. -/
theorem operate_outcome {s : State} (h : Sound s) (now : Int) (op : Op) :
    Outcome s op (operate now op s).1 (operate now op s).2 := by
  -- An operation is first worked out, and then said to be one of the outcomes.
  have houtcome : ∀ {result : Except Failure Answer} {s' : State},
      operate now op s = (result, s') → Outcome s op result s' →
        Outcome s op (operate now op s).1 (operate now op s).2 := by
    intro result s' heq hresult
    rw [heq]
    exact hresult
  cases op with
  -- Rows of administrators come and go.
  | insertAdministrator input =>
      rcases insertAdministratorRow_cases h now input with ⟨a, s', hrow, hadmitted⟩ | hrow
      · exact houtcome (bind_ok (atomically_ok hrow))
          (.did _ _ _ rfl rfl rfl (.admitted s' hadmitted))
      · exact houtcome (bind_error (atomically_error hrow)) (.failed _ _ rfl)
  | claimFirstAdministrator identity profile =>
      -- Whoever comes second finds the Host claimed, and nothing is written.
      by_cases hclaimed : 0 < s.countActiveAdministrators
      · refine houtcome (bind_ok (atomically_ok (a := none) ?_)) (.refused _ _ rfl fun _ hid => by cases hid)
        rw [reads_bind, if_pos hclaimed]
        rfl
      · rcases insertAdministratorRow_cases h now
          { identity, profile, addedVia := ofString "claim" } with ⟨a, s', hrow, hadmitted⟩ | hrow
        · refine houtcome (bind_ok (atomically_ok (a := some a) ?_))
            (.did _ _ _ rfl rfl rfl (.admitted s' hadmitted))
          rw [reads_bind, if_neg hclaimed, bind_ok hrow]
          rfl
        · refine houtcome (bind_error (e := .maximum) (atomically_error (t := s) ?_)) (.failed _ _ rfl)
          rw [reads_bind, if_neg hclaimed, bind_error hrow]
  | disableAdministrator id =>
      rcases disableAdministratorRow_cases s now id with
        ⟨row, s', hrow, hdisabled, hremovable, hsessions⟩ | ⟨hrow, hfixed⟩
      · exact houtcome (bind_ok (atomically_ok (bind_ok hrow)))
          (.disabled id s' hremovable hdisabled hsessions)
      · refine houtcome (bind_ok (atomically_ok (bind_ok hrow))) (.refused _ _ rfl fun id' hid => ?_)
        rw [← Option.some.inj hid]
        exact hfixed
  | disableAdministratorAndRevoke id =>
      rcases disableAdministratorRow_cases s now id with
        ⟨row, s', hrow, hdisabled, hremovable, _⟩ | ⟨hrow, hfixed⟩
      · exact houtcome (bind_ok (atomically_ok (bind_ok hrow)))
          (.removed id now _ s' hremovable rfl hdisabled)
      · exact houtcome (bind_ok (atomically_ok (bind_ok hrow))) (.kept id _ hfixed)
  -- What is written of a login or a session decides nothing.
  | touchAdministratorLogin id lastLoginAt =>
      refine @houtcome (.ok .done) _ rfl (.did _ _ _ rfl rfl rfl ?_)
      cases hrow : s.administrators.get id with
      | none =>
          simp only [hrow]
          exact .sessions s.sessions
      | some row =>
          have hid := (h.administrator id row hrow).1
          simp only [hrow]
          exact .touched row _ (by rw [hid, hrow])
  | insertOperatorSession session =>
      cases hrow : s.sessions.get session.tokenHash with
      | none =>
          refine houtcome (bind_ok (a := ()) ?_)
            (.did _ _ _ rfl rfl rfl (.sessions (s.sessions.set session.tokenHash session)))
          unfold insertOperatorSession
          rw [reads_bind, hrow]
          rfl
      | some row =>
          refine houtcome (bind_error (e := .constraint) (t := s) ?_) (.failed _ _ rfl)
          unfold insertOperatorSession
          rw [reads_bind, hrow]
          rfl
  | touchOperatorSession tokenHash lastSeenAt =>
      refine @houtcome (.ok .done) _ rfl (.did _ _ _ rfl rfl rfl ?_)
      cases hrow : s.sessions.get tokenHash with
      | none =>
          simp only [hrow]
          exact .sessions s.sessions
      | some row =>
          simp only [hrow]
          exact .sessions _
  | revokeOperatorSession tokenHash =>
      exact houtcome rfl (.did _ _ _ rfl rfl rfl (.sessions _))
  | revokeAllOperatorSessions => exact houtcome rfl (.did _ _ _ rfl rfl rfl (.sessions _))
  | revokeSessionsForAdministrator id => exact houtcome rfl (.did _ _ _ rfl rfl rfl (.sessions _))
  | revokeSessionsByMethod authMethod => exact houtcome rfl (.did _ _ _ rfl rfl rfl (.sessions _))
  | deleteExpiredOperatorSessions => exact houtcome rfl (.did _ _ _ rfl rfl rfl (.sessions _))
  -- Invitations are made, redeemed and decided.
  | createInvitation tokenHash createdByAdminId expiresAt =>
      rcases createInvitation_cases s now tokenHash createdByAdminId expiresAt with
        ⟨i, hcreate, hnew, hundecided⟩ | hcreate
      · exact houtcome (bind_ok hcreate) (.did _ _ _ rfl rfl rfl (.invited i hnew hundecided))
      · exact houtcome (bind_error hcreate) (.failed _ _ rfl)
  | consumeInvitation tokenHash candidate candidateProfile =>
      cases hrow : s.invitations.values.find? fun i =>
          i.tokenHash = tokenHash && i.consumedAt.isNone && now < i.expiresAt with
      | none =>
          refine houtcome (bind_ok (atomically_ok (a := none) (t := s) ?_)) (.refused _ _ rfl fun _ hid => by cases hid)
          rw [reads_bind, hrow]
          rfl
      | some row =>
          rcases (s.invitations.mem_values_iff row).mp (List.mem_of_find?_eq_some hrow) with
            ⟨id, hget⟩
          have hid := (h.invitation id row hget).1
          refine houtcome (bind_ok (atomically_ok (a := some { row with
            consumedAt := some now
            candidate
            candidateProfile }) ?_)) (.did _ _ _ rfl rfl rfl (.consumed row { row with
              consumedAt := some now
              candidate
              candidateProfile } (by rw [hid, hget]) rfl rfl))
          rw [reads_bind, hrow]
          rfl
  | approveCandidate invitationId decidedByAdminId =>
      rcases decidePendingRow_cases s now invitationId decidedByAdminId .approved with
        ⟨row, s₁, hrow, hdecided⟩ | hrow
      · -- The decision and the new row are one transaction: without room for the row, the
        -- invitation stays undecided.
        rcases insertAdministratorRow_cases (hdecided.sound h).1 now
          { identity := row.candidate
            profile := row.candidateProfile
            addedVia := ofString "invitation"
            addedByAdminId := some decidedByAdminId } with ⟨a, s', hinsert, hadmitted⟩ | hinsert
        · refine houtcome (bind_ok (atomically_ok (a := some a) (t := s') ?_))
            (.approved _ invitationId _ s₁ s' rfl rfl rfl hdecided hadmitted)
          rw [bind_ok hrow]
          exact bind_ok hinsert
        · refine houtcome (bind_error (e := .maximum) (atomically_error (t := s₁) ?_))
            (.failed _ _ rfl)
          rw [bind_ok hrow]
          exact bind_error hinsert
      · refine houtcome (bind_ok (atomically_ok (a := none) (t := s) ?_)) (.refused _ _ rfl fun _ hid => by cases hid)
        rw [bind_ok hrow]
        rfl
  | rejectCandidate invitationId decidedByAdminId =>
      rcases decidePendingRow_cases s now invitationId decidedByAdminId .rejected with
        ⟨row, s₁, hrow, hdecided⟩ | hrow
      · exact houtcome (bind_ok (atomically_ok (bind_ok hrow)))
          (.decided _ invitationId _ s₁ rfl rfl rfl hdecided)
      · exact houtcome (bind_ok (atomically_ok (bind_ok hrow))) (.refused _ _ rfl fun _ hid => by cases hid)
  | revokeInvitation invitationId =>
      cases hrow : (s.invitations.get invitationId).filter fun i => i.decision.isNone with
      | none =>
          refine houtcome (bind_ok (a := false) (t := s) ?_) (.refused _ _ rfl fun _ hid => by cases hid)
          unfold revokeInvitation
          rw [reads_bind, hrow]
          rfl
      | some row =>
          rcases Option.filter_eq_some_iff.mp hrow with ⟨hget, hopen⟩
          refine houtcome (bind_ok (a := true) ?_) (.decided _ invitationId _ _ rfl rfl rfl
            (.intro row { row with
              decision := some .revoked
              decidedAt := some now
              consumedAt := some (row.consumedAt.getD now) } hget
              (Option.isNone_iff_eq_none.mp hopen) rfl rfl))
          unfold revokeInvitation
          rw [reads_bind, hrow]
          rfl

/-! ### Every operation -/

/-- Every operation keeps the tables sound, and where there was an
    administrator there is one still. -/
theorem Outcome.sound {s s' : State} {op : Op} {result : Except Failure Answer} (h : Sound s)
    (houtcome : Outcome s op result s') :
    Sound s' ∧ (0 < s.countActiveAdministrators → 0 < s'.countActiveAdministrators) := by
  cases houtcome with
  | failed => exact ⟨h, id⟩
  | refused => exact ⟨h, id⟩
  | kept => exact ⟨h, id⟩
  | did _ answer _ undecided stays yes did => exact did.sound h
  | decided _ id answer _ decides stays yes decided =>
      have hdecided := decided.sound h
      exact ⟨hdecided.1, fun hsome => hdecided.2 ▸ hsome⟩
  | approved _ id answer s₁ _ decides stays yes decided admitted =>
      have hadmitted := admitted.sound (decided.sound h).1
      exact ⟨hadmitted.1, fun _ => hadmitted.2.2⟩
  | disabled id _ removable disabled sessions =>
      have hdisabled := disabled.sound h
      exact ⟨hdisabled.1, fun _ => hdisabled.2⟩
  | removed id now answer s₁ removable yes disabled =>
      have hdisabled := disabled.sound h
      exact ⟨hdisabled.1.withSessions _, fun _ => hdisabled.2⟩

/-- Every run keeps the tables sound. -/
theorem reached_sound (inputs : List (Int × Op)) : Sound (reached inputs) :=
  Run.invariant step Sound (fun _ input h => ((operate_outcome h input.1 input.2).sound h).1)
    inputs {} sound_empty

/-- An operation that throws, says that it did nothing, or would remove
    somebody who cannot be removed. -/
def Refused (s : State) (op : Op) : Except Failure Answer → Prop
  | .error _ => True
  | .ok answer => answer.yes = false ∨ ∃ id, op.removes = some id ∧ s.removable id = false

theorem Outcome.unchanged {s s' : State} {op : Op} {result : Except Failure Answer}
    (houtcome : Outcome s op result s') (hrefused : Refused s op result) : s' = s := by
  have hno : ∀ {answer : Answer} (id : Nat), answer.yes = true →
      (op.removes = none ∨ op.removes = some id ∧ s.removable id = true) →
        ¬ Refused s op (.ok answer) := by
    intro answer id hyes hstays hrefused
    rcases hrefused with hsaid | ⟨id', hremoves, hfixed⟩
    · rw [hyes] at hsaid
      cases hsaid
    · rcases hstays with hnone | ⟨hsome, hremovable⟩
      · rw [hnone] at hremoves
        cases hremoves
      · rw [hsome, Option.some.injEq] at hremoves
        rw [← hremoves, hremovable] at hfixed
        cases hfixed
  cases houtcome with
  | failed => rfl
  | refused => rfl
  | kept => rfl
  | did _ answer _ undecided stays yes did => exact absurd hrefused (hno 0 yes (.inl stays))
  | decided _ id answer _ decides stays yes decided =>
      exact absurd hrefused (hno 0 yes (.inl stays))
  | approved _ id answer s₁ _ decides stays yes decided admitted =>
      exact absurd hrefused (hno 0 yes (.inl stays))
  | disabled id _ removable disabled sessions =>
      exact absurd hrefused (hno id rfl (.inr ⟨rfl, removable⟩))
  | removed id now answer s₁ removable yes disabled =>
      exact absurd hrefused (hno id yes (.inr ⟨rfl, removable⟩))

/-! ### Decisions -/

/-- 1 once an invitation is decided. -/
def phase (s : State) (id : Nat) : Nat :=
  match s.invitations.get id with
  | some i => if i.decision.isSome then 1 else 0
  | none => 0

/-- The invitation an operation decides. -/
def decisions (s : State) (input : Int × Op) : List Nat :=
  match (operate input.1 input.2 s).1 with
  | .ok answer => if answer.yes then input.2.decides.toList else []
  | .error _ => []

/-- The invitation an operation makes somebody an administrator by. -/
def admissions (s : State) (input : Int × Op) : List Nat :=
  match input.2 with
  | .approveCandidate _ _ => decisions s input
  | _ => []

theorem Admitted.invitations {s s' : State} (h : Admitted s s') : s'.invitations = s.invitations := by
  cases h <;> rfl

theorem Disabled.invitations {s s' : State} {id : Nat} (h : Disabled s id s') :
    s'.invitations = s.invitations := by
  cases h
  rfl

/-- A decision is the first of its invitation, and leaves the others alone. -/
theorem Decided.phase {s s' : State} {id : Nat} (hs : Sound s) (h : Decided s id s') (k : Nat) :
    phase s' k = if k = id then 1 else phase s k := by
  cases h with
  | intro row row' known undecided closed same =>
      have hid : row'.id = id := same.trans (hs.invitation id row known).1
      unfold Administrators.phase
      change (match (s.invitations.set row'.id row').get k with
        | some i => if i.decision.isSome then 1 else 0
        | none => 0) = _
      rw [Table.get_set, hid]
      by_cases hk : k = id
      · rw [if_pos hk, if_pos hk]
        simp only [closed, if_true]
      · rw [if_neg hk, if_neg hk]

theorem Decided.open {s s' : State} {id : Nat} (h : Decided s id s') : Administrators.phase s id = 0 := by
  cases h with
  | intro row row' known undecided closed same =>
      unfold Administrators.phase
      rw [known]
      simp only [undecided, Option.isSome_none, Bool.false_eq_true, if_false]

theorem phase_le_one (s : State) (id : Nat) : phase s id ≤ 1 := by
  unfold phase
  split
  · split <;> omega
  · omega

theorem Did.phase {s s' : State} (hs : Sound s) (h : Did s s') (k : Nat) :
    Administrators.phase s' k = Administrators.phase s k := by
  cases h with
  | sessions => rfl
  | admitted _ admitted =>
      unfold Administrators.phase
      rw [admitted.invitations]
  | touched => rfl
  | invited i new undecided =>
      unfold Administrators.phase
      change (match (s.invitations.set i.id i).get k with
        | some i => if i.decision.isSome then 1 else 0
        | none => 0) = _
      rw [Table.get_set]
      by_cases hk : k = i.id
      · have hnone : s.invitations.get k = none := by
          cases hget : s.invitations.get k with
          | none => rfl
          | some j =>
              have hkey := hs.invitation k j hget
              omega
        rw [if_pos hk, hnone]
        simp only [undecided, Option.isSome_none, Bool.false_eq_true, if_false]
      · rw [if_neg hk]
  | consumed row row' known same kept =>
      unfold Administrators.phase
      change (match (s.invitations.set row'.id row').get k with
        | some i => if i.decision.isSome then 1 else 0
        | none => 0) = _
      rw [Table.get_set]
      by_cases hk : k = row'.id
      · rw [if_pos hk, hk, same, known]
        simp only [kept]
      · rw [if_neg hk]

/-- An operation decides at most one invitation, which nobody had decided. -/
theorem Outcome.phase {s s' : State} {op : Op} {result : Except Failure Answer} (hs : Sound s)
    (h : Outcome s op result s') :
    (∀ k, Administrators.phase s' k = Administrators.phase s k) ∧
        (∀ answer, result = .ok answer → answer.yes = true → op.decides = none) ∨
      ∃ id, op.decides = some id ∧ Administrators.phase s id = 0 ∧
        ∀ k, Administrators.phase s' k = if k = id then 1 else Administrators.phase s k := by
  cases h with
  | failed => exact .inl ⟨fun _ => rfl, fun _ heq => nomatch heq⟩
  | refused _ answer no fixed =>
      refine .inl ⟨fun _ => rfl, fun other heq hyes => ?_⟩
      cases heq
      rw [no] at hyes
      cases hyes
  | kept => exact .inl ⟨fun _ => rfl, fun _ _ _ => rfl⟩
  | did _ answer _ undecided stays yes did =>
      exact .inl ⟨did.phase hs, fun _ _ _ => undecided⟩
  | decided _ id answer _ decides stays yes decided =>
      exact .inr ⟨id, decides, decided.open, decided.phase hs⟩
  | approved _ id answer s₁ _ decides stays yes decided admitted =>
      refine .inr ⟨id, decides, decided.open, fun k => ?_⟩
      rw [← decided.phase hs k]
      unfold Administrators.phase
      rw [admitted.invitations]
  | disabled id _ removable disabled sessions =>
      refine .inl ⟨fun k => ?_, fun _ _ _ => rfl⟩
      unfold Administrators.phase
      rw [disabled.invitations]
  | removed id now answer s₁ removable yes disabled =>
      refine .inl ⟨fun k => ?_, fun _ _ _ => rfl⟩
      unfold Administrators.phase
      change (match s₁.invitations.get k with
        | some i => if i.decision.isSome then 1 else 0
        | none => 0) = _
      rw [disabled.invitations]

/-- An invitation is decided at most once. -/
theorem step_forward :
    Once.Forward step decisions Sound (fun _ _ => True) phase 1 where
  keeps s input h _ := ((operate_outcome h input.1 input.2).sound h).1
  grows := by
    intro s input k h _
    rcases (operate_outcome h input.1 input.2).phase h with ⟨hsame, _⟩ | ⟨id, _, hopen, hphase⟩
    · exact (hsame k).ge
    · unfold step
      rw [hphase k]
      split
      · exact phase_le_one s k
      · exact le_rfl
  crosses := by
    intro s input k h _ hk
    have hphase := (operate_outcome h input.1 input.2).phase h
    unfold decisions at hk
    cases hresult : (operate input.1 input.2 s).1 with
    | error e =>
        rw [hresult] at hk
        exact absurd hk List.not_mem_nil
    | ok answer =>
        rw [hresult] at hk
        simp only at hk
        by_cases hyes : answer.yes = true
        · rw [if_pos hyes] at hk
          -- A yes is an answer of the one operation that decides, and the request was open.
          rcases hphase with ⟨_, hnone⟩ | ⟨id, hdecides, hopen, hset⟩
          · rw [hnone answer hresult hyes] at hk
            exact absurd hk List.not_mem_nil
          · rw [hdecides, Option.toList_some, List.mem_singleton] at hk
            subst hk
            unfold step
            rw [hopen, hset k, if_pos rfl]
            exact ⟨Nat.one_pos, le_rfl⟩
        · rw [if_neg hyes] at hk
          exact absurd hk List.not_mem_nil
  single := by
    intro s input _ _
    unfold decisions
    cases (operate input.1 input.2 s).1 with
    | error e => exact List.nodup_nil
    | ok answer =>
        simp only
        split
        · cases input.2.decides with
          | none => exact List.nodup_nil
          | some id => exact List.nodup_singleton id
        · exact List.nodup_nil

/-! ### Removals -/

/-- Somebody is an administrator before, and is none after. -/
def Removed (s s' : State) (id : Nat) : Prop :=
  (s.activeAdministrator id).isSome = true ∧ s'.activeAdministrator id = none

/-- Whoever is removed has no session left. -/
def Revokes (s s' : State) : Prop :=
  ∀ id, Removed s s' id → ∀ session ∈ s'.sessions.values, session.belongs id = true →
    session.revokedAt.isSome = true

/-- A removal that touches no session, of somebody who has one. -/
def Leaves (s : State) (op : Op) : Prop :=
  ∃ id, op = .disableAdministrator id ∧ s.removable id = true ∧
    ∃ session ∈ s.sessions.values, session.belongs id = true ∧ session.revokedAt = none

theorem activeAdministrator_put (s : State) (a : Administrator) (id : Nat) :
    (s.putAdministrator a).activeAdministrator id =
      if id = a.id then (some a).filter Administrator.active else s.activeAdministrator id := by
  unfold State.activeAdministrator
  rw [putAdministrator_administrators, Table.get_set]
  split <;> rfl

/-- A row that is written with an administrator in it removes nobody. -/
theorem stays_put {s : State} {a : Administrator} {id : Nat}
    (h : (s.activeAdministrator id).isSome = true) (ha : id = a.id → a.active = true) :
    ((s.putAdministrator a).activeAdministrator id).isSome = true := by
  rw [activeAdministrator_put]
  split
  · next heq =>
      rw [Option.filter_some_pos (ha heq)]
      rfl
  · exact h

theorem Admitted.stays {s s' : State} (hadmitted : Admitted s s') {id : Nat}
    (h : (s.activeAdministrator id).isSome = true) : (s'.activeAdministrator id).isSome = true := by
  cases hadmitted with
  | renamed row profile known active => exact stays_put h fun _ => active
  | enabled row profile addedVia addedByAdminId known disabled room => exact stays_put h fun _ => rfl
  | added a new active absent room => exact stays_put h fun _ => active

theorem Did.stays {s s' : State} (hdid : Did s s') {id : Nat}
    (h : (s.activeAdministrator id).isSome = true) : (s'.activeAdministrator id).isSome = true := by
  cases hdid with
  | sessions => exact h
  | admitted _ admitted => exact admitted.stays h
  | touched row lastLoginAt known =>
      refine stays_put h fun heq => ?_
      change id = row.id at heq
      unfold State.activeAdministrator at h
      rw [heq, known] at h
      rcases Option.isSome_iff_exists.mp h with ⟨row', hrow'⟩
      rcases Option.filter_eq_some_iff.mp hrow' with ⟨hsame, hactive⟩
      rw [← Option.some.inj hsame] at hactive
      exact hactive
  | invited => exact h
  | consumed => exact h

theorem Decided.stays {s s' : State} {id k : Nat} (h : Decided s id s') :
    s'.activeAdministrator k = s.activeAdministrator k := by
  cases h
  rfl

/-- Only the one who is removed is gone. -/
theorem Disabled.activeAdministrator {s s' : State} {id : Nat} (hs : Sound s)
    (h : Disabled s id s') (k : Nat) :
    s'.activeAdministrator k = if k = id then none else s.activeAdministrator k := by
  cases h with
  | intro row now known active others =>
      have hid : row.id = id := (hs.administrator id row known).1
      rw [activeAdministrator_put]
      change (if k = row.id then _ else _) = _
      rw [hid]
      split
      · exact Option.filter_some_neg (by simp [Administrator.active])
      · rfl

theorem revokes_of_stays {s s' : State}
    (h : ∀ id, (s.activeAdministrator id).isSome = true → (s'.activeAdministrator id).isSome = true) :
    Revokes s s' := by
  intro id hremoved
  have hsome := h id hremoved.1
  rw [hremoved.2] at hsome
  cases hsome

/-- A removal revokes what it must, except where it leaves a session. -/
theorem Outcome.revokes {s s' : State} {op : Op} {result : Except Failure Answer} (hs : Sound s)
    (h : Outcome s op result s') : Revokes s s' ↔ ¬ Leaves s op := by
  -- Only an operation that removes a removable account leaves sessions behind.
  have hnot : (∀ id, op.removes = some id → s.removable id = false) → ¬ Leaves s op := by
    rintro hfixed ⟨id, rfl, hremovable, _⟩
    rw [hfixed id rfl] at hremovable
    cases hremovable
  have hnone : op.removes = none → ¬ Leaves s op := fun hstays => hnot fun id hid => by
    rw [hstays] at hid
    cases hid
  cases h with
  | failed _ e stays => exact iff_of_true (revokes_of_stays fun _ h => h) (hnone stays)
  | refused _ answer no fixed => exact iff_of_true (revokes_of_stays fun _ h => h) (hnot fixed)
  | kept id answer fixed =>
      exact iff_of_true (revokes_of_stays fun _ h => h) fun ⟨_, heq, _⟩ => nomatch heq
  | did _ answer _ undecided stays yes did =>
      exact iff_of_true (revokes_of_stays fun _ => did.stays) (hnone stays)
  | decided _ id answer _ decides stays yes decided =>
      exact iff_of_true (revokes_of_stays fun _ h => by rwa [decided.stays]) (hnone stays)
  | approved _ id answer s₁ _ decides stays yes decided admitted =>
      refine iff_of_true (revokes_of_stays fun k h => admitted.stays ?_) (hnone stays)
      rwa [decided.stays]
  | disabled id _ removable disabled sessions =>
      -- `disableAdministrator` touches no session: those that were live are live after it.
      have hactive : (s.activeAdministrator id).isSome = true := (Bool.and_eq_true_iff.mp removable).1
      constructor
      · rintro hrevokes ⟨id', heq, _, session, hsession, hbelongs, hlive⟩
        cases heq
        have hremoved : Removed s s' id :=
          ⟨hactive, by rw [disabled.activeAdministrator hs, if_pos rfl]⟩
        have hrevoked := hrevokes id hremoved session (sessions ▸ hsession) hbelongs
        rw [hlive] at hrevoked
        cases hrevoked
      · intro hleaves k hremoved session hsession hbelongs
        have hk : k = id := by
          by_contra hne
          have hgone := hremoved.2
          have hwas := hremoved.1
          rw [disabled.activeAdministrator hs, if_neg hne] at hgone
          rw [hgone] at hwas
          cases hwas
        rw [sessions] at hsession
        cases hrevoked : session.revokedAt with
        | none => exact absurd ⟨id, rfl, removable, session, hsession, hk ▸ hbelongs, hrevoked⟩ hleaves
        | some _ => rfl
  | removed id now answer s₁ removable yes disabled =>
      refine iff_of_true (fun k hremoved session hsession hbelongs => ?_)
        fun ⟨_, heq, _⟩ => nomatch heq
      -- The route ends the sessions of the account in the commit that removes it.
      have hk : k = id := by
        by_contra hne
        have hgone : s₁.activeAdministrator k = none := hremoved.2
        have hwas := hremoved.1
        rw [disabled.activeAdministrator hs, if_neg hne] at hgone
        rw [hgone] at hwas
        cases hwas
      subst hk
      rcases (Table.mem_values_iff _ _).mp hsession with ⟨key, hget⟩
      change (s₁.sessions.mapValues _).get key = some session at hget
      rw [Table.get_mapValues, Option.map_eq_some_iff] at hget
      rcases hget with ⟨before, _, rfl⟩
      by_cases hlive : (before.belongs k && before.revokedAt.isNone) = true
      · rw [if_pos hlive]
        rfl
      · rw [if_neg hlive] at hbelongs ⊢
        rw [hbelongs, Bool.true_and] at hlive
        cases hrevoked : before.revokedAt with
        | none =>
            rw [hrevoked] at hlive
            exact absurd rfl hlive
        | some _ => rfl

/-! ### Runs -/

/-- What makes somebody an administrator is a decision. -/
theorem mem_decisions {s : State} {input : Int × Op} {id : Nat} (h : id ∈ admissions s input) :
    id ∈ decisions s input := by
  unfold admissions at h
  split at h
  · exact h
  · exact absurd h List.not_mem_nil

theorem step_admits_once :
    Once.Forward step admissions Sound (fun _ _ => True) phase 1 where
  keeps := step_forward.keeps
  grows := step_forward.grows
  crosses s input id h hok hid := step_forward.crosses s input id h hok (mem_decisions hid)
  single := by
    intro s input h hok
    unfold admissions
    split
    · exact step_forward.single s input h hok
    · exact List.nodup_nil

/-- Once there is an administrator there is always one. -/
theorem claimed_for_good {s : State} (h : Sound s) (hclaimed : 0 < s.countActiveAdministrators)
    (inputs : List (Int × Op)) : 0 < (Run.final step s inputs).countActiveAdministrators :=
  (Run.invariant step (fun s => Sound s ∧ 0 < s.countActiveAdministrators)
    (fun _ input hs =>
      have hnext := (operate_outcome hs.1 input.1 input.2).sound hs.1
      ⟨hnext.1, hnext.2 hs.2⟩) inputs s ⟨h, hclaimed⟩).2

/-- After any run: once there was an administrator there is one, and never too
    many; an active administrator is the only one of that person; no invitation
    was decided twice, and none made two administrators. Whatever is asked
    next, a refusal changes nothing, and whoever is removed has no session left
    exactly unless `disableAdministrator` removes somebody who has one. -/
theorem administrators_kept (inputs : List (Int × Op)) :
    ((∀ earlier later, inputs = earlier ++ later →
        0 < (reached earlier).countActiveAdministrators →
          0 < (reached inputs).countActiveAdministrators) ∧
      (reached inputs).countActiveAdministrators ≤ maxAdministrators ∧
        ∀ id a id' a', (reached inputs).activeAdministrator id = some a →
          (reached inputs).activeAdministrator id' = some a' → a.identity = a'.identity → id = id') ∧
      ((Once.released step decisions {} inputs).Nodup ∧
        (Once.released step admissions {} inputs).Nodup) ∧
        ∀ input : Int × Op,
          (Refused (reached inputs) input.2 (operate input.1 input.2 (reached inputs)).1 →
            step (reached inputs) input = reached inputs) ∧
            (Revokes (reached inputs) (step (reached inputs) input) ↔
              ¬ Leaves (reached inputs) input.2) := by
  have hsound := reached_sound inputs
  refine ⟨⟨?_, hsound.room, ?_⟩, ⟨?_, ?_⟩, fun input => ?_⟩
  · rintro earlier later rfl hclaimed
    unfold reached
    rw [Run.final_append]
    exact claimed_for_good (reached_sound earlier) hclaimed later
  · intro id a id' a' ha ha'
    exact hsound.identity id a id' a' (Option.filter_eq_some_iff.mp ha).1
      (Option.filter_eq_some_iff.mp ha').1
  · exact step_forward.released_nodup inputs {} sound_empty (Run.admits_of_forall (fun _ _ => trivial) _ _)
  · exact step_admits_once.released_nodup inputs {} sound_empty (Run.admits_of_forall (fun _ _ => trivial) _ _)
  · have houtcome := operate_outcome hsound input.1 input.2
    exact ⟨houtcome.unchanged, houtcome.revokes hsound⟩

/-- Two people are administrators, and the second has a session. -/
def signedInRun : List (Int × Op) :=
  [(0, .claimFirstAdministrator { tenantId := ofString "t", objectId := ofString "a" }
      { username := [], displayName := [] }),
   (1, .insertAdministrator
      { identity := { tenantId := ofString "t", objectId := ofString "b" }
        profile := { username := [], displayName := [] }
        addedVia := ofString "invitation"
        addedByAdminId := some 0 }),
   (2, .insertOperatorSession
      { tokenHash := ofString "h"
        administratorId := some 1
        authMethod := ofString "entra"
        authenticatedAt := 2
        lastSeenAt := 2
        expiresAt := 9 })]

/-- `disableAdministrator` leaves the session of whom it removes. -/
theorem removal_leaves_session :
    ¬ Revokes (reached signedInRun) (step (reached signedInRun) (3, .disableAdministrator 1)) := by
  refine fun hrevokes => ((operate_outcome (reached_sound signedInRun) 3
    (.disableAdministrator 1)).revokes (reached_sound signedInRun)).mp hrevokes ?_
  have hremovable : (reached signedInRun).removable 1 = true := by decide +kernel
  have hlive : ((reached signedInRun).sessions.values.any fun session =>
      session.belongs 1 && session.revokedAt.isNone) = true := by decide +kernel
  rcases List.any_eq_true.mp hlive with ⟨session, hmem, hsession⟩
  rw [Bool.and_eq_true, Option.isNone_iff_eq_none] at hsession
  exact ⟨1, rfl, hremovable, session, hmem, hsession⟩

end Administrators

end CopilotFleet
