import CopilotFleet.Lib.Run
import CopilotFleet.Node.CommandPermissions

/-!
# Revoking Command Permissions

Between the moment a Node authorizes a command and the moment it launches it,
the rules may be edited, restored or saved by others, and sessions may be
revoked. What is checked right before the launch is not what was relied on but
only that the same evaluation comes out again, with the same policy version.

That this is enough rests on the version alone. It grows with every change of
the rules that is noticed, with every grant and with every revocation, so as
long as it stays, the rules that were last seen stay and so do the grants
(`Later`). A change of the rules that was taken back before anyone looked goes
unnoticed and leaves everything as it was.

An operation that reads the disk has what it reads in it, so a run is every
order in which saves, edits, revocations, authorizations and checks may follow
each other.

## Main definitions

* `step`: One of the things that can happen.
* `Later`: What the policy version says of what there was.
* `Handed`: What is known of a check that was handed out.
* `Standing`: Everything an authorization relied on is as it was.

## Theorems

* `authorize_authorized`: What an authorization does, and what it hands out.
* `act_moved`: What anything that happens leaves of the rules and grants.
* `check_issued`: A check that passes finds what was relied on.
* `permission_revoked`: Checks and revocations in every run.
-/

namespace CopilotFleet

namespace CommandPermissions

open Utf16 Refusal

variable (platform : Platform) (surroundings : Surroundings)

/-! ### The system -/

/-- The object, the authorizations there have been, and how much has happened. -/
structure State where
  permissions : Permissions := {}
  calls : List (Call × Progress) := []
  clock : Nat := 0

/-- Something that happens, with what is read from the disk in it. -/
inductive Op where
  | saveRules (rules : List Rule)
  | refreshPolicy
  | evaluate (surroundings : Surroundings) (request : Request) (cwd : Text)
  | revoke (hostId leadSessionId : Text)
  | clear
  | authorize (surroundings again : Surroundings) (id : Text) (call : Call)
  /-- The rule an authorization waits for is saved, or cannot be. -/
  | applySave (number : Nat) (written : Bool)
  | resume (surroundings : Surroundings) (number : Nat)
  | check (number : Nat)

def applySave (number : Nat) (written : Bool) (state : State) : State :=
  match state.calls[number]? with
  | some (call, .saving rule) =>
      if written then
        { state with
          permissions :=
            { state.permissions with rules := withRule rule state.permissions.rules }
          calls := state.calls.set number (call, .saved) }
      else { state with calls := state.calls.set number (call, .refused) }
  | _ => state

/-- What follows the wait for the rule. -/
def resume (number : Nat) (state : State) : State :=
  match state.calls[number]? with
  | some (call, .saved) =>
      let (progress, permissions) := finish platform surroundings call state.permissions
      { state with permissions, calls := state.calls.set number (call, progress) }
  | _ => state

/-- What happens, but for the time it takes. -/
def act (state : State) : Op → State
  | .saveRules rules => { state with permissions := { state.permissions with rules } }
  | .refreshPolicy | .evaluate _ _ _ =>
      { state with permissions := state.permissions.refreshPolicy }
  | .revoke hostId leadSessionId =>
      { state with permissions := state.permissions.revoke hostId leadSessionId }
  | .clear => { state with permissions := state.permissions.clear }
  | .authorize surroundings again id call =>
      let (progress, permissions) :=
        authorize platform surroundings again state.clock id call state.permissions
      { state with permissions, calls := state.calls ++ [(call, progress)] }
  | .applySave number written => applySave number written state
  | .resume surroundings number => resume platform surroundings number state
  | .check number =>
      match state.calls[number]? with
      | some (call, progress) =>
          if looksAtRules call progress then
            { state with permissions := state.permissions.refreshPolicy }
          else state
      | none => state

def step (state : State) (op : Op) : State :=
  { act platform state op with clock := state.clock + 1 }

/-- A Node with its settings read: nothing has been granted yet. -/
def start (rules : List Rule) : State where
  permissions := { rules }

/-! ### The policy version -/

/-- As long as the version is the same, the rules that were seen are, and the grants. -/
def Later (before after : Permissions) : Prop :=
  before.version ≤ after.version ∧
    (after.version = before.version →
      after.rulesSnapshot = before.rulesSnapshot ∧ after.sessions = before.sessions)

theorem Later.refl (permissions : Permissions) : Later permissions permissions :=
  ⟨le_rfl, fun _ => ⟨rfl, rfl⟩⟩

theorem Later.trans {a b c : Permissions} (hab : Later a b) (hbc : Later b c) : Later a c := by
  refine ⟨hab.1.trans hbc.1, fun hversion => ?_⟩
  have hb : b.version = a.version := by
    have h₁ := hab.1
    have h₂ := hbc.1
    omega
  have hsame := hab.2 hb
  have hsame' := hbc.2 (by rw [hversion, hb])
  exact ⟨hsame'.1.trans hsame.1, hsame'.2.trans hsame.2⟩

theorem later_of_lt {before after : Permissions} (h : before.version < after.version) :
    Later before after :=
  ⟨h.le, fun hversion => absurd hversion h.ne'⟩

theorem refreshPolicy_later (permissions : Permissions) :
    Later permissions permissions.refreshPolicy := by
  rcases refreshPolicy_cases permissions with ⟨h, _⟩ | h
  · rw [h]
    exact Later.refl permissions
  · exact later_of_lt (by omega)
/-! ### What is handed out -/

/-- A check that was handed out, seen later: unless the version has grown, what it rests on is
    among the rules that were last seen and the grants. -/
structure Handed (permissions : Permissions) (call : Call) (approved : PermissionMatch)
    (basis : Basis) : Prop where
  founded : Founded platform call.request call.cwd approved basis
  prepared : call.automatic → call.prepared = some approved
  version : approved.policyVersion ≤ permissions.version
  holds : approved.policyVersion = permissions.version →
    ∃ rules, permissions.rulesSnapshot = some rules ∧ basis.Holds rules permissions.sessions

/-- What is known of an authorization wherever it is. -/
def CallSound (permissions : Permissions) (entry : Call × Progress) : Prop :=
  match entry.2 with
  | .saving _ | .saved => entry.1.automatic = false
  | .issued approved basis => Handed platform permissions entry.1 approved basis
  | .issuedOnce | .refused => True

theorem Handed.later {before after : Permissions} {call : Call} {approved : PermissionMatch}
    {basis : Basis} (h : Handed platform before call approved basis) (hl : Later before after) :
    Handed platform after call approved basis where
  founded := h.founded
  prepared := h.prepared
  version := h.version.trans hl.1
  holds := by
    intro hversion
    have hsame : after.version = before.version := by
      have h₁ := h.version
      have h₂ := hl.1
      omega
    rcases h.holds (by rw [hversion, hsame]) with ⟨rules, hrules, hholds⟩
    refine ⟨rules, ?_, ?_⟩
    · rw [(hl.2 hsame).1, hrules]
    · rw [(hl.2 hsame).2]
      exact hholds

theorem CallSound.later {before after : Permissions} {entry : Call × Progress}
    (h : CallSound platform before entry) (hl : Later before after) :
    CallSound platform after entry := by
  unfold CallSound at h ⊢
  split at h
  · exact h
  · exact h
  · exact Handed.later platform h hl
  · trivial
  · trivial

/-- What was just evaluated can be handed out. -/
theorem handed_of_evaluate {permissions : Permissions} {call : Call}
    {approved : PermissionMatch} {basis : Basis}
    (h : evaluate platform surroundings call.request call.cwd permissions =
      .ok (approved, some basis))
    (hprepared : call.automatic → call.prepared = some approved) :
    Handed platform permissions.refreshPolicy call approved basis := by
  have hspec := evaluate_spec platform surroundings h
  have hbasis := hspec.2 basis rfl
  refine ⟨hbasis.1, hprepared, hspec.1.le, fun _ => ⟨permissions.rules, ?_, ?_⟩⟩
  · have hseen := refreshPolicy_seen permissions
    unfold Permissions.Seen at hseen
    rw [hseen, refreshPolicy_rules]
  · rw [refreshPolicy_sessions]
    exact hbasis.2

/-- What was just handed out was evaluated by what there is now. -/
def Fresh (permissions : Permissions) (progress : Progress) : Prop :=
  ∀ approved basis, progress = .issued approved basis →
    approved.policyVersion = permissions.version

theorem finish_permissions (call : Call) (permissions : Permissions) :
    (finish platform surroundings call permissions).2 = permissions.refreshPolicy := by
  unfold finish
  split
  · rfl
  · split
    · rfl
    · split <;> rfl

theorem finish_sound {call : Call} (permissions : Permissions) (h : call.automatic = false) :
    CallSound platform permissions.refreshPolicy
      (call, (finish platform surroundings call permissions).1) := by
  unfold finish
  split
  · trivial
  · split
    · trivial
    · split
      · trivial
      · rename_i hevaluate
        exact handed_of_evaluate platform surroundings hevaluate
          (fun hautomatic => by rw [h] at hautomatic; cases hautomatic)

theorem finish_fresh (call : Call) (permissions : Permissions) :
    Fresh permissions.refreshPolicy (finish platform surroundings call permissions).1 := by
  intro approved basis h
  unfold finish at h
  split at h
  · cases h
  · rename_i live found hevaluate
    split at h
    · cases h
    · cases found with
      | none => cases h
      | some found =>
          rw [← (Progress.issued.inj h).1]
          exact (evaluate_spec platform surroundings hevaluate).1

/-- What an authorization does to the rules and grants, and what comes of it. -/
structure Authorized (now : Nat) (call : Call) (before : Permissions)
    (result : Progress × Permissions) : Prop where
  later : Later before result.2
  sound : CallSound platform result.2 (call, result.1)
  fresh : Fresh result.2 result.1
  grants : ∀ key grant, result.2.sessions.get key = some grant →
    before.sessions.get key = some grant ∨ grant.made = now

/-- Nothing was granted, and what comes of it is known. -/
theorem authorized_refreshed {now : Nat} {call : Call} {permissions : Permissions}
    {progress : Progress}
    (h : CallSound platform permissions.refreshPolicy (call, progress))
    (hfresh : Fresh permissions.refreshPolicy progress) :
    Authorized platform now call permissions (progress, permissions.refreshPolicy) where
  later := refreshPolicy_later permissions
  sound := h
  fresh := hfresh
  grants := by
    intro key grant hgrant
    rw [refreshPolicy_sessions] at hgrant
    exact .inl hgrant

theorem samePermission_eq {left right : PermissionMatch} (h : samePermission left right) :
    left = right := by
  unfold samePermission at h
  rw [Bool.and_eq_true, decide_eq_true_eq] at h
  exact h.2

theorem authorized_session {again : Surroundings} {now : Nat} {id : Text} {call : Call}
    {permissions : Permissions} {key : SessionKey} (h : call.automatic = false) :
    Authorized platform now call permissions
      (finish platform again call { permissions.refreshPolicy with
        sessions := permissions.refreshPolicy.sessions.set key { id, made := now }
        version := permissions.refreshPolicy.version + 1 }) where
  later := by
    rw [finish_permissions]
    refine (refreshPolicy_later permissions).trans (Later.trans ?_ (refreshPolicy_later _))
    exact later_of_lt (Nat.lt_succ_self _)
  sound := by
    rw [finish_permissions]
    exact finish_sound platform again _ h
  fresh := by
    rw [finish_permissions]
    exact finish_fresh platform again call _
  grants := by
    intro key' grant hgrant
    rw [finish_permissions, refreshPolicy_sessions] at hgrant
    dsimp only at hgrant
    rcases Table.get_set_some hgrant with ⟨_, rfl⟩ | ⟨_, hgrant⟩
    · exact .inr rfl
    · rw [refreshPolicy_sessions] at hgrant
      exact .inl hgrant

theorem authorize_authorized (again : Surroundings) (now : Nat) (id : Text) (call : Call)
    (permissions : Permissions) :
    Authorized platform now call permissions
      (authorize platform surroundings again now id call permissions) := by
  have hrefused : Authorized platform now call permissions (.refused, permissions.refreshPolicy) :=
    authorized_refreshed platform trivial (fun _ _ h => by cases h)
  unfold authorize
  dsimp only
  split
  · exact hrefused
  · rename_i approved basis hevaluate
    by_cases hexecutable : executableChanged call.prepared approved
    · rw [if_pos hexecutable]
      exact hrefused
    rw [if_neg hexecutable]
    by_cases hautomatic : call.automatic
    · rw [if_pos hautomatic]
      split
      · rename_i prepared basis hprepared
        -- Nobody is asked: what was prepared has to be what is there.
        by_cases hsame : prepared.grantedBy.isSome && samePermission prepared approved
        · rw [if_pos hsame]
          rw [Bool.and_eq_true] at hsame
          rw [samePermission_eq hsame.2] at hprepared
          exact authorized_refreshed platform
            (handed_of_evaluate platform surroundings hevaluate fun _ => hprepared)
            (fun _ _ h => by
              rw [← (Progress.issued.inj h).1]
              exact (evaluate_spec platform surroundings hevaluate).1)
        · rw [if_neg hsame]
          exact hrefused
      · exact hrefused
    rw [if_neg hautomatic]
    rw [Bool.not_eq_true] at hautomatic
    by_cases honce : call.scope = .once
    · rw [if_pos honce]
      exact authorized_refreshed platform trivial (fun _ _ h => by cases h)
    rw [if_neg honce]
    by_cases hidentity : identityChanged call.prepared approved
    · rw [if_pos hidentity]
      exact hrefused
    rw [if_neg hidentity]
    split
    · by_cases hsession : call.scope = .session
      · rw [if_pos hsession]
        by_cases hlimit : sessionLimit ≤ permissions.refreshPolicy.sessions.size
        · rw [if_pos hlimit]
          exact hrefused
        · rw [if_neg hlimit]
          exact authorized_session platform hautomatic
      · rw [if_neg hsession]
        exact authorized_refreshed platform hautomatic (fun _ _ h => by cases h)
    · exact hrefused
/-! ### Runs -/

/-- The permissions stay or are looked at, and no call is known that was not known. -/
structure Moved (before after : State) : Prop where
  later : Later before.permissions after.permissions
  calls : ∀ entry ∈ after.calls,
    entry ∈ before.calls ∨ CallSound platform after.permissions entry
  grants : ∀ key grant, after.permissions.sessions.get key = some grant →
    before.permissions.sessions.get key = some grant ∨ grant.made = before.clock

theorem Moved.same {before after : State} (hcalls : after.calls = before.calls)
    (hlater : Later before.permissions after.permissions)
    (hgrants : ∀ key grant, after.permissions.sessions.get key = some grant →
      before.permissions.sessions.get key = some grant) : Moved platform before after where
  later := hlater
  calls := by
    intro entry hentry
    rw [hcalls] at hentry
    exact .inl hentry
  grants := fun key grant hgrant => .inl (hgrants key grant hgrant)

theorem Moved.refl (state : State) : Moved platform state state :=
  Moved.same platform rfl (Later.refl _) (fun _ _ h => h)

theorem refreshed_moved (state : State) :
    Moved platform state { state with permissions := state.permissions.refreshPolicy } := by
  refine Moved.same platform rfl (refreshPolicy_later _) (fun key grant h => ?_)
  dsimp only at h
  rw [refreshPolicy_sessions] at h
  exact h

/-- Every authorization is known. -/
def Known (state : State) : Prop :=
  ∀ entry ∈ state.calls, CallSound platform state.permissions entry

theorem applySave_moved {state : State} (hknown : Known platform state) (number : Nat)
    (written : Bool) : Moved platform state (applySave number written state) := by
  unfold applySave
  split
  · rename_i call rule hentry
    have hautomatic : call.automatic = false := hknown _ (List.mem_of_getElem? hentry)
    by_cases hwritten : written
    · rw [if_pos hwritten]
      refine ⟨⟨le_rfl, fun _ => ⟨rfl, rfl⟩⟩, fun entry h => ?_, fun _ _ h => .inl h⟩
      rcases List.mem_or_eq_of_mem_set h with h | h
      · exact .inl h
      · rw [h]
        exact .inr hautomatic
    · rw [if_neg hwritten]
      refine ⟨Later.refl _, fun entry h => ?_, fun _ _ h => .inl h⟩
      rcases List.mem_or_eq_of_mem_set h with h | h
      · exact .inl h
      · rw [h]
        exact .inr trivial
  · exact Moved.refl platform state

theorem resume_moved {state : State} (hknown : Known platform state) (number : Nat) :
    Moved platform state (resume platform surroundings number state) := by
  unfold resume
  split
  · rename_i call hentry
    have hautomatic : call.automatic = false := hknown _ (List.mem_of_getElem? hentry)
    dsimp only
    rw [finish_permissions]
    refine ⟨refreshPolicy_later _, fun entry h => ?_, fun key grant h => ?_⟩
    · rcases List.mem_or_eq_of_mem_set h with h | h
      · exact .inl h
      · rw [h]
        exact .inr (finish_sound platform surroundings _ hautomatic)
    · dsimp only at h
      rw [refreshPolicy_sessions] at h
      exact .inl h
  · exact Moved.refl platform state

theorem act_moved {state : State} (hknown : Known platform state) (op : Op) :
    Moved platform state (act platform state op) := by
  cases op with
  | saveRules rules =>
      exact Moved.same platform rfl ⟨le_rfl, fun _ => ⟨rfl, rfl⟩⟩ (fun _ _ h => h)
  | refreshPolicy => exact refreshed_moved platform state
  | evaluate surroundings request cwd => exact refreshed_moved platform state
  | revoke hostId leadSessionId =>
      refine Moved.same platform rfl (later_of_lt (Nat.lt_succ_self _)) (fun key grant h => ?_)
      simp only [act, Permissions.revoke, Table.get_keep, Option.filter_eq_some_iff] at h
      exact h.1
  | clear =>
      refine Moved.same platform rfl (later_of_lt (Nat.lt_succ_self _)) (fun key grant h => ?_)
      simp only [act, Permissions.clear, Table.get_empty] at h
      cases h
  | authorize surroundings again id call =>
      have hauthorized := authorize_authorized platform surroundings again state.clock id call
        state.permissions
      refine ⟨hauthorized.later, fun entry h => ?_, hauthorized.grants⟩
      rcases List.mem_append.mp h with h | h
      · exact .inl h
      · rw [List.mem_singleton.mp h]
        exact .inr hauthorized.sound
  | applySave number written => exact applySave_moved platform hknown number written
  | resume surroundings number => exact resume_moved platform surroundings hknown number
  | check number =>
      simp only [act]
      split
      · split
        · exact refreshed_moved platform state
        · exact Moved.refl platform state
      · exact Moved.refl platform state

theorem step_moved {state : State} (hknown : Known platform state) (op : Op) :
    Moved platform state (step platform state op) where
  later := (act_moved platform hknown op).later
  calls := (act_moved platform hknown op).calls
  grants := (act_moved platform hknown op).grants

theorem step_known {state : State} (op : Op) (hknown : Known platform state) :
    Known platform (step platform state op) := by
  have hmoved := step_moved platform hknown op
  intro entry hentry
  rcases hmoved.calls entry hentry with h | h
  · exact CallSound.later platform (hknown entry h) hmoved.later
  · exact h

theorem known_of_run (rules : List Rule) (ops : List Op) :
    Known platform (Run.final (step platform) (start rules) ops) := by
  refine Run.invariant (step platform) (Known platform) (fun s op h => step_known platform op h)
    ops _ (fun entry hentry => ?_)
  cases hentry

theorem clock_of_run (rules : List Rule) (ops : List Op) :
    (Run.final (step platform) (start rules) ops).clock = ops.length := by
  induction ops using List.reverseRecOn with
  | nil => rfl
  | append_singleton before op ih =>
      rw [Run.final_append, List.length_append, ← ih]
      rfl

/-! ### Revocations -/

/-- What a revocation is of. -/
def Revokes (hostId leadSessionId : Text) : Op → Prop
  | .revoke host lead => host = hostId ∧ lead = leadSessionId
  | .clear => True
  | _ => False

/-- The grants of a session, and the basis of a permission if it is one, are newer. -/
def Newer (time : Nat) (hostId leadSessionId : Text) (sessions : Table SessionKey Grant) : Prop :=
  ∀ key grant, sessions.get key = some grant → key.hostId = hostId →
    key.leadSessionId = leadSessionId → time < grant.made

theorem newer_of_revokes {state : State} {op : Op} {hostId leadSessionId : Text} {time : Nat}
    (h : Revokes hostId leadSessionId op) :
    Newer time hostId leadSessionId (step platform state op).permissions.sessions := by
  intro key grant hgrant hhost hlead
  cases op with
  | revoke host lead =>
      simp only [step, act, Permissions.revoke, Table.get_keep, Option.filter_eq_some_iff]
        at hgrant
      have hkept := hgrant.2
      rw [hhost, hlead, h.1, h.2] at hkept
      simp at hkept
  | clear =>
      simp only [step, act, Permissions.clear, Table.get_empty] at hgrant
      cases hgrant
  | _ => exact absurd h id

theorem newer_step {state : State} {hostId leadSessionId : Text} {time : Nat} (op : Op)
    (hknown : Known platform state) (hclock : time < state.clock)
    (h : Newer time hostId leadSessionId state.permissions.sessions) :
    Newer time hostId leadSessionId (step platform state op).permissions.sessions := by
  intro key grant hgrant hhost hlead
  rcases (step_moved platform hknown op).grants key grant hgrant with hold | hmade
  · exact h key grant hold hhost hlead
  · rw [hmade]
    exact hclock

/-- After a revocation, whatever happens, there is no older grant of the session. -/
theorem newer_of_run (rules : List Rule) (before later : List Op) {op : Op}
    {hostId leadSessionId : Text} (h : Revokes hostId leadSessionId op) :
    Newer before.length hostId leadSessionId
      (Run.final (step platform) (start rules) (before ++ op :: later)).permissions.sessions := by
  have hknown := step_known platform op (known_of_run platform rules before)
  have hclock : before.length <
      (step platform (Run.final (step platform) (start rules) before) op).clock := by
    have hbefore := clock_of_run platform rules before
    simp only [step]
    omega
  rw [Run.final_append, Run.final_cons]
  refine (Run.invariant (step platform)
    (fun s => Known platform s ∧ before.length < s.clock ∧
      Newer before.length hostId leadSessionId s.permissions.sessions)
    (fun s op' hs => ?_) later _ ⟨hknown, hclock, newer_of_revokes platform h⟩).2.2
  refine ⟨step_known platform op' hs.1, ?_, newer_step platform op' hs.1 hs.2.1 hs.2.2⟩
  have hnow := hs.2.1
  simp only [step]
  omega
/-- A permission that rests on a grant for the session rests on a newer one. -/
def Basis.NewerThan (time : Nat) : Basis → Prop
  | .rule _ => True
  | .session _ grant => time < grant.made

theorem newerThan_of_holds {time : Nat} {request : Request} {cwd : Text}
    {permission : PermissionMatch} {basis : Basis} {rules : List Rule}
    {sessions : Table SessionKey Grant}
    (hfounded : Founded platform request cwd permission basis)
    (hholds : basis.Holds rules sessions)
    (hnewer : Newer time request.hostId request.leadSessionId sessions) :
    basis.NewerThan time := by
  cases basis with
  | rule saved => trivial
  | session key grant =>
      have hkey : key = sessionKey request (permissionPath platform cwd) key.commandKey :=
        hfounded.forRequest
      refine hnewer key grant hholds ?_ ?_
      · rw [hkey]
        rfl
      · rw [hkey]
        rfl

/-! ### Checks -/

/-- Everything an authorization relied on is as it was. -/
structure Standing (permissions : Permissions) (call : Call) (approved : PermissionMatch)
    (basis : Basis) : Prop where
  /-- The version is the one there is, and a change of the rules would be noticed in it. -/
  version : approved.policyVersion = permissions.version
  seen : permissions.Seen
  founded : Founded platform call.request call.cwd approved basis
  holds : basis.Holds permissions.rules permissions.sessions
  prepared : call.automatic → call.prepared = some approved

theorem check_issued {permissions : Permissions} {call : Call} {approved : PermissionMatch}
    {basis : Basis} (hhanded : Handed platform permissions call approved basis)
    (h : check platform surroundings call (.issued approved basis) permissions) :
    Standing platform permissions call approved basis := by
  simp only [check] at h
  split at h
  · rename_i live found hevaluate
    have hlive : live.policyVersion = permissions.refreshPolicy.version :=
      (evaluate_spec platform surroundings hevaluate).1
    rw [samePermission_eq h] at hlive
    -- The version did not grow in between, so the rules were seen as they are.
    rcases refreshPolicy_cases permissions with ⟨hsame, hseen⟩ | hgrown
    · rw [hsame] at hlive
      rcases hhanded.holds hlive with ⟨rules, hrules, hholds⟩
      have hrules' : permissions.rules = rules := by
        unfold Permissions.Seen at hseen
        rw [hrules] at hseen
        exact (Option.some.inj hseen).symm
      refine ⟨hlive, hseen, hhanded.founded, ?_, hhanded.prepared⟩
      rw [hrules']
      exact hholds
    · have hversion := hhanded.version
      omega
  · cases h

/-- The executable that was prepared by its content is there. -/
def SameExecutable (call : Call) (permissions : Permissions) : Prop :=
  ∃ prepared live basis, call.prepared = some prepared ∧
    evaluate platform surroundings call.request call.cwd permissions = .ok (live, basis) ∧
    live.commandKey = prepared.commandKey ∧ live.path = prepared.path

theorem check_once {permissions : Permissions} {call : Call}
    (h : check platform surroundings call .issuedOnce permissions)
    (hpinned : executablePinned call) :
    SameExecutable platform surroundings call permissions := by
  simp only [check] at h
  rw [if_pos hpinned] at h
  split at h
  · rename_i live basis hevaluate
    unfold executablePinned at hpinned
    rcases (Option.any_eq_true _ _).mp hpinned with ⟨prepared, hprepared, hkeyed⟩
    rcases (Option.any_eq_true _ _).mp hkeyed with ⟨key, hkey, hpin⟩
    rw [hprepared] at h
    simp only [executableChanged, Option.any_some, hkey, hpin, Bool.true_and, Bool.not_eq_true',
      Bool.or_eq_false_iff, decide_eq_false_iff_not, not_not] at h
    exact ⟨prepared, live, basis, hprepared, hevaluate, h.1.trans hkey.symm, h.2⟩
  · cases h

/-- Every passing check of every run finds what was relied on, and after a revocation nothing
    rests on a grant of the session from before. -/
theorem permission_revoked (rules : List Rule) (ops : List Op) :
    let state := Run.final (step platform) (start rules) ops
    (∀ call approved basis, (call, Progress.issued approved basis) ∈ state.calls →
      ∀ surroundings,
        check platform surroundings call (.issued approved basis) state.permissions →
          Standing platform state.permissions call approved basis) ∧
    (∀ call surroundings, (call, Progress.issuedOnce) ∈ state.calls →
      check platform surroundings call .issuedOnce state.permissions →
        executablePinned call → SameExecutable platform surroundings call state.permissions) ∧
    (∀ before op later, ops = before ++ op :: later → ∀ hostId leadSessionId,
      Revokes hostId leadSessionId op →
        (∀ surroundings request cwd permission basis, request.hostId = hostId →
          request.leadSessionId = leadSessionId →
            evaluate platform surroundings request cwd state.permissions =
              .ok (permission, some basis) → basis.NewerThan before.length) ∧
        (∀ call, call.request.hostId = hostId → call.request.leadSessionId = leadSessionId →
          ∀ surroundings approved basis,
            ((call, Progress.issued approved basis) ∈ state.calls →
              check platform surroundings call (.issued approved basis) state.permissions →
                basis.NewerThan before.length) ∧
            (∀ again id, (authorize platform surroundings again state.clock id call
                state.permissions).1 = .issued approved basis →
              basis.NewerThan before.length) ∧
            (call.automatic = false →
              (finish platform surroundings call state.permissions).1 = .issued approved basis →
                basis.NewerThan before.length))) := by
  intro state
  have hknown : Known platform state := known_of_run platform rules ops
  have hstanding : ∀ call approved basis, (call, Progress.issued approved basis) ∈ state.calls →
      ∀ surroundings,
        check platform surroundings call (.issued approved basis) state.permissions →
          Standing platform state.permissions call approved basis := by
    intro call approved basis hcall surroundings hcheck
    exact check_issued platform surroundings (hknown _ hcall) hcheck
  refine ⟨hstanding, fun call surroundings _ => check_once platform surroundings, ?_⟩
  intro before op later hops hostId leadSessionId hrevokes
  have hnewer : Newer before.length hostId leadSessionId state.permissions.sessions := by
    have hrun := newer_of_run platform rules before later hrevokes
    rw [← hops] at hrun
    exact hrun
  have hclock : before.length < state.clock := by
    have hlength : state.clock = ops.length := clock_of_run platform rules ops
    rw [hops, List.length_append, List.length_cons] at hlength
    omega
  refine ⟨?_, ?_⟩
  · rintro surroundings request cwd permission basis rfl rfl hevaluate
    have hspec := (evaluate_spec platform surroundings hevaluate).2 basis rfl
    exact newerThan_of_holds platform hspec.1 hspec.2 hnewer
  · rintro call rfl rfl surroundings approved basis
    refine ⟨fun hcall hcheck => ?_, fun again id hissued => ?_, fun hautomatic hissued => ?_⟩
    · have hstand := hstanding call approved basis hcall surroundings hcheck
      exact newerThan_of_holds platform hstand.founded hstand.holds hnewer
    · have hauthorized := authorize_authorized platform surroundings again state.clock id call
        state.permissions
      have hsound := hauthorized.sound
      rw [hissued] at hsound
      rcases hsound.holds (hauthorized.fresh approved basis hissued) with ⟨_, _, hholds⟩
      -- A grant that was not there before is made now.
      refine newerThan_of_holds platform hsound.founded hholds (fun key grant hgrant hh hl => ?_)
      rcases hauthorized.grants key grant hgrant with hold | hmade
      · exact hnewer key grant hold hh hl
      · rw [hmade]
        exact hclock
    · have hsound := finish_sound platform surroundings state.permissions hautomatic
      rw [hissued] at hsound
      rcases hsound.holds (finish_fresh platform surroundings call _ approved basis hissued)
        with ⟨_, _, hholds⟩
      rw [refreshPolicy_sessions] at hholds
      exact newerThan_of_holds platform hsound.founded hholds hnewer

/-- An owner approves a folder change for a session, and then takes the session back. -/
def approval : Call where
  request :=
    { hostId := ofString "h", leadSessionId := ofString "lead", command := ofString "cd src" }
  cwd := ofString "/work"
  scope := .session
  automatic := false
  prepared := none

/-- Whether the first check would pass after what happened. -/
def firstPasses (ops : List Op) : Bool :=
  let state := Run.final (step posix) (start []) ops
  state.calls.head?.any fun entry => check posix nowhere entry.1 entry.2 state.permissions

example :
    let granted := [Op.authorize nowhere nowhere (ofString "grant") approval]
    firstPasses granted ∧
      firstPasses (granted ++ [.saveRules [], .refreshPolicy]) ∧
      ¬firstPasses (granted ++ [.revoke (ofString "h") (ofString "lead")]) := by
  decide +kernel

end CommandPermissions

end CopilotFleet
