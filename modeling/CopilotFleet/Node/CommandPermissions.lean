import CopilotFleet.Lib.Table
import CopilotFleet.Node.CommandPermissionRules

/-!
# Granting Command Permissions

What a Node does with a command it is asked to launch. It evaluates the command
against the rules its owner saved and the grants made for a session, and hands
out a check that is called again right before the launch, after whatever had to
be waited for.

Everything a permission rests on is counted by the policy version: it grows
with every change of the rules that is noticed, with every grant and with every
revocation, and it is part of what is compared.

A grant carries the time it was made at, and a permission what it rests on.
Neither is part of the program.

## Main definitions

* `evaluate`: What a command is permitted by.
* `authorize`, `finish`: The two parts of an authorization, before and after its rule is saved.
* `check`: The check before the launch.
* `Basis.Holds`: What a permission rests on is there.
* `Founded`: A permission says what it rests on.

## Theorems

* `evaluate_spec`: What an evaluation says of the rules and grants there are.
-/

namespace CopilotFleet

namespace CommandPermissions

open Utf16 Globs Refusal

/-! ### Matches -/

inductive GrantedBy where
  | builtin
  | session
  | always
  deriving DecidableEq

/-- `CommandPermissionMatch`. -/
structure PermissionMatch where
  reusable : Bool
  commandKey : Option Text := none
  path : Text
  explanation : Text
  policyVersion : Nat
  grantedBy : Option GrantedBy := none
  ruleId : Option Text := none
  deriving DecidableEq

/-- `CommandPermissionMatchSchema`. -/
def PermissionMatch.valid (permission : PermissionMatch) : Bool :=
  permission.commandKey.all validId && (validPathLength permission.path && !permission.path.contains 0) &&
    permission.explanation.length ≤ 4000 && permission.ruleId.all validId

/-- Both are what the schema allows, and their texts are the same. Where the schema refuses
    one, the comparison throws, which refuses what was to be compared as well. -/
def samePermission (left right : PermissionMatch) : Bool :=
  left.valid && right.valid && left = right

/-! ### Evaluation -/

structure Request where
  hostId : Text
  leadSessionId : Text
  command : Text
  deriving DecidableEq

structure SessionKey where
  hostId : Text
  leadSessionId : Text
  path : Text
  commandKey : Text
  deriving DecidableEq

/-- A grant for a session, and when it was made. -/
structure Grant where
  id : Text
  made : Nat
  deriving DecidableEq

/-- The object, with the rules it reads. -/
structure Permissions where
  rules : List Rule := []
  sessions : Table SessionKey Grant := Table.empty
  version : Nat := 0
  /-- The rules as they were last seen, if they were. -/
  rulesSnapshot : Option (List Rule) := none

variable (platform : Platform) (surroundings : Surroundings)

def Permissions.refreshPolicy (permissions : Permissions) : Permissions :=
  if permissions.rulesSnapshot = some permissions.rules then permissions
  else { permissions with
    rulesSnapshot := some permissions.rules
    version := permissions.version + 1 }

/-- A command rule for folders by a pattern. -/
def isFamily (rule : Rule) : Bool :=
  rule.mode = some .command && rule.path.contains star && some rule.commandKey = rule.command

/-- What of a request a rule is compared with. -/
structure Looked where
  path : Text
  commandKey : Text
  logicalCommand : Option Text
  literalCommand : Option Text

def folderCovered (rule : Rule) (path : Text) : Bool :=
  if rule.mode.isSome then wildcardMatch (permissionPath platform rule.path) path
  else rule.path = path

/-- A rule permits a request. -/
def permits (request : Request) (looked : Looked) (rule : Rule) : Bool :=
  if rule.hostId.any fun host => host ≠ [] && host ≠ request.hostId then false
  else if rule.builtin then rule.commandKey = looked.commandKey && isDefault platform rule
  else if !folderCovered platform rule looked.path then false
  else
    match rule.mode, rule.command with
    | some .pattern, command =>
        command.any fun pattern => pattern ≠ [] && looked.literalCommand.any fun literal =>
          literal ≠ [] && wildcardMatch pattern literal
    | some .exact, some command => command = request.command
    | _, _ =>
        if isFamily rule then
          looked.logicalCommand.any fun logical => logical ≠ [] && rule.command = some logical
        else rule.commandKey = looked.commandKey

/-- What a permission rests on. -/
inductive Basis where
  | rule (rule : Rule)
  | session (key : SessionKey) (grant : Grant)

/-- A rule for a whole script says which script that was. -/
def describeScript (request : Request) (rule : Rule) (permission : PermissionMatch) :
    Except RuleError PermissionMatch :=
  if rule.mode = some .exact then do
    let exact ← exactScriptIdentity platform request.command
    return { permission with commandKey := exact.commandKey, explanation := exact.explanation }
  else .ok permission

/-- What a match says of the rule it is by. -/
def describe (request : Request) (rule : Rule) (permission : PermissionMatch) :
    Except RuleError PermissionMatch := do
  let described ← describeScript platform request rule permission
  let explained :=
    if rule.mode = some .pattern || isFamily rule then
      { described with
        explanation := ofString "Matched a saved wildcard rule for simple commands and local folders. This rule trusts matching command names and arguments rather than pinning executable versions; compound scripts require their own exact rule." }
    else described
  return { explained with
    grantedBy := some (if rule.builtin then .builtin else .always)
    ruleId := some rule.id }

def sessionKey (request : Request) (path commandKey : Text) : SessionKey where
  hostId := request.hostId
  leadSessionId := request.leadSessionId
  path
  commandKey

/-- What a command is permitted by, and what that rests on, by the rules there are. -/
def evaluation (request : Request) (cwd : Text) (permissions : Permissions) :
    Except RuleError (PermissionMatch × Option Basis) := do
  let identity ← resolvedCommandIdentity platform surroundings request.command cwd
  let path := permissionPath platform cwd
  let commandKey := identity.commandKey.getD []
  let permission : PermissionMatch := {
    reusable := commandKey ≠ [] && !isNetworkPath path
    commandKey := identity.commandKey
    path := cwd
    explanation := identity.explanation
    policyVersion := permissions.version }
  if !permission.reusable then return (permission, none)
  let looked : Looked := {
    path
    commandKey
    logicalCommand := (commandPermissionIdentity platform request.command).commandKey
    literalCommand := literalInvocation platform request.command false }
  match permissions.rules.find? (permits platform request looked) with
  | some rule =>
      let granted ← describe platform request rule permission
      return (granted, some (.rule rule))
  | none =>
      let key := sessionKey request path commandKey
      match permissions.sessions.get key with
      | some grant =>
          return ({ permission with grantedBy := some .session, ruleId := some grant.id },
            some (.session key grant))
      | none => return (permission, none)

/-- `evaluate`: the rules are looked at again first. -/
def evaluate (request : Request) (cwd : Text) (permissions : Permissions) :
    Except RuleError (PermissionMatch × Option Basis) :=
  evaluation platform surroundings request cwd permissions.refreshPolicy

/-! ### Authorization -/

inductive Scope where
  | once
  | session
  | always
  deriving DecidableEq

/-- What `authorize` is called with. -/
structure Call where
  request : Request
  cwd : Text
  scope : Scope
  automatic : Bool
  prepared : Option PermissionMatch

/-- Where an authorization is. -/
inductive Progress where
  /-- It waits for its rule to be saved. -/
  | saving (rule : Rule)
  /-- Its rule was saved, and it has not gone on yet. -/
  | saved
  /-- It handed out its check, for what it approved. -/
  | issued (approved : PermissionMatch) (basis : Basis)
  /-- It handed out the check of a command that is run once. -/
  | issuedOnce
  | refused

/-- The prepared executable is not the one that is there. -/
def executableChanged (prepared : Option PermissionMatch) (approved : PermissionMatch) : Bool :=
  prepared.any fun prepared => prepared.commandKey.any fun key => (existingPin key).isSome &&
    (approved.commandKey ≠ some key || approved.path ≠ prepared.path)

def sessionLimit : Nat := 2048

/-- The rule an owner's approval is saved as. -/
def approvedRule (id : Text) (request : Request) (approved : PermissionMatch) (commandKey : Text) :
    Rule :=
  let exact := isExactScriptPermissionKey commandKey
  { id
    commandKey
    command := some (if exact then request.command else withoutPin commandKey)
    mode := some (if exact then .exact else .command)
    path := permissionPath platform approved.path
    hostId := some request.hostId
    builtin := false }

/-- A rule that the new one takes the place of. -/
def replaces (rule existing : Rule) : Bool :=
  (existing.commandKey = rule.commandKey ||
    (readableCommand existing = rule.command &&
      some (existing.mode.getD
        (if isExactScriptPermissionKey existing.commandKey then .exact else .command)) =
          rule.mode)) &&
    existing.path = rule.path && existing.hostId = rule.hostId

/-- The rules with the new one behind them. -/
def withRule (rule : Rule) (rules : List Rule) : List Rule :=
  (rules.filter fun existing => !replaces rule existing) ++ [rule]

/-- The end of an authorization that saved something: what is there now is what is approved. -/
def finish (call : Call) (permissions : Permissions) : Progress × Permissions :=
  let refreshed := permissions.refreshPolicy
  match evaluate platform surroundings call.request call.cwd permissions with
  | .error _ => (.refused, refreshed)
  | .ok (approved, basis) =>
      if executableChanged call.prepared approved then (.refused, refreshed)
      else
        match basis with
        | none => (.refused, refreshed)
        | some basis => (.issued approved basis, refreshed)

/-- The prepared identity is not the one that would be granted. -/
def identityChanged (prepared : Option PermissionMatch) (approved : PermissionMatch) : Bool :=
  prepared.any fun prepared => !prepared.reusable || prepared.commandKey ≠ approved.commandKey ||
    prepared.path ≠ approved.path

/-- `authorize`, until it has to wait; `now` is the time of a grant and `id` drawn for it, and
    `again` what is read from the disk the second time. -/
def authorize (again : Surroundings) (now : Nat) (id : Text) (call : Call)
    (permissions : Permissions) :
    Progress × Permissions :=
  let refreshed := permissions.refreshPolicy
  match evaluate platform surroundings call.request call.cwd permissions with
  | .error _ => (.refused, refreshed)
  | .ok (approved, basis) =>
      if executableChanged call.prepared approved then (.refused, refreshed)
      else if call.automatic then
        match call.prepared, basis with
        | some prepared, some basis =>
            if prepared.grantedBy.isSome && samePermission prepared approved then
              (.issued approved basis, refreshed)
            else (.refused, refreshed)
        | _, _ => (.refused, refreshed)
      else if call.scope = .once then (.issuedOnce, refreshed)
      else if identityChanged call.prepared approved then (.refused, refreshed)
      else
        match approved.reusable, approved.commandKey with
        | true, some commandKey =>
            if call.scope = .session then
              if sessionLimit ≤ refreshed.sessions.size then (.refused, refreshed)
              else
                let key := sessionKey call.request (permissionPath platform approved.path) commandKey
                finish platform again call { refreshed with
                  sessions := refreshed.sessions.set key { id, made := now }
                  version := refreshed.version + 1 }
            else (.saving (approvedRule platform id call.request approved commandKey), refreshed)
        | _, _ => (.refused, refreshed)

/-- An executable was prepared by its content. -/
def executablePinned (call : Call) : Bool :=
  call.prepared.any fun prepared => prepared.commandKey.any fun key => (existingPin key).isSome

/-- The check an authorization handed out: nothing, if it does not throw. -/
def check (call : Call) (progress : Progress) (permissions : Permissions) : Bool :=
  match progress with
  | .issued approved _ =>
      match evaluate platform surroundings call.request call.cwd permissions with
      | .ok (live, _) => samePermission live approved
      | .error _ => false
  | .issuedOnce =>
      if executablePinned call then
        match evaluate platform surroundings call.request call.cwd permissions with
        | .ok (live, _) => !executableChanged call.prepared live
        | .error _ => false
      else true
  | _ => false

/-- A check looks at the rules, unless there is nothing to check. -/
def looksAtRules (call : Call) (progress : Progress) : Bool :=
  match progress with
  | .issued _ _ => true
  | .issuedOnce => executablePinned call
  | _ => false

def Permissions.revoke (hostId leadSessionId : Text) (permissions : Permissions) : Permissions :=
  { permissions with
    sessions := permissions.sessions.keep fun key _ =>
      !(key.hostId = hostId && key.leadSessionId = leadSessionId)
    version := permissions.version + 1 }

def Permissions.clear (permissions : Permissions) : Permissions :=
  { permissions with sessions := Table.empty, version := permissions.version + 1 }

/-! ### What an evaluation rests on -/

/-- The rules and the grants there are. -/
def Basis.Holds (rules : List Rule) (sessions : Table SessionKey Grant) : Basis → Prop
  | .rule saved => saved ∈ rules
  | .session key grant => sessions.get key = some grant

def Basis.grantedBy : Basis → GrantedBy
  | .rule saved => if saved.builtin then .builtin else .always
  | .session _ _ => .session

def Basis.id : Basis → Text
  | .rule saved => saved.id
  | .session _ grant => grant.id

/-- A basis is for a request in a folder. -/
def Basis.For (request : Request) (cwd : Text) : Basis → Prop
  | .rule saved => ∃ looked : Looked,
      looked.path = permissionPath platform cwd ∧ permits platform request looked saved
  | .session key _ =>
      key = sessionKey request (permissionPath platform cwd) key.commandKey

/-- A permission says what it rests on, and that is for what was asked. -/
structure Founded (request : Request) (cwd : Text) (permission : PermissionMatch)
    (basis : Basis) : Prop where
  grantedBy : permission.grantedBy = some basis.grantedBy
  ruleId : permission.ruleId = some basis.id
  forRequest : basis.For platform request cwd

theorem describeScript_version {request : Request} {rule : Rule}
    {permission described : PermissionMatch}
    (h : describeScript platform request rule permission = .ok described) :
    described.policyVersion = permission.policyVersion := by
  unfold describeScript at h
  by_cases hmode : rule.mode = some .exact
  · rw [if_pos hmode] at h
    rcases bind_ok h with ⟨exact, _, hexact⟩
    rw [← Except.ok.inj hexact]
  · rw [if_neg hmode] at h
    rw [← Except.ok.inj h]

theorem describe_ok {request : Request} {rule : Rule} {permission described : PermissionMatch}
    (h : describe platform request rule permission = .ok described) :
    described.grantedBy = some (Basis.rule rule).grantedBy ∧
      described.ruleId = some (Basis.rule rule).id ∧
      described.policyVersion = permission.policyVersion := by
  unfold describe at h
  rcases bind_ok h with ⟨script, hscript, hrest⟩
  have hversion := describeScript_version platform hscript
  rw [← Except.ok.inj hrest]
  refine ⟨rfl, rfl, ?_⟩
  -- Whether the wildcards are explained changes nothing else.
  dsimp only
  split
  · exact hversion
  · exact hversion

theorem evaluation_ok {request : Request} {cwd : Text} {permissions : Permissions}
    {permission : PermissionMatch} {basis : Option Basis}
    (h : evaluation platform surroundings request cwd permissions = .ok (permission, basis)) :
    permission.policyVersion = permissions.version ∧
      ∀ b, basis = some b → Founded platform request cwd permission b ∧
        b.Holds permissions.rules permissions.sessions := by
  unfold evaluation at h
  rcases bind_ok h with ⟨identity, _, hrest⟩
  dsimp only at hrest
  split at hrest
  · have hpair := Prod.mk.inj (Except.ok.inj hrest)
    rw [← hpair.1, ← hpair.2]
    exact ⟨rfl, fun b hb => by cases hb⟩
  · split at hrest
    · -- A rule permits it.
      rename_i rule hfind
      rcases bind_ok hrest with ⟨granted, hgranted, hpure⟩
      have hpair := Prod.mk.inj (Except.ok.inj hpure)
      have hdescribed := describe_ok platform hgranted
      rw [← hpair.1, ← hpair.2]
      refine ⟨hdescribed.2.2, fun b hb => ?_⟩
      rw [← Option.some.inj hb]
      exact ⟨⟨hdescribed.1, hdescribed.2.1, _, rfl, List.find?_some hfind⟩,
        List.mem_of_find?_eq_some hfind⟩
    · split at hrest
      · -- There is a grant for the session.
        rename_i grant hgrant
        have hpair := Prod.mk.inj (Except.ok.inj hrest)
        rw [← hpair.1, ← hpair.2]
        refine ⟨rfl, fun b hb => ?_⟩
        rw [← Option.some.inj hb]
        exact ⟨⟨rfl, rfl, rfl⟩, hgrant⟩
      · have hpair := Prod.mk.inj (Except.ok.inj hrest)
        rw [← hpair.1, ← hpair.2]
        exact ⟨rfl, fun b hb => by cases hb⟩

/-- The rules that were last seen are the ones there are. -/
def Permissions.Seen (permissions : Permissions) : Prop :=
  permissions.rulesSnapshot = some permissions.rules

@[simp] theorem refreshPolicy_rules (permissions : Permissions) :
    permissions.refreshPolicy.rules = permissions.rules := by
  unfold Permissions.refreshPolicy
  split <;> rfl

@[simp] theorem refreshPolicy_sessions (permissions : Permissions) :
    permissions.refreshPolicy.sessions = permissions.sessions := by
  unfold Permissions.refreshPolicy
  split <;> rfl

theorem refreshPolicy_seen (permissions : Permissions) : permissions.refreshPolicy.Seen := by
  unfold Permissions.Seen Permissions.refreshPolicy
  by_cases h : permissions.rulesSnapshot = some permissions.rules
  · rw [if_pos h]
    exact h
  · rw [if_neg h]

theorem refreshPolicy_of_seen {permissions : Permissions} (h : permissions.Seen) :
    permissions.refreshPolicy = permissions := if_pos h

/-- The rules were changed since they were last seen, or nothing has to be done. -/
theorem refreshPolicy_cases (permissions : Permissions) :
    permissions.refreshPolicy = permissions ∧ permissions.Seen ∨
      permissions.refreshPolicy.version = permissions.version + 1 := by
  by_cases h : permissions.Seen
  · exact .inl ⟨refreshPolicy_of_seen h, h⟩
  · have hrefresh : permissions.refreshPolicy = { permissions with
        rulesSnapshot := some permissions.rules
        version := permissions.version + 1 } := if_neg h
    rw [hrefresh]
    exact .inr rfl

/-- What is said of an evaluation: its version is the one there is now, and what it rests on is
    there. -/
theorem evaluate_spec {request : Request} {cwd : Text} {permissions : Permissions}
    {permission : PermissionMatch} {basis : Option Basis}
    (h : evaluate platform surroundings request cwd permissions = .ok (permission, basis)) :
    permission.policyVersion = permissions.refreshPolicy.version ∧
      ∀ b, basis = some b → Founded platform request cwd permission b ∧
        b.Holds permissions.rules permissions.sessions := by
  have hspec := evaluation_ok platform surroundings h
  rw [refreshPolicy_rules, refreshPolicy_sessions] at hspec
  exact hspec

end CommandPermissions

end CopilotFleet
