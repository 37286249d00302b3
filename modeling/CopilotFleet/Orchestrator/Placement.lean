import CopilotFleet.Host.SessionPolicy
import Mathlib.Data.List.Infix

/-!
# Where a Step Runs

The lease on a checkout, and the placement of a step that has no session yet.
A checkout has one writer; reading shares it, unless a managed process owns it
whole. The planner and the tools of an orchestrator decide a placement with the
same function, so an answer given to one is what the other does.

Everything the decision takes from outside is in `Environment`: the clock, and
the platform's ways of reading dates and comparing and folding text. Nothing is
assumed about any of them.

## Main definitions

* `holdsCheckout`: Whether a session holds its checkout against a writer.
* `executionKey`: What a step of a run locks at a placement.
* `requiresCheckoutLease`: Whether work of a category needs the lock.
* `usable`: Whether a Node may take work of a run.
* `resolveNode`: The machine an orchestrator meant.
* `decidePlacement`: Where work should run, or why nowhere will do.
* `choosePlacement`: The same for a step, which may name its checkout.

## Theorems

* `decidePlacement_ok`: The ways a placement is decided, with what each one checked.
* `choosePlacement_spec`: What a chosen placement has been checked for.
-/

namespace CopilotFleet

open Utf16

namespace Orchestrator

/-- What the planner asks of the platform. -/
structure Environment where
  /-- `Date.now()`. -/
  now : Int
  /-- `Date.parse`; a text that is no date reads as no number. -/
  parseDate : Text → Option Int
  trim : Text → Text
  toLowerCase : Text → Text
  localeCompare : Text → Text → Ordering

/-- A field as a template prints it. -/
def shown (value : Option Text) : Text := value.getD (ofString "undefined")

def includes (text needle : Text) : Bool := decide (needle <:+: text)

/-- `Array.prototype.join(", ")`. -/
def join (texts : List Text) : Text := List.intercalate (ofString ", ") texts

/-- Whether a live session holds its checkout against another writer.

    Managed-bound processes and legacy writers on capable Nodes retain their
    reservation while idle. -/
def holdsCheckout (session : FleetSession) (node : Option FleetNode) : Bool :=
  let strict := session.bound ||
    (!session.readOnly &&
      node.any fun node => node.capabilities.contains managedWorktreesCapability)
  session.runRole ≠ .lead && !session.state.terminal &&
    (strict || (!session.readOnly && session.state ≠ .idle))

def nodeById (nodes : List FleetNode) (id : Text) : Option FleetNode :=
  nodes.find? fun node => node.id = id

def placementById (placements : List Placement) (id : Text) : Option Placement :=
  placements.find? fun placement => placement.id = id

def sessionById (sessions : List FleetSession) (id : Text) : Option FleetSession :=
  sessions.find? fun session => session.id = id

def isReadOnlyCategory (category : Text) : Bool := !isWritingCategory category

/-- A review has to see the changes, so it cannot be sent to a different tree. -/
def isReviewCategory (category : Text) : Bool := (ofString "review").isPrefixOf category

/-- The budget work of a category counts against. -/
def kindOf (category : Text) : SessionKind :=
  if isReadOnlyCategory category then .readOnly else .writing

/-- `SessionKind` as the source spells it. -/
def kindText : SessionKind → Text
  | .readOnly => ofString "read-only"
  | .writing => ofString "writing"

def executionKey (run : Run) (placementId : Text) : Text :=
  match run.workspaceBinding with
  | none => placementId
  | some binding =>
      if binding.effectiveMode = .managed then
        if binding.checkoutKey ≠ [] then binding.checkoutKey
        else ofString "managed:" ++ binding.managedWorktreeId ++ ofString ":" ++
          ofString (toString binding.generation)
      else placementId

def requiresCheckoutLease (run : Run) (category : Text) : Bool :=
  run.managed || isWritingCategory category

def usable (node : Option FleetNode) (run : Run) : Bool :=
  match node with
  | none => false
  | some node =>
      if !node.online then false
      else if run.managed && !node.capabilities.contains managedWorktreesCapability then false
      -- Refused rather than downgraded: an older agent would run with prompts on.
      else if run.policy.yolo && !node.capabilities.contains hostYoloCapability then false
      else true

/-- The machine an orchestrator meant, or a sentence saying why it is not one.
    Exact name first, then a unique substring. -/
def resolveNode (env : Environment) (wanted : Text) (nodes : List FleetNode) :
    Except Text FleetNode :=
  let needle := env.toLowerCase (env.trim wanted)
  if needle = [] then
    .error (ofString "Node name was empty. Omit `node` to let the Host choose.")
  else
    let exactly := nodes.filter fun node => env.toLowerCase node.name = needle
    let found :=
      if exactly ≠ [] then exactly
      else nodes.filter fun node => includes (env.toLowerCase node.name) needle
    match found with
    | [node] => .ok node
    | [] => .error (ofString "No node is called \"" ++ wanted ++
        ofString "\". Call fleet_list_nodes to see the machines that exist.")
    | several => .error (ofString "\"" ++ wanted ++ ofString "\" matches " ++
        ofString (toString several.length) ++ ofString " nodes: " ++
        join (several.map FleetNode.name) ++ ofString ". Name one of them exactly.")

structure PlacementRequest where
  run : Run
  category : Text
  workspace : Option Text := none
  node : Option Text := none
  /-- Whether this run has ever written to its pinned checkout. -/
  hasWritingStep : Bool
  placements : List Placement
  nodes : List FleetNode
  reservedFor : Text → SessionKind → Nat
  writingInFlight : List Text
  repositoryCapabilities : List PlacementRepositoryCapability := []

/-- `REPOSITORY_CAPABILITY_MAX_AGE_MS`. -/
def repositoryCapabilityMaxAgeMs : Int := 5 * 60000

def capabilityKey (placementId repositoryIdentity baseSha : Text) : Text :=
  placementId ++ ofString ":" ++ repositoryIdentity ++ ofString ":" ++ baseSha

/-- The capability a placement has shown for the pinned base of a run. A later
    entry of one key replaces an earlier one. -/
def capabilityFor (request : PlacementRequest) (binding : RunWorkspaceBinding)
    (placement : Placement) : Option PlacementRepositoryCapability :=
  request.repositoryCapabilities.reverse.find? fun entry =>
    capabilityKey entry.placementId entry.repositoryIdentity.id entry.baseSha =
      capabilityKey placement.id binding.repositoryIdentity binding.baseSha

/-- A recent, complete match of the pinned repository at a placement. -/
def verified (env : Environment) (binding : RunWorkspaceBinding) (placement : Placement)
    (capability : PlacementRepositoryCapability) : Bool :=
  (capability.baseAvailable || capability.baseMaterializable) &&
    capability.nodeId = placement.nodeId && capability.localPath = some placement.localPath &&
    ((env.parseDate capability.verifiedAt).any fun at_ =>
      env.now - at_ ≤ repositoryCapabilityMaxAgeMs) &&
    capability.baseSha = binding.baseSha &&
    capability.repositoryIdentity.id = binding.repositoryIdentity &&
    some capability.repositoryIdentity.objectFormat = binding.repositoryObjectFormat

/-- The candidates of a managed run in the order they are tried: most free
    slots, then the originating placement, then the id. -/
def rankManaged (env : Environment) (binding : RunWorkspaceBinding) (a b : Placement × Nat) :
    Bool :=
  if a.2 ≠ b.2 then b.2 < a.2
  else
    let aFirst := decide (a.1.id = binding.originatingPlacementId)
    let bFirst := decide (b.1.id = binding.originatingPlacementId)
    if aFirst != bFirst then aFirst
    else env.localeCompare a.1.id b.1.id ≠ .gt

/-- A placement with the slots its Node has left, when the Node may take the run. -/
def withCapacity (request : PlacementRequest) (placement : Placement) :
    Option (Placement × Nat) :=
  match nodeById request.nodes placement.nodeId with
  | none => none
  | some node =>
      if usable (some node) request.run then
        let kind := kindOf request.category
        some (placement, remainingCapacity node (request.reservedFor node.id kind) kind)
      else none

/-- The Node of a placement may carry the result of a managed run away. -/
def portable (request : PlacementRequest) (binding : RunWorkspaceBinding)
    (placement : Placement) : Bool :=
  placement.id = binding.originatingPlacementId ||
    ((nodeById request.nodes placement.nodeId).any fun node =>
      node.capabilities.contains portableWorktreeResultsCapability) &&
    (capabilityFor request binding placement).all (·.portableResultsSupported)

/-- The machine the orchestrator named, if it named one. -/
def namedNode (env : Environment) (request : PlacementRequest) :
    Except Text (Option FleetNode) :=
  match request.node.filter fun node => env.trim node ≠ [] with
  | none => .ok none
  | some name => (resolveNode env name request.nodes).map some

/-- The placements that are, or have verified, the pinned source of a managed run. -/
def managedSources (env : Environment) (request : PlacementRequest)
    (binding : RunWorkspaceBinding) : List Placement :=
  request.placements.filter fun placement =>
    placement.workspaceId = request.run.workspaceId &&
      (placement.id = binding.originatingPlacementId ||
        (capabilityFor request binding placement).any (verified env binding placement))

/-- The placements of the machine asked for, or all of them. -/
def onMachine (onlyNode : Option FleetNode) (placements : List Placement) : List Placement :=
  match onlyNode with
  | none => placements
  | some node => placements.filter fun placement => placement.nodeId = node.id

/-- The managed half of `decidePlacement`: only verified copies of the pinned base. -/
def decideManaged (env : Environment) (request : PlacementRequest)
    (binding : RunWorkspaceBinding) : Except Text Placement :=
  let sources := managedSources env request binding
  if sources = [] then
    .error (ofString ("The managed task's pinned source placement is unavailable. " ++
      "Reconcile it; no fallback is permitted."))
  else
    match namedNode env request with
    | .error reason => .error reason
    | .ok onlyNode =>
        let candidates := onMachine onlyNode sources
        if candidates = [] then
          .error (shown (onlyNode.map FleetNode.name) ++ ofString
            " has no verified matching copy of this logical repository and pinned base.")
        else
          let ranked :=
            (candidates.filter (portable request binding)).filterMap (withCapacity request)
          match (ranked.mergeSort (rankManaged env binding)).find? fun candidate =>
              0 < candidate.2 &&
                !request.writingInFlight.contains (executionKey request.run candidate.1.id) with
          | some candidate => .ok candidate.1
          | none => .error (ofString ("No online Node has a verified matching logical " ++
              "repository and pinned base with free capacity."))

/-- The pinned half of `decidePlacement`: the changes are at `pinned`, and work
    that must see them goes nowhere else. -/
def decidePinned (request : PlacementRequest) (onlyNode : Option FleetNode)
    (pinned : Placement) : Except Text Placement :=
  let why :=
    if isReviewCategory request.category then ofString "holds the changes to review"
    else ofString "holds this run's changes"
  let here := shown pinned.nodeName
  match onlyNode.filter fun node => node.id ≠ pinned.nodeId with
  | some node => .error (here ++ ofString " " ++ why ++ ofString ", so this cannot run on " ++
      node.name ++ ofString ". Send it to " ++ here ++
      ofString ", or name a workspace if this is unrelated work.")
  | none =>
      if requiresCheckoutLease request.run request.category &&
          request.writingInFlight.contains pinned.id then
        .error (ofString "Another writer holds the checkout on " ++ here ++ ofString ", which " ++
          why ++ ofString ". Only one writer at a time; a review or an explore can go there now.")
      else
        match withCapacity request pinned with
        | none => .error (here ++ ofString " " ++ why ++
            ofString " and is not available. Wait for it, or ask a human.")
        | some (_, free) =>
            if free < 1 then
              .error (here ++ ofString " " ++ why ++ ofString (" but has no free slot. " ++
                "Wait for a step to settle — you will be told when one does."))
            else .ok pinned

/-- The first ranked placement with a free slot and no other writer, or which
    of the two was missing somewhere on the way. -/
def pickRanked (request : PlacementRequest) :
    List (Placement × Nat) → Bool → Bool → Except (Bool × Bool) Placement
  | [], blockedByWriter, full => .error (blockedByWriter, full)
  | (placement, free) :: rest, blockedByWriter, full =>
      if requiresCheckoutLease request.run request.category &&
          request.writingInFlight.contains placement.id then
        pickRanked request rest true full
      else if free < 1 then pickRanked request rest blockedByWriter true
      else .ok placement

/-- Why no ranked placement would do. A machine asked for by name gets its own answers. -/
def refusal (run : Run) (onlyNode : Option FleetNode) (blockedByWriter full : Bool) : Text :=
  match onlyNode with
  | some node =>
      if full then node.name ++ ofString (" has no free slot. Wait for a step to settle, " ++
        "or omit `node` to use whichever machine is free.")
      else if blockedByWriter then
        ofString "Another step is already writing to the checkout on " ++ node.name ++
          ofString ". Only one writer at a time; a review or an explore can go there now."
      else node.name ++ ofString " is offline" ++
        (if run.policy.yolo then ofString " or too old to run unattended" else []) ++
        ofString ". Wait for it, or omit `node` to use another machine."
  | none =>
      if full then ofString ("Every node with that checkout is full. " ++
        "Wait for a step to settle — you will be told when one does.")
      else if blockedByWriter then ofString ("Another step is already writing to that checkout. " ++
        "Only one writer at a time; a review or an explore can go now.")
      else ofString ("No online node has that checkout. " ++
        "Call fleet_list_nodes to see what is available.")

/-- The checkouts of the workspace that was named, or of the run's own. -/
def workspacePlacements (env : Environment) (request : PlacementRequest) (wanted : Text) :
    List Placement :=
  request.placements.filter fun placement =>
    if wanted ≠ [] then includes (env.toLowerCase (placement.workspaceName.getD [])) wanted
    else placement.workspaceId = request.run.workspaceId

/-- Chats holds no repository, so nothing can be written or reviewed there. -/
def eligible (category : Text) (candidates : List Placement) : List Placement :=
  if isWritingCategory category || isReviewCategory category then
    candidates.filter fun placement => !isChatsWorkspace placement.workspaceId
  else candidates

/-- Why a workspace has no checkout at all. -/
def noCheckout (request : PlacementRequest) (wanted : Text) : Text :=
  if wanted ≠ [] then
    ofString "No checkout matches \"" ++ shown request.workspace ++
      ofString "\". Call fleet_list_nodes to see which workspaces exist."
  else ofString "This run's workspace has no checkout on any node. Ask a human to add one."

/-- Why a workspace has no checkout on the machine asked for. -/
def notHere (request : PlacementRequest) (wanted : Text) (onlyNode : Option FleetNode) : Text :=
  shown (onlyNode.map FleetNode.name) ++ ofString " has no checkout of " ++
    (if wanted ≠ [] then ofString "\"" ++ shown request.workspace ++ ofString "\""
      else ofString "this task's workspace") ++
    ofString (". Call fleet_list_nodes to see what is on it, " ++
      "or omit `node` to let the Host choose.")

/-- The unpinned half of `decidePlacement`: every checkout of the workspace,
    the ones with most free slots first. -/
def decideRanked (env : Environment) (request : PlacementRequest) (wanted : Text)
    (onlyNode : Option FleetNode) : Except Text Placement :=
  let inWorkspace := workspacePlacements env request wanted
  if inWorkspace = [] then .error (noCheckout request wanted)
  else
    let candidates := onMachine onlyNode inWorkspace
    if candidates = [] then .error (notHere request wanted onlyNode)
    else
      let kept := eligible request.category candidates
      if kept = [] then
        .error (ofString ("Chats has no checkout, so nothing can be changed or reviewed there. " ++
          "Send questions and research to Chats, and name a workspace for work on a repository."))
      else
        let ranked := (kept.filterMap (withCapacity request)).mergeSort fun a b => b.2 ≤ a.2
        match pickRanked request ranked false false with
        | .ok placement => .ok placement
        | .error (blockedByWriter, full) =>
            .error (refusal request.run onlyNode blockedByWriter full)

/-- The checkout the run is pinned to, once something has written there. -/
def pinnedPlacement (request : PlacementRequest) : Option Placement :=
  if request.run.placementId ≠ [] && request.hasWritingStep then
    placementById request.placements request.run.placementId
  else none

/-- Where one step should run, or a sentence saying why nowhere will do. -/
def decidePlacement (env : Environment) (request : PlacementRequest) : Except Text Placement :=
  match request.run.workspaceBinding.filter fun binding => binding.effectiveMode = .managed with
  | some binding => decideManaged env request binding
  | none =>
      let wanted := env.toLowerCase (env.trim (request.workspace.getD []))
      match namedNode env request with
      | .error reason => .error reason
      | .ok onlyNode =>
          -- A review of changes it cannot see is worthless, so the pin wins even
          -- where a workspace was named.
          match (pinnedPlacement request).filter fun _ =>
              isReviewCategory request.category || wanted = [] with
          | some pinned => decidePinned request onlyNode pinned
          | none => decideRanked env request wanted onlyNode

/-- The checkout a step names, once its Node, its writers and its slots allow it. -/
def chooseNamed (request : PlacementRequest) (step : RunStep) (placementId : Text) :
    Except Text Placement :=
  match placementById request.placements placementId with
  | none => .error (ofString "The step's checkout was removed.")
  | some chosen =>
      match withCapacity request chosen with
      | none => .error (shown chosen.nodeName ++
          ofString " is offline or cannot run this task.")
      | some (_, free) =>
          if requiresCheckoutLease request.run step.category &&
              request.writingInFlight.contains (executionKey request.run chosen.id) then
            .error (ofString "Another session is writing to " ++ chosen.localPath ++
              ofString " on " ++ shown chosen.nodeName ++ ofString "; one writer per checkout.")
          else if free < 1 then
            .error (shown chosen.nodeName ++ ofString " has no free slot for " ++
              kindText (kindOf step.category) ++ ofString " work.")
          else .ok chosen

/-- The source checkout a managed step was bound to. -/
def chooseBound (request : PlacementRequest) (step : RunStep) (binding : ExecutionBinding) :
    Except Text Placement :=
  match (placementById request.placements binding.sourcePlacementId).bind (withCapacity request)
  with
  | none => .error (ofString "The step's pinned source checkout or its Node is not available.")
  | some (source, free) =>
      if free < 1 then
        .error (shown ((nodeById request.nodes source.nodeId).map FleetNode.name) ++
          ofString " has no free slot for " ++ kindText (kindOf step.category) ++
          ofString " work.")
      else if requiresCheckoutLease request.run step.category &&
          request.writingInFlight.contains binding.checkoutKey then
        .error (ofString "Another session is writing to this step's checkout.")
      else .ok source

/-- The placement of a step without a session; `request` is asked for the
    category of the step. -/
def choosePlacement (env : Environment) (request : PlacementRequest) (step : RunStep) :
    Except Text Placement :=
  match step.executionBinding.filter fun _ => request.run.managed with
  | some binding => chooseBound request step binding
  | none =>
      -- A step that already names a checkout keeps it.
      if step.placementId ≠ [] then chooseNamed request step step.placementId
      else decidePlacement env request

/-! ### What a chosen placement has been checked for -/

theorem executionKey_of_legacy {run : Run} (h : run.managed = false) (placementId : Text) :
    executionKey run placementId = placementId := by
  unfold executionKey
  unfold Run.managed at h
  cases hbinding : run.workspaceBinding with
  | none => rfl
  | some binding =>
      rw [hbinding] at h
      simp only [decide_eq_false_iff_not] at h
      simp only []
      rw [if_neg h]

theorem managed_of_filter {run : Run} {binding : RunWorkspaceBinding}
    (h : run.workspaceBinding.filter (fun binding => binding.effectiveMode = .managed) =
      some binding) :
    run.managed = true := by
  rw [Option.filter_eq_some_iff] at h
  unfold Run.managed
  rw [h.1]
  exact h.2

theorem legacy_of_filter {run : Run}
    (h : run.workspaceBinding.filter (fun binding => binding.effectiveMode = .managed) = none) :
    run.managed = false := by
  rw [Option.filter_eq_none_iff] at h
  unfold Run.managed
  cases hbinding : run.workspaceBinding with
  | none => rfl
  | some binding => simpa using h binding hbinding

/-- The placement is one of those offered, and its Node may take the work now. -/
structure Roomy (request : PlacementRequest) (placement : Placement) : Prop where
  mem : placement ∈ request.placements
  node : ∃ node, nodeById request.nodes placement.nodeId = some node ∧
    usable (some node) request.run = true ∧
    0 < remainingCapacity node (request.reservedFor node.id (kindOf request.category))
      (kindOf request.category)

/-- Nobody else is writing under `key`, if the work takes a lease. -/
def Unleased (request : PlacementRequest) (key : Text) : Prop :=
  requiresCheckoutLease request.run request.category = true → key ∉ request.writingInFlight

theorem unleased_of_test {request : PlacementRequest} {key : Text}
    (h : ¬(requiresCheckoutLease request.run request.category &&
      request.writingInFlight.contains key) = true) :
    Unleased request key := by
  intro hlease hmem
  rw [hlease, Bool.true_and, List.contains_iff_mem] at h
  exact h hmem

/-- What a placement with capacity is: itself, with the room its Node has. -/
theorem withCapacity_eq_some {request : PlacementRequest} {placement : Placement}
    {found : Placement × Nat} (h : withCapacity request placement = some found) :
    found.1 = placement ∧ ∃ node, nodeById request.nodes placement.nodeId = some node ∧
      usable (some node) request.run = true ∧
      found.2 = remainingCapacity node (request.reservedFor node.id (kindOf request.category))
        (kindOf request.category) := by
  unfold withCapacity at h
  cases hnode : nodeById request.nodes placement.nodeId with
  | none =>
      rw [hnode] at h
      cases h
  | some node =>
      rw [hnode] at h
      simp only [Option.ite_none_right_eq_some, Option.some.injEq] at h
      rcases h with ⟨husable, rfl⟩
      exact ⟨rfl, node, rfl, husable, rfl⟩

theorem roomy_of_withCapacity {request : PlacementRequest} {placement : Placement}
    {found : Placement × Nat} (hmem : placement ∈ request.placements)
    (h : withCapacity request placement = some found) (hfree : 0 < found.2) :
    Roomy request found.1 := by
  rcases withCapacity_eq_some h with ⟨hself, node, hnode, husable, hroom⟩
  rw [hroom] at hfree
  rw [hself]
  exact ⟨hmem, node, hnode, husable, hfree⟩

theorem mem_onMachine {onlyNode : Option FleetNode} {placements : List Placement}
    {placement : Placement} (h : placement ∈ onMachine onlyNode placements) :
    placement ∈ placements := by
  cases onlyNode with
  | none => exact h
  | some node => exact List.mem_of_mem_filter h

/-- A managed run is only ever sent to a source of its pinned base, on the machine asked
    for, that may carry the result away. -/
theorem decideManaged_ok {env : Environment} {request : PlacementRequest}
    {binding : RunWorkspaceBinding} {placement : Placement}
    (h : decideManaged env request binding = .ok placement) :
    ∃ onlyNode free, namedNode env request = .ok onlyNode ∧
      placement ∈ onMachine onlyNode (managedSources env request binding) ∧
      portable request binding placement = true ∧
      withCapacity request placement = some (placement, free) ∧ 0 < free ∧
      executionKey request.run placement.id ∉ request.writingInFlight := by
  unfold decideManaged at h
  simp only [] at h
  split at h
  · cases h
  · split at h
    · cases h
    · rename_i onlyNode hnode
      split at h
      · cases h
      · split at h
        · rename_i candidate hfind
          cases h
          have htest := List.find?_some hfind
          simp only [Bool.and_eq_true, decide_eq_true_eq, Bool.not_eq_true',
            List.contains_eq_mem, decide_eq_false_iff_not] at htest
          have hmem := List.mem_of_find?_eq_some hfind
          rw [List.mem_mergeSort, List.mem_filterMap] at hmem
          rcases hmem with ⟨source, hsource, hroom⟩
          rw [List.mem_filter] at hsource
          have hself := (withCapacity_eq_some hroom).1
          rw [← hself] at hsource hroom
          exact ⟨onlyNode, candidate.2, hnode, hsource.1, hsource.2, hroom, htest.1, htest.2⟩
        · cases h

/-- A managed run is only ever sent to a verified source with room. -/
theorem decideManaged_spec {env : Environment} {request : PlacementRequest}
    {binding : RunWorkspaceBinding} {placement : Placement}
    (h : decideManaged env request binding = .ok placement) :
    Roomy request placement ∧
      executionKey request.run placement.id ∉ request.writingInFlight := by
  rcases decideManaged_ok h with ⟨onlyNode, free, -, hmem, -, hroom, hfree, hkey⟩
  have hoffered : placement ∈ request.placements := List.mem_of_mem_filter (mem_onMachine hmem)
  exact ⟨roomy_of_withCapacity hoffered hroom hfree, hkey⟩

theorem mem_of_placementById {placements : List Placement} {id : Text} {placement : Placement}
    (h : placementById placements id = some placement) :
    placement ∈ placements ∧ placement.id = id := by
  exact ⟨List.mem_of_find?_eq_some h, by simpa using List.find?_some h⟩

/-- Work that must see the changes goes where they are, or nowhere. -/
theorem decidePinned_ok {request : PlacementRequest} {onlyNode : Option FleetNode}
    {pinned placement : Placement} (h : decidePinned request onlyNode pinned = .ok placement) :
    placement = pinned ∧ (∀ node, onlyNode = some node → pinned.nodeId = node.id) ∧
      ∃ free, withCapacity request pinned = some (pinned, free) ∧ 0 < free ∧
        Unleased request pinned.id := by
  unfold decidePinned at h
  simp only [] at h
  split at h
  · cases h
  · rename_i hnode
    split at h
    · cases h
    · rename_i hwriter
      split at h
      · cases h
      · rename_i found free hroom
        split at h
        · cases h
        · rename_i hfree
          cases h
          have hself : found = pinned := (withCapacity_eq_some hroom).1
          rw [hself] at hroom
          refine ⟨rfl, fun node hsome => ?_, free, hroom, Nat.not_lt.mp hfree,
            unleased_of_test hwriter⟩
          rw [Option.filter_eq_none_iff] at hnode
          have hsame : node.id = pinned.nodeId := by simpa using hnode node hsome
          exact hsame.symm

theorem decidePinned_spec {request : PlacementRequest} {onlyNode : Option FleetNode}
    {pinned placement : Placement} (hmem : pinned ∈ request.placements)
    (h : decidePinned request onlyNode pinned = .ok placement) :
    Roomy request placement ∧ Unleased request placement.id := by
  rcases decidePinned_ok h with ⟨rfl, -, free, hroom, hfree, hwriter⟩
  exact ⟨roomy_of_withCapacity hmem hroom hfree, hwriter⟩

theorem pickRanked_spec {request : PlacementRequest} {placement : Placement} :
    ∀ {ranked : List (Placement × Nat)} {blockedByWriter full : Bool},
      pickRanked request ranked blockedByWriter full = .ok placement →
      ∃ free, (placement, free) ∈ ranked ∧ 0 < free ∧ Unleased request placement.id := by
  intro ranked
  induction ranked with
  | nil =>
      intro blockedByWriter full h
      cases h
  | cons head rest ih =>
      intro blockedByWriter full h
      rcases head with ⟨candidate, free⟩
      unfold pickRanked at h
      by_cases hwriter : (requiresCheckoutLease request.run request.category &&
          request.writingInFlight.contains candidate.id) = true
      · rw [if_pos hwriter] at h
        rcases ih h with ⟨free', hmem, hrest⟩
        exact ⟨free', List.mem_cons_of_mem _ hmem, hrest⟩
      · rw [if_neg hwriter] at h
        by_cases hfull : free < 1
        · rw [if_pos hfull] at h
          rcases ih h with ⟨free', hmem, hrest⟩
          exact ⟨free', List.mem_cons_of_mem _ hmem, hrest⟩
        · rw [if_neg hfull] at h
          cases h
          exact ⟨free, List.mem_cons_self, by omega, unleased_of_test hwriter⟩

theorem mem_eligible {category : Text} {candidates : List Placement} {placement : Placement}
    (h : placement ∈ eligible category candidates) : placement ∈ candidates := by
  unfold eligible at h
  split at h
  · exact List.mem_of_mem_filter h
  · exact h

/-- Unpinned work goes to a checkout of the workspace, on the machine asked for, that is
    one where the work can be done. -/
theorem decideRanked_ok {env : Environment} {request : PlacementRequest} {wanted : Text}
    {onlyNode : Option FleetNode} {placement : Placement}
    (h : decideRanked env request wanted onlyNode = .ok placement) :
    placement ∈ eligible request.category
        (onMachine onlyNode (workspacePlacements env request wanted)) ∧
      ∃ free, withCapacity request placement = some (placement, free) ∧ 0 < free ∧
        Unleased request placement.id := by
  unfold decideRanked at h
  simp only [] at h
  split at h
  · cases h
  · split at h
    · cases h
    · split at h
      · cases h
      · split at h
        · rename_i picked hpick
          cases h
          rcases pickRanked_spec hpick with ⟨free, hmem, hfree, hwriter⟩
          rw [List.mem_mergeSort, List.mem_filterMap] at hmem
          rcases hmem with ⟨candidate, hcandidate, hroom⟩
          have hself : placement = candidate := (withCapacity_eq_some hroom).1
          rw [← hself] at hcandidate hroom
          exact ⟨hcandidate, free, hroom, hfree, hwriter⟩
        · cases h

theorem decideRanked_spec {env : Environment} {request : PlacementRequest} {wanted : Text}
    {onlyNode : Option FleetNode} {placement : Placement}
    (h : decideRanked env request wanted onlyNode = .ok placement) :
    Roomy request placement ∧ Unleased request placement.id := by
  rcases decideRanked_ok h with ⟨hmem, free, hroom, hfree, hwriter⟩
  have hoffered : placement ∈ request.placements :=
    List.mem_of_mem_filter (mem_onMachine (mem_eligible hmem))
  exact ⟨roomy_of_withCapacity hoffered hroom hfree, hwriter⟩

theorem mem_of_pinnedPlacement {request : PlacementRequest} {pinned : Placement}
    (h : pinnedPlacement request = some pinned) : pinned ∈ request.placements := by
  unfold pinnedPlacement at h
  split at h
  · exact (mem_of_placementById h).1
  · cases h

/-- The workspace a request names, as it is compared; empty where it names none. -/
def wantedWorkspace (env : Environment) (request : PlacementRequest) : Text :=
  env.toLowerCase (env.trim (request.workspace.getD []))

/-- The work a pin holds: a review always, other work where no workspace was named. -/
def heldByPin (env : Environment) (request : PlacementRequest) : Bool :=
  isReviewCategory request.category || wantedWorkspace env request = []

/-- The three ways a placement is decided. -/
theorem decidePlacement_ok {env : Environment} {request : PlacementRequest}
    {placement : Placement} (h : decidePlacement env request = .ok placement) :
    (∃ binding, request.run.workspaceBinding = some binding ∧ request.run.managed = true ∧
        decideManaged env request binding = .ok placement) ∨
      (request.run.managed = false ∧ ∃ onlyNode, namedNode env request = .ok onlyNode ∧
        ((∃ pinned, pinnedPlacement request = some pinned ∧ heldByPin env request = true ∧
            decidePinned request onlyNode pinned = .ok placement) ∨
          ((∀ pinned, pinnedPlacement request = some pinned → heldByPin env request = false) ∧
            decideRanked env request (wantedWorkspace env request) onlyNode =
              .ok placement))) := by
  unfold decidePlacement at h
  split at h
  · rename_i binding hbinding
    exact Or.inl ⟨binding, (Option.filter_eq_some_iff.mp hbinding).1,
      managed_of_filter hbinding, h⟩
  · rename_i hlegacy
    simp only [] at h
    split at h
    · cases h
    · rename_i onlyNode hnode
      refine Or.inr ⟨legacy_of_filter hlegacy, onlyNode, hnode, ?_⟩
      split at h
      · rename_i pinned hpinned
        rw [Option.filter_eq_some_iff] at hpinned
        exact Or.inl ⟨pinned, hpinned.1, hpinned.2, h⟩
      · rename_i hpinned
        rw [Option.filter_eq_none_iff] at hpinned
        refine Or.inr ⟨fun pinned hsome => ?_, h⟩
        exact Bool.eq_false_iff.mpr (hpinned pinned hsome)

/-- Wherever the decision falls, there is room and nobody else is writing. -/
theorem decidePlacement_spec {env : Environment} {request : PlacementRequest}
    {placement : Placement} (h : decidePlacement env request = .ok placement) :
    Roomy request placement ∧
      Unleased request (executionKey request.run placement.id) := by
  rcases decidePlacement_ok h with ⟨binding, -, -, h⟩ | ⟨hlegacy, onlyNode, -, h⟩
  · rcases decideManaged_spec h with ⟨hroomy, hkey⟩
    exact ⟨hroomy, fun _ => hkey⟩
  · rw [executionKey_of_legacy hlegacy]
    rcases h with ⟨pinned, hpinned, -, h⟩ | ⟨-, h⟩
    · exact decidePinned_spec (mem_of_pinnedPlacement hpinned) h
    · exact decideRanked_spec h

/-- What a fresh step would write under: its own checkout in a managed run,
    and the key of the placement otherwise. -/
def freshKey (run : Run) (step : RunStep) (placementId : Text) : Text :=
  match step.executionBinding.filter fun _ => run.managed with
  | some binding => binding.checkoutKey
  | none => executionKey run placementId

theorem chooseNamed_spec {request : PlacementRequest} {step : RunStep} {placementId : Text}
    {placement : Placement} (hcategory : request.category = step.category)
    (h : chooseNamed request step placementId = .ok placement) :
    placement.id = placementId ∧ Roomy request placement ∧
      Unleased request (executionKey request.run placement.id) := by
  unfold chooseNamed at h
  split at h
  · cases h
  · rename_i chosen hchosen
    split at h
    · cases h
    · rename_i found free hroom
      split at h
      · cases h
      · rename_i hwriter
        split at h
        · cases h
        · rename_i hfree
          cases h
          have hmem := mem_of_placementById hchosen
          have hroomy := roomy_of_withCapacity hmem.1 hroom (Nat.not_lt.mp hfree)
          rw [(withCapacity_eq_some hroom).1] at hroomy
          rw [← hcategory] at hwriter
          exact ⟨hmem.2, hroomy, unleased_of_test hwriter⟩

theorem chooseBound_spec {request : PlacementRequest} {step : RunStep}
    {binding : ExecutionBinding} {placement : Placement}
    (hcategory : request.category = step.category)
    (h : chooseBound request step binding = .ok placement) :
    placement.id = binding.sourcePlacementId ∧ Roomy request placement ∧
      Unleased request binding.checkoutKey := by
  unfold chooseBound at h
  split at h
  · cases h
  · rename_i source' free hroom
    split at h
    · cases h
    · rename_i hfree
      split at h
      · cases h
      · rename_i hwriter
        cases h
        rw [Option.bind_eq_some_iff] at hroom
        rcases hroom with ⟨source, hsource, hroom⟩
        have hmem := mem_of_placementById hsource
        have hroomy := roomy_of_withCapacity hmem.1 hroom (Nat.not_lt.mp hfree)
        have hself : placement = source := (withCapacity_eq_some hroom).1
        rw [← hcategory] at hwriter
        exact ⟨by rw [hself]; exact hmem.2, hroomy, unleased_of_test hwriter⟩

/-- A chosen placement has room on a usable Node, and nobody else is writing
    under the key it was tested with. -/
theorem choosePlacement_spec {env : Environment} {request : PlacementRequest} {step : RunStep}
    {placement : Placement} (hcategory : request.category = step.category)
    (h : choosePlacement env request step = .ok placement) :
    Roomy request placement ∧ Unleased request (freshKey request.run step placement.id) := by
  unfold choosePlacement at h
  unfold freshKey
  split at h
  · exact (chooseBound_spec hcategory h).2
  · split at h
    · exact (chooseNamed_spec hcategory h).2
    · exact decidePlacement_spec h

end Orchestrator

end CopilotFleet
