import CopilotFleet.Orchestrator.Placement

/-!
# What a Placement Owes the Work

A placement that was decided has room, and it is where the work asked to be.
Whoever names a machine gets that machine, a step that names a checkout keeps
it, and nothing is written or reviewed in Chats unless the run itself lives
there.

Work of a pinned run stays with its changes. A review does in any case, and so
does everything that names no workspace; to name one is to say that the work is
unrelated, so it goes to a checkout of that workspace, writing work too. A run
with a managed binding has no such pin. What is pinned there is the base, and a
step may go wherever a recent and complete copy of it was verified.

## Main definitions

* `RespectsWork`: What holds of every placement that is decided.

## Theorems

* `decidePlacement_respects`: A decided placement respects the work.
* `placement_respects_work`: So does one chosen for a step.
-/

namespace CopilotFleet

open Utf16

namespace Orchestrator

/-- What a placement decided for a request owes the work of it. -/
structure RespectsWork (env : Environment) (request : PlacementRequest)
    (placement : Placement) : Prop where
  /-- The Node is online, may take the run, and has a slot left for work of this kind. -/
  roomy : Roomy request placement
  /-- A machine that was named is the machine. -/
  machine : ∀ name, request.node = some name → env.trim name ≠ [] →
    ∃ node, resolveNode env name request.nodes = .ok node ∧ placement.nodeId = node.id
  /-- Chats takes writing or a review only as the place of the run itself. -/
  chats : isWritingCategory request.category || isReviewCategory request.category →
    isChatsWorkspace placement.workspaceId →
      if request.run.managed then isChatsWorkspace request.run.workspaceId
      else pinnedPlacement request = some placement
  /-- The pin holds a review, and whatever names no workspace. -/
  pin : request.run.managed = false → ∀ pinned, pinnedPlacement request = some pinned →
    heldByPin env request → placement = pinned
  /-- Work no pin holds goes to the workspace it names, or to the run's own. -/
  workspace : request.run.managed = false →
    (∀ pinned, pinnedPlacement request = some pinned → heldByPin env request = false) →
      placement ∈ workspacePlacements env request (wantedWorkspace env request)
  /-- A managed run stays on its own source or a verified copy of its base. -/
  source : request.run.managed = true → ∃ binding,
    request.run.workspaceBinding = some binding ∧
      placement ∈ managedSources env request binding ∧ portable request binding placement

/-- The machine a request names is the one its candidates were filtered to. -/
theorem named_machine {env : Environment} {request : PlacementRequest}
    {onlyNode : Option FleetNode} (hnode : namedNode env request = .ok onlyNode) {name : Text}
    (hname : request.node = some name) (hblank : env.trim name ≠ []) :
    ∃ node, onlyNode = some node ∧ resolveNode env name request.nodes = .ok node := by
  unfold namedNode at hnode
  rw [hname, Option.filter_some, if_pos (by simpa using hblank)] at hnode
  simp only [] at hnode
  cases hresolve : resolveNode env name request.nodes with
  | error reason =>
      rw [hresolve] at hnode
      cases hnode
  | ok node =>
      rw [hresolve] at hnode
      cases hnode
      exact ⟨node, rfl, rfl⟩

theorem machine_of_mem {onlyNode : Option FleetNode} {node : FleetNode}
    {placements : List Placement} {placement : Placement}
    (h : placement ∈ onMachine onlyNode placements) (honly : onlyNode = some node) :
    placement.nodeId = node.id := by
  subst honly
  simpa using (List.mem_filter.mp h).2

/-- Work that needs a checkout is kept out of Chats. -/
theorem not_chats_of_eligible {category : Text} {candidates : List Placement}
    {placement : Placement} (h : placement ∈ eligible category candidates)
    (hwork : isWritingCategory category || isReviewCategory category) :
    isChatsWorkspace placement.workspaceId = false := by
  rw [eligible, if_pos hwork] at h
  simpa using (List.mem_filter.mp h).2

theorem managed_respects {env : Environment} {request : PlacementRequest}
    {binding : RunWorkspaceBinding} {placement : Placement}
    (hbinding : request.run.workspaceBinding = some binding)
    (hmanaged : request.run.managed = true)
    (h : decideManaged env request binding = .ok placement) :
    RespectsWork env request placement := by
  rcases decideManaged_ok h with ⟨onlyNode, free, hnode, hmem, hportable, -, -, -⟩
  have hsource := mem_onMachine hmem
  have hhome : placement.workspaceId = request.run.workspaceId := by
    have htest := (List.mem_filter.mp hsource).2
    simp only [Bool.and_eq_true, decide_eq_true_eq] at htest
    exact htest.1
  refine ⟨(decideManaged_spec h).1, ?_, ?_, ?_, ?_, ?_⟩
  · intro name hname hblank
    rcases named_machine hnode hname hblank with ⟨node, honly, hresolve⟩
    exact ⟨node, hresolve, machine_of_mem hmem honly⟩
  · intro _ hchats
    rw [if_pos hmanaged, ← hhome]
    exact hchats
  · intro hlegacy
    rw [hmanaged] at hlegacy
    cases hlegacy
  · intro hlegacy
    rw [hmanaged] at hlegacy
    cases hlegacy
  · exact fun _ => ⟨binding, hbinding, hsource, hportable⟩

/-- Where a legacy run sends its work, whichever of the two ways it was decided. -/
theorem legacy_respects {env : Environment} {request : PlacementRequest}
    {onlyNode : Option FleetNode} {placement : Placement}
    (hlegacy : request.run.managed = false) (hnode : namedNode env request = .ok onlyNode)
    (hroomy : Roomy request placement)
    (hmachine : ∀ node, onlyNode = some node → placement.nodeId = node.id)
    (hchats : isWritingCategory request.category || isReviewCategory request.category →
      isChatsWorkspace placement.workspaceId → pinnedPlacement request = some placement)
    (hpin : ∀ pinned, pinnedPlacement request = some pinned → heldByPin env request →
      placement = pinned)
    (hworkspace : (∀ pinned, pinnedPlacement request = some pinned →
        heldByPin env request = false) →
      placement ∈ workspacePlacements env request (wantedWorkspace env request)) :
    RespectsWork env request placement := by
  refine ⟨hroomy, ?_, ?_, fun _ => hpin, fun _ => hworkspace, ?_⟩
  · intro name hname hblank
    rcases named_machine hnode hname hblank with ⟨node, honly, hresolve⟩
    exact ⟨node, hresolve, hmachine node honly⟩
  · intro hwork hhere
    rw [hlegacy]
    exact hchats hwork hhere
  · intro hmanaged
    rw [hlegacy] at hmanaged
    cases hmanaged

theorem decidePlacement_respects {env : Environment} {request : PlacementRequest}
    {placement : Placement} (h : decidePlacement env request = .ok placement) :
    RespectsWork env request placement := by
  have hroomy := (decidePlacement_spec h).1
  rcases decidePlacement_ok h with ⟨binding, hbinding, hmanaged, h⟩ | ⟨hlegacy, onlyNode, hnode, h⟩
  · exact managed_respects hbinding hmanaged h
  · rcases h with ⟨pinned, hpinned, hheld, h⟩ | ⟨hfree, h⟩
    · -- The pin decides, so the machine asked for can only be its own.
      rcases decidePinned_ok h with ⟨rfl, hmachine, -⟩
      refine legacy_respects hlegacy hnode hroomy hmachine (fun _ _ => hpinned) ?_ ?_
      · intro other hother _
        exact Option.some.inj (hpinned.symm.trans hother)
      · intro hnone
        rw [hnone placement hpinned] at hheld
        cases hheld
    · rcases decideRanked_ok h with ⟨hmem, -⟩
      have hcandidate := mem_eligible hmem
      refine legacy_respects hlegacy hnode hroomy (fun node => machine_of_mem hcandidate) ?_ ?_ ?_
      · intro hwork hchats
        rw [not_chats_of_eligible hmem hwork] at hchats
        cases hchats
      · intro pinned hpinned hheld
        rw [hfree pinned hpinned] at hheld
        cases hheld
      · exact fun _ => mem_onMachine hcandidate

/-- The request a step makes of the planner: its category, and no workspace. -/
def asks (request : PlacementRequest) (step : RunStep) : PlacementRequest :=
  { request with category := step.category, workspace := none }

/-- Every placement that is decided respects the work, and one chosen for a step is the
    checkout the step is bound to, or the one it names, or one decided like any other. -/
theorem placement_respects_work :
    (∀ (env : Environment) (request : PlacementRequest) (placement : Placement),
      decidePlacement env request = .ok placement → RespectsWork env request placement) ∧
    (∀ (env : Environment) (request : PlacementRequest) (step : RunStep)
      (placement : Placement),
      choosePlacement env (asks request step) step = .ok placement →
        Roomy (asks request step) placement ∧
        match step.executionBinding.filter fun _ => request.run.managed with
        | some binding => placement.id = binding.sourcePlacementId
        | none =>
            if step.placementId ≠ [] then placement.id = step.placementId
            else RespectsWork env (asks request step) placement) := by
  refine ⟨fun env request placement => decidePlacement_respects, ?_⟩
  intro env request step placement h
  refine ⟨(choosePlacement_spec rfl h).1, ?_⟩
  unfold choosePlacement at h
  change (match step.executionBinding.filter fun _ => request.run.managed with
    | some binding => chooseBound (asks request step) step binding
    | none => _) = _ at h
  cases hbound : step.executionBinding.filter fun _ => request.run.managed with
  | some binding =>
      rw [hbound] at h
      exact (chooseBound_spec rfl h).1
  | none =>
      rw [hbound] at h
      simp only [] at h ⊢
      by_cases hnamed : step.placementId ≠ []
      · rw [if_pos hnamed] at h ⊢
        exact (chooseNamed_spec rfl h).1
      · rw [if_neg hnamed] at h ⊢
        exact decidePlacement_respects h

/-! ### Writing work that leaves its pin -/

/-- A platform whose texts are already in their compared form. -/
def plainEnvironment : Environment where
  now := 0
  parseDate := fun _ => none
  trim := id
  toLowerCase := id
  localeCompare := fun _ _ => .eq

/-- The checkout the run's changes are in. -/
def homeCheckout : Placement :=
  { id := [1], workspaceId := [1], nodeId := [1], localPath := [1], workspaceName := some [1] }

/-- A checkout of another workspace, on the same machine. -/
def otherCheckout : Placement :=
  { id := [2], workspaceId := [2], nodeId := [1], localPath := [2], workspaceName := some [2] }

/-- A run pinned to its home, asked for work of `category` in `workspace`. -/
def pinnedRequest (category : Text) (workspace : Option Text) : PlacementRequest where
  run :=
    { id := [1]
      workspaceId := [1]
      state := .running
      placementId := [1]
      policy := { yolo := false } }
  category := category
  workspace := workspace
  hasWritingStep := true
  placements := [homeCheckout, otherCheckout]
  nodes := [{ id := [1], name := [1], capabilities := [], maxSessions := 4, online := true }]
  reservedFor := fun _ _ => 0
  writingInFlight := []

/-- A machine's place for talk, which has no repository. -/
def chatsPlacement : Placement :=
  { id := [3], workspaceId := chatsWorkspaceId, nodeId := [1], localPath := [3] }

/-- A writing step that already names a checkout. -/
def namingStep (placementId : Text) : RunStep :=
  { id := [3], stepKey := [3], prompt := [3], category := ofString "test",
    state := .pending, placementId, updatedAt := [] }

/-- The run with Chats among its places. -/
def withChats : PlacementRequest :=
  { pinnedRequest [] none with placements := [homeCheckout, otherCheckout, chatsPlacement] }

/-- Writing goes where its workspace is, or where the step was sent before: away from the pin,
    and into Chats too. -/
theorem writing_leaves_pin :
    isWritingCategory (ofString "test") = true ∧
    pinnedPlacement (pinnedRequest (ofString "test") (some [2])) = some homeCheckout ∧
    decidePlacement plainEnvironment (pinnedRequest (ofString "test") (some [2])) =
      .ok otherCheckout ∧
    pinnedPlacement withChats = some homeCheckout ∧
    choosePlacement plainEnvironment (asks withChats (namingStep [2])) (namingStep [2]) =
      .ok otherCheckout ∧
    choosePlacement plainEnvironment (asks withChats (namingStep [3])) (namingStep [3]) =
      .ok chatsPlacement := by
  decide +kernel

theorem review_keeps_pin :
    RespectsWork plainEnvironment (pinnedRequest (ofString "review") (some [2])) homeCheckout ∧
    homeCheckout.id = ([1] : Text) := by
  refine ⟨placement_respects_work.1 _ _ _ (by decide +kernel), ?_⟩
  have h := placement_respects_work.2 plainEnvironment (pinnedRequest [] none) (namingStep [1])
    homeCheckout (by decide +kernel)
  simpa [namingStep] using h.2

end Orchestrator

end CopilotFleet
