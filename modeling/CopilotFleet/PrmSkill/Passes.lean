import CopilotFleet.PrmSkill.Registry
import Mathlib.Algebra.Order.Floor.Div

/-!
# No Due Job is Starved

A pass lists the jobs that are due and visits only so many of them. What it
did not visit is carried over, and the next pass lists it first, in the order
it had. So nothing is ever put in front of a job that waits, and each pass that
ends takes away at least as many jobs in front of it as it visits.

The bound is on the position of the job in the list of the pass that is
running, or in what is carried over where none is: with every pass that ends it
is smaller by `k` at least (`Waits`). Released jobs and jobs that are not due
any more leave the list, which can only help.

## Main definitions

* `Watch`: A store, with what became of one job since a pass listed it.
* `Served`: Passes visit the first jobs of their lists, and the job stays due.
* `Waits`: The job was visited, or its position is within the bound.

## Theorems

* `place_filter`: What is left of a list comes no later in it.
* `watch_waits`: Every command keeps the bound.
* `visited_within`: A job is visited within as many passes as are needed to reach it.
-/

namespace CopilotFleet

namespace PrmSkill

open Utf16

/-! ### Positions -/

section Positions

variable {α : Type*} (p : α → Bool) {a : α} {xs : List α} {place : Nat}

/-- What is kept of a list comes no later in what is kept. -/
theorem place_filter (hplace : xs[place]? = some a) (ha : p a = true) :
    ∃ earlier ≤ place, (xs.filter p)[earlier]? = some a := by
  rcases List.getElem?_eq_some_iff.mp hplace with ⟨hlt, hget⟩
  refine ⟨((xs.take place).filter p).length, ?_, ?_⟩
  · refine Nat.le_trans (List.length_filter_le p _) ?_
    rw [List.length_take]
    exact Nat.min_le_left _ _
  · have hsplit : xs = xs.take place ++ a :: xs.drop (place + 1) := by
      rw [← hget, List.getElem_cons_drop, List.take_append_drop]
    have hfilter : xs.filter p =
        (xs.take place).filter p ++ a :: (xs.drop (place + 1)).filter p := by
      conv => lhs; rw [hsplit]
      rw [List.filter_append, List.filter_cons_of_pos ha]
    rw [hfilter, List.getElem?_append_right (Nat.le_refl _), Nat.sub_self]
    rfl

/-- And earlier by as many as were there before it and are not kept. -/
theorem place_filter_take {k : Nat} (hplace : xs[place]? = some a) (ha : p a = true)
    (hgone : ∀ x ∈ xs.take k, p x = false) :
    ∃ earlier, earlier + k ≤ place ∧ (xs.filter p)[earlier]? = some a := by
  by_cases hk : k ≤ place
  · have hrest : (xs.drop k)[place - k]? = some a := by
      rw [List.getElem?_drop, Nat.add_sub_cancel' hk]
      exact hplace
    rcases place_filter p hrest ha with ⟨earlier, hearlier, hget⟩
    refine ⟨earlier, by omega, ?_⟩
    conv => lhs; rw [← List.take_append_drop k xs]
    rw [List.filter_append, List.filter_eq_nil_iff.mpr fun x hx => by simp [hgone x hx],
      List.nil_append]
    exact hget
  · -- An element that is kept is not among the first ones.
    have hmem : a ∈ xs.take k := by
      refine List.mem_of_getElem? (i := place) ?_
      rw [List.getElem?_take, if_pos (by omega)]
      exact hplace
    rw [hgone a hmem] at ha
    cases ha

end Positions

/-! ### Waiting -/

/-- A store, and what became of a job since a pass listed it. -/
structure Watch where
  store : Store
  /-- How many passes have ended. -/
  ended : Nat := 0
  visited : Bool := false

/-- The running pass has visited the job. -/
def visits (jobId : Text) (store : Store) : Bool :=
  store.activePass.any fun pass => pass.visited.contains jobId

/-- A pass that was running is not running any more. -/
def ends (store next : Store) : Bool := store.activePass.isSome && next.activePass.isNone

variable (platform : Platform) (jobId : Text)

/-- One command, with what it does for the job that waits. -/
def watch (w : Watch) (command : Command × Choice) : Watch :=
  let next := transact platform w.store command
  { store := next
    ended := if ends w.store next then w.ended + 1 else w.ended
    visited := w.visited || visits jobId next }

def Command.begins : Command → Bool
  | .beginPass => true
  | _ => false

/-- The job is there and not released, and due where a pass begins. -/
def waiting (store : Store) (command : Command × Choice) : Bool :=
  (store.jobs.get jobId).any fun job =>
    !job.released && (!command.1.begins || isDue command.2 job)

/-- A pass that ends has visited the first `k` jobs of its list, and the job
    waits as long as it is not visited. -/
def Served (k : Nat) (w : Watch) (command : Command × Choice) : Prop :=
  (ends w.store (transact platform w.store command) = true →
    w.store.activePass.all fun pass => (pass.due.take k).all fun id => pass.visited.contains id) ∧
  ((watch platform jobId w command).visited = false →
    waiting jobId (transact platform w.store command) command)

instance (k : Nat) (w : Watch) (command : Command × Choice) :
    Decidable (Served platform jobId k w command) :=
  inferInstanceAs (Decidable ((_ → _) ∧ (_ → _)))

/-- The job is at a position of the list it waits in. -/
def Listed (store : Store) (place : Nat) : Prop :=
  match store.activePass with
  | none => store.carried[place]? = some jobId
  | some pass => pass.due[place]? = some jobId

/-- The job was visited, or with every pass that ended it has come nearer by `k`. -/
def Waits (k bound : Nat) (w : Watch) : Prop :=
  w.visited = true ∨
    (visits jobId w.store = false ∧
      ∃ place, place + w.ended * k ≤ bound ∧ Listed jobId w.store place)

variable {platform jobId} {choice : Choice} {store next : Store} {passId : Text}

/-! ### What a command does to the lists -/

/-- What a command does to the list of the running pass and to what is carried over. -/
inductive PassStep (command : Command × Choice) (store next : Store) : Prop where
  | same (hdue : next.activePass.map Pass.due = store.activePass.map Pass.due)
      (hcarried : next.carried = store.carried)
  | released (id : Text) (job : Job) (hget : next.jobs.get id = some job)
      (hreleased : job.released = true) (hpass : next.activePass = store.activePass)
      (hcarried : next.carried = store.carried.filter fun other => other ≠ id)
  | begun (pass : Pass) (rest : List Text) (hbegins : command.1.begins = true)
      (hnone : store.activePass = none) (hsome : next.activePass = some pass)
      (hjobs : next.jobs = store.jobs)
      (hdue : pass.due = (store.carried.filter fun id =>
        (store.jobs.values.filter (isDue command.2)).any fun job => job.jobId = id) ++ rest)
  | ended (pass : Pass) (kept : Text → Bool) (hsome : store.activePass = some pass)
      (hnone : next.activePass = none)
      (hcarried : next.carried = pass.due.filter fun id => !pass.visited.contains id && kept id)
      (hkept : ∀ id job, next.jobs.get id = some job → job.released = false → kept id = true)

variable {command : Command × Choice}

theorem SamePass.passStep (h : SamePass store next) : PassStep command store next :=
  .same (congrArg _ h.1) h.2

theorem reserveVisit_passStep {requests : Option Nat}
    (hnext : reserveVisit choice passId jobId requests store = .ok next) :
    PassStep command store next := by
  unfold reserveVisit at hnext
  rcases bind_ok hnext with ⟨pass, hpass, hnext⟩
  rcases bind_ok hnext with ⟨⟨key, job⟩, _, hnext⟩
  rcases unless_ok hnext with ⟨_, hnext⟩
  rcases unless_ok hnext with ⟨_, hnext⟩
  rcases unless_ok hnext with ⟨_, hnext⟩
  cases hnext
  refine .same ?_ rfl
  rw [requirePass_ok hpass]
  rfl

theorem recordObservation_passStep {reserved : Nat} {result : ProviderResult}
    (hnext : recordObservation platform choice passId jobId reserved result store = .ok next) :
    PassStep command store next := by
  unfold recordObservation at hnext
  rcases bind_ok hnext with ⟨pass, hpass, hnext⟩
  rcases bind_ok hnext with ⟨⟨key, job⟩, _, hnext⟩
  cases hnext
  refine .same ?_ rfl
  rw [requirePass_ok hpass]
  rfl

theorem releaseJob_passStep (h : store.Registered platform)
    (hnext : releaseJob jobId store = .ok next) : PassStep command store next := by
  unfold releaseJob at hnext
  rcases bind_ok hnext with ⟨⟨key, job⟩, hjob, hnext⟩
  rcases unless_ok hnext with ⟨_, hnext⟩
  cases hnext
  rcases getJob_ok hjob with ⟨rfl, hget⟩
  refine .released key { job with released := true } (Table.get_set_self _ _ _) rfl rfl ?_
  rw [← h.keyed _ _ hget]

theorem beginPass_passStep (hbegins : command.1.begins = true)
    (hnext : beginPass platform command.2 store = .ok next) : PassStep command store next := by
  unfold beginPass at hnext
  split at hnext
  · cases hnext
  · next hnone =>
    cases hnext
    exact .begun _ _ hbegins hnone rfl rfl rfl

theorem endPass_passStep (hnext : endPass choice passId store = .ok next) :
    PassStep command store next := by
  unfold endPass at hnext
  rcases bind_ok hnext with ⟨pass, hpass, hnext⟩
  cases hnext
  refine .ended pass (fun id => (store.jobs.get id).any fun job => !job.released)
    (requirePass_ok hpass) rfl rfl ?_
  intro id job hget hreleased
  have hget : store.jobs.get id = some job := hget
  rw [hget, Option.any_some, hreleased]
  rfl

theorem recoverPass_passStep {confirmStopped : Text}
    (hnext : recoverPass passId confirmStopped store = .ok next) :
    PassStep command store next := by
  unfold recoverPass at hnext
  split at hnext
  · cases hnext
  split at hnext
  · cases hnext
  next pass hsome =>
  split at hnext
  · cases hnext
  · cases hnext
    refine .ended pass (fun _ => true) hsome rfl ?_ fun _ _ _ _ => rfl
    simp only [Bool.and_true]

theorem mutate_passStep (h : store.Registered platform)
    (hnext : mutate platform command.2 command.1 store = .ok next) :
    PassStep command store next := by
  rcases command with ⟨command, choice⟩
  cases command with
  | addJob args => exact (addJob_pass hnext).passStep
  | beginPass => exact beginPass_passStep rfl hnext
  | reserveVisit passId jobId requests => exact reserveVisit_passStep hnext
  | recordObservation passId jobId reserved result => exact recordObservation_passStep hnext
  | triageJob passId jobId decisions => exact (triageJob_pass hnext).passStep
  | planBatch passId jobId input => exact (planBatch_pass hnext).passStep
  | reportBatch batchId report => exact (reportBatch_pass hnext).passStep
  | cancelBatch batchId => exact (cancelBatch_pass hnext).passStep
  | holdJob jobId design reason sourceIds => exact (holdJob_pass hnext).passStep
  | pauseJob jobId reason => exact (pauseJob_pass hnext).passStep
  | resumeJob jobId clear confirmHuman => exact (resumeJob_pass hnext).passStep
  | releaseJob jobId => exact releaseJob_passStep h hnext
  | endPass passId => exact endPass_passStep hnext
  | recoverPass passId confirmStopped => exact recoverPass_passStep hnext

theorem transact_passStep (h : store.Registered platform) :
    PassStep command store (transact platform store command) := by
  unfold transact
  cases hnext : mutate platform command.2 command.1 store with
  | error code => exact .same rfl rfl
  | ok next =>
      by_cases hsaved : command.2.saved = true
      · simp only [hsaved, if_true]
        exact mutate_passStep h hnext
      · simp only [hsaved]
        exact .same rfl rfl

/-! ### The bound -/

theorem listed_some {pass : Pass} {place : Nat} (h : store.activePass = some pass) :
    Listed jobId store place ↔ pass.due[place]? = some jobId := by
  unfold Listed
  rw [h]

theorem listed_none {place : Nat} (h : store.activePass = none) :
    Listed jobId store place ↔ store.carried[place]? = some jobId := by
  unfold Listed
  rw [h]

/-- No pass ends where the list of the running one stays. -/
theorem ends_same (h : next.activePass.map Pass.due = store.activePass.map Pass.due) :
    ends store next = false := by
  unfold ends
  rw [← Option.isSome_map (f := Pass.due), ← h, Option.isSome_map]
  cases next.activePass <;> rfl

theorem waiting_ok (h : waiting jobId store command = true) :
    ∃ job, store.jobs.get jobId = some job ∧ job.released = false ∧
      (command.1.begins = true → isDue command.2 job = true) := by
  unfold waiting at h
  rcases (Option.any_eq_true _ _).mp h with ⟨job, hget, hjob⟩
  rw [Bool.and_eq_true, Bool.not_eq_true'] at hjob
  refine ⟨job, hget, hjob.1, fun hbegins => ?_⟩
  simpa [hbegins] using hjob.2

/-- A job that waits is at a position of the next list that is not later, and
    earlier by `k` where a pass ended. -/
theorem PassStep.listed {k place : Nat} (hstep : PassStep command store next)
    (h : next.Registered platform) (hwaiting : waiting jobId next command = true)
    (hpasses : ends store next = true →
      store.activePass.all fun pass => (pass.due.take k).all fun id => pass.visited.contains id)
    (hunvisited : visits jobId store = false) (hlisted : Listed jobId store place) :
    ∃ earlier, earlier + (if ends store next then k else 0) ≤ place ∧
      Listed jobId next earlier := by
  rcases waiting_ok hwaiting with ⟨job, hget, hreleased, hdueThen⟩
  cases hstep with
  -- The list stays, so the place does.
  | same hdue hcarried =>
      refine ⟨place, ?_, ?_⟩
      · rw [ends_same hdue]
        exact Nat.le_refl _
      · unfold Listed at hlisted ⊢
        rw [hcarried]
        cases hactive : store.activePass with
        | none =>
            rw [hactive, Option.map_none, Option.map_eq_none_iff] at hdue
            rw [hdue]
            rw [hactive] at hlisted
            exact hlisted
        | some pass =>
            rw [hactive, Option.map_some, Option.map_eq_some_iff] at hdue
            rcases hdue with ⟨pass', hactive', hdue⟩
            rw [hactive']
            rw [hactive] at hlisted
            change pass'.due[place]? = _
            rw [hdue]
            exact hlisted
  | released id job' hget' hreleased' hpass hcarried =>
      have hne : jobId ≠ id := by
        rintro rfl
        rw [hget] at hget'
        cases hget'
        rw [hreleased] at hreleased'
        cases hreleased'
      rw [ends_same (congrArg _ hpass)]
      cases hactive : store.activePass with
      | none =>
          rw [listed_none hactive] at hlisted
          -- Another job leaves the list that is carried over.
          rcases place_filter (fun other => other ≠ id) hlisted (decide_eq_true hne) with
            ⟨earlier, hearlier, hfound⟩
          refine ⟨earlier, hearlier, ?_⟩
          rw [listed_none (hpass.trans hactive), hcarried]
          exact hfound
      | some pass =>
          refine ⟨place, Nat.le_refl _, ?_⟩
          rw [listed_some hactive] at hlisted
          rw [listed_some (hpass.trans hactive)]
          exact hlisted
  | begun pass rest hbegins hnone hsome hjobs hdue =>
      have hends : ends store next = false := by
        unfold ends
        rw [hnone]
        rfl
      rw [hends]
      rw [listed_none hnone] at hlisted
      have hstays : ((store.jobs.values.filter (isDue command.2)).any
          fun job => job.jobId = jobId) = true := by
        rw [hjobs] at hget
        refine List.any_eq_true.mpr ⟨job, List.mem_filter.mpr ⟨?_, hdueThen hbegins⟩, ?_⟩
        · exact (store.jobs.mem_values_iff job).mpr ⟨jobId, hget⟩
        · exact decide_eq_true (h.keyed jobId job (by rw [hjobs]; exact hget))
      -- What is carried over comes first in a new pass, less what is not due any more.
      rcases place_filter (fun id => (store.jobs.values.filter (isDue command.2)).any
          fun job => job.jobId = id) hlisted hstays with ⟨earlier, hearlier, hfound⟩
      refine ⟨earlier, hearlier, ?_⟩
      rw [listed_some hsome, hdue]
      exact List.getElem?_append_left (List.getElem?_eq_some_iff.mp hfound).1 ▸ hfound
  | ended pass kept hsome hnone hcarried hkept =>
      have hends : ends store next = true := by
        unfold ends
        rw [hsome, hnone]
        rfl
      have hfirst := hpasses hends
      rw [hsome, Option.all_some, List.all_eq_true] at hfirst
      rw [visits, hsome, Option.any_some] at hunvisited
      rw [hends, if_pos rfl]
      rw [listed_some hsome] at hlisted
      have hstays : (!pass.visited.contains jobId && kept jobId) = true := by
        rw [hunvisited, hkept jobId job hget hreleased]
        rfl
      -- The first `k` were visited, and are not carried over.
      rcases place_filter_take (fun id => !pass.visited.contains id && kept id) hlisted hstays
        (fun id hid => by rw [hfirst id hid]; rfl) with ⟨earlier, hearlier, hfound⟩
      refine ⟨earlier, hearlier, ?_⟩
      rw [listed_none hnone, hcarried]
      exact hfound

/-- Every command keeps the bound. -/
theorem watch_waits {k bound : Nat} (w : Watch) (command : Command × Choice)
    (h : w.store.Registered platform ∧ Waits jobId k bound w)
    (hserved : Served platform jobId k w command) :
    (watch platform jobId w command).store.Registered platform ∧
      Waits jobId k bound (watch platform jobId w command) := by
  have hnext := transact_registered command h.1
  refine ⟨hnext, ?_⟩
  by_cases hvisited : (watch platform jobId w command).visited = true
  · exact .inl hvisited
  · rw [Bool.not_eq_true] at hvisited
    have hflags : w.visited = false ∧ visits jobId (transact platform w.store command) = false :=
      Bool.or_eq_false_iff.mp hvisited
    rcases h.2 with hbefore | ⟨hunvisited, place, hplace, hlisted⟩
    · rw [hflags.1] at hbefore
      cases hbefore
    · rcases (transact_passStep h.1).listed hnext (hserved.2 hvisited) hserved.1 hunvisited hlisted
        with ⟨earlier, hearlier, hfound⟩
      refine .inr ⟨hflags.2, earlier, ?_, hfound⟩
      unfold watch
      dsimp only
      split at hearlier
      · next hends =>
        rw [if_pos hends, Nat.add_mul, Nat.one_mul]
        omega
      · next hends =>
        rw [if_neg hends]
        omega

/-- In any run of commands from the pass that lists it on, as long as every pass that ends has
    visited the first `k` jobs of its list and the job stays unreleased, and active and due
    where a pass begins: once as many passes have ended as it takes to reach the position of the
    job by `k` at a time, the job has been visited. -/
theorem visited_within (platform : Platform) (before : List (Command × Choice)) (choice : Choice)
    {begun : Store} {p : Nat} {jobId : Text}
    (hbegin : beginPass platform choice (Run.final (transact platform) {} before) = .ok begun)
    (hlisted : (begun.activePass.bind fun pass => pass.due[p]?) = some jobId) {k : Nat}
    (hk : 1 ≤ k) (later : List (Command × Choice))
    (hserved : Run.Admits (watch platform jobId) (Served platform jobId k) { store := begun } later)
    (hended : (p + 1) ⌈/⌉ k ≤ (Run.final (watch platform jobId) { store := begun } later).ended) :
    (Run.final (watch platform jobId) { store := begun } later).visited = true := by
  have hregistered : (Run.final (transact platform) {} before).Registered platform :=
    Run.invariant (transact platform) (fun store => store.Registered platform)
      (fun _ command h => transact_registered command h) before {} registered_empty
  have hunvisited : visits jobId begun = false := by
    unfold beginPass at hbegin
    split at hbegin
    · cases hbegin
    · cases hbegin
      rfl
  rcases Option.bind_eq_some_iff.mp hlisted with ⟨pass, hpass, hlisted⟩
  have hwaits := Run.invariant_of_admits (watch platform jobId) (Served platform jobId k)
    (fun w => w.store.Registered platform ∧ Waits jobId k p w)
    (fun w command h hok => watch_waits w command h hok) later { store := begun }
    ⟨hregistered.of_jobs (beginPass_jobs hbegin),
      .inr ⟨hunvisited, p, by rw [Nat.zero_mul, Nat.add_zero], (listed_some hpass).mpr hlisted⟩⟩
    hserved
  rcases hwaits.2 with hvisited | ⟨_, place, hplace, _⟩
  · exact hvisited
  · rw [ceilDiv_le_iff_le_mul (by omega)] at hended
    rw [Nat.mul_comm] at hended
    omega

/-! ### Two jobs, one visit a pass -/

def observing (url : Text) : Command := .addJob {
  url
  mode := .observe
  checkout := none
  resolveThreads := false
  interval := 900000
  budgets := {} }

/-- The first job is carried over from a pass that visited nothing. -/
def watchingTwo : List (Command × Choice) := [
  (observing (ofString "pr-7"), atMinute 0),
  (.beginPass, atMinute 1),
  (observing (ofString "pr-8"), atMinute 1),
  (.recoverPass (ofString "pass-1") (ofString "stopped"), atMinute 1)]

/-- The store once a pass has listed both. -/
def bothListed : Store :=
  (beginPass localPlatform (atMinute 1)
    (Run.final (transact localPlatform) {} watchingTwo)).toOption.getD {}

/-- The first pass is retired after its one visit, and the second comes to the other job. -/
def oneVisitEach : List (Command × Choice) := [
  (.reserveVisit (ofString "pass-1") (ofString "pr-7") none, atMinute 1),
  (.recoverPass (ofString "pass-1") (ofString "stopped"), atMinute 2),
  (.beginPass, atMinute 3),
  (.reserveVisit (ofString "pass-1") (ofString "pr-8") none, atMinute 3),
  (.endPass (ofString "pass-1"), atMinute 4)]

theorem visited_within_two :
    (bothListed.activePass.bind fun pass => pass.due[1]?) = some (ofString "pr-8") ∧
      (Run.final (watch localPlatform (ofString "pr-8")) { store := bothListed }
        oneVisitEach).visited = true := by
  have hok : (beginPass localPlatform (atMinute 1)
      (Run.final (transact localPlatform) {} watchingTwo)).isOk = true := by decide +kernel
  have hbegin : beginPass localPlatform (atMinute 1)
      (Run.final (transact localPlatform) {} watchingTwo) = .ok bothListed := by
    unfold bothListed
    cases hbegun : beginPass localPlatform (atMinute 1)
        (Run.final (transact localPlatform) {} watchingTwo) with
    | error code =>
        rw [hbegun] at hok
        cases hok
    | ok begun => rfl
  have hlisted : (bothListed.activePass.bind fun pass => pass.due[1]?) =
      some (ofString "pr-8") := by decide +kernel
  refine ⟨hlisted, visited_within localPlatform watchingTwo (atMinute 1) hbegin hlisted
    (Nat.le_refl 1) oneVisitEach ?_ ?_⟩
  · decide +kernel
  · rw [ceilDiv_le_iff_le_mul (by decide)]
    decide +kernel

end PrmSkill

end CopilotFleet
